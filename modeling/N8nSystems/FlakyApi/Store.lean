import Mathlib.Data.Rat.Defs
import N8nSystems.Lib.GoMap
import N8nSystems.Lib.GoText

/-! The item store of the flaky API (`store.go`). -/

namespace N8nSystems.FlakyApi

open Lib Lib.Go

/-- A finite `float64`; zero keeps its sign. -/
structure Number where
  negative : Bool
  magnitude : Rat
  nonneg : 0 ≤ magnitude
  deriving DecidableEq

/-- A value that `encoding/json` decodes into an `any`. -/
inductive Value where
  | null
  | bool (value : Bool)
  | number (value : Number)
  | string (value : Bytes)
  | array (items : List Value)
  | object (fields : List (Bytes × Value))

/-- A `map[string]any`. -/
abbrev Item := GoMap Bytes Value

/-- What the handlers take from Go and its library: how a `float64` prints, its
conversion to `int64` (which Go leaves open outside the range), the order that a
map and an unstable sort leave open, by a number that is drawn, and the texts of
the status codes. -/
structure Runtime where
  formatFloat : Number → Bytes
  toInt64 : Number → Int
  toInt64_eq : ∀ number, number.magnitude < 2 ^ 63 → toInt64 number =
    if number.negative then -number.magnitude.floor else number.magnitude.floor
  shuffle : Rat → List Item → List Item
  shuffle_perm : ∀ draw items, (shuffle draw items).Perm items
  statusText : Int → Bytes

/-- A runtime for items without numbers. -/
def plainRuntime : Runtime where
  formatFloat _ := []
  toInt64 number := if number.negative then -number.magnitude.floor else number.magnitude.floor
  toInt64_eq _ _ := rfl
  shuffle _ items := items
  shuffle_perm _ items := .refl items
  statusText _ := []

variable (runtime : Runtime)

def joined : List Bytes → Bytes
  | [] => []
  | [text] => text
  | text :: rest => text ++ lit " " ++ joined rest

mutual

/-- `fmt.Sprint(value)`; a map prints in the order of its keys. -/
def sprint : Value → Bytes
  | .null => lit "<nil>"
  | .bool value => lit (if value then "true" else "false")
  | .number value => runtime.formatFloat value
  | .string value => value
  | .array items => lit "[" ++ joined (sprintItems items) ++ lit "]"
  | .object fields => lit "map[" ++ joined (((sprintFields fields).mergeSort
      fun one other => decide (one.1 ≤ other.1)).map fun field => field.1 ++ lit ":" ++ field.2) ++ lit "]"
  termination_by structural value => value

def sprintItems : List Value → List Bytes
  | [] => []
  | item :: rest => sprint item :: sprintItems rest
  termination_by structural items => items

def sprintFields : List (Bytes × Value) → List (Bytes × Bytes)
  | [] => []
  | field :: rest => sprintField field :: sprintFields rest
  termination_by structural fields => fields

def sprintField : Bytes × Value → Bytes × Bytes
  | (key, value) => (key, sprint value)
  termination_by structural field => field

end

/-- `strconv.FormatInt(n, 10)`. -/
def formatInt (n : Int) : Bytes := lit (toString n)

def itemID (item : Item) : Option Bytes :=
  match item.get? (lit "id") with
  | none | some .null => none
  | some (.string text) => if text = [] then none else some text
  | some (.number number) => some (formatInt (runtime.toInt64 number))
  | some value =>
    let text := sprint runtime value
    if text = [] then none else some text

structure Store where
  items : GoMap Bytes Item
  seq : UInt64

def Store.empty : Store := ⟨.empty, 0⟩

inductive StoreError where
  | conflict
  | missingID
  deriving DecidableEq, Repr

namespace Store

/-- `list`, in the order of the ids' texts; items of one text come in any order. -/
def list (draw : Rat) (store : Store) : List Item :=
  (runtime.shuffle draw (store.items.entries.map Prod.snd)).mergeSort fun one other =>
    decide (sprint runtime ((one.get? (lit "id")).getD .null) ≤
      sprint runtime ((other.get? (lit "id")).getD .null))

def get (store : Store) (id : Bytes) : Option Item := store.items.get? id

/-- An item without an id takes the next number of the sequence for one. -/
def create (store : Store) (item : Item) : Except StoreError Item × Store :=
  match itemID runtime item with
  | some id =>
    if (store.items.get? id).isSome then (.error .conflict, store)
    else (.ok item, { store with items := store.items.set id item })
  | none =>
    let seq := store.seq + 1
    let id := formatInt seq.toNat
    let item := item.set (lit "id") (.string id)
    (.ok item, ⟨store.items.set id item, seq⟩)

def upsert (store : Store) (item : Item) : Except StoreError Item × Store :=
  match itemID runtime item with
  | none => (.error .missingID, store)
  | some id =>
    let item := item.set (lit "id") (.string id)
    (.ok item, { store with items := store.items.set id item })

end Store

end N8nSystems.FlakyApi
