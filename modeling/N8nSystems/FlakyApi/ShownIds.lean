import N8nSystems.FlakyApi.Creates
import N8nSystems.FlakyApi.Server

/-! The key of an item and the id it shows. `itemID` makes an integer of a number, and
`create` leaves the number in the item. -/

namespace N8nSystems.FlakyApi

open Lib Lib.Go

variable (runtime : Runtime)

/-- The text of an item's id, by which `list` sorts. -/
def shownID (item : Item) : Bytes := sprint runtime ((item.get? (lit "id")).getD .null)

/-- Every item is found under the id it shows: it is its key, a request for it returns
the item, and every list has each item once, in the order of the keys. -/
structure Shown (store : Store) : Prop where
  keyed : ∀ key item, store.get key = some item → shownID runtime item = key
  found : ∀ key item, store.get key = some item →
    handleGetItem store (shownID runtime item) = writeJSON 200 (.item item)
  listed : ∀ draw, (store.list runtime draw).Perm (store.items.entries.map Prod.snd)
  ordered : ∀ draw, (store.list runtime draw).Pairwise fun one other =>
    shownID runtime one ≤ shownID runtime other ∧ shownID runtime one ≠ shownID runtime other

/-- No key is empty. -/
def KeysNonempty (store : Store) : Prop := ∀ key item, store.get key = some item → key ≠ []

variable {runtime}

theorem list_pairwise (draw : Rat) (store : Store) :
    (store.list runtime draw).Pairwise fun one other => shownID runtime one ≤ shownID runtime other := by
  have sorted := @List.pairwise_mergeSort Item
    (fun one other => decide (shownID runtime one ≤ shownID runtime other)) ?_ ?_
    (runtime.shuffle draw (store.items.entries.map Prod.snd))
  · exact sorted.imp fun ordered => of_decide_eq_true ordered
  · intro one two three first second
    rw [decide_eq_true_eq] at first second ⊢
    exact List.le_trans first second
  · intro one other
    rw [Bool.or_eq_true, decide_eq_true_eq, decide_eq_true_eq]
    exact List.le_total _ _

/-- It is enough that the texts of the ids are the keys. -/
theorem shown_iff_keyed {store : Store} (nonempty : KeysNonempty store) :
    Shown runtime store ↔ ∀ key item, store.get key = some item → shownID runtime item = key := by
  have listed (draw : Rat) : (store.list runtime draw).Perm (store.items.entries.map Prod.snd) :=
    (List.mergeSort_perm _ _).trans (runtime.shuffle_perm draw _)
  refine ⟨Shown.keyed, fun keyed => ⟨keyed, ?_, listed, fun draw => ?_⟩⟩
  · intro key item stored
    rw [keyed key item stored, handleGetItem, if_neg (nonempty key item stored), stored]
  · have keys : (store.items.entries.map Prod.snd).map (shownID runtime) = store.items.entries.map Prod.fst := by
      rw [List.map_map]
      apply List.map_congr_left
      rintro ⟨key, item⟩ member
      exact keyed key item (GoMap.get?_eq_some_iff.mpr member)
    have distinct : ((store.list runtime draw).map (shownID runtime)).Nodup := by
      rw [((listed draw).map (shownID runtime)).nodup_iff, keys]
      exact store.items.distinct
    exact (list_pairwise draw store).and (List.pairwise_map.mp distinct)

theorem formatInt_ne_nil (n : Int) : formatInt n ≠ [] := by
  cases n with
  | ofNat n =>
    intro empty
    have digits := (formatInt_nat n).symm.trans empty
    simp [Go.formatInt] at digits
  | negSucc n =>
    have sign : formatInt (Int.negSucc n) = lit "-" ++ lit (toString (n + 1)) := by
      rw [formatInt, lit, lit, lit, ← List.map_append, ← String.toList_append]
      rfl
    rw [sign]
    exact List.append_ne_nil_of_left_ne_nil (by decide) _

theorem itemID_ne_nil {item : Item} {id : Bytes} (given : itemID runtime item = some id) : id ≠ [] := by
  unfold itemID at given
  split at given
  · cases given
  · cases given
  · split at given
    · cases given
    · rename_i filled
      cases given
      exact filled
  · cases given
    exact formatInt_ne_nil _
  · dsimp only at given
    split at given
    · cases given
    · rename_i filled
      cases given
      exact filled

/-- An item shows the id that `itemID` makes for it, unless a number prints otherwise
than its integer. -/
theorem shownID_eq_iff {item : Item} {id : Bytes} (given : itemID runtime item = some id) :
    shownID runtime item = id ↔ ∀ number, item.get? (lit "id") = some (.number number) →
      runtime.formatFloat number = formatInt (runtime.toInt64 number) := by
  unfold itemID at given
  unfold shownID
  split at given
  · cases given
  · cases given
  · rename_i text field
    split at given
    · cases given
    · cases given
      simp [field, sprint]
  · rename_i number field
    cases given
    simp [field, sprint]
  · rename_i value other field
    dsimp only at given
    split at given
    · cases given
    · cases given
      rw [field]
      simp only [Option.getD_some, true_iff]
      intro number same
      cases same
      exact absurd rfl (other number)

/-- An item that is given its id shows it. -/
theorem shownID_set (item : Item) (id : Bytes) :
    shownID runtime (item.set (lit "id") (.string id)) = id := by
  rw [shownID, GoMap.get?_set, if_pos rfl, Option.getD_some, sprint]

variable (runtime) in
/-- The keys are the ids that the items show, and none is empty. -/
structure Keyed (store : Store) : Prop where
  shown : ∀ key item, store.get key = some item → shownID runtime item = key
  nonempty : KeysNonempty store

theorem keyed_empty : Keyed runtime .empty := by
  constructor
  · intro key item stored
    cases stored
  · intro key item stored
    cases stored

/-- What storing an item under a key keeps. -/
theorem Keyed.set {store : Store} (keyed : Keyed runtime store) {key : Bytes} {item : Item}
    (filled : key ≠ []) (shown : shownID runtime item = key) (seq : UInt64) :
    Keyed runtime ⟨store.items.set key item, seq⟩ := by
  constructor
  · intro other stored present
    rw [get_set] at present
    split at present
    · rename_i same
      cases present
      rw [shown, same]
    · exact keyed.shown other stored present
  · intro other stored present
    rw [get_set] at present
    split at present
    · rename_i same
      rw [same]
      exact filled
    · exact keyed.nonempty other stored present

variable (runtime) in
/-- The call does not store an item by `create` whose id is a number that prints
otherwise than its integer. -/
def PrintsWhole (store : Store) : Operation → Prop
  | .create item => ∀ number, item.get? (lit "id") = some (.number number) →
      store.get (formatInt (runtime.toInt64 number)) = none →
        runtime.formatFloat number = formatInt (runtime.toInt64 number)
  | _ => True

/-- A create that stores the item as it was given. -/
theorem create_fresh {store : Store} {item : Item} {id : Bytes} (given : itemID runtime item = some id)
    (fresh : store.get id = none) :
    store.perform runtime (.create item) = ⟨store.items.set id item, store.seq⟩ := by
  have absent : store.items.get? id = none := fresh
  simp only [Store.perform, Store.create, given, absent, Option.isSome_none, Bool.false_eq_true, if_false]

theorem create_taken {store : Store} {item : Item} {id : Bytes} (given : itemID runtime item = some id)
    (taken : store.get id ≠ none) : store.perform runtime (.create item) = store := by
  have present : (store.items.get? id).isSome = true := Option.isSome_iff_ne_none.mpr taken
  simp only [Store.perform, Store.create, given, present, if_true]

theorem itemID_number {item : Item} {number : Number} (field : item.get? (lit "id") = some (.number number)) :
    itemID runtime item = some (formatInt (runtime.toInt64 number)) := by
  rw [itemID, field]

theorem Keyed.perform {store : Store} (keyed : Keyed runtime store) {call : Operation}
    (prints : PrintsWhole runtime store call) : Keyed runtime (store.perform runtime call) := by
  cases call with
  | reset => exact keyed_empty
  | upsert item =>
    rw [Store.perform, Store.upsert]
    cases given : itemID runtime item with
    | none => exact keyed
    | some id => exact keyed.set (itemID_ne_nil given) (shownID_set item id) store.seq
  | create item =>
    cases given : itemID runtime item with
    | none =>
      simp only [Store.perform, Store.create, given]
      exact keyed.set (formatInt_ne_nil _) (shownID_set item _) _
    | some id =>
      by_cases fresh : store.get id = none
      · rw [create_fresh given fresh]
        refine keyed.set (itemID_ne_nil given) ((shownID_eq_iff given).mpr ?_) store.seq
        intro number field
        obtain rfl : formatInt (runtime.toInt64 number) = id :=
          Option.some.inj ((itemID_number field).symm.trans given)
        exact prints number field fresh
      · rw [create_taken given fresh]
        exact keyed

/-- A call that stores another item leaves a store in which it is not under its id. -/
theorem printsWhole_of_shown {store : Store} {call : Operation}
    (shown : Shown runtime (store.perform runtime call)) : PrintsWhole runtime store call := by
  cases call with
  | reset => trivial
  | upsert item => trivial
  | create item =>
    intro number field fresh
    have given := @itemID_number runtime _ _ field
    rw [create_fresh given fresh] at shown
    refine (shownID_eq_iff given).mp (shown.keyed _ item ?_) number field
    rw [get_set, if_pos rfl]

/-- The store of every state of a run has its items under the ids they show exactly
when no call of the run stores, by `create`, an item with a number for its id that
prints otherwise than its integer. -/
theorem shown_throughout_iff (runtime : Runtime) (calls : List Operation) :
    (∀ past rest store, calls = past ++ rest → store.Reached runtime past → Shown runtime store) ↔
      Along (fun store call => some (store.perform runtime call)) (PrintsWhole runtime) .empty calls := by
  constructor
  · intro shown
    induction calls using List.reverseRecOn with
    | nil => trivial
    | append_singleton past call ih =>
      refine along_concat_iff.mpr ⟨ih ?_, ?_⟩
      · rintro front rest store rfl reached
        exact shown front (rest ++ [call]) store (List.append_assoc ..) reached
      · intro before reached
        apply printsWhole_of_shown
        exact shown (past ++ [call]) [] _ (List.append_nil _).symm
          ((run_concat_iff _).mpr ⟨before, reached, rfl⟩)
  · rintro along past rest store rfl reached
    have keyed : Keyed runtime store := by
      refine run_invariant_along (Keyed runtime) keyed_empty ?_ along.front reached
      intro before call after prints keyed taken
      cases taken
      exact keyed.perform prints
    exact (shown_iff_keyed keyed.nonempty).mpr keyed.shown

/-- A runtime that prints 1.5 and the small whole numbers as Go does. -/
def decimalRuntime : Runtime where
  formatFloat number := if number.magnitude = 3 / 2 then lit "1.5" else
    (if number.negative then lit "-" else []) ++ formatInt number.magnitude.floor
  toInt64 := plainRuntime.toInt64
  toInt64_eq := plainRuntime.toInt64_eq
  shuffle := plainRuntime.shuffle
  shuffle_perm := plainRuntime.shuffle_perm
  statusText := plainRuntime.statusText

theorem oneAndHalf_nonneg : (0 : Rat) ≤ 3 / 2 := by decide +kernel

def oneAndHalf : Number := ⟨false, 3 / 2, oneAndHalf_nonneg⟩

/-- An item with the id 1.5. -/
def halfItem : Item := GoMap.empty.set (lit "id") (.number oneAndHalf)

/-- The item with the id 1.5 is stored under 1. -/
theorem half_not_shown :
    ¬ ∀ (runtime : Runtime) (calls : List Operation) (store : Store),
      store.Reached runtime calls → Shown runtime store := by
  intro shown
  have half := shown decimalRuntime [.create halfItem] _ rfl
  have field : halfItem.get? (lit "id") = some (.number oneAndHalf) := GoMap.get?_set.trans (if_pos rfl)
  have whole : formatInt (decimalRuntime.toInt64 oneAndHalf) = lit "1" := by decide +kernel
  have stored : (Store.empty.perform decimalRuntime (.create halfItem)).get (lit "1") = some halfItem := by
    rw [create_fresh (itemID_number field) rfl, get_set, if_pos whole.symm]
  have named := half.keyed _ _ stored
  rw [shownID, field, Option.getD_some, sprint] at named
  have printed : decimalRuntime.formatFloat oneAndHalf = lit "1.5" := if_pos rfl
  rw [printed] at named
  cases named

end N8nSystems.FlakyApi
