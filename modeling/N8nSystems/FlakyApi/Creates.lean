import N8nSystems.FlakyApi.Store
import N8nSystems.Lib.History
import N8nSystems.Lib.Run

/-! Creating an item beside the others. Numbers of the sequence and ids of the callers
are keys of one map. -/

namespace N8nSystems.FlakyApi

open Lib Lib.Go

variable (runtime : Runtime)

/-- A call that changes the store. -/
inductive Operation where
  | create (item : Item)
  | upsert (item : Item)
  | reset

namespace Operation

def isReset : Operation → Bool
  | .reset => true
  | _ => false

/-- The id that the caller gives. -/
def suppliedID : Operation → Option Bytes
  | .create item | .upsert item => itemID runtime item
  | .reset => none

/-- The call takes a number of the sequence. -/
def isNumbered : Operation → Bool
  | .create item => (itemID runtime item).isNone
  | _ => false

end Operation

def Store.reset (_ : Store) : Store := .empty

def Store.perform (store : Store) : Operation → Store
  | .create item => (store.create runtime item).2
  | .upsert item => (store.upsert runtime item).2
  | .reset => store.reset

/-- The store after the calls. -/
def Store.Reached (calls : List Operation) (store : Store) : Prop :=
  run (fun store call => some (store.perform runtime call)) .empty calls = some store

/-- The ids that callers gave since the last reset. -/
def suppliedIDs (calls : List Operation) : List Bytes :=
  (since Operation.isReset calls).filterMap (Operation.suppliedID runtime)

/-- How many calls took a number since the last reset. -/
def numbered (calls : List Operation) : Nat :=
  (since Operation.isReset calls).countP (Operation.isNumbered runtime)

/-- The id of the n-th number; the sequence is a `uint64`. -/
def sequenceID (n : Nat) : Bytes := formatInt (n % 2 ^ 64 : Nat)

theorem formatInt_nat (n : Nat) : formatInt n = Go.formatInt n := by
  have digits : (toString (n : Int)).toList = Nat.toDigits 10 n := String.toList_ofList
  have positive : ¬ (n : Int) < 0 := by omega
  rw [formatInt, lit, digits, Go.formatInt, if_neg positive, List.nil_append]
  rfl

theorem sequenceID_inj {first second : Nat} :
    sequenceID first = sequenceID second ↔ first % 2 ^ 64 = second % 2 ^ 64 := by
  rw [sequenceID, sequenceID, formatInt_nat, formatInt_nat, formatInt_injective.eq_iff]
  exact Int.ofNat_inj

/-- The sequence counts the calls without an id, and the keys are the ids given and the
numbers taken since the last reset. -/
structure Tracks (calls : List Operation) (store : Store) : Prop where
  seq : store.seq.toNat = numbered runtime calls % 2 ^ 64
  keys : ∀ id, (store.get id).isSome = true ↔ id ∈ suppliedIDs runtime calls ∨
    ∃ n, 1 ≤ n ∧ n ≤ numbered runtime calls ∧ id = sequenceID n

theorem tracks_empty : Tracks runtime [] .empty where
  seq := rfl
  keys id := by simp [Store.get, Store.empty, GoMap.get?, GoMap.empty, suppliedIDs, numbered, since]

variable {runtime}

theorem suppliedIDs_concat {calls : List Operation} {call : Operation} (open_ : call.isReset = false) :
    suppliedIDs runtime (calls ++ [call]) =
      suppliedIDs runtime calls ++ (call.suppliedID runtime).toList := by
  rw [suppliedIDs, since_unmarked open_, List.filterMap_append, suppliedIDs]
  cases given : call.suppliedID runtime <;> simp [given]

theorem numbered_concat {calls : List Operation} {call : Operation} (open_ : call.isReset = false) :
    numbered runtime (calls ++ [call]) =
      numbered runtime calls + if call.isNumbered runtime then 1 else 0 := by
  rw [numbered, since_unmarked open_, List.countP_append, List.countP_singleton, numbered]

theorem get_set {items : GoMap Bytes Item} {seq : UInt64} {id other : Bytes} {item : Item} :
    (Store.mk (items.set id item) seq).get other = if other = id then some item else items.get? other :=
  GoMap.get?_set

theorem isSome_set {items : GoMap Bytes Item} {seq : UInt64} {id other : Bytes} {item : Item} :
    ((Store.mk (items.set id item) seq).get other).isSome = true ↔
      other = id ∨ (items.get? other).isSome = true := by
  rw [get_set]
  split <;> simp [*]

/-- A call with an id adds it to the keys, or finds it there. -/
theorem Tracks.supplied {calls : List Operation} {call : Operation} {before after : Store} {id : Bytes}
    (tracks : Tracks runtime calls before) (open_ : call.isReset = false)
    (given : call.suppliedID runtime = some id) (unnumbered : call.isNumbered runtime = false)
    (seq : after.seq = before.seq)
    (keys : ∀ other, (after.get other).isSome = true ↔ other = id ∨ (before.get other).isSome = true) :
    Tracks runtime (calls ++ [call]) after where
  seq := by
    rw [seq, numbered_concat open_, unnumbered]
    exact tracks.seq
  keys other := by
    rw [keys, tracks.keys, suppliedIDs_concat open_, numbered_concat open_, given, unnumbered]
    simp only [Bool.false_eq_true, if_false, Nat.add_zero, Option.toList_some, List.mem_append,
      List.mem_singleton]
    tauto

theorem Tracks.next {calls : List Operation} {store : Store} (tracks : Tracks runtime calls store) :
    (store.seq + 1).toNat = (numbered runtime calls + 1) % 2 ^ 64 := by
  rw [UInt64.toNat_add, tracks.seq, Nat.mod_add_mod]
  rfl

/-- The id that the next number makes. -/
theorem Tracks.nextID {calls : List Operation} {store : Store} (tracks : Tracks runtime calls store) :
    formatInt (store.seq + 1).toNat = sequenceID (numbered runtime calls + 1) := by
  rw [tracks.next, sequenceID]

/-- A create without an id takes the next number. -/
theorem Tracks.assigned {calls : List Operation} {call : Operation} {before after : Store}
    (tracks : Tracks runtime calls before) (open_ : call.isReset = false)
    (given : call.suppliedID runtime = none) (taken : call.isNumbered runtime = true)
    (seq : after.seq = before.seq + 1)
    (keys : ∀ other, (after.get other).isSome = true ↔
      other = formatInt (before.seq + 1).toNat ∨ (before.get other).isSome = true) :
    Tracks runtime (calls ++ [call]) after where
  seq := by
    rw [seq, numbered_concat open_, taken]
    exact tracks.next
  keys other := by
    rw [keys, tracks.keys, tracks.nextID, suppliedIDs_concat open_, numbered_concat open_, taken, given]
    simp only [if_true, Option.toList_none, List.append_nil]
    constructor
    · rintro (rfl | supplied | ⟨n, low, high, named⟩)
      · exact .inr ⟨_, by omega, by omega, rfl⟩
      · exact .inl supplied
      · exact .inr ⟨n, low, by omega, named⟩
    · rintro (supplied | ⟨n, low, high, named⟩)
      · exact .inr (.inl supplied)
      · by_cases last : n = numbered runtime calls + 1
        · exact .inl (last ▸ named)
        · exact .inr (.inr ⟨n, low, by omega, named⟩)

/-- An upsert that has no id is refused. -/
theorem Tracks.refused {calls : List Operation} {call : Operation} {store : Store}
    (tracks : Tracks runtime calls store) (open_ : call.isReset = false)
    (given : call.suppliedID runtime = none) (unnumbered : call.isNumbered runtime = false) :
    Tracks runtime (calls ++ [call]) store where
  seq := by
    rw [numbered_concat open_, unnumbered]
    exact tracks.seq
  keys other := by
    rw [suppliedIDs_concat open_, numbered_concat open_, given, unnumbered]
    simpa using tracks.keys other

theorem tracks_reset (calls : List Operation) (store : Store) :
    Tracks runtime (calls ++ [.reset]) store.reset := by
  have cleared : since Operation.isReset (calls ++ [.reset]) = [] := since_marked rfl calls
  have empty := tracks_empty runtime
  refine ⟨?_, ?_⟩
  · rw [numbered, cleared]
    exact empty.seq
  · intro id
    rw [suppliedIDs, numbered, cleared]
    exact empty.keys id

theorem Tracks.perform {calls : List Operation} {store : Store} (tracks : Tracks runtime calls store)
    (call : Operation) : Tracks runtime (calls ++ [call]) (store.perform runtime call) := by
  cases call with
  | reset => exact tracks_reset calls store
  | upsert item =>
    rw [Store.perform, Store.upsert]
    cases given : itemID runtime item with
    | none => exact tracks.refused rfl given rfl
    | some id => exact tracks.supplied rfl given rfl rfl fun other => isSome_set
  | create item =>
    rw [Store.perform, Store.create]
    cases given : itemID runtime item with
    | some id =>
      have unnumbered : (Operation.create item).isNumbered runtime = false := by
        rw [Operation.isNumbered, given]
        rfl
      dsimp only
      split
      · rename_i present
        refine tracks.supplied rfl given unnumbered rfl fun other => ?_
        constructor
        · exact .inr
        · rintro (rfl | known)
          · exact present
          · exact known
      · exact tracks.supplied rfl given unnumbered rfl fun other => isSome_set
    | none =>
      have taken : (Operation.create item).isNumbered runtime = true := by
        rw [Operation.isNumbered, given]
        rfl
      exact tracks.assigned rfl given taken rfl fun other => isSome_set

/-- The store after any calls keeps count of them. -/
theorem tracks_reached {calls : List Operation} {store : Store} (reached : store.Reached runtime calls) :
    Tracks runtime calls store := by
  refine run_history (Tracks runtime) (tracks_empty runtime) ?_ reached
  intro past before call after _ tracks taken
  cases taken
  exact tracks.perform call

/-- The created item joined the others: every entry is still there as it was, and one
was added, under which the returned item is read. -/
structure Joined (before after : Store) (returned : Item) : Prop where
  kept : ∀ id old, before.get id = some old → after.get id = some old
  added : ∃ id, before.get id = none ∧ after.get id = some returned ∧
    ∀ other, other ≠ id → after.get other = before.get other

/-- An item put under an id joins the others exactly when the id is new. -/
theorem joined_set_iff {items : GoMap Bytes Item} {seq next : UInt64} {id : Bytes} {item : Item} :
    Joined ⟨items, seq⟩ ⟨items.set id item, next⟩ item ↔ (items.get? id).isSome = false := by
  constructor
  · intro joined
    obtain ⟨new, absent, found, others⟩ := joined.added
    by_cases here : id = new
    · rw [here]
      exact Option.isSome_eq_false_iff.mpr (Option.isNone_iff_eq_none.mpr absent)
    · -- Otherwise nothing was put under the new id.
      rw [get_set, if_neg (Ne.symm here)] at found
      cases absent.symm.trans found
  · intro fresh
    have absent : items.get? id = none :=
      Option.isNone_iff_eq_none.mp (Option.isSome_eq_false_iff.mp fresh)
    refine ⟨?_, id, absent, ?_, ?_⟩
    · intro other old present
      have different : other ≠ id := by
        intro same
        rw [same] at present
        cases absent.symm.trans present
      rw [get_set, if_neg different]
      exact present
    · rw [get_set, if_pos rfl]
    · intro other different
      rw [get_set, if_neg different]
      rfl

/-- The next number is taken exactly by an id that a caller gave, or when the sequence
has come round. -/
theorem next_taken_iff {calls : List Operation} {store : Store} (tracks : Tracks runtime calls store) :
    (store.get (formatInt (store.seq + 1).toNat)).isSome = false ↔ numbered runtime calls < 2 ^ 64 ∧
      sequenceID (numbered runtime calls + 1) ∉ suppliedIDs runtime calls := by
  have round : (∃ n, 1 ≤ n ∧ n ≤ numbered runtime calls ∧
      sequenceID (numbered runtime calls + 1) = sequenceID n) ↔ 2 ^ 64 ≤ numbered runtime calls := by
    simp only [sequenceID_inj]
    constructor
    · rintro ⟨n, low, high, same⟩
      omega
    · intro many
      exact ⟨numbered runtime calls + 1 - 2 ^ 64, by omega, by omega, by omega⟩
  rw [← Bool.not_eq_true, tracks.nextID, tracks.keys, round, not_or, not_le, and_comm]

/-- In every reachable store, an item that is created joins the others exactly when it
has an id of its own, or the next number is new: it was not given as an id since the
last reset, and the sequence has not come round. -/
theorem created_joins_iff {calls : List Operation} {store : Store} (reached : store.Reached runtime calls)
    {item returned : Item} (created : (store.create runtime item).1 = .ok returned) :
    Joined store (store.create runtime item).2 returned ↔
      (itemID runtime item = none → numbered runtime calls < 2 ^ 64 ∧
        sequenceID (numbered runtime calls + 1) ∉ suppliedIDs runtime calls) := by
  have tracks := tracks_reached reached
  unfold Store.create at created ⊢
  cases given : itemID runtime item with
  | some id =>
    rw [given] at created
    dsimp only at created ⊢
    split at created
    · cases created
    · rename_i fresh
      cases created
      rw [if_neg fresh]
      refine iff_of_true (joined_set_iff.mpr (Bool.not_eq_true _ ▸ fresh)) ?_
      intro missing
      cases missing
  | none =>
    rw [given] at created
    cases created
    simp only [true_implies]
    exact joined_set_iff.trans (next_taken_iff tracks)

/-- An item with the id `1`, and one without an id. -/
def firstItem : Item := GoMap.empty.set (lit "id") (.string (lit "1"))

def plainItem : Item := GoMap.empty.set (lit "name") (.string (lit "a"))

/-- The store with the first item. -/
def upserted : Store := Store.empty.perform plainRuntime (.upsert firstItem)

theorem upserted_reached : upserted.Reached plainRuntime [.upsert firstItem] := rfl

theorem plainItem_created : (upserted.create plainRuntime plainItem).1 =
    .ok (plainItem.set (lit "id") (.string (lit "1"))) := rfl

/-- In an empty store it takes the first number, and joins. -/
theorem plainItem_joins : Joined Store.empty (Store.empty.create plainRuntime plainItem).2
    (plainItem.set (lit "id") (.string (lit "1"))) := by
  have reached : Store.empty.Reached plainRuntime [] := rfl
  have created : (Store.empty.create plainRuntime plainItem).1 =
      .ok (plainItem.set (lit "id") (.string (lit "1"))) := rfl
  refine (created_joins_iff reached created).mpr ?_
  intro _
  exact ⟨by decide, by decide⟩

/-- The first number of the sequence is put over an item that has it for its id. -/
theorem upserted_item_replaced :
    ¬ ∀ (runtime : Runtime) (calls : List Operation) (store : Store) (item returned : Item),
      store.Reached runtime calls → (store.create runtime item).1 = .ok returned →
        Joined store (store.create runtime item).2 returned := by
  intro joins
  have joined := joins plainRuntime _ _ plainItem _ upserted_reached plainItem_created
  have kept := joined.kept (lit "1") firstItem rfl
  have found : (upserted.create plainRuntime plainItem).2.get (lit "1") =
      some (plainItem.set (lit "id") (.string (lit "1"))) := rfl
  have same := congrArg (fun item => item.get? (lit "name")) (Option.some.inj (found.symm.trans kept))
  cases same

end N8nSystems.FlakyApi
