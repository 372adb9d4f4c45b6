import Mathlib.Data.List.Nodup

/-! An append-only record with at most one entry for each key, and an outbox over
it: each entry is sent at most once, after it was recorded. -/

namespace N8nSystems.Lib

universe u v w x

structure Ledger {Entry : Type u} {Key : Type v} (key : Entry → Key) where
  entries : List Entry
  once : (entries.map key).Nodup

namespace Ledger

variable {Entry : Type u} {Key : Type v} {key : Entry → Key}

def empty : Ledger key := ⟨[], List.nodup_nil⟩

/-- No entry has this key yet. -/
def Fresh (ledger : Ledger key) (k : Key) : Prop := ∀ entry ∈ ledger.entries, key entry ≠ k

def append (ledger : Ledger key) (entry : Entry) (fresh : ledger.Fresh (key entry)) : Ledger key where
  entries := ledger.entries ++ [entry]
  once := by
    rw [List.map_append, List.map_singleton]
    apply List.Nodup.append ledger.once (List.nodup_singleton _)
    intro k earlier last
    obtain ⟨old, member, rfl⟩ := List.mem_map.mp earlier
    exact fresh old member (List.mem_singleton.mp last)

theorem mem_append {ledger : Ledger key} {fresh : ledger.Fresh (key entry)} {other : Entry} :
    other ∈ (ledger.append entry fresh).entries ↔ other ∈ ledger.entries ∨ other = entry := by
  simp [append]

theorem eq_of_key {ledger : Ledger key} {first second : Entry} (member : first ∈ ledger.entries)
    (also : second ∈ ledger.entries) (same : key first = key second) : first = second :=
  List.inj_on_of_nodup_map ledger.once member also same

variable [DecidableEq Key]

def lookup (ledger : Ledger key) (k : Key) : Option Entry :=
  ledger.entries.find? (key · = k)

theorem lookup_eq_none {ledger : Ledger key} {k : Key} :
    ledger.lookup k = none ↔ ledger.Fresh k := by
  simp [lookup, Fresh]

theorem lookup_eq_some {ledger : Ledger key} {k : Key} {entry : Entry} :
    ledger.lookup k = some entry ↔ entry ∈ ledger.entries ∧ key entry = k := by
  constructor
  · intro found
    exact ⟨List.mem_of_find?_eq_some found, by simpa using List.find?_some found⟩
  · rintro ⟨member, rfl⟩
    cases found : ledger.lookup (key entry) with
    | none => exact absurd rfl (lookup_eq_none.mp found entry member)
    | some other =>
      have same : key other = key entry := by simpa using List.find?_some found
      rw [eq_of_key (List.mem_of_find?_eq_some found) member same]

theorem lookup_append_self {ledger : Ledger key} (fresh : ledger.Fresh (key entry)) :
    (ledger.append entry fresh).lookup (key entry) = some entry :=
  lookup_eq_some.mpr ⟨mem_append.mpr (.inr rfl), rfl⟩

theorem lookup_append_other {ledger : Ledger key} (fresh : ledger.Fresh (key entry)) {k : Key}
    (other : key entry ≠ k) : (ledger.append entry fresh).lookup k = ledger.lookup k := by
  simp [lookup, append, List.find?_append, other]

/-- The entries of one key: none, or exactly the one that lookup finds. -/
theorem filter_key (ledger : Ledger key) (k : Key) :
    ledger.entries.filter (key · = k) = (ledger.lookup k).toList := by
  cases found : ledger.lookup k with
  | none =>
    apply List.filter_eq_nil_iff.mpr
    simpa [Fresh] using lookup_eq_none.mp found
  | some entry =>
    obtain ⟨member, rfl⟩ := lookup_eq_some.mp found
    have distinct : (ledger.entries.filter (key · = key entry)).Nodup :=
      ledger.once.of_map.filter _
    apply List.perm_singleton.mp
    rw [List.perm_ext_iff_of_nodup distinct (List.nodup_singleton _)]
    intro other
    simp only [List.mem_filter, decide_eq_true_eq, List.mem_singleton]
    constructor
    · rintro ⟨also, same⟩
      exact eq_of_key also member same
    · rintro rfl
      exact ⟨member, rfl⟩

/-- The same for rows written from the entries, each tagged with a rendering of
its entry's key. -/
theorem filter_rows {Row : Type w} {Tag : Type x} [DecidableEq Tag] (ledger : Ledger key)
    (write : Entry → Row) (tag : Row → Tag) {render : Key → Tag}
    (injective : Function.Injective render)
    (tagged : ∀ entry, tag (write entry) = render (key entry)) (k : Key) :
    (ledger.entries.map write).filter (tag · = render k) = (ledger.lookup k).toList.map write := by
  have sameTag : ((fun row => decide (tag row = render k)) ∘ write) = fun entry =>
      decide (key entry = k) := by
    funext entry
    simp only [Function.comp_apply, tagged, injective.eq_iff]
  rw [← filter_key, List.filter_map, sameTag]

end Ledger

/-- Entries claimed once for each key, and which of them were sent, each with the
success of its one attempt. -/
structure Outbox {Entry : Type u} {Key : Type v} (key : Entry → Key) where
  claims : Ledger key
  sent : Ledger fun note : Entry × Bool => key note.1
  claimed : ∀ note ∈ sent.entries, note.1 ∈ claims.entries

namespace Outbox

variable {Entry : Type u} {Key : Type v} {key : Entry → Key}

def empty : Outbox key where
  claims := .empty
  sent := .empty
  claimed := by simp [Ledger.empty]

def claim (outbox : Outbox key) (entry : Entry) (fresh : outbox.claims.Fresh (key entry)) :
    Outbox key where
  claims := outbox.claims.append entry fresh
  sent := outbox.sent
  claimed note member := Ledger.mem_append.mpr (.inl (outbox.claimed note member))

/-- The entry has been claimed and no attempt was made to send it. -/
structure Unsent (outbox : Outbox key) (entry : Entry) : Prop where
  claimed : entry ∈ outbox.claims.entries
  unsent : ∀ note ∈ outbox.sent.entries, note.1 ≠ entry

def send (outbox : Outbox key) (entry : Entry) (success : Bool) (waiting : outbox.Unsent entry) :
    Outbox key where
  claims := outbox.claims
  sent := outbox.sent.append (entry, success) fun note present same =>
    waiting.unsent note present
      (Ledger.eq_of_key (outbox.claimed note present) waiting.claimed same)
  claimed := by
    intro note present
    rcases Ledger.mem_append.mp present with old | rfl
    · exact outbox.claimed note old
    · exact waiting.claimed

theorem mem_claim {outbox : Outbox key} {entry other : Entry}
    (fresh : outbox.claims.Fresh (key entry)) :
    other ∈ (outbox.claim entry fresh).claims.entries ↔
      other ∈ outbox.claims.entries ∨ other = entry := by
  simp [claim, Ledger.append]

theorem mem_send {outbox : Outbox key} {entry : Entry} {note : Entry × Bool}
    (waiting : outbox.Unsent entry) :
    note ∈ (outbox.send entry success waiting).sent.entries ↔
      note ∈ outbox.sent.entries ∨ note = (entry, success) := by
  simp [send, Ledger.append]

theorem unsent_claim {outbox : Outbox key} {entry other : Entry}
    (fresh : outbox.claims.Fresh (key entry)) (waiting : outbox.Unsent other) :
    (outbox.claim entry fresh).Unsent other :=
  ⟨(mem_claim fresh).mpr (.inl waiting.claimed), waiting.unsent⟩

/-- A new entry is waiting to be sent. -/
theorem unsent_claim_self {outbox : Outbox key} {entry : Entry}
    (fresh : outbox.claims.Fresh (key entry)) : (outbox.claim entry fresh).Unsent entry := by
  refine ⟨(mem_claim fresh).mpr (.inr rfl), ?_⟩
  rintro note present rfl
  exact fresh note.1 (outbox.claimed note present) rfl

theorem unsent_send {outbox : Outbox key} {entry other : Entry} (now : outbox.Unsent entry)
    (waiting : outbox.Unsent other) (different : entry ≠ other) :
    (outbox.send entry success now).Unsent other := by
  refine ⟨waiting.claimed, ?_⟩
  intro note present
  rcases (mem_send now).mp present with old | rfl
  · exact waiting.unsent note old
  · exact different

end Outbox

end N8nSystems.Lib
