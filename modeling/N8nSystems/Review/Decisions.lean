import N8nSystems.Review.Bodies
import N8nSystems.Review.DecisionBook

namespace N8nSystems.Review

open Lib Lib.Py

universe u

variable {ι : Type u} {requests : ι → Request} {queue : Queue}

/-- The item was pending at the start and has been decided since. -/
structure DecidedHere (queue : Queue) (system : System ι) (id : Uuid) (row : Item) : Prop where
  initially : ∃ item, queue id = some item ∧ item.status = some .pending
  now : system.shared.queue id = some row
  decided : row.status ≠ some .pending

theorem Represents.decidedHere_iff {settings : Settings} {audit : List AuditRow}
    {book : Book requests queue} {system : System ι} {id : Uuid}
    (valid : Represents settings audit book system) :
    DecidedHere queue system id row ↔
      ∃ claim ∈ book.claims.entries, claim.reviewId requests = id ∧ row = claim.row requests := by
  constructor
  · rintro ⟨⟨item, found, pending⟩, now, decided⟩
    rw [valid.queue, Book.row] at now
    cases known : book.claims.lookup id with
    | none =>
      rw [known] at now
      cases found.symm.trans now
      exact absurd pending decided
    | some claim =>
      rw [known] at now
      obtain ⟨member, same⟩ := Ledger.lookup_eq_some.mp known
      exact ⟨claim, member, same, (Option.some.inj now).symm⟩
  · rintro ⟨claim, member, rfl, rfl⟩
    obtain ⟨found, pending⟩ := book.pending claim member
    refine ⟨⟨claim.item, found, pending⟩, ?_, Book.claim_row_status claim⟩
    rw [valid.queue, Book.row, Ledger.lookup_eq_some.mpr ⟨member, rfl⟩]

/-- The audit rows of one item are those of its claim. -/
theorem Book.filter_rows (book : Book requests queue) (id : Uuid) :
    (book.claims.entries.map (Claim.auditRow requests)).filter (·.subjectId = id.str) =
      (book.claims.lookup id).toList.map (Claim.auditRow requests) :=
  book.claims.filter_rows (Claim.auditRow requests) AuditRow.subjectId
    (fun _ _ => Uuid.str_injective) (fun _ => rfl) id

/-- The posts of one item are those of its claim. -/
theorem Book.filter_posts (settings : Settings) (book : Book requests queue) (id : Uuid) :
    (book.sent.entries.map fun post => post.1.call requests settings post.2).filter
        (·.payload.id = id.str) =
      (book.sent.lookup id).toList.map fun post => post.1.call requests settings post.2 :=
  book.sent.filter_rows (fun post => post.1.call requests settings post.2)
    (fun call => call.payload.id) (fun _ _ => Uuid.str_injective) (fun _ => rfl) id

/-- The texts of a claim's call are those of the row it left. -/
theorem Claim.legible (settings : Settings) {claim : Claim ι} (delivered : Bool)
    (stored : (claim.row requests).Legible) (decided : (claim.row requests).LegibleDecision) :
    (claim.call requests settings delivered).payload.Legible := by
  have status (verdict : Verdict) : IsUnicode verdict.status.value := by
    cases verdict <;> decide
  simp only [Item.Legible, List.forall_mem_cons, List.not_mem_nil, false_implies, implies_true,
    and_true] at stored
  obtain ⟨callback, kind, project, subject⟩ := stored
  obtain ⟨actor, reason⟩ := decided
  simp only [DecisionBody.Legible, DecisionBody.members, List.forall_mem_cons, List.not_mem_nil,
    false_implies, implies_true, and_true, Option.mem_some_iff, forall_eq']
  exact ⟨callback, actor _ rfl, Uuid.isUnicode_str _, kind, project, reason _ rfl, status _, subject⟩

theorem Claim.tells (settings : Settings) (claim : Claim ι) (delivered : Bool) :
    Tells settings (claim.call requests settings delivered) (claim.reviewId requests) (claim.row requests) where
  carries := ⟨rfl, rfl, rfl⟩
  encoded := rfl
  signed := rfl
  reads stored decided _ lawful := encodeBody_reads lawful (claim.legible settings delivered stored decided)

section Run

variable [DecidableEq ι]

theorem queue_step {settings : Settings} {before after : System ι} {label : ι × Outcome}
    {id : Uuid} {row : Item} (taken : step settings requests before label = some after)
    (now : before.shared.queue id = some row) (decided : row.status ≠ some .pending) :
    after.shared.queue id = some row := by
  rcases step_cases taken with ⟨_, _, _, _, store⟩ | ⟨_, item, _, found, pending, _, store⟩ |
    ⟨_, _, _, _, store⟩
  · rw [store, now]
  · rw [store]
    by_cases same : id = (requests label.1).reviewId
    · subst same
      cases now.symm.trans found
      exact absurd pending decided
    · exact (Function.update_of_ne same _ _).trans now
  · rw [store]
    exact now

/-- An item that is not pending never changes through these endpoints. -/
theorem queue_run {settings : Settings} {system later : System ι} {more : List (ι × Outcome)}
    {id : Uuid} {row : Item} (continued : run (step settings requests) system more = some later)
    (now : system.shared.queue id = some row) (decided : row.status ≠ some .pending) :
    later.shared.queue id = some row :=
  run_invariant (fun system : System ι => system.shared.queue id = some row) now
    (fun _ _ _ holds taken => queue_step taken holds decided) continued

/-- The phases of a request that has written something. -/
def Effective : Phase → Prop
  | .received => False
  | .claimed _ => True
  | .answered notice => notice ∉ [.dbError, .alreadyDecided]

theorem Request.notice_effective (request : Request) (delivered : Bool) :
    request.notice delivered ∉ [.dbError, .alreadyDecided] := by
  cases delivered <;> simp [Request.notice]

theorem effective_of_touched {settings : Settings} {audit : List AuditRow}
    {labels : List (ι × Outcome)} {system : System ι} {request : ι}
    (reached : run (step settings requests) (System.init ι queue audit) labels = some system)
    (touched : Pool.Touched (act settings requests) (System.init ι queue audit) request labels) :
    Effective (system.phase request) := by
  refine Pool.marked_of_touched Effective ?_ ?_ reached touched
  · intro before label after taken changed
    rcases step_cases taken with ⟨_, _, _, _, store⟩ | ⟨_, _, _, _, _, next, _⟩ | ⟨_, _, _, next, _⟩
    · exact absurd store changed
    · rw [next]
      trivial
    · rw [next]
      exact Request.notice_effective _ _
  · intro before label after taken effective
    rcases step_cases taken with ⟨_, phase, _⟩ | ⟨_, _, phase, _⟩ | ⟨_, _, _, next, _⟩
    · rw [phase] at effective
      exact effective.elim
    · rw [phase] at effective
      exact effective.elim
    · rw [next]
      exact Request.notice_effective _ _

/-- After every interleaving of approve and reject requests, over any queue and
audit log: an item that is no longer pending never changes; the audit rows added
are exactly one for each item decided here, with its status and actor; at most one
receiver POST is made for an item, and its signed body is one from which `json.loads`
reads the committed decision; a request answered `already_decided` or `db_error`
changed nothing. -/
theorem decisions_once (settings : Settings) (requests : ι → Request) (queue : Queue)
    (audit : List AuditRow) (labels : List (ι × Outcome)) (system : System ι)
    (reached : run (step settings requests) (System.init ι queue audit) labels = some system) :
    (∀ id row, system.shared.queue id = some row → row.status ≠ some .pending →
      ∀ more later, run (step settings requests) system more = some later →
        later.shared.queue id = some row) ∧
    (∀ id, system.shared.queue id = queue id ∨ ∃ row, DecidedHere queue system id row) ∧
    (∃ log, system.shared.audit = audit ++ log ∧
      (∀ id row, DecidedHere queue system id row →
        ∃ entry, log.filter (·.subjectId = id.str) = [entry] ∧
          entry.subjectType = text "review_queue" ∧
          some entry.after.status = row.status ∧ some entry.after.decidedBy = row.decidedBy) ∧
      (∀ entry ∈ log, ∃ id row, DecidedHere queue system id row ∧ entry.subjectId = id.str)) ∧
    (∀ id : Uuid, (system.shared.posts.filter (·.payload.id = id.str)).length ≤ 1) ∧
    (∀ call ∈ system.shared.posts, ∃ id row, DecidedHere queue system id row ∧
      call.payload.id = id.str ∧ Tells settings call id row) ∧
    (∀ request notice, system.phase request = .answered notice →
      notice ∈ [.dbError, .alreadyDecided] →
      ¬ Pool.Touched (act settings requests) (System.init ι queue audit) request labels) := by
  obtain ⟨book, valid⟩ := Represents.of_run reached
  refine ⟨?_, ?_, ⟨book.claims.entries.map (Claim.auditRow requests), valid.audit, ?_, ?_⟩,
    ?_, ?_, ?_⟩
  · intro id row now decided more later continued
    exact queue_run continued now decided
  · intro id
    cases known : book.claims.lookup id with
    | none =>
      left
      rw [valid.queue, Book.row, known]
    | some claim =>
      right
      obtain ⟨member, same⟩ := Ledger.lookup_eq_some.mp known
      exact ⟨_, valid.decidedHere_iff.mpr ⟨claim, member, same, rfl⟩⟩
  · intro id row decided
    obtain ⟨claim, member, same, rfl⟩ := valid.decidedHere_iff.mp decided
    refine ⟨claim.auditRow requests, ?_, rfl, rfl, rfl⟩
    rw [Book.filter_rows, Ledger.lookup_eq_some.mpr ⟨member, same⟩]
    rfl
  · intro entry listed
    obtain ⟨claim, member, rfl⟩ := List.mem_map.mp listed
    exact ⟨_, _, valid.decidedHere_iff.mpr ⟨claim, member, rfl, rfl⟩, rfl⟩
  · intro id
    rw [valid.posts, Book.filter_posts, List.length_map]
    cases book.sent.lookup id <;> simp
  · intro call made
    rw [valid.posts] at made
    obtain ⟨post, listed, rfl⟩ := List.mem_map.mp made
    have decided := valid.decidedHere_iff.mpr ⟨post.1, book.claimed post listed, rfl, rfl⟩
    exact ⟨_, _, decided, rfl, post.1.tells settings post.2⟩
  · intro request notice phase refused touched
    have effective := effective_of_touched reached touched
    rw [phase] at effective
    exact effective refused

end Run

/-- One pending email approval, seen by two reviewers who disagree. -/
def conflictItem : Item where
  project := some (text "p01")
  kind := some (text "lead_email_approval")
  subjectId := some (text "lead-7")
  status := some .pending
  decidedAt := none
  decidedBy := none
  decision := none
  callbackWorkflowId := none

def conflictQueue : Queue := fun id => if id = 1 then some conflictItem else none

def conflictRequest : Fin 2 → Request
  | 0 => ⟨1, .approved, text "ann", text " fine "⟩
  | 1 => ⟨1, .rejected, text "bob", text ""⟩

def conflictSettings : Settings :=
  ⟨text "http://n8n/webhook/review-decision", [1], fun key body => key ++ body.take 2⟩

/-- Reviewer 0 commits first; the receiver is down when the decision is posted. -/
def conflictLabels : List (Fin 2 × Outcome) :=
  [(⟨0, Nat.zero_lt_two⟩, .works 10), (⟨1, Nat.one_lt_two⟩, .works 11), (⟨0, Nat.zero_lt_two⟩, .fails)]

/-- The call of the first reviewer, read by the receiver. -/
def conflictDecided : Json :=
  .object [(text "callback_workflow_id", .null), (text "decided_by", .string (text "ann")),
    (text "id", .string (text "00000000-0000-0000-0000-000000000001")),
    (text "kind", .string (text "lead_email_approval")), (text "project", .string (text "p01")),
    (text "reason", .string (text "fine")), (text "status", .string (text "approved")),
    (text "subject_id", .string (text "lead-7"))]

theorem conflictQueue_only {id : Uuid} {item : Item} (found : conflictQueue id = some item) :
    id = 1 ∧ item = conflictItem := by
  unfold conflictQueue at found
  split at found
  · rename_i same
    exact ⟨same, (Option.some.inj found).symm⟩
  · cases found

theorem decisions_once_conflict :
    ∃ system, run (step conflictSettings conflictRequest) (System.init (Fin 2) conflictQueue [])
          conflictLabels = some system ∧
      system.phase 0 = .answered (.receiverFailed .approved) ∧
      system.phase 1 = .answered .alreadyDecided ∧
      (∀ id : Uuid, (system.shared.posts.filter (·.payload.id = id.str)).length ≤ 1) ∧
      ∀ call ∈ system.shared.posts,
        loads Workflows.noFloats (call.body.map UInt8.toNat) = some conflictDecided := by
  have answers : (run (step conflictSettings conflictRequest)
      (System.init (Fin 2) conflictQueue []) conflictLabels).map
        (fun system => (system.phase 0, system.phase 1, system.shared.queue 1)) =
          some (.answered (.receiverFailed .approved), .answered .alreadyDecided,
            some ((conflictRequest 0).claimedRow conflictItem 10)) := rfl
  obtain ⟨system, reached, phases⟩ := Option.map_eq_some_iff.mp answers
  obtain ⟨first, rest⟩ := Prod.mk.inj phases
  obtain ⟨second, claimed⟩ := Prod.mk.inj rest
  obtain ⟨-, -, -, once, posts, -⟩ :=
    decisions_once conflictSettings conflictRequest conflictQueue [] conflictLabels system reached
  refine ⟨system, reached, first, second, once, ?_⟩
  intro call made
  obtain ⟨id, row, decided, -, tells⟩ := posts call made
  obtain ⟨item, found, -⟩ := decided.initially
  obtain ⟨rfl, rfl⟩ := conflictQueue_only found
  cases claimed.symm.trans decided.now
  exact tells.reads (by decide) (by decide) _ Workflows.noFloats_lawful

end N8nSystems.Review
