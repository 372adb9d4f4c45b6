import N8nSystems.Lib.Pool
import N8nSystems.Lib.PyText

/-! The approve and reject endpoints of the review UI: the claim-plus-audit
transaction of `apply_decision`, then the signed POST to the decision receiver. -/

namespace N8nSystems.Review

open Lib Lib.Py

universe u

/-- `ops.review_queue.status`, as its CHECK constraint lists it. -/
inductive Status where
  | pending | approved | rejected | expired
  deriving DecidableEq, Repr

def Status.value : Status → Text
  | .pending => text "pending"
  | .approved => text "approved"
  | .rejected => text "rejected"
  | .expired => text "expired"

/-- The status an endpoint passes to `_decide`. -/
inductive Verdict where
  | approved | rejected
  deriving DecidableEq, Repr

def Verdict.status : Verdict → Status
  | .approved => .approved
  | .rejected => .rejected

structure Decision where
  reason : Option Text
  status : Status
  deriving DecidableEq, Repr

/-- A row of `ops.review_queue`; every column but the id is nullable. -/
structure Item where
  project : Option Text
  kind : Option Text
  subjectId : Option Text
  status : Option Status
  decidedAt : Option Int
  decidedBy : Option Text
  decision : Option Decision
  callbackWorkflowId : Option Text
  deriving DecidableEq, Repr

structure AuditAfter where
  decidedBy : Text
  reason : Option Text
  status : Status
  deriving DecidableEq, Repr

/-- A row of `ops.audit_log`; `before` holds the status of its JSON object. -/
structure AuditRow where
  actorType : Text
  actorId : Text
  project : Option Text
  action : Text
  subjectType : Text
  subjectId : Text
  before : Status
  after : AuditAfter
  reason : Option Text
  deriving DecidableEq, Repr

abbrev Queue := Uuid → Option Item

structure DecisionBody where
  callbackWorkflowId : Option Text
  decidedBy : Text
  id : Text
  kind : Option Text
  project : Option Text
  reason : Option Text
  status : Status
  subjectId : Option Text
  deriving DecidableEq, Repr

/-- One call of `post_decision`: its payload, what went over the wire, and
whether the receiver answered with success. -/
structure PostCall where
  url : Text
  payload : DecisionBody
  body : Bytes
  signature : Text
  delivered : Bool
  deriving DecidableEq, Repr

structure Store where
  queue : Queue
  audit : List AuditRow
  posts : List PostCall

structure Settings where
  reviewReceiverUrl : Text
  /-- The UTF-8 bytes of `review_hmac_secret`. -/
  reviewHmacSecret : Bytes
  hmacSha256 : Bytes → Bytes → Bytes

structure Request where
  reviewId : Uuid
  status : Verdict
  actor : Text
  reason : Text
  deriving DecidableEq, Repr

/-- The `notice` of the redirect that answers a request. -/
inductive Notice where
  | dbError
  | alreadyDecided
  | receiverFailed (status : Verdict)
  | posted (status : Verdict)
  deriving DecidableEq, Repr

def Notice.value : Notice → Text
  | .dbError => text "db_error"
  | .alreadyDecided => text "already_decided"
  | .receiverFailed .approved => text "approved_receiver_failed"
  | .receiverFailed .rejected => text "rejected_receiver_failed"
  | .posted .approved => text "approved"
  | .posted .rejected => text "rejected"

/-- The row that `CLAIM_DECISION_SQL` writes over a pending one. -/
def Item.claim (item : Item) (status : Verdict) (decidedBy : Text) (decision : Decision)
    (now : Int) : Item :=
  { item with
    status := some status.status
    decidedAt := some now
    decidedBy := some decidedBy
    decision := some decision }

/-- `CLAIM_DECISION_SQL`: the rows it returns and the table after it. -/
def claimDecision (queue : Queue) (id : Uuid) (status : Verdict) (decidedBy : Text)
    (decision : Decision) (now : Int) : List Item × Queue :=
  match queue id with
  | none => ([], queue)
  | some item =>
    if item.status = some .pending then
      let row := item.claim status decidedBy decision now
      ([row], Function.update queue id (some row))
    else ([], queue)

def alreadyDecided (returningRowcount : Nat) : Bool := returningRowcount == 0

def auditAction : Verdict → Text
  | .approved => text "review.approve"
  | .rejected => text "review.reject"

def auditPayloads (status : Verdict) (decidedBy : Text) (reason : Option Text) :
    Status × AuditAfter :=
  (.pending, ⟨decidedBy, reason, status.status⟩)

/-- `INSERT_AUDIT_SQL` with its two literal columns. -/
def auditRow (actorId : Text) (project : Option Text) (action subjectId : Text)
    (payloads : Status × AuditAfter) (reason : Option Text) : AuditRow where
  actorType := text "human"
  actorId := actorId
  project := project
  action := action
  subjectType := text "review_queue"
  subjectId := subjectId
  before := payloads.1
  after := payloads.2
  reason := reason

/-- What the environment does to a step: the call fails, or it works at the
database time `now`. -/
inductive Outcome where
  | fails
  | works (now : Int)
  deriving DecidableEq, Repr

/-- `apply_decision`, one transaction: `none` for `DatabaseUnavailable`, which
rolled back, else the claimed row or `None`. -/
def applyDecision (store : Store) (reviewId : Uuid) (status : Verdict) (decidedBy : Text)
    (reason : Option Text) (outcome : Outcome) : Option (Option Item) × Store :=
  match outcome with
  | .fails => (none, store)
  | .works now =>
    let payloads := auditPayloads status decidedBy reason
    let (rows, queue) :=
      claimDecision store.queue reviewId status decidedBy ⟨reason, status.status⟩ now
    if alreadyDecided rows.length then (some none, store)
    else
      let row := auditRow decidedBy (rows.head?.bind Item.project) (auditAction status)
        reviewId.str payloads reason
      (some rows.head?, { store with queue := queue, audit := store.audit ++ [row] })

def decisionBody (reviewId : Uuid) (status : Verdict) (decidedBy : Text) (reason : Option Text)
    (claimed : Item) : DecisionBody where
  callbackWorkflowId := claimed.callbackWorkflowId
  decidedBy := decidedBy
  id := reviewId.str
  kind := claimed.kind
  project := claimed.project
  reason := reason
  status := status.status
  subjectId := claimed.subjectId

/-- `encode_body`: compact JSON with sorted keys. Its text is ASCII. -/
def encodeBody (payload : DecisionBody) : Bytes :=
  let field (name : String) (value : Option Text) := jsonText (some (text name)) ++ [58] ++ jsonText value
  let fields := [field "callback_workflow_id" payload.callbackWorkflowId,
    field "decided_by" payload.decidedBy, field "id" payload.id, field "kind" payload.kind,
    field "project" payload.project, field "reason" payload.reason,
    field "status" payload.status.value, field "subject_id" payload.subjectId]
  (text "\x7b" ++ [44].intercalate fields ++ text "\x7d").map UInt8.ofNat

def signBody (settings : Settings) (body : Bytes) : Text :=
  text "sha256=" ++ hex (settings.hmacSha256 settings.reviewHmacSecret body)

def postDecision (settings : Settings) (payload : DecisionBody) (delivered : Bool) : PostCall :=
  let body := encodeBody payload
  ⟨settings.reviewReceiverUrl, payload, body, signBody settings body, delivered⟩

def Request.reasonValue (request : Request) : Option Text := stripOrNone request.reason

/-- The row a request leaves in place of the pending one it found. -/
def Request.claimedRow (request : Request) (item : Item) (now : Int) : Item :=
  item.claim request.status request.actor ⟨request.reasonValue, request.status.status⟩ now

/-- The audit row a request writes when it claims an item. -/
def Request.auditRow (request : Request) (item : Item) : AuditRow :=
  Review.auditRow request.actor item.project (auditAction request.status) request.reviewId.str
    (auditPayloads request.status request.actor request.reasonValue) request.reasonValue

/-- The first half of `_decide`: the transaction, and the answer when there is
nothing to post. -/
def Request.apply (request : Request) (store : Store) (outcome : Outcome) :
    (Notice ⊕ Item) × Store :=
  match applyDecision store request.reviewId request.status request.actor request.reasonValue
    outcome with
  | (none, store) => (.inl .dbError, store)
  | (some none, store) => (.inl .alreadyDecided, store)
  | (some (some claimed), store) => (.inr claimed, store)

def Request.call (settings : Settings) (request : Request) (claimed : Item) (delivered : Bool) :
    PostCall :=
  postDecision settings (decisionBody request.reviewId request.status request.actor
    request.reasonValue claimed) delivered

def Request.notice (request : Request) (delivered : Bool) : Notice :=
  if delivered then .posted request.status else .receiverFailed request.status

/-- The second half of `_decide`: the POST and its answer. -/
def Request.post (settings : Settings) (request : Request) (claimed : Item) (store : Store)
    (outcome : Outcome) : Notice × Store :=
  let delivered := match outcome with
    | .fails => false
    | .works _ => true
  (request.notice delivered,
    { store with posts := store.posts ++ [request.call settings claimed delivered] })

/-- `_decide` without interruption. -/
def Request.decide (settings : Settings) (request : Request) (store : Store)
    (transaction post : Outcome) : Notice × Store :=
  match request.apply store transaction with
  | (.inl notice, store) => (notice, store)
  | (.inr claimed, store) => request.post settings claimed store post

/-- Where a request stands between its two effects. -/
inductive Phase where
  | received
  | claimed (row : Item)
  | answered (notice : Notice)
  deriving DecidableEq, Repr

def act (settings : Settings) {ι : Type u} (requests : ι → Request) (request : ι)
    (outcome : Outcome) (phase : Phase) (store : Store) : Option (Phase × Store) :=
  match phase with
  | .received =>
    match (requests request).apply store outcome with
    | (.inl notice, store) => some (.answered notice, store)
    | (.inr row, store) => some (.claimed row, store)
  | .claimed row =>
    let (notice, store) := (requests request).post settings row store outcome
    some (.answered notice, store)
  | .answered _ => none

abbrev System (ι : Type u) := Pool ι Phase Store

/-- Any queue and audit log, before the first request. -/
def System.init (ι : Type u) (queue : Queue) (audit : List AuditRow) : System ι :=
  ⟨⟨queue, audit, []⟩, fun _ => .received⟩

variable {ι : Type u} [DecidableEq ι]

def step (settings : Settings) (requests : ι → Request) (system : System ι)
    (label : ι × Outcome) : Option (System ι) :=
  Pool.step (act settings requests) system label

theorem claimDecision_pending {queue : Queue} {id : Uuid} (found : queue id = some item)
    (pending : item.status = some .pending) :
    claimDecision queue id status decidedBy decision now =
      ([item.claim status decidedBy decision now],
        Function.update queue id (some (item.claim status decidedBy decision now))) := by
  simp [claimDecision, found, pending]

theorem claimDecision_other {queue : Queue} {id : Uuid}
    (other : ∀ item, queue id = some item → item.status ≠ some .pending) :
    claimDecision queue id status decidedBy decision now = ([], queue) := by
  unfold claimDecision
  split
  · rfl
  · rename_i item found
    rw [if_neg (other item found)]

/-- The transaction of a request: it aborts, finds no pending row, or claims the
row and writes the audit row with it. -/
theorem Request.apply_cases (request : Request) (store : Store) (outcome : Outcome) :
    (outcome = .fails ∧ request.apply store outcome = (.inl .dbError, store)) ∨
      ((∀ item, store.queue request.reviewId = some item → item.status ≠ some .pending) ∧
        request.apply store outcome = (.inl .alreadyDecided, store)) ∨
      (∃ now item, outcome = .works now ∧ store.queue request.reviewId = some item ∧
        item.status = some .pending ∧
        request.apply store outcome = (.inr (request.claimedRow item now),
          { store with
            queue := Function.update store.queue request.reviewId
              (some (request.claimedRow item now))
            audit := store.audit ++ [request.auditRow item] })) := by
  cases outcome with
  | fails => exact .inl ⟨rfl, rfl⟩
  | works now =>
    right
    by_cases pending : ∃ item, store.queue request.reviewId = some item ∧
        item.status = some .pending
    · right
      obtain ⟨item, found, pending⟩ := pending
      refine ⟨now, item, rfl, found, pending, ?_⟩
      simp only [Request.apply, applyDecision, claimDecision_pending found pending]
      rfl
    · left
      have other : ∀ item, store.queue request.reviewId = some item →
          item.status ≠ some .pending :=
        fun item found also => pending ⟨item, found, also⟩
      refine ⟨other, ?_⟩
      simp only [Request.apply, applyDecision, claimDecision_other other]
      rfl

/-- Everything one step can do to the moving request and the store. -/
theorem step_cases {settings : Settings} {requests : ι → Request} {before after : System ι}
    {label : ι × Outcome} (taken : step settings requests before label = some after) :
    (∃ notice, before.phase label.1 = .received ∧ notice ∈ [.dbError, .alreadyDecided] ∧
        after.phase label.1 = .answered notice ∧ after.shared = before.shared) ∨
      (∃ now item, before.phase label.1 = .received ∧
        before.shared.queue (requests label.1).reviewId = some item ∧
        item.status = some .pending ∧
        after.phase label.1 = .claimed ((requests label.1).claimedRow item now) ∧
        after.shared = { before.shared with
          queue := Function.update before.shared.queue (requests label.1).reviewId
            (some ((requests label.1).claimedRow item now))
          audit := before.shared.audit ++ [(requests label.1).auditRow item] }) ∨
      (∃ row delivered, before.phase label.1 = .claimed row ∧
        after.phase label.1 = .answered ((requests label.1).notice delivered) ∧
        after.shared = { before.shared with
          posts := before.shared.posts ++ [(requests label.1).call settings row delivered] }) := by
  have own := Pool.step_own _ taken
  cases phase : before.phase label.1 with
  | received =>
    rcases (requests label.1).apply_cases before.shared label.2 with
      ⟨_, applied⟩ | ⟨_, applied⟩ | ⟨now, item, _, found, pending, applied⟩
    all_goals
      simp only [act, phase, applied] at own
      obtain ⟨next, store⟩ := Prod.mk.inj (Option.some.inj own)
    · exact .inl ⟨.dbError, rfl, by simp, next.symm, store.symm⟩
    · exact .inl ⟨.alreadyDecided, rfl, by simp, next.symm, store.symm⟩
    · exact .inr (.inl ⟨now, item, rfl, found, pending, next.symm, store.symm⟩)
  | claimed row =>
    simp only [act, phase, Request.post] at own
    obtain ⟨next, store⟩ := Prod.mk.inj (Option.some.inj own)
    exact .inr (.inr ⟨row, _, rfl, next.symm, store.symm⟩)
  | answered notice =>
    simp [act, phase] at own

/-- A request whose steps are not interleaved with others does what `_decide` does. -/
theorem decide_run (settings : Settings) (requests : ι → Request) (system : System ι)
    (request : ι) (idle : system.phase request = .received) (transaction post : Outcome) :
    ∃ labels final, run (step settings requests) system labels = some final ∧
      final.phase request =
        .answered ((requests request).decide settings system.shared transaction post).1 ∧
      final.shared = ((requests request).decide settings system.shared transaction post).2 := by
  cases applied : (requests request).apply system.shared transaction with
  | mk out store =>
    cases out with
    | inl notice =>
      refine ⟨[(request, transaction)], ⟨store, Function.update system.phase request
        (.answered notice)⟩, ?_, ?_, ?_⟩
      · simp [run, step, Pool.step, act, idle, applied]
      · simp [Request.decide, applied]
      · simp [Request.decide, applied]
    | inr row =>
      refine ⟨[(request, transaction), (request, post)],
        ⟨((requests request).post settings row store post).2,
          Function.update (Function.update system.phase request (.claimed row)) request
            (.answered ((requests request).post settings row store post).1)⟩, ?_, ?_, ?_⟩
      · simp [run, step, Pool.step, act, idle, applied]
      · simp [Request.decide, applied]
      · simp [Request.decide, applied]

end N8nSystems.Review
