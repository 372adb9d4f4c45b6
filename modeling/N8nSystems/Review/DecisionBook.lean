import N8nSystems.Lib.Ledger
import N8nSystems.Review.Decide

/-! What the endpoints are for, as a book of decisions: each pending item is
claimed at most once, and each claim is posted at most once. The queue, the audit
log and the posts of every reachable state are the image of such a book. -/

namespace N8nSystems.Review

open Lib Lib.Py

universe u

/-- A committed decision: the request, the pending row it found and the time. -/
structure Claim (ι : Type u) where
  request : ι
  item : Item
  now : Int

section Claim

variable {ι : Type u} (requests : ι → Request)

def Claim.reviewId (claim : Claim ι) : Uuid := (requests claim.request).reviewId

def Claim.row (claim : Claim ι) : Item :=
  (requests claim.request).claimedRow claim.item claim.now

def Claim.auditRow (claim : Claim ι) : AuditRow :=
  (requests claim.request).auditRow claim.item

def Claim.call (settings : Settings) (claim : Claim ι) (delivered : Bool) : PostCall :=
  (requests claim.request).call settings (claim.row requests) delivered

end Claim

/-- The decisions taken over an initial queue, and the posts made for them. -/
structure Book {ι : Type u} (requests : ι → Request) (queue : Queue) extends
    Outbox (Claim.reviewId requests) where
  pending : ∀ claim ∈ claims.entries, queue (claim.reviewId requests) = some claim.item ∧
    claim.item.status = some .pending

variable {ι : Type u} {requests : ι → Request} {queue : Queue}

namespace Book

def empty (requests : ι → Request) (queue : Queue) : Book requests queue where
  toOutbox := .empty
  pending := by simp [Outbox.empty, Ledger.empty]

/-- The row of an item once the book's decisions are applied. -/
def row (book : Book requests queue) (id : Uuid) : Option Item :=
  match book.claims.lookup id with
  | none => queue id
  | some claim => some (claim.row requests)

/-- What the book says about a request at a phase. -/
def Accounts (book : Book requests queue) (request : ι) : Phase → Prop
  | .claimed row => ∃ claim ∈ book.claims.entries, claim.request = request ∧
      row = claim.row requests ∧ book.Unsent claim
  | .answered (.posted status) => status = (requests request).status ∧
      ∃ post ∈ book.sent.entries, post.1.request = request ∧ post.2 = true
  | .answered (.receiverFailed status) => status = (requests request).status ∧
      ∃ post ∈ book.sent.entries, post.1.request = request ∧ post.2 = false
  | _ => ∀ claim ∈ book.claims.entries, claim.request ≠ request

theorem accounts_notice {book : Book requests queue} :
    book.Accounts request (.answered ((requests request).notice delivered)) ↔
      ∃ post ∈ book.sent.entries, post.1.request = request ∧ post.2 = delivered := by
  cases delivered <;> simp [Request.notice, Accounts]

theorem accounts_refused {book : Book requests queue}
    (refused : notice ∈ [.dbError, .alreadyDecided]) :
    book.Accounts request (.answered notice) ↔
      ∀ claim ∈ book.claims.entries, claim.request ≠ request := by
  simp only [List.mem_cons, List.not_mem_nil, or_false] at refused
  rcases refused with rfl | rfl <;> rfl

/-- Record a claim of an item the book has not decided. -/
def claim (book : Book requests queue) (claim : Claim ι)
    (fresh : book.claims.Fresh (claim.reviewId requests))
    (found : queue (claim.reviewId requests) = some claim.item)
    (pending : claim.item.status = some .pending) : Book requests queue where
  toOutbox := book.toOutbox.claim claim fresh
  pending := by
    intro other member
    rcases (Outbox.mem_claim fresh).mp member with old | rfl
    · exact book.pending other old
    · exact ⟨found, pending⟩

/-- Record the post of a claim that has not been posted. -/
def post (book : Book requests queue) (claim : Claim ι) (delivered : Bool)
    (waiting : book.Unsent claim) : Book requests queue where
  toOutbox := book.toOutbox.send claim delivered waiting
  pending := book.pending

theorem row_claim_self {book : Book requests queue} {claim : Claim ι}
    {fresh : book.claims.Fresh (claim.reviewId requests)} {found pending} :
    (book.claim claim fresh found pending).row (claim.reviewId requests) =
      some (claim.row requests) := by
  simp only [row, Book.claim, Outbox.claim, Ledger.lookup_append_self fresh]

theorem row_claim_other {book : Book requests queue} {claim : Claim ι}
    {fresh : book.claims.Fresh (claim.reviewId requests)} {found pending} {id : Uuid}
    (other : claim.reviewId requests ≠ id) :
    (book.claim claim fresh found pending).row id = book.row id := by
  simp only [row, Book.claim, Outbox.claim, Ledger.lookup_append_other fresh other]

/-- A claimed row is no longer pending. -/
theorem claim_row_status (claim : Claim ι) : (claim.row requests).status ≠ some .pending := by
  simp only [Claim.row, Request.claimedRow, Item.claim]
  cases (requests claim.request).status <;> simp [Verdict.status]

theorem fresh_of_pending {book : Book requests queue} {id : Uuid} (found : book.row id = some item)
    (pending : item.status = some .pending) : book.claims.Fresh id := by
  apply Ledger.lookup_eq_none.mp
  cases decided : book.claims.lookup id with
  | none => rfl
  | some claim =>
    simp only [row, decided, Option.some.injEq] at found
    exact absurd (found ▸ pending) (claim_row_status claim)

end Book

/-- A reachable state is the image of a book over the initial queue and audit log. -/
structure Represents (settings : Settings) (audit : List AuditRow) (book : Book requests queue)
    (system : System ι) : Prop where
  queue : ∀ id, system.shared.queue id = book.row id
  audit : system.shared.audit = audit ++ book.claims.entries.map (Claim.auditRow requests)
  posts : system.shared.posts =
    book.sent.entries.map fun post => post.1.call requests settings post.2
  phase : ∀ request, book.Accounts request (system.phase request)

theorem Represents.init (settings : Settings) (audit : List AuditRow) :
    Represents settings audit (Book.empty requests queue) (System.init ι queue audit) where
  queue _ := rfl
  audit := by simp [System.init, Book.empty, Outbox.empty, Ledger.empty]
  posts := rfl
  phase _ := by simp [System.init, Book.Accounts, Book.empty, Outbox.empty, Ledger.empty]

/-- Recording a claim keeps what the book says about the other requests. -/
theorem Book.Accounts.claim {book : Book requests queue} {claim : Claim ι}
    {fresh : book.claims.Fresh (claim.reviewId requests)} {found pending}
    (accounts : book.Accounts request phase) (other : request ≠ claim.request) :
    (book.claim claim fresh found pending).Accounts request phase := by
  have absent (none : ∀ old ∈ book.claims.entries, old.request ≠ request) :
      ∀ old ∈ (book.claim claim fresh found pending).claims.entries, old.request ≠ request := by
    intro old member
    rcases (Outbox.mem_claim fresh).mp member with earlier | rfl
    · exact none old earlier
    · exact other.symm
  cases phase with
  | received => exact absent accounts
  | claimed row =>
    obtain ⟨old, member, same, shape, unposted⟩ := accounts
    exact ⟨old, (Outbox.mem_claim fresh).mpr (.inl member), same, shape, Outbox.unsent_claim fresh unposted⟩
  | answered notice =>
    cases notice with
    | dbError => exact absent accounts
    | alreadyDecided => exact absent accounts
    | receiverFailed status => exact accounts
    | posted status => exact accounts

/-- Recording a post keeps what the book says about the other requests. -/
theorem Book.Accounts.post {book : Book requests queue} {claim : Claim ι}
    {waiting : book.Unsent claim}
    (accounts : book.Accounts request phase) (other : request ≠ claim.request) :
    (book.post claim delivered waiting).Accounts request phase := by
  cases phase with
  | received => exact accounts
  | claimed row =>
    obtain ⟨old, present, same, shape, unposted⟩ := accounts
    refine ⟨old, present, same, shape, Outbox.unsent_send waiting unposted ?_⟩
    rintro rfl
    exact other same.symm
  | answered notice =>
    cases notice with
    | dbError => exact accounts
    | alreadyDecided => exact accounts
    | receiverFailed status =>
      obtain ⟨same, post, listed, own, failed⟩ := accounts
      exact ⟨same, post, (Outbox.mem_send waiting).mpr (.inl listed), own, failed⟩
    | posted status =>
      obtain ⟨same, post, listed, own, delivered⟩ := accounts
      exact ⟨same, post, (Outbox.mem_send waiting).mpr (.inl listed), own, delivered⟩

variable [DecidableEq ι]

/-- Every step of the endpoints is a step of the book: nothing, a claim or a post. -/
theorem Represents.step {settings : Settings} {audit : List AuditRow} {book : Book requests queue}
    {before after : System ι} {label : ι × Outcome} (valid : Represents settings audit book before)
    (taken : step settings requests before label = some after) :
    ∃ next : Book requests queue, Represents settings audit next after := by
  have others : ∀ request, request ≠ label.1 → after.phase request = before.phase request :=
    fun request other => Pool.step_other _ taken other
  have own := valid.phase label.1
  rcases step_cases taken with ⟨notice, phase, refused, next, store⟩ |
    ⟨now, item, phase, found, pending, next, store⟩ | ⟨row, delivered, phase, next, store⟩
  · rw [phase] at own
    refine ⟨book, ⟨?_, ?_, ?_, ?_⟩⟩
    · exact store ▸ valid.queue
    · exact store ▸ valid.audit
    · exact store ▸ valid.posts
    · intro request
      by_cases moved : request = label.1
      · subst moved
        rw [next]
        exact (Book.accounts_refused refused).mpr own
      · rw [others request moved]
        exact valid.phase request
  · rw [phase] at own
    have fresh := Book.fresh_of_pending (valid.queue _ ▸ found) pending
    have initial : queue (requests label.1).reviewId = some item := by
      have image := valid.queue (requests label.1).reviewId
      rw [found, Book.row, Ledger.lookup_eq_none.mpr fresh] at image
      exact image.symm
    let claim : Claim ι := ⟨label.1, item, now⟩
    refine ⟨book.claim claim fresh initial pending, ⟨?_, ?_, ?_, ?_⟩⟩
    · intro id
      rw [store]
      by_cases same : (requests label.1).reviewId = id
      · subst same
        have written : (book.claim claim fresh initial pending).row (requests label.1).reviewId =
            some (claim.row requests) := Book.row_claim_self
        rw [written]
        exact Function.update_self _ _ _
      · have kept : (book.claim claim fresh initial pending).row id = book.row id :=
          Book.row_claim_other same
        rw [kept, ← valid.queue id]
        exact Function.update_of_ne (Ne.symm same) _ _
    · rw [store, valid.audit]
      simp [Book.claim, Outbox.claim, Ledger.append, claim, Claim.auditRow]
    · rw [store]
      exact valid.posts
    · intro request
      by_cases moved : request = label.1
      · subst moved
        rw [next]
        exact ⟨claim, (Outbox.mem_claim fresh).mpr (.inr rfl), rfl, rfl, Outbox.unsent_claim_self fresh⟩
      · rw [others request moved]
        exact (valid.phase request).claim moved
  · rw [phase] at own
    obtain ⟨claim, member, same, shape, unposted⟩ := own
    refine ⟨book.post claim delivered unposted, ⟨?_, ?_, ?_, ?_⟩⟩
    · rw [store]
      exact valid.queue
    · rw [store]
      exact valid.audit
    · rw [store, valid.posts, shape, ← same]
      simp [Book.post, Outbox.send, Ledger.append, Claim.call]
    · intro request
      by_cases moved : request = label.1
      · subst moved
        rw [next]
        exact Book.accounts_notice.mpr
          ⟨(claim, delivered), (Outbox.mem_send unposted).mpr (.inr rfl), same, rfl⟩
      · rw [others request moved]
        exact (valid.phase request).post (same ▸ moved)

/-- Every reachable state is the image of a book. -/
theorem Represents.of_run {settings : Settings} {audit : List AuditRow}
    {labels : List (ι × Outcome)} {system : System ι}
    (reached : run (Review.step settings requests) (System.init ι queue audit) labels = some system) :
    ∃ book : Book requests queue, Represents settings audit book system := by
  refine run_invariant (fun system => ∃ book : Book requests queue,
    Represents settings audit book system) ⟨_, .init settings audit⟩ ?_ reached
  rintro before label after ⟨book, valid⟩ taken
  exact valid.step taken

end N8nSystems.Review
