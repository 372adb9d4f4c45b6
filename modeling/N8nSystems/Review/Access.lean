import N8nSystems.Documents.Admission
import N8nSystems.Review.Decisions

/-! Who can decide: the approve and reject endpoints behind `require_basic`. -/

namespace N8nSystems.Review

open Lib Lib.Py

universe u

/-- The settings that `require_basic` reads. -/
structure Account where
  reviewUiUser : Text
  reviewUiPassword : Text
  reviewUiActorId : Text

structure HTTPBasicCredentials where
  username : Text
  password : Text

/-- Answers before the endpoint is entered: `401`, and the `500` for the `TypeError` of
`compare_digest`. -/
inductive Refusal where
  | unauthorized
  | serverError
  deriving DecidableEq

/-- `HTTPBasic`: the header has to be there, with credentials that decode as ASCII. -/
def basicScheme : Option HTTPBasicCredentials → Except Refusal HTTPBasicCredentials
  | none => .error .unauthorized
  | some credentials =>
    if credentials.username.all (· < 128) && credentials.password.all (· < 128) then .ok credentials
    else .error .unauthorized

/-- `require_basic`; both comparisons are made. -/
def requireBasic (account : Account) (credentials : HTTPBasicCredentials) : Except Refusal Text :=
  match Documents.compareDigest credentials.username account.reviewUiUser,
    Documents.compareDigest credentials.password account.reviewUiPassword with
  | some userOk, some passwordOk =>
    if !userOk || !passwordOk then .error .unauthorized else .ok account.reviewUiActorId
  | _, _ => .error .serverError

/-- A request to an approve or reject endpoint. -/
structure Visitor where
  credentials : Option HTTPBasicCredentials
  reviewId : Uuid
  status : Verdict
  reason : Text

def Visitor.request (visitor : Visitor) (actor : Text) : Request :=
  ⟨visitor.reviewId, visitor.status, actor, visitor.reason⟩

inductive Visit where
  | arrived
  | refused (refusal : Refusal)
  | admitted (actor : Text) (phase : Phase)

section
variable (settings : Settings) (account : Account) {ι : Type u} (visitors : ι → Visitor)

def enter (visitor : ι) (outcome : Outcome) (visit : Visit) (store : Store) : Option (Visit × Store) :=
  match visit with
  | .arrived =>
    match basicScheme (visitors visitor).credentials >>= requireBasic account with
    | .error refusal => some (.refused refusal, store)
    | .ok actor => some (.admitted actor .received, store)
  | .refused _ => none
  | .admitted actor phase =>
    (act settings (fun visitor => (visitors visitor).request actor) visitor outcome phase store).map
      fun out => (.admitted actor out.1, out.2)

/-- The requests of those who are let in. -/
def insiders (visitor : ι) : Request := (visitors visitor).request account.reviewUiActorId

/-- Where the decision of a visitor stands. -/
def Visit.phase : Visit → Phase
  | .admitted _ phase => phase
  | _ => .received

/-- The user and the password of the account. -/
def Authorized (visitor : Visitor) : Prop :=
  visitor.credentials = some ⟨account.reviewUiUser, account.reviewUiPassword⟩

/-- `compare_digest` compares texts in ASCII only. -/
def Account.Ascii (account : Account) : Prop :=
  (∀ c ∈ account.reviewUiUser, c < 128) ∧ ∀ c ∈ account.reviewUiPassword, c < 128

def inside (pool : Pool ι Visit Store) : System ι := ⟨pool.shared, fun visitor => (pool.phase visitor).phase⟩

end

section
variable {settings : Settings} {account : Account} {ι : Type u} {visitors : ι → Visitor}

theorem compareDigest_true {left right : Text} :
    Documents.compareDigest left right = some true ↔ left = right ∧ ∀ c ∈ right, c < 128 := by
  unfold Documents.compareDigest
  by_cases ascii : left.all (· < 128) ∧ right.all (· < 128)
  · rw [if_pos ascii, Option.some.injEq, beq_iff_eq]
    simp only [List.all_eq_true, decide_eq_true_eq] at ascii
    exact ⟨fun same => ⟨same, ascii.2⟩, fun both => both.1⟩
  · rw [if_neg ascii]
    constructor
    · intro raised
      cases raised
    · rintro ⟨rfl, small⟩
      simp only [List.all_eq_true, decide_eq_true_eq] at ascii
      exact absurd ⟨small, small⟩ ascii

theorem requireBasic_ok {credentials : HTTPBasicCredentials} {actor : Text} :
    requireBasic account credentials = .ok actor ↔
      (Documents.compareDigest credentials.username account.reviewUiUser = some true ∧
        Documents.compareDigest credentials.password account.reviewUiPassword = some true) ∧
          account.reviewUiActorId = actor := by
  simp only [requireBasic]
  rcases Documents.compareDigest credentials.username account.reviewUiUser with _ | _ | _ <;>
    rcases Documents.compareDigest credentials.password account.reviewUiPassword with _ | _ | _ <;> simp

/-- Only the user with the password is let in, when both are in ASCII. -/
theorem admitted_iff {visitor : Visitor} {actor : Text} :
    basicScheme visitor.credentials >>= requireBasic account = .ok actor ↔
      Authorized account visitor ∧ account.Ascii ∧ actor = account.reviewUiActorId := by
  cases given : visitor.credentials with
  | none =>
    simp [basicScheme, Authorized, given, bind, Except.bind]
  | some credentials =>
    obtain ⟨username, password⟩ := credentials
    rw [Authorized, given, Option.some.injEq, HTTPBasicCredentials.mk.injEq, Account.Ascii, basicScheme]
    split
    · show requireBasic account ⟨username, password⟩ = .ok actor ↔ _
      rw [requireBasic_ok, compareDigest_true, compareDigest_true]
      constructor
      · rintro ⟨⟨⟨user, first⟩, password, second⟩, actor⟩
        exact ⟨⟨user, password⟩, ⟨first, second⟩, actor.symm⟩
      · rintro ⟨⟨user, password⟩, ⟨first, second⟩, actor⟩
        exact ⟨⟨⟨user, first⟩, password, second⟩, actor.symm⟩
    · rename_i beyond
      refine iff_of_false (fun same => by cases same) ?_
      rintro ⟨⟨rfl, rfl⟩, ⟨first, second⟩, -⟩
      refine beyond ?_
      simp only [Bool.and_eq_true, List.all_eq_true, decide_eq_true_eq]
      exact ⟨first, second⟩

variable [DecidableEq ι] {queue : Queue} {audit : List AuditRow} {before after system : Pool ι Visit Store}
  {label : ι × Outcome} {labels : List (ι × Outcome)}

/-- Who is past the check had the credentials, and decides under the configured name. -/
def Checked (account : Account) (visitors : ι → Visitor) (pool : Pool ι Visit Store) : Prop :=
  ∀ visitor actor phase, pool.phase visitor = .admitted actor phase →
    Authorized account (visitors visitor) ∧ account.Ascii ∧ actor = account.reviewUiActorId

theorem inside_update (store : Store) (visitor : ι) (visit : Visit) :
    inside ⟨store, Function.update before.phase visitor visit⟩ =
      ⟨store, Function.update (inside before).phase visitor visit.phase⟩ := by
  refine congrArg (Pool.mk store) (funext fun other => ?_)
  by_cases own : other = visitor
  · subst own
    simp
  · simp [own, inside]

/-- A step checks the credentials of its visitor, or is one of the endpoint. -/
theorem enter_step (checked : Checked account visitors before)
    (taken : Pool.step (enter settings account visitors) before label = some after) :
    Checked account visitors after ∧
      (inside after = inside before ∨
        step settings (insiders account visitors) (inside before) label = some (inside after)) := by
  obtain ⟨visit, store, done, rfl⟩ := (Pool.step_iff _).mp taken
  have others (own : ∀ actor phase, visit = .admitted actor phase →
      Authorized account (visitors label.1) ∧ account.Ascii ∧ actor = account.reviewUiActorId) :
      Checked account visitors ⟨store, Function.update before.phase label.1 visit⟩ := by
    intro visitor actor phase admitted
    by_cases same : visitor = label.1
    · subst same
      simp only [Function.update_self] at admitted
      exact own actor phase admitted
    · simp only [Function.update_of_ne same] at admitted
      exact checked visitor actor phase admitted
  have idle (quiet : (before.phase label.1).phase = visit.phase) (same : store = before.shared) :
      inside ⟨store, Function.update before.phase label.1 visit⟩ = inside before := by
    rw [inside_update, ← quiet, same]
    exact congrArg (Pool.mk _) (Function.update_eq_self _ _)
  unfold enter at done
  split at done
  · rename_i arrived
    split at done
    · obtain ⟨rfl, rfl⟩ := Prod.mk.inj (Option.some.inj done)
      exact ⟨others fun _ _ same => (by cases same), .inl (idle (by rw [arrived]; rfl) rfl)⟩
    · rename_i actor accepted
      obtain ⟨rfl, rfl⟩ := Prod.mk.inj (Option.some.inj done)
      refine ⟨others ?_, .inl (idle (by rw [arrived]; rfl) rfl)⟩
      intro _ _ same
      cases same
      exact admitted_iff.mp accepted
  · cases done
  · rename_i actor phase admitted
    obtain ⟨⟨next, stored⟩, moved, same⟩ := Option.map_eq_some_iff.mp done
    obtain ⟨rfl, rfl⟩ := Prod.mk.inj same
    obtain ⟨authorized, ascii, rfl⟩ := checked label.1 actor phase admitted
    refine ⟨others fun _ _ same => ?_, .inr ((Pool.step_iff _).mpr ⟨next, stored, ?_, inside_update _ _ _⟩)⟩
    · cases same
      exact ⟨authorized, ascii, rfl⟩
    · have here : (inside before).phase label.1 = phase := congrArg Visit.phase admitted
      rw [here]
      exact moved

/-- No one has come. -/
def waiting (ι : Type u) (queue : Queue) (audit : List AuditRow) : Pool ι Visit Store :=
  ⟨⟨queue, audit, []⟩, fun _ => .arrived⟩

/-- What happens behind the check is a run of the endpoints. -/
theorem inside_of_run
    (reached : run (Pool.step (enter settings account visitors)) (waiting ι queue audit) labels = some system) :
    Checked account visitors system ∧ ∃ labels',
      run (step settings (insiders account visitors)) (System.init ι queue audit) labels' = some (inside system) := by
  refine run_invariant (fun system => Checked account visitors system ∧ ∃ labels',
    run (step settings (insiders account visitors)) (System.init ι queue audit) labels' = some (inside system))
    ⟨fun _ _ _ admitted => (by cases admitted), [], rfl⟩ ?_ reached
  rintro before label after ⟨checked, labels', earlier⟩ taken
  obtain ⟨still, same | moved⟩ := enter_step checked taken
  · exact ⟨still, labels', same ▸ earlier⟩
  · exact ⟨still, labels' ++ [label], (run_concat_iff _).mpr ⟨_, earlier, moved⟩⟩

omit [DecidableEq ι] in
/-- Who claims an item is past the check. -/
theorem claim_authorized {book : Book (insiders account visitors) queue}
    (valid : Represents settings audit book (inside system)) (checked : Checked account visitors system)
    {claim : Claim ι} (member : claim ∈ book.claims.entries) :
    Authorized account (visitors claim.request) ∧ account.Ascii := by
  have accounts := valid.phase claim.request
  cases visit : system.phase claim.request with
  | admitted actor phase =>
    obtain ⟨authorized, ascii, -⟩ := checked _ _ _ visit
    exact ⟨authorized, ascii⟩
  | arrived | refused =>
    have outside : (inside system).phase claim.request = .received := congrArg Visit.phase visit
    rw [outside] at accounts
    exact absurd rfl (accounts claim member)

/-- After every run of requests with any credentials: every decision, audit row and post is that of
a visitor with the user and the password of the account, under the configured name. A visitor is
let in only with these, and no one is when they are not in ASCII, so then nothing ever changes. -/
theorem decisions_authorized (settings : Settings) (account : Account) (visitors : ι → Visitor) (queue : Queue)
    (audit : List AuditRow) (labels : List (ι × Outcome)) (system : Pool ι Visit Store)
    (reached : run (Pool.step (enter settings account visitors)) (waiting ι queue audit) labels = some system) :
    (∀ id, system.shared.queue id = queue id ∨ ∃ visitor row, Authorized account (visitors visitor) ∧
      (visitors visitor).reviewId = id ∧ system.shared.queue id = some row ∧
      row.decidedBy = some account.reviewUiActorId ∧ row.status = some (visitors visitor).status.status) ∧
    (∃ log, system.shared.audit = audit ++ log ∧ ∀ entry ∈ log, entry.actorId = account.reviewUiActorId ∧
      ∃ visitor, Authorized account (visitors visitor) ∧ entry.subjectId = (visitors visitor).reviewId.str ∧
        entry.action = auditAction (visitors visitor).status) ∧
    (∀ call ∈ system.shared.posts, call.payload.decidedBy = account.reviewUiActorId ∧
      ∃ visitor, Authorized account (visitors visitor) ∧ call.payload.id = (visitors visitor).reviewId.str) ∧
    (∀ visitor actor phase, system.phase visitor = .admitted actor phase →
      Authorized account (visitors visitor) ∧ account.Ascii) ∧
    (¬account.Ascii → system.shared = ⟨queue, audit, []⟩) := by
  obtain ⟨checked, labels', inner⟩ := inside_of_run reached
  obtain ⟨book, valid⟩ := Represents.of_run inner
  have authorized {claim : Claim ι} (member : claim ∈ book.claims.entries) :=
    claim_authorized valid checked member
  refine ⟨?_, ⟨book.claims.entries.map (Claim.auditRow (insiders account visitors)), valid.audit, ?_⟩, ?_,
    fun visitor actor phase admitted => ⟨(checked visitor actor phase admitted).1,
      (checked visitor actor phase admitted).2.1⟩, ?_⟩
  · intro id
    have row := valid.queue id
    rw [Book.row] at row
    cases known : book.claims.lookup id with
    | none =>
      rw [known] at row
      exact .inl row
    | some claim =>
      obtain ⟨member, same⟩ := Ledger.lookup_eq_some.mp known
      rw [known] at row
      exact .inr ⟨claim.request, _, (authorized member).1, same, row, rfl, rfl⟩
  · intro entry listed
    obtain ⟨claim, member, rfl⟩ := List.mem_map.mp listed
    exact ⟨rfl, claim.request, (authorized member).1, rfl, rfl⟩
  · intro call made
    have posts := valid.posts
    rw [show (inside system).shared.posts = system.shared.posts from rfl] at posts
    rw [posts] at made
    obtain ⟨post, listed, rfl⟩ := List.mem_map.mp made
    exact ⟨rfl, post.1.request, (authorized (book.claimed post listed)).1, rfl⟩
  · intro beyond
    have unclaimed : book.claims.entries = [] :=
      List.eq_nil_iff_forall_not_mem.mpr fun claim member => beyond (authorized member).2
    have unsent : book.sent.entries = [] := by
      refine List.eq_nil_iff_forall_not_mem.mpr fun post member => ?_
      have claimed := book.claimed post member
      rw [unclaimed] at claimed
      cases claimed
    have audited := valid.audit
    have posted := valid.posts
    rw [unclaimed, List.map_nil, List.append_nil] at audited
    rw [unsent, List.map_nil] at posted
    have rows : system.shared.queue = queue := by
      refine funext fun id => (valid.queue id).trans ?_
      rw [Book.row, Ledger.lookup_eq_none.mpr]
      simp [Ledger.Fresh, unclaimed]
    obtain ⟨⟨_, _, _⟩, _⟩ := system
    cases rows
    cases audited
    cases posted
    rfl

end

def localAccount : Account := ⟨text "reviewer", text "change-me", text "local-reviewer"⟩

/-- The reviewer, and someone who guesses the password. -/
def twoVisitors : Bool → Visitor
  | false => ⟨some ⟨text "reviewer", text "change-me"⟩, 1, .approved, text ""⟩
  | true => ⟨some ⟨text "reviewer", text "guess"⟩, 1, .rejected, text ""⟩

theorem decisions_authorized_guess :
    ∃ system, run (Pool.step (enter conflictSettings localAccount twoVisitors)) (waiting Bool conflictQueue [])
        [(true, .works 10), (false, .works 10), (false, .works 11)] = some system ∧
      system.phase true = .refused .unauthorized ∧
      ∃ log, system.shared.audit = [] ++ log ∧ log.length = 1 ∧
        ∀ entry ∈ log, entry.actorId = text "local-reviewer" := by
  have outcome : (run (Pool.step (enter conflictSettings localAccount twoVisitors)) (waiting Bool conflictQueue [])
      [(true, .works 10), (false, .works 10), (false, .works 11)]).map
        (fun system => (system.phase true, system.shared.audit.length)) = some (.refused .unauthorized, 1) := rfl
  obtain ⟨system, reached, facts⟩ := Option.map_eq_some_iff.mp outcome
  obtain ⟨refused, one⟩ := Prod.mk.inj facts
  obtain ⟨-, ⟨log, audit, entries⟩, -⟩ :=
    decisions_authorized conflictSettings localAccount twoVisitors conflictQueue [] _ system reached
  refine ⟨system, reached, refused, log, audit, ?_, fun entry member => (entries entry member).1⟩
  rw [audit, List.nil_append] at one
  exact one

end N8nSystems.Review
