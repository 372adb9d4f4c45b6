import N8nSystems.Review.Decisions

/-! The receiver POST of a decision is tried once, by the request that committed
it. Whatever requests follow, a failed POST is not repeated. -/

namespace N8nSystems.Review

open Lib Lib.Py

universe u

variable {ι : Type u} {requests : ι → Request} {queue : Queue}

/-- The calls made for one item. -/
def callsFor (system : System ι) (id : Uuid) : List PostCall :=
  system.shared.posts.filter (·.payload.id = id.str)

theorem callsFor_grown {before after : System ι} {call : PostCall} {id : Uuid}
    (grown : after.shared.posts = before.shared.posts ++ [call])
    (named : call.payload.id = id.str) : callsFor after id = callsFor before id ++ [call] := by
  simp [callsFor, grown, named]

theorem callsFor_eq {settings : Settings} {audit : List AuditRow} {book : Book requests queue}
    {system : System ι} (valid : Represents settings audit book system) (id : Uuid) :
    callsFor system id =
      (book.sent.lookup id).toList.map fun post => post.1.call requests settings post.2 := by
  rw [callsFor, valid.posts, Book.filter_posts]

/-- A decision that has not been posted is held by the request that committed it. -/
theorem Represents.held {settings : Settings} {audit : List AuditRow} {book : Book requests queue}
    {system : System ι} {claim : Claim ι} (valid : Represents settings audit book system)
    (member : claim ∈ book.claims.entries)
    (unposted : book.sent.lookup (claim.reviewId requests) = none) :
    system.phase claim.request = .claimed (claim.row requests) := by
  have accounts := valid.phase claim.request
  have posted (post : Claim ι × Bool) (listed : post ∈ book.sent.entries) :
      post.1.request ≠ claim.request := by
    intro own
    apply Ledger.lookup_eq_none.mp unposted post listed
    simp only [Claim.reviewId, own]
  cases phase : system.phase claim.request with
  | received =>
    rw [phase] at accounts
    exact absurd rfl (accounts claim member)
  | claimed row =>
    rw [phase] at accounts
    obtain ⟨other, also, own, rfl, _⟩ := accounts
    have same : other = claim := by
      apply Ledger.eq_of_key also member
      simp only [Claim.reviewId, own]
    rw [same]
  | answered notice =>
    rw [phase] at accounts
    cases notice with
    | dbError => exact absurd rfl (accounts claim member)
    | alreadyDecided => exact absurd rfl (accounts claim member)
    | receiverFailed status =>
      obtain ⟨_, post, listed, own, _⟩ := accounts
      exact absurd own (posted post listed)
    | posted status =>
      obtain ⟨_, post, listed, own, _⟩ := accounts
      exact absurd own (posted post listed)

variable [DecidableEq ι]

theorem posts_step {settings : Settings} {before after : System ι} {label : ι × Outcome}
    (taken : step settings requests before label = some after) :
    before.shared.posts <+: after.shared.posts := by
  rcases step_cases taken with ⟨_, _, _, _, store⟩ | ⟨_, _, _, _, _, _, store⟩ |
    ⟨_, _, _, _, store⟩
  · exact store ▸ List.prefix_refl _
  · exact store ▸ List.prefix_refl _
  · exact store ▸ List.prefix_append _ _

/-- Calls are only ever added. -/
theorem callsFor_run {settings : Settings} {system later : System ι} {more : List (ι × Outcome)}
    (continued : run (step settings requests) system more = some later) (id : Uuid) :
    callsFor system id <+: callsFor later id := by
  have grown : system.shared.posts <+: later.shared.posts :=
    run_relation (fun before after : System ι => before.shared.posts <+: after.shared.posts)
      (fun _ => List.prefix_refl _) (fun _ _ _ first second => List.IsPrefix.trans first second)
      (fun _ _ _ taken => posts_step taken) continued
  exact grown.filter _

theorem callsFor_length {settings : Settings} {audit : List AuditRow}
    {labels : List (ι × Outcome)} {system : System ι}
    (reached : run (step settings requests) (System.init ι queue audit) labels = some system)
    (id : Uuid) : (callsFor system id).length ≤ 1 := by
  obtain ⟨book, valid⟩ := Represents.of_run reached
  rw [callsFor_eq valid, List.length_map]
  cases book.sent.lookup id <;> simp

/-- Once a call has been made for an item, no run adds another. -/
theorem callsFor_fixed {settings : Settings} {audit : List AuditRow} {labels more : List (ι × Outcome)}
    {system later : System ι} {id : Uuid} {call : PostCall}
    (reached : run (step settings requests) (System.init ι queue audit) labels = some system)
    (continued : run (step settings requests) system more = some later)
    (made : callsFor system id = [call]) : callsFor later id = [call] := by
  have whole : run (step settings requests) (System.init ι queue audit) (labels ++ more) =
      some later := (run_append_iff _).mpr ⟨system, reached, continued⟩
  have bound := callsFor_length whole id
  have kept := callsFor_run continued id
  rw [made] at kept
  exact (kept.eq_of_length_le (by simpa using bound)).symm

/-- A request that starts on a decided item is refused. -/
theorem refused_run {settings : Settings} {system later : System ι} {more : List (ι × Outcome)}
    {request : ι} {row : Item} (continued : run (step settings requests) system more = some later)
    (now : system.shared.queue (requests request).reviewId = some row)
    (decided : row.status ≠ some .pending) (idle : system.phase request = .received) :
    later.phase request = .received ∨
      ∃ notice ∈ [.dbError, .alreadyDecided], later.phase request = .answered notice := by
  have both := run_invariant (fun pool : System ι =>
      pool.shared.queue (requests request).reviewId = some row ∧ (pool.phase request = .received ∨
        ∃ notice ∈ [.dbError, .alreadyDecided], pool.phase request = .answered notice))
    ⟨now, .inl idle⟩ ?_ continued
  · exact both.2
  rintro before label after ⟨held, phase⟩ taken
  refine ⟨queue_step taken held decided, ?_⟩
  by_cases moved : request = label.1
  · subst moved
    rcases step_cases taken with ⟨notice, _, refused, next, _⟩ |
      ⟨_, item, _, found, pending, _⟩ | ⟨_, _, claimed, _⟩
    · exact .inr ⟨notice, refused, next⟩
    · cases held.symm.trans found
      exact absurd pending decided
    · rcases phase with start | ⟨notice, _, done⟩
      · cases claimed.symm.trans start
      · cases claimed.symm.trans done
  · rw [Pool.step_other _ taken moved]
    exact phase

/-- A successful call has carried the decision, or some continuation still makes
a call that carries it. -/
def Deliverable (settings : Settings) (requests : ι → Request) (system : System ι) (id : Uuid)
    (row : Item) : Prop :=
  (∃ call ∈ callsFor system id, call.delivered ∧ Carries call.payload row) ∨
    ∃ more later fresh call, run (step settings requests) system more = some later ∧
      later.shared.posts = system.shared.posts ++ fresh ∧ call ∈ fresh ∧
      call.payload.id = id.str ∧ Carries call.payload row

theorem not_deliverable {settings : Settings} {audit : List AuditRow} {labels : List (ι × Outcome)}
    {system : System ι} {id : Uuid} {call : PostCall}
    (reached : run (step settings requests) (System.init ι queue audit) labels = some system)
    (made : callsFor system id = [call]) (failed : call.delivered = false) (row : Item) :
    ¬ Deliverable settings requests system id row := by
  rintro (⟨other, member, delivered, _⟩ |
    ⟨more, later, fresh, again, continued, grown, member, same, _⟩)
  · rw [made] at member
    obtain rfl := List.mem_singleton.mp member
    rw [failed] at delivered
    cases delivered
  · have fixed := callsFor_fixed reached continued made
    rw [callsFor, grown, List.filter_append, ← callsFor, made] at fixed
    have none : fresh.filter (·.payload.id = id.str) = [] := by simpa using fixed
    have present : again ∈ fresh.filter (·.payload.id = id.str) :=
      List.mem_filter.mpr ⟨member, by simpa using same⟩
    rw [none] at present
    cases present

/-- Every request there can be, each any number of times: one approval whose POST
fails leaves an item whose decision no request will ever deliver. -/
theorem failed_post_stranded :
    ∃ labels : List ((Request × Nat) × Outcome), ∃ system row,
      run (step conflictSettings (ι := Request × Nat) Prod.fst)
        (System.init (Request × Nat) conflictQueue []) labels = some system ∧
      DecidedHere conflictQueue system 1 row ∧
      ¬ Deliverable conflictSettings Prod.fst system 1 row := by
  let request := conflictRequest 0
  let row := request.claimedRow conflictItem 10
  let call := request.call conflictSettings row false
  obtain ⟨labels, system, reached, _, store⟩ := decide_run conflictSettings Prod.fst
    (System.init (Request × Nat) conflictQueue []) (request, 0) rfl (.works 10) .fails
  have handled : system.shared = ⟨Function.update conflictQueue 1 (some row),
      [request.auditRow conflictItem], [call]⟩ := store
  refine ⟨labels, system, row, reached, ⟨⟨conflictItem, rfl, rfl⟩, ?_, ?_⟩, ?_⟩
  · rw [handled]
    rfl
  · decide
  · have made : callsFor system 1 = [call] := by
      have named : call.payload.id = Uuid.str 1 := rfl
      simp [callsFor, handled, named]
    exact not_deliverable reached made rfl row

/-- The step of a request that holds a claimed row posts the decision. -/
theorem post_step (settings : Settings) (requests : ι → Request) {system : System ι} {request : ι}
    {row : Item} (phase : system.phase request = .claimed row) (outcome : Outcome) :
    ∃ after, step settings requests system (request, outcome) = some after ∧
      after.shared.posts = system.shared.posts ++
        [(requests request).call settings row (decide (outcome ≠ .fails))] := by
  cases outcome <;> simp [step, Pool.step, act, phase, Request.post]

/-- After every run, each item decided here is still held by the request that
committed it, whose next step posts the decision, or has had exactly one call
carrying its decision. In the second case no later request makes another call:
each one on the item is refused. -/
theorem decision_posted_once (settings : Settings) (requests : ι → Request) (queue : Queue)
    (audit : List AuditRow) (labels : List (ι × Outcome)) (system : System ι)
    (reached : run (step settings requests) (System.init ι queue audit) labels = some system)
    (id : Uuid) (row : Item) (decided : DecidedHere queue system id row) :
    (∃ request, (requests request).reviewId = id ∧ system.phase request = .claimed row ∧
      callsFor system id = [] ∧
      ∀ outcome, ∃ after call, step settings requests system (request, outcome) = some after ∧
        callsFor after id = [call] ∧ Tells settings call id row ∧
        call.delivered = decide (outcome ≠ .fails)) ∨
    (∃ call, callsFor system id = [call] ∧ Tells settings call id row ∧
      ∀ more later, run (step settings requests) system more = some later →
        callsFor later id = [call] ∧
        ∀ request, (requests request).reviewId = id → system.phase request = .received →
          later.phase request = .received ∨
            ∃ notice ∈ [.dbError, .alreadyDecided], later.phase request = .answered notice) := by
  obtain ⟨book, valid⟩ := Represents.of_run reached
  obtain ⟨claim, member, rfl, rfl⟩ := valid.decidedHere_iff.mp decided
  have calls := callsFor_eq valid (claim.reviewId requests)
  cases known : book.sent.lookup (claim.reviewId requests) with
  | none =>
    left
    rw [known, Option.toList_none, List.map_nil] at calls
    have held := valid.held member known
    refine ⟨claim.request, rfl, held, calls, ?_⟩
    intro outcome
    obtain ⟨after, taken, grown⟩ := post_step settings requests held outcome
    refine ⟨after, claim.call requests settings (decide (outcome ≠ .fails)), taken, ?_,
      claim.tells settings _, rfl⟩
    have extended : callsFor after (claim.reviewId requests) = callsFor system
        (claim.reviewId requests) ++ [claim.call requests settings (decide (outcome ≠ .fails))] :=
      callsFor_grown grown rfl
    rw [extended, calls, List.nil_append]
  | some post =>
    right
    obtain ⟨listed, same⟩ := Ledger.lookup_eq_some.mp known
    have own : post.1 = claim := Ledger.eq_of_key (book.claimed post listed) member same
    rw [known, Option.toList_some, List.map_singleton, own] at calls
    refine ⟨_, calls, claim.tells settings post.2, ?_⟩
    intro more later continued
    refine ⟨callsFor_fixed reached continued calls, ?_⟩
    intro request sameItem idle
    apply refused_run continued _ decided.decided idle
    rw [sameItem]
    exact decided.now

/-- The failed call of the two-reviewer run is the only one there will be. -/
theorem decision_posted_once_conflict :
    ∃ system row, run (step conflictSettings conflictRequest)
        (System.init (Fin 2) conflictQueue []) conflictLabels = some system ∧
      DecidedHere conflictQueue system 1 row ∧ system.phase 1 = .answered .alreadyDecided ∧
      ∃ call, callsFor system 1 = [call] ∧ Tells conflictSettings call 1 row ∧
        ∀ more later, run (step conflictSettings conflictRequest) system more = some later →
          callsFor later 1 = [call] := by
  have answers : (run (step conflictSettings conflictRequest)
      (System.init (Fin 2) conflictQueue []) conflictLabels).map
        (fun system => (system.phase 0, system.phase 1, system.shared.queue 1)) =
          some (.answered (.receiverFailed .approved), .answered .alreadyDecided,
            some ((conflictRequest 0).claimedRow conflictItem 10)) := rfl
  obtain ⟨system, reached, facts⟩ := Option.map_eq_some_iff.mp answers
  obtain ⟨first, rest⟩ := Prod.mk.inj facts
  obtain ⟨second, now⟩ := Prod.mk.inj rest
  have decided : DecidedHere conflictQueue system 1
      ((conflictRequest 0).claimedRow conflictItem 10) :=
    ⟨⟨conflictItem, rfl, rfl⟩, now, by decide⟩
  refine ⟨system, _, reached, decided, second, ?_⟩
  rcases decision_posted_once conflictSettings conflictRequest conflictQueue [] conflictLabels
    system reached 1 _ decided with ⟨request, _, held, _⟩ | ⟨call, made, tells, fixed⟩
  · match request with
    | 0 => cases held.symm.trans first
    | 1 => cases held.symm.trans second
  · exact ⟨call, made, tells, fun more later continued => (fixed more later continued).1⟩

end N8nSystems.Review
