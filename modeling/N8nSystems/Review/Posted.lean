import N8nSystems.Review.Delivery

/-! What the receiver can rely on: a signed body is printable ASCII, and reading it gives the
decision of the row that was committed. -/

namespace N8nSystems.Review

open Lib Lib.Py

universe u

abbrev Request.Legible (request : Request) : Prop := IsUnicode request.actor ∧ IsUnicode request.reason

theorem Request.legible_reasonValue {request : Request} (legible : request.Legible) :
    ∀ value ∈ request.reasonValue, IsUnicode value := by
  intro value given
  simp only [reasonValue, stripOrNone, Option.mem_def, Option.ite_none_left_eq_some,
    Option.some.injEq] at given
  obtain ⟨-, rfl⟩ := given
  obtain ⟨left, right, parts, -⟩ := strip_parts request.reason
  intro c member
  refine legible.2 c ?_
  rw [parts]
  exact List.mem_append_left right (List.mem_append_right left member)

theorem Claim.legible_row {ι : Type u} {requests : ι → Request} {claim : Claim ι}
    (sent : (requests claim.request).Legible) (stored : claim.item.Legible) :
    (claim.row requests).Legible ∧ (claim.row requests).LegibleDecision := by
  refine ⟨stored, fun actor same => ?_, fun decision same reason given => ?_⟩
  · cases same
    exact sent.1
  · cases same
    exact Request.legible_reasonValue sent reason given

variable {ι : Type u} [DecidableEq ι]

/-- Whatever the order of the steps, where the columns and the requests hold text that UTF-8 can
encode: each body on the wire is signed printable ASCII from which `json.loads` reads the decision
of a row decided here, and no body is sent twice. -/
theorem posts_read {floats : FloatText} (lawful : floats.Lawful) (settings : Settings)
    (requests : ι → Request) (queue : Queue) (audit : List AuditRow) (labels : List (ι × Outcome))
    (system : System ι) (stored : ∀ id, ∀ item ∈ queue id, item.Legible)
    (sent : ∀ request, (requests request).Legible)
    (reached : run (step settings requests) (System.init ι queue audit) labels = some system) :
    (∀ call ∈ system.shared.posts, ∃ id row, DecidedHere queue system id row ∧
      call.signature = signBody settings call.body ∧ (∀ byte ∈ call.body, 32 ≤ byte ∧ byte < 127) ∧
      loads floats (call.body.map UInt8.toNat) = some (row.decided id)) ∧
    (system.shared.posts.map PostCall.body).Nodup := by
  obtain ⟨book, valid⟩ := Represents.of_run reached
  have reads (post : Claim ι × Bool) (listed : post ∈ book.sent.entries) :
      loads floats ((post.1.call requests settings post.2).body.map UInt8.toNat) =
        some ((post.1.row requests).decided (post.1.reviewId requests)) := by
    have found := (book.pending post.1 (book.claimed post listed)).1
    obtain ⟨columns, decision⟩ := Claim.legible_row (sent post.1.request) (stored _ _ found)
    exact (post.1.tells settings post.2).reads columns decision floats lawful
  rw [valid.posts]
  constructor
  · intro call made
    obtain ⟨post, listed, rfl⟩ := List.mem_map.mp made
    refine ⟨post.1.reviewId requests, post.1.row requests,
      valid.decidedHere_iff.mpr ⟨post.1, book.claimed post listed, rfl, rfl⟩, rfl, ?_, reads post listed⟩
    exact encodeBody_visible _
  · rw [List.map_map]
    refine List.pairwise_map.mpr ((List.pairwise_map.mp book.sent.once).imp_of_mem ?_)
    intro first second listed also different same
    have bodies : (first.1.call requests settings first.2).body = (second.1.call requests settings second.2).body :=
      same
    have read := reads first listed
    rw [bodies, reads second also] at read
    exact different (Item.decided_injective (Option.some.inj read)).symm

/-- The call that failed in the two-reviewer run carried the first reviewer's approval. -/
theorem posts_read_conflict :
    ∃ system, run (step conflictSettings conflictRequest) (System.init (Fin 2) conflictQueue [])
        conflictLabels = some system ∧
      ∀ call ∈ system.shared.posts, (∀ byte ∈ call.body, 32 ≤ byte ∧ byte < 127) ∧
        loads Workflows.noFloats (call.body.map UInt8.toNat) = some conflictDecided := by
  have answers : (run (step conflictSettings conflictRequest)
      (System.init (Fin 2) conflictQueue []) conflictLabels).map (fun system => system.shared.queue 1) =
        some (some ((conflictRequest 0).claimedRow conflictItem 10)) := rfl
  obtain ⟨system, reached, claimed⟩ := Option.map_eq_some_iff.mp answers
  have stored (id : Uuid) (item : Item) (found : conflictQueue id = some item) : item.Legible := by
    rw [(conflictQueue_only found).2]
    decide
  have sent (request) : (conflictRequest request).Legible := by
    revert request
    decide
  refine ⟨system, reached, ?_⟩
  intro call made
  obtain ⟨id, row, decided, -, visible, reads⟩ := (posts_read Workflows.noFloats_lawful conflictSettings
    conflictRequest conflictQueue [] conflictLabels system stored sent reached).1 call made
  obtain ⟨item, found, -⟩ := decided.initially
  obtain ⟨rfl, rfl⟩ := conflictQueue_only found
  cases claimed.symm.trans decided.now
  exact ⟨visible, reads⟩

end N8nSystems.Review
