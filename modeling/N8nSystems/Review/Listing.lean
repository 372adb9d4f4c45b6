import N8nSystems.Lib.Grouping
import N8nSystems.Review.Decisions

/-! The list of pending reviews (`GET /reviews`), read while requests decide them. -/

namespace N8nSystems.Review

open Lib Lib.Py

universe u

abbrev Row := Uuid × Item

/-- `ORDER BY kind ASC`, where a null comes last. -/
def KindUpTo (collates : Text → Text → Prop) : Option Text → Option Text → Prop
  | _, none => True
  | none, some _ => False
  | some kind, some other => collates kind other

/-- What `LIST_PENDING_SQL` may return: rows that tie come in any order. -/
structure Listed (collates : Text → Text → Prop) (createdAt : Uuid → Int) (queue : Queue) (rows : List Row) :
    Prop where
  mem : ∀ id item, (id, item) ∈ rows ↔ queue id = some item ∧ item.status = some .pending
  once : (rows.map Prod.fst).Nodup
  ordered : rows.Pairwise fun row other => KindUpTo collates row.2.kind other.2.kind ∧
    (row.2.kind = other.2.kind → createdAt row.1 ≤ createdAt other.1)

/-- `str(item.get("kind") or "unknown")`. -/
def heading (row : Row) : Text :=
  match row.2.kind with
  | none => text "unknown"
  | some kind => if kind = [] then text "unknown" else kind

/-- `iter_kinds`. -/
def iterKinds (rows : List Row) : List (Text × List Row) := grouped heading rows

/-- No request can decide the item any more. -/
def Closed {ι : Type u} (system : System ι) (id : Uuid) : Prop :=
  ∀ item, system.shared.queue id = some item → item.status ≠ some .pending

/-- The item is shown, under its heading. -/
def Shown (groups : List (Text × List Row)) (id : Uuid) : Prop := ∃ group ∈ groups, ∃ row ∈ group.2, row.1 = id

section
variable {collates : Text → Text → Prop} {createdAt : Uuid → Int} {queue : Queue} {rows : List Row}

theorem mem_iterKinds {name : Text} {group : List Row} {row : Row} (held : (name, group) ∈ iterKinds rows) :
    row ∈ group ↔ row ∈ rows ∧ heading row = name := by
  rw [(mem_grouped_iff.mp held).1, List.mem_filter, decide_eq_true_eq]

theorem shown_iff {id : Uuid} : Shown (iterKinds rows) id ↔ ∃ row ∈ rows, row.1 = id := by
  constructor
  · rintro ⟨⟨name, group⟩, held, row, member, same⟩
    exact ⟨row, ((mem_iterKinds held).mp member).1, same⟩
  · rintro ⟨row, member, same⟩
    have held : (heading row, rows.filter (heading · = heading row)) ∈ iterKinds rows :=
      mem_grouped_iff.mpr ⟨rfl, row, member, rfl⟩
    exact ⟨_, held, row, (mem_iterKinds held).mpr ⟨member, rfl⟩, same⟩

/-- Only rows without a kind of their own are headed so. -/
theorem heading_kind {row : Row} (own : heading row ≠ text "unknown") : row.2.kind = some (heading row) := by
  unfold heading at own ⊢
  split
  · rename_i absent
    rw [absent] at own
    exact absurd rfl own
  · rename_i kind given
    rw [given] at own
    simp only at own
    split
    · rename_i empty
      rw [if_pos empty] at own
      exact absurd rfl own
    · exact given

theorem Listed.shown_iff (listed : Listed collates createdAt queue rows) {id : Uuid} :
    Shown (iterKinds rows) id ↔ ∃ item, queue id = some item ∧ item.status = some .pending := by
  rw [Review.shown_iff]
  constructor
  · rintro ⟨⟨_, item⟩, member, rfl⟩
    exact ⟨item, (listed.mem _ item).mp member⟩
  · rintro ⟨item, held⟩
    exact ⟨(id, item), (listed.mem id item).mpr held, rfl⟩

/-- Under a heading that is a kind, the rows are in the order of their creation. -/
theorem Listed.group_ordered (listed : Listed collates createdAt queue rows) {name : Text} {group : List Row}
    (held : (name, group) ∈ iterKinds rows) (own : name ≠ text "unknown") :
    group.Pairwise fun row other => createdAt row.1 ≤ createdAt other.1 := by
  have kinds : ∀ row ∈ group, row.2.kind = some name := by
    intro row member
    have same := ((mem_iterKinds held).mp member).2
    exact same ▸ heading_kind (same ▸ own)
  have within : group.Sublist rows := by
    rw [(mem_grouped_iff.mp held).1]
    exact List.filter_sublist
  refine (listed.ordered.sublist within).imp_of_mem ?_
  intro row other member also ordered
  exact ordered.2 ((kinds row member).trans (kinds other also).symm)

/-- The headings that are kinds are in the order of the database. -/
theorem Listed.headings_ordered (listed : Listed collates createdAt queue rows) :
    ((iterKinds rows).map Prod.fst).Pairwise fun name other =>
      name ≠ text "unknown" → other ≠ text "unknown" → collates name other := by
  have every : (rows.map heading).Pairwise fun name other =>
      name ≠ text "unknown" → other ≠ text "unknown" → collates name other := by
    refine List.pairwise_map.mpr (listed.ordered.imp ?_)
    intro row other ordered own also
    have kinds := ordered.1
    rw [heading_kind own, heading_kind also] at kinds
    exact kinds
  exact every.sublist (keys_grouped heading rows).2

end

section
variable {ι : Type u} [DecidableEq ι] {settings : Settings} {requests : ι → Request} {queue : Queue}
  {audit : List AuditRow} {before after system : System ι} {label : ι × Outcome} {labels : List (ι × Outcome)}

/-- What a step does to the queue. -/
theorem queue_cases (taken : step settings requests before label = some after) :
    after.shared.queue = before.shared.queue ∨
      ∃ now item, after.phase label.1 = .claimed ((requests label.1).claimedRow item now) ∧
        after.shared.queue = Function.update before.shared.queue (requests label.1).reviewId
          (some ((requests label.1).claimedRow item now)) := by
  rcases step_cases taken with ⟨_, _, _, _, store⟩ | ⟨now, item, _, _, _, next, store⟩ | ⟨_, _, _, _, store⟩
  · rw [store]
    exact .inl rfl
  · exact .inr ⟨now, item, next, congrArg Store.queue store⟩
  · rw [store]
    exact .inl rfl

theorem Verdict.status_ne_pending (verdict : Verdict) : some verdict.status ≠ some .pending := by
  cases verdict <;> decide

omit [DecidableEq ι] in
theorem closed_claimed {others : Queue} {request : Request} {item : Item} {now : Int}
    (claimed : system.shared.queue = Function.update others request.reviewId (some (request.claimedRow item now))) :
    Closed system request.reviewId := by
  intro found held
  rw [claimed, Function.update_self] at held
  cases held
  exact request.status.status_ne_pending

theorem Closed.step {id : Uuid} (taken : step settings requests before label = some after)
    (closed : Closed before id) : Closed after id := by
  rcases queue_cases taken with same | ⟨now, item, _, claimed⟩
  · rw [Closed, same]
    exact closed
  · by_cases own : id = (requests label.1).reviewId
    · subst own
      exact closed_claimed claimed
    · rw [Closed, claimed, Function.update_of_ne own]
      exact closed

theorem Closed.run {id : Uuid} {later : System ι} {more : List (ι × Outcome)}
    (continued : run (Review.step settings requests) system more = some later) (closed : Closed system id) :
    Closed later id :=
  run_invariant (Closed · id) closed (fun _ _ _ holds taken => holds.step taken) continued

/-- A request that is told `already_decided` found its item so. -/
theorem closed_of_refused (taken : step settings requests before label = some after)
    (received : before.phase label.1 = .received) (refused : after.phase label.1 = .answered .alreadyDecided) :
    Closed before (requests label.1).reviewId := by
  have own := Pool.step_own _ taken
  rcases (requests label.1).apply_cases before.shared label.2 with
    ⟨_, applied⟩ | ⟨closed, _⟩ | ⟨_, _, _, _, _, applied⟩
  · simp only [act, received, applied] at own
    cases (Prod.mk.inj (Option.some.inj own)).1.trans refused
  · exact closed
  · simp only [act, received, applied] at own
    cases (Prod.mk.inj (Option.some.inj own)).1.trans refused

/-- The phases of a request whose item can no longer be decided. -/
def Phase.Settled : Phase → Prop
  | .received => False
  | .claimed _ => True
  | .answered notice => notice ≠ .dbError

/-- Whoever has been told of a decision will not find its item pending. -/
theorem settled_closed (reached : run (step settings requests) (System.init ι queue audit) labels = some system)
    (request : ι) (settled : (system.phase request).Settled) : Closed system (requests request).reviewId := by
  refine run_invariant (fun system : System ι => ∀ request, (system.phase request).Settled →
    Closed system (requests request).reviewId) (fun _ => False.elim) ?_ reached request settled
  intro before label after closed taken request settled
  by_cases own : request = label.1
  · subst own
    rcases step_cases taken with ⟨notice, received, either, next, _⟩ | ⟨now, item, _, _, _, next, store⟩ |
      ⟨row, _, claimed, _, _⟩
    · rw [next] at settled
      simp only [List.mem_cons, List.not_mem_nil, or_false] at either
      obtain rfl := either.resolve_left settled
      exact (closed_of_refused taken received next).step taken
    · exact closed_claimed (congrArg Store.queue store)
    · refine (closed label.1 ?_).step taken
      rw [claimed]
      trivial
  · rw [Pool.step_other _ taken own] at settled
    exact (closed request settled).step taken

/-- A request has decided the item. -/
def DecidedBy (requests : ι → Request) (system : System ι) (id : Uuid) : Prop :=
  ∃ request row, (requests request).reviewId = id ∧ Effective (system.phase request) ∧
    system.shared.queue id = some row ∧ row.status = some (requests request).status.status ∧
    row.decidedBy = some (requests request).actor

theorem effective_step (taken : step settings requests before label = some after) {request : ι}
    (effective : Effective (before.phase request)) : Effective (after.phase request) := by
  by_cases own : request = label.1
  · subst own
    rcases step_cases taken with ⟨_, received, _⟩ | ⟨_, _, received, _⟩ | ⟨_, _, _, next, _⟩
    · rw [received] at effective
      exact effective.elim
    · rw [received] at effective
      exact effective.elim
    · rw [next]
      exact Request.notice_effective _ _
  · rw [Pool.step_other _ taken own]
    exact effective

theorem DecidedBy.step {id : Uuid} (taken : step settings requests before label = some after)
    (decided : DecidedBy requests before id) : DecidedBy requests after id := by
  obtain ⟨request, row, same, effective, held, status, actor⟩ := decided
  have final : row.status ≠ some .pending := status ▸ (requests request).status.status_ne_pending
  exact ⟨request, row, same, effective_step taken effective, queue_step taken held final, status, actor⟩

/-- An item stays as it is until a request decides it. -/
theorem kept_or_decided {later : System ι} {more : List (ι × Outcome)}
    (continued : run (step settings requests) system more = some later) (id : Uuid) :
    later.shared.queue id = system.shared.queue id ∨ DecidedBy requests later id := by
  refine run_invariant (fun later : System ι => later.shared.queue id = system.shared.queue id ∨
    DecidedBy requests later id) (.inl rfl) ?_ continued
  rintro before label after (kept | decided) taken
  · rcases queue_cases taken with same | ⟨now, item, next, claimed⟩
    · exact .inl ((congrFun same id).trans kept)
    · by_cases own : id = (requests label.1).reviewId
      · subst own
        refine .inr ⟨label.1, (requests label.1).claimedRow item now, rfl, ?_, ?_, rfl, rfl⟩
        · rw [next]
          trivial
        · rw [claimed, Function.update_self]
      · left
        rw [claimed]
        exact (Function.update_of_ne own _ _).trans kept
  · exact .inr (decided.step taken)

/-- The list page read at any moment of any run. It shows each pending item once, under the
heading of its kind: the headings come as the rows first show them, and each has its rows as they
come, so the headings that are kinds and the rows under them are in order. It shows no item of a
request that was told of a decision. What a later page no longer shows, a request has decided in
between, and what it shows was shown before. -/
theorem review_page (settings : Settings) (requests : ι → Request) (queue : Queue) (audit : List AuditRow)
    (labels more : List (ι × Outcome)) (system later : System ι)
    (reached : run (step settings requests) (System.init ι queue audit) labels = some system)
    (continued : run (step settings requests) system more = some later)
    (collates : Text → Text → Prop) (createdAt : Uuid → Int) (rows laterRows : List Row)
    (listed : Listed collates createdAt system.shared.queue rows)
    (laterListed : Listed collates createdAt later.shared.queue laterRows) :
    (∀ id item, system.shared.queue id = some item → item.status = some .pending →
      ∃ group, (heading (id, item), group) ∈ iterKinds rows ∧ (id, item) ∈ group ∧
        (group.map Prod.fst).count id = 1) ∧
    ((iterKinds rows).map Prod.fst).Nodup ∧
    (iterKinds rows).map Prod.fst = (rows.map heading).eraseDups ∧
    ((iterKinds rows).map Prod.fst).Pairwise (fun name other =>
      name ≠ text "unknown" → other ≠ text "unknown" → collates name other) ∧
    (∀ name group, (name, group) ∈ iterKinds rows → group ≠ [] ∧
      group = rows.filter (heading · = name) ∧ (∀ row ∈ group, heading row = name) ∧
      (name ≠ text "unknown" → group.Pairwise fun row other => createdAt row.1 ≤ createdAt other.1)) ∧
    (∀ request, (system.phase request).Settled → ¬Shown (iterKinds rows) (requests request).reviewId) ∧
    ∀ id, (Shown (iterKinds laterRows) id → Shown (iterKinds rows) id) ∧
      (Shown (iterKinds rows) id → ¬Shown (iterKinds laterRows) id → DecidedBy requests later id) := by
  refine ⟨?_, (keys_grouped heading rows).1, keys_grouped_eq heading rows, listed.headings_ordered, ?_, ?_, ?_⟩
  · intro id item held pending
    have member : (id, item) ∈ rows := (listed.mem id item).mpr ⟨held, pending⟩
    have group : (heading (id, item), rows.filter (heading · = heading (id, item))) ∈ iterKinds rows :=
      mem_grouped_iff.mpr ⟨rfl, _, member, rfl⟩
    have shown := (mem_iterKinds group).mpr ⟨member, rfl⟩
    refine ⟨_, group, shown, List.count_eq_one_of_mem ?_ (List.mem_map_of_mem shown)⟩
    exact (List.filter_sublist.map _).nodup listed.once
  · intro name group held
    obtain ⟨rows, row, member, same⟩ := mem_grouped_iff.mp held
    refine ⟨?_, rows, fun row member => ((mem_iterKinds held).mp member).2, listed.group_ordered held⟩
    exact List.ne_nil_of_mem ((mem_iterKinds held).mpr ⟨member, same⟩)
  · intro request settled shown
    obtain ⟨item, held, pending⟩ := listed.shown_iff.mp shown
    exact settled_closed reached request settled item held pending
  · intro id
    rw [listed.shown_iff, laterListed.shown_iff]
    constructor
    · rintro ⟨item, held, pending⟩
      by_contra absent
      have closed : Closed system id := fun found now also => absent ⟨found, now, also⟩
      exact closed.run continued item held pending
    · rintro ⟨item, held, pending⟩ gone
      refine (kept_or_decided continued id).resolve_left ?_
      intro kept
      exact gone ⟨item, kept.trans held, pending⟩

end

/-- The item on the first page is decided before the second is read. -/
theorem review_page_conflict :
    ∃ later, run (step conflictSettings conflictRequest) (System.init (Fin 2) conflictQueue []) conflictLabels =
        some later ∧
      Shown (iterKinds [(1, conflictItem)]) 1 ∧ DecidedBy conflictRequest later 1 := by
  have answers : (run (step conflictSettings conflictRequest) (System.init (Fin 2) conflictQueue [])
      conflictLabels).map (fun system => system.phase 0) =
        some (.answered (.receiverFailed .approved)) := rfl
  obtain ⟨later, reached, told⟩ := Option.map_eq_some_iff.mp answers
  have start : run (step conflictSettings conflictRequest) (System.init (Fin 2) conflictQueue []) [] =
      some (System.init (Fin 2) conflictQueue []) := rfl
  have listed : Listed (fun _ _ => True) (fun _ => 0) conflictQueue [(1, conflictItem)] := by
    refine ⟨?_, List.nodup_singleton _, List.pairwise_singleton _ _⟩
    intro id item
    rw [List.mem_singleton, Prod.mk.injEq, conflictQueue]
    by_cases same : id = 1
    · rw [if_pos same, Option.some.injEq]
      exact ⟨fun held => ⟨held.2.symm, held.2 ▸ rfl⟩, fun held => ⟨same, held.1.symm⟩⟩
    · rw [if_neg same]
      exact ⟨fun held => absurd held.1 same, fun held => by cases held.1⟩
  have closed (id : Uuid) : Closed later id := by
    by_cases same : id = 1
    · have settled : (later.phase 0).Settled := by
        rw [told]
        exact Notice.noConfusion
      exact same ▸ settled_closed reached 0 settled
    · refine Closed.run reached ?_
      intro item held
      cases (if_neg same : conflictQueue id = none).symm.trans held
  have laterListed : Listed (fun _ _ => True) (fun _ => 0) later.shared.queue [] := by
    refine ⟨?_, List.nodup_nil, List.Pairwise.nil⟩
    intro id item
    simp only [List.not_mem_nil, false_iff, not_and]
    exact closed id item
  have shown : Shown (iterKinds [(1, conflictItem)]) 1 := shown_iff.mpr ⟨_, List.mem_singleton.mpr rfl, rfl⟩
  refine ⟨later, reached, shown, ?_⟩
  have page := review_page conflictSettings conflictRequest conflictQueue [] [] conflictLabels
    (System.init (Fin 2) conflictQueue []) later start reached (fun _ _ => True) (fun _ => 0)
    [(1, conflictItem)] [] listed laterListed
  refine (page.2.2.2.2.2.2 1).2 shown ?_
  rw [shown_iff]
  rintro ⟨_, member, _⟩
  cases member

end N8nSystems.Review
