import Mathlib.Algebra.Order.Group.Int
import Mathlib.Order.Bounds.Basic
import N8nSystems.Leads.Score

/-! What the override loop comes to: the score is the smallest of its caps, and the
route is the one of that score under the route caps that stand after the last
score cap. -/

namespace N8nSystems.Leads

open Lib.Py

section Score

/-- What one override does to the total. -/
def Override.capTotal (override : Override) (inp : ScoreInput) (total : Int) : Int :=
  if override.applies inp then override.capScore.elim total (min total) else total

theorem Progress.apply_total (inp : ScoreInput) (config : ScoringConfig) (progress : Progress)
    (override : Override) :
    (progress.apply inp config override).total = override.capTotal inp progress.total := by
  have kept (current : Progress) :
      (override.capRoute.elim current current.capRoute).total = current.total := by
    cases override.capRoute <;> rfl
  have forced (current : Progress) :
      (override.route.elim current current.forceRoute).total = current.total := by
    cases override.route <;> rfl
  unfold Progress.apply Override.capTotal
  split
  · rw [kept, forced]
    cases override.capScore with
    | none => rfl
    | some cap =>
      simp only [Option.elim, Progress.capScore]
      split <;> omega
  · rfl

/-- Only the score caps of the matching overrides change the total. -/
theorem foldl_apply_total (inp : ScoreInput) (config : ScoringConfig) (overrides : List Override)
    (progress : Progress) :
    (overrides.foldl (Progress.apply inp config) progress).total =
      overrides.foldl (fun total override => override.capTotal inp total) progress.total := by
  induction overrides generalizing progress with
  | nil => rfl
  | cons override rest ih => rw [List.foldl_cons, List.foldl_cons, ih, Progress.apply_total]

theorem scoreLead_score (lower : Text → Text) (inp : ScoreInput) (config : ScoringConfig) :
    (scoreLead lower inp config).score =
      config.overrides.foldl (fun total override => override.capTotal inp total)
        (min (breakdown lower inp config).1.sum config.maxScore) :=
  foldl_apply_total inp config config.overrides _

/-- The score caps of the matching overrides, in their order. -/
def scoreCaps (inp : ScoreInput) (overrides : List Override) : List Int :=
  overrides.filterMap fun override => if override.applies inp then override.capScore else none

theorem mem_scoreCaps {inp : ScoreInput} {overrides : List Override} {cap : Int} :
    cap ∈ scoreCaps inp overrides ↔
      ∃ override ∈ overrides, override.applies inp = true ∧ override.capScore = some cap := by
  simp [scoreCaps, List.mem_filterMap]

theorem foldl_capTotal (inp : ScoreInput) (overrides : List Override) (start : Int) :
    overrides.foldl (fun total override => override.capTotal inp total) start =
      (scoreCaps inp overrides).foldl min start := by
  induction overrides generalizing start with
  | nil => rfl
  | cons override rest ih =>
    rw [List.foldl_cons, ih, Override.capTotal]
    by_cases applies : override.applies inp = true
    · cases cap : override.capScore <;> simp [applies, scoreCaps, cap]
    · simp [applies, scoreCaps]

/-- A fold of minima ends with the least of its start and its items. -/
theorem isLeast_foldl_min (caps : List Int) (start : Int) :
    IsLeast {bound | bound = start ∨ bound ∈ caps} (caps.foldl min start) := by
  induction caps generalizing start with
  | nil =>
    refine ⟨.inl rfl, ?_⟩
    intro bound member
    simp only [List.not_mem_nil, or_false, Set.mem_ofPred_eq] at member
    rw [member]
    exact le_rfl
  | cons cap rest ih =>
    obtain ⟨attained, least⟩ := ih (min start cap)
    rw [List.foldl_cons]
    constructor
    · rcases attained with same | member
      · rw [same]
        rcases min_choice start cap with first | second
        · exact .inl first
        · exact .inr (by simp [second])
      · exact .inr (List.mem_cons_of_mem cap member)
    · intro bound member
      have below : List.foldl min (min start cap) rest ≤ min start cap := least (.inl rfl)
      rcases member with same | member
      · rw [same]
        exact below.trans (min_le_left start cap)
      · rcases List.mem_cons.mp member with same | later
        · rw [same]
          exact below.trans (min_le_right start cap)
        · exact least (.inr later)

/-- The values that bound the score. -/
def scoreBounds (lower : Text → Text) (inp : ScoreInput) (config : ScoringConfig) : Set Int :=
  {bound | bound = config.maxScore ∨ bound = (breakdown lower inp config).1.sum ∨
    ∃ override ∈ config.overrides, override.applies inp = true ∧ override.capScore = some bound}

theorem isLeast_scoreBounds (lower : Text → Text) (inp : ScoreInput) (config : ScoringConfig) :
    IsLeast (scoreBounds lower inp config) (scoreLead lower inp config).score := by
  rw [scoreLead_score, foldl_capTotal, ← List.foldl_cons]
  have least := isLeast_foldl_min (config.maxScore :: scoreCaps inp config.overrides)
    (breakdown lower inp config).1.sum
  convert least using 1
  ext bound
  simp only [scoreBounds, Set.mem_ofPred_eq, List.mem_cons, mem_scoreCaps]
  exact or_left_comm

/-- A component's points stay within its maximum, and those of the model within
`LLM_SCORE_CAP` as well. -/
structure WithinMaxima (config : ScoringConfig) (breakdown : Breakdown) : Prop where
  companySize : breakdown.companySize ≤ config.companySize.max
  industryFit : breakdown.industryFit ≤ config.industryFit.max
  budget : breakdown.budget ≤ config.budget.max
  urgency : breakdown.urgency ≤ config.urgency.max
  aiQualification : breakdown.aiQualification ≤ config.aiQualification.max
  llmCap : breakdown.aiQualification ≤ llmScoreCap

theorem capComponent_le (name : Text) (points max : Int) : capComponent name points max ≤ max := by
  unfold capComponent
  split
  · exact (min_le_left _ _).trans (min_le_right _ _)
  · exact min_le_right _ _

/-- The early returns give no points. -/
theorem aiPoints_le (inp : ScoreInput) {config : ScoringConfig} (nonneg : 0 ≤ config.aiQualification.max) :
    (aiPoints inp config).1 ≤ config.aiQualification.max ∧ (aiPoints inp config).1 ≤ llmScoreCap := by
  unfold aiPoints
  dsimp only
  split
  · exact ⟨nonneg, by decide⟩
  · split
    · exact ⟨nonneg, by decide⟩
    · dsimp only
      refine ⟨capComponent_le _ _ _, ?_⟩
      rw [capComponent, if_pos rfl]
      exact min_le_right _ _

theorem industryPoints_le (lower : Text → Text) (inp : ScoreInput) (config : ScoringConfig) :
    (industryPoints lower inp config).1 ≤ config.industryFit.max := by
  unfold industryPoints
  exact capComponent_le (text "industry_fit") _ _

theorem breakdown_within (lower : Text → Text) (inp : ScoreInput) {config : ScoringConfig}
    (nonneg : 0 ≤ config.aiQualification.max) : WithinMaxima config (breakdown lower inp config).1 where
  companySize := capComponent_le (text "company_size") _ _
  industryFit := industryPoints_le lower inp config
  budget := capComponent_le (text "budget") _ _
  urgency := capComponent_le (text "urgency") _ _
  aiQualification := (aiPoints_le inp nonneg).1
  llmCap := (aiPoints_le inp nonneg).2

/-- The score is the least of the maximum, the sum and the matching caps; hence the
order of the overrides does not matter. -/
theorem score_capped_sum (lower : Text → Text) (inp : ScoreInput) (config : ScoringConfig)
    (nonneg : 0 ≤ config.aiQualification.max) :
    IsLeast {bound | bound = config.maxScore ∨
        bound = (scoreLead lower inp config).breakdown.sum ∨
        ∃ override ∈ config.overrides, override.applies inp = true ∧ override.capScore = some bound}
      (scoreLead lower inp config).score ∧
    (∀ overrides, overrides.Perm config.overrides →
      (scoreLead lower inp { config with overrides }).score = (scoreLead lower inp config).score) ∧
    WithinMaxima config (scoreLead lower inp config).breakdown := by
  have least := isLeast_scoreBounds lower inp config
  refine ⟨least, ?_, breakdown_within lower inp nonneg⟩
  intro overrides same
  have other := isLeast_scoreBounds lower inp { config with overrides }
  have bounds : scoreBounds lower inp { config with overrides } = scoreBounds lower inp config := by
    ext bound
    simp only [scoreBounds, Set.mem_ofPred_eq, same.mem_iff]
    rfl
  rw [bounds] at other
  exact other.unique least

/-- The shipped file with its overrides turned round. -/
theorem score_capped_sum_reversed :
    (scoreLead id { isFreeMail := true, intent := some (text "pricing") }
      { shippedConfig with overrides := shippedConfig.overrides.reverse }).score =
    (scoreLead id { isFreeMail := true, intent := some (text "pricing") } shippedConfig).score :=
  (score_capped_sum id _ shippedConfig (by decide)).2.1 _ (List.reverse_perm _)

end Score

section Route

/-- The route caps that a loop still has: a score cap finds the route anew, so those
before it are gone. -/
def lateCaps (inp : ScoreInput) (overrides : List Override) : List Text :=
  overrides.foldl (fun caps override =>
    if override.applies inp then
      (if override.capScore.isSome then [] else caps) ++ override.capRoute.toList
    else caps) []

/-- No matching override names a route. -/
def Unforced (inp : ScoreInput) (overrides : List Override) : Prop :=
  ∀ override ∈ overrides, override.applies inp = true → override.route = none

/-- One round of the loop, when it names no route. -/
theorem apply_unforced {inp : ScoreInput} {config : ScoringConfig} {progress : Progress}
    {override : Override} {caps : List Text} (open_ : progress.forcedRoute = false)
    (unforced : override.applies inp = true → override.route = none)
    (route : progress.route = caps.foldl capRoute (routeFromScore progress.total config)) :
    (progress.apply inp config override).forcedRoute = false ∧
      (progress.apply inp config override).route =
        (if override.applies inp then
          (if override.capScore.isSome then [] else caps) ++ override.capRoute.toList
        else caps).foldl capRoute
          (routeFromScore (progress.apply inp config override).total config) := by
  unfold Progress.apply
  by_cases applies : override.applies inp = true
  · rw [if_pos applies, if_pos applies, unforced applies]
    cases override.capScore with
    | none =>
      cases override.capRoute with
      | none => exact ⟨open_, by simpa using route⟩
      | some cap =>
        refine ⟨open_, ?_⟩
        simp only [Option.elim, Progress.capRoute, Option.isSome_none, Bool.false_eq_true, if_false,
          Option.toList_some, List.foldl_append, List.foldl_cons, List.foldl_nil, route]
    | some score =>
      cases override.capRoute with
      | none => exact ⟨open_, by simp [Progress.capScore, open_]⟩
      | some cap => exact ⟨open_, by simp [Progress.capScore, Progress.capRoute, open_]⟩
  · rw [if_neg applies, if_neg applies]
    exact ⟨open_, route⟩

/-- The route after the whole loop. -/
theorem foldl_apply_route {inp : ScoreInput} {config : ScoringConfig} (overrides : List Override)
    (unforced : Unforced inp overrides) (progress : Progress) (open_ : progress.forcedRoute = false)
    (caps : List Text)
    (route : progress.route = caps.foldl capRoute (routeFromScore progress.total config)) :
    (overrides.foldl (Progress.apply inp config) progress).route =
      (overrides.foldl (fun caps override =>
        if override.applies inp then
          (if override.capScore.isSome then [] else caps) ++ override.capRoute.toList
        else caps) caps).foldl capRoute
          (routeFromScore (overrides.foldl (Progress.apply inp config) progress).total config) := by
  induction overrides generalizing progress caps with
  | nil => exact route
  | cons override rest ih =>
    obtain ⟨stillOpen, next⟩ := apply_unforced open_ (unforced override List.mem_cons_self) route
    exact ih (fun other member => unforced other (List.mem_cons_of_mem override member)) _ stillOpen _ next

theorem scoreLead_route {lower : Text → Text} {inp : ScoreInput} {config : ScoringConfig}
    (unforced : Unforced inp config.overrides) :
    (scoreLead lower inp config).route = (lateCaps inp config.overrides).foldl capRoute
      (routeFromScore (scoreLead lower inp config).score config) :=
  foldl_apply_route config.overrides unforced _ rfl [] rfl

/-- The place of a route on the ladder. -/
def rung (route : Text) : Nat := ladderRoutes.idxOf route

/-- A route off the ladder is never capped. -/
theorem foldl_capRoute_off {caps : List Text} {route : Text} (off : route ∉ ladderRoutes) :
    caps.foldl capRoute route = route := by
  induction caps with
  | nil => rfl
  | cons cap rest ih => rw [List.foldl_cons, capRoute, if_pos (.inl off), ih]

theorem rung_capRoute {route : Text} (cap : Text) (on : route ∈ ladderRoutes) :
    capRoute route cap ∈ ladderRoutes ∧ ∀ bound, rung (capRoute route cap) ≤ bound ↔
      rung route ≤ bound ∨ cap ∈ ladderRoutes ∧ rung cap ≤ bound := by
  unfold capRoute
  by_cases ladder : cap ∈ ladderRoutes
  · rw [if_neg (by simp [on, ladder])]
    change (if rung route > rung cap then cap else route) ∈ _ ∧ _
    split
    · refine ⟨ladder, fun bound => ?_⟩
      simp only [ladder, true_and]
      change rung (if rung route > rung cap then cap else route) ≤ bound ↔ _
      rw [if_pos ‹_›]
      omega
    · refine ⟨on, fun bound => ?_⟩
      simp only [ladder, true_and]
      change rung (if rung route > rung cap then cap else route) ≤ bound ↔ _
      rw [if_neg ‹_›]
      omega
  · rw [if_pos (.inr ladder)]
    exact ⟨on, fun bound => by simp [ladder]⟩

/-- A route on the ladder ends at or below a rung when it starts there or meets a cap there. -/
theorem foldl_capRoute_on (caps : List Text) {route : Text} (on : route ∈ ladderRoutes) (bound : Nat) :
    caps.foldl capRoute route ∈ ladderRoutes ∧ (rung (caps.foldl capRoute route) ≤ bound ↔
      rung route ≤ bound ∨ ∃ cap ∈ caps, cap ∈ ladderRoutes ∧ rung cap ≤ bound) := by
  induction caps generalizing route with
  | nil => simp [on]
  | cons cap rest ih =>
    obtain ⟨still, lowered⟩ := rung_capRoute cap on
    obtain ⟨final, met⟩ := ih still
    refine ⟨final, ?_⟩
    rw [List.foldl_cons, met, lowered]
    simp only [List.mem_cons, exists_eq_or_imp]
    exact or_assoc

/-- The score without the loop: the least of the maximum, the sum and the matching caps. -/
def cappedSum (lower : Text → Text) (inp : ScoreInput) (config : ScoringConfig) : Int :=
  (scoreCaps inp config.overrides).foldl min (min (breakdown lower inp config).1.sum config.maxScore)

theorem scoreLead_cappedSum (lower : Text → Text) (inp : ScoreInput) (config : ScoringConfig) :
    (scoreLead lower inp config).score = cappedSum lower inp config := by
  rw [scoreLead_score, foldl_capTotal, cappedSum]

/-- The route caps of the matching overrides hold of the returned route exactly when
each cap that stands before the last matching score cap does no more than the
capped score or a route cap at or after that override. -/
theorem route_caps_hold (lower : Text → Text) (inp : ScoreInput) (config : ScoringConfig)
    (unforced : ∀ override ∈ config.overrides, override.applies inp = true → override.route = none) :
    (∀ override ∈ config.overrides, override.applies inp = true → ∀ cap,
      override.capRoute = some cap → cap ∈ ladderRoutes →
      (scoreLead lower inp config).route ∈ ladderRoutes →
        ladderRoutes.idxOf (scoreLead lower inp config).route ≤ ladderRoutes.idxOf cap) ↔
    ∀ override ∈ config.overrides, override.applies inp = true → ∀ cap,
      override.capRoute = some cap → cap ∈ ladderRoutes →
      routeFromScore (cappedSum lower inp config) config ∈ ladderRoutes →
        ladderRoutes.idxOf (routeFromScore (cappedSum lower inp config) config) ≤
            ladderRoutes.idxOf cap ∨
          ∃ late ∈ lateCaps inp config.overrides, late ∈ ladderRoutes ∧
            ladderRoutes.idxOf late ≤ ladderRoutes.idxOf cap := by
  rw [scoreLead_route unforced, scoreLead_cappedSum]
  generalize routeFromScore (cappedSum lower inp config) config = base
  by_cases on : base ∈ ladderRoutes
  · have final := fun bound => foldl_capRoute_on (lateCaps inp config.overrides) on bound
    refine forall₅_congr fun override member applies cap named => ?_
    refine imp_congr_right fun ladder => ?_
    simp only [(final 0).1, on, true_implies]
    exact (final (ladderRoutes.idxOf cap)).2
  · rw [foldl_capRoute_off on]
    simp [on]

/-- The shipped file with a route cap before a score cap. -/
def capsInTurn : ScoringConfig :=
  { shippedConfig with overrides := [
      { when_ := some [(text "llm_status", .text (text "failed"))], capRoute := some (text "nurture") },
      { when_ := some [(text "is_free_mail", .bool true)], capScore := some 90 }] }

/-- A form with 80 points, from a free mail address, on which the model failed. -/
def strongForm : ScoreInput where
  companySize := some (text "51-200")
  industry := some (text "software")
  budgetRange := some (text "50k+")
  timeline := some (text "now")
  isFreeMail := true
  llmStatus := some (text "failed")

theorem unforced_capsInTurn : ∀ override ∈ capsInTurn.overrides,
    override.applies strongForm = true → override.route = none := by
  intro override member _
  rcases List.mem_cons.mp member with rfl | member
  · rfl
  · obtain rfl := List.mem_singleton.mp member
    rfl

/-- The cap is on nurture, and the lead goes to sales. -/
theorem route_cap_lifted :
    ¬ ∀ (lower : Text → Text) (inp : ScoreInput) (config : ScoringConfig),
      (∀ override ∈ config.overrides, override.applies inp = true → override.route = none) →
      ∀ override ∈ config.overrides, override.applies inp = true → ∀ cap,
        override.capRoute = some cap → cap ∈ ladderRoutes →
        (scoreLead lower inp config).route ∈ ladderRoutes →
          ladderRoutes.idxOf (scoreLead lower inp config).route ≤ ladderRoutes.idxOf cap := by
  intro every
  have low := every id strongForm capsInTurn unforced_capsInTurn _ List.mem_cons_self (by decide)
    (text "nurture") rfl (by decide) (by decide)
  revert low
  decide

/-- With the score cap first, the route cap stays. -/
theorem route_caps_hold_reversed :
    let config := { capsInTurn with overrides := capsInTurn.overrides.reverse }
    ∀ override ∈ config.overrides, override.applies strongForm = true → ∀ cap,
      override.capRoute = some cap → cap ∈ ladderRoutes →
      (scoreLead id strongForm config).route ∈ ladderRoutes →
        ladderRoutes.idxOf (scoreLead id strongForm config).route ≤ ladderRoutes.idxOf cap := by
  intro config
  refine (route_caps_hold id strongForm config ?_).mpr ?_
  · intro override member
    exact unforced_capsInTurn override (List.mem_reverse.mp member)
  · intro override member _ cap named _ _
    right
    have kept : lateCaps strongForm config.overrides = [text "nurture"] := by decide
    rcases List.mem_cons.mp member with rfl | member
    · cases named
    · obtain rfl := List.mem_singleton.mp member
      cases named
      exact ⟨text "nurture", by rw [kept]; exact List.mem_singleton_self _, by decide, le_rfl⟩

end Route

end N8nSystems.Leads
