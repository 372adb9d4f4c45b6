import Mathlib.Algebra.Order.Group.Int
import Mathlib.Algebra.Order.Group.Abs
import N8nSystems.Leads.Overrides

/-! How much the model's output can move a score. -/

namespace N8nSystems.Leads

open Lib.Py

/-- The points of the fields that only the form supplies. -/
def formPoints (lower : Text → Text) (inp : ScoreInput) : Int :=
  (companySizePoints inp shippedConfig).1 + (industryPoints lower inp shippedConfig).1 +
    (budgetPoints inp shippedConfig).1

theorem dictGet_mem (found : dictGet pairs key = some points) : ∃ name, (name, points) ∈ pairs := by
  obtain ⟨pair, selected, rfl⟩ := Option.map_eq_some_iff.mp found
  exact ⟨pair.1, List.mem_reverse.mp (List.mem_of_find?_eq_some selected)⟩

theorem dictGet_nonneg {pairs : Bands} (entries : ∀ pair ∈ pairs, 0 ≤ pair.2) (key : Text) :
    0 ≤ (dictGet pairs key).getD 0 := by
  cases found : dictGet pairs key with
  | none => exact le_rfl
  | some points =>
    obtain ⟨name, member⟩ := dictGet_mem found
    exact entries _ member

theorem bandPoints_nonneg {bands : Bands} (entries : ∀ pair ∈ bands, 0 ≤ pair.2)
    (key : Option Text) : 0 ≤ (bandPoints bands key).1 := by
  unfold bandPoints
  dsimp only
  split
  · exact dictGet_nonneg entries _
  · rename_i normalized _
    have looked := dictGet_nonneg entries normalized
    split
    · rename_i points found
      rwa [found] at looked
    · exact dictGet_nonneg entries _

/-- The points of a component whose entries are not negative. -/
theorem bandPoints_capped {bands : Bands} {max : Int} (entries : ∀ pair ∈ bands, 0 ≤ pair.2)
    (cap : 0 ≤ max) (key : Option Text) :
    0 ≤ min (bandPoints bands key).1 max ∧ min (bandPoints bands key).1 max ≤ max :=
  ⟨le_min (bandPoints_nonneg entries key) cap, min_le_right _ _⟩

theorem companySizePoints_shipped (inp : ScoreInput) :
    0 ≤ (companySizePoints inp shippedConfig).1 ∧ (companySizePoints inp shippedConfig).1 ≤ 25 :=
  bandPoints_capped (by decide) (by decide) _

theorem industryPoints_shipped (lower : Text → Text) (inp : ScoreInput) :
    0 ≤ (industryPoints lower inp shippedConfig).1 ∧
      (industryPoints lower inp shippedConfig).1 ≤ 20 := by
  unfold industryPoints
  dsimp only
  split
  · dsimp only
    decide
  · split
    · dsimp only
      decide
    · dsimp only
      decide

theorem budgetPoints_shipped (inp : ScoreInput) :
    0 ≤ (budgetPoints inp shippedConfig).1 ∧ (budgetPoints inp shippedConfig).1 ≤ 20 :=
  bandPoints_capped (by decide) (by decide) _

theorem aiPoints_shipped (inp : ScoreInput) :
    0 ≤ (aiPoints inp shippedConfig).1 ∧ (aiPoints inp shippedConfig).1 ≤ 20 := by
  have bound : 0 ≤ (dictGet shippedConfig.aiQualification.intentPoints
      (strip (inp.intent.getD []))).getD 0 := dictGet_nonneg (by decide) _
  have shape (raw : Int) : capComponent (text "ai_qualification") raw
      shippedConfig.aiQualification.max = min (min raw 20) 20 := rfl
  unfold aiPoints
  dsimp only
  split
  · decide
  · split
    · decide
    · dsimp only
      rw [shape]
      omega

theorem capComponent_min {name : Text} (other : name ≠ text "ai_qualification") (points max : Int) :
    capComponent name points max = min points max := by
  rw [capComponent, if_neg other]

theorem urgencyPoints_eq (inp : ScoreInput) (config : ScoringConfig) :
    (urgencyPoints inp config).1 =
      min (bandPoints config.urgency.bands (urgencyTimeline inp config).1).1 config.urgency.max := by
  have other : text "urgency" ≠ text "ai_qualification" := by decide
  unfold urgencyPoints
  exact capComponent_min other _ _

/-- The points of the timeline that is used. -/
theorem urgencyPoints_timeline (inp : ScoreInput) :
    (urgencyPoints inp shippedConfig).1 =
      min (bandPoints shippedConfig.urgency.bands (urgencyTimeline inp shippedConfig).1).1 15 := by
  have most : shippedConfig.urgency.max = 15 := rfl
  rw [urgencyPoints_eq, most]

theorem urgencyPoints_shipped (inp : ScoreInput) :
    0 ≤ (urgencyPoints inp shippedConfig).1 ∧ (urgencyPoints inp shippedConfig).1 ≤ 15 := by
  rw [urgencyPoints_timeline]
  exact bandPoints_capped (by decide) (by decide) _

/-- The form says when the project starts. -/
def TimelineKnown (inp : ScoreInput) : Prop :=
  ∃ timeline, stripOrNone (inp.timeline.getD []) = some timeline ∧ timeline ≠ text "unknown"

theorem givenTimeline_shipped (inp : ScoreInput) :
    givenTimeline inp shippedConfig = stripOrNone (inp.timeline.getD []) := by
  have field : inp.getattr (text "timeline") = .ofText inp.timeline := rfl
  have raw : (Value.ofText inp.timeline).str? = inp.timeline := by
    cases inp.timeline <;> rfl
  show stripOrNone ((inp.getattr (text "timeline")).str?.getD []) = _
  rw [field, raw]

/-- A known timeline leaves the hint out of account. -/
theorem urgencyPoints_known {inp : ScoreInput} (known : TimelineKnown inp) :
    (urgencyPoints inp shippedConfig).1 = min (bandPoints shippedConfig.urgency.bands
      (stripOrNone (inp.timeline.getD []))).1 15 := by
  obtain ⟨timeline, given, different⟩ := known
  have used : (urgencyTimeline inp shippedConfig).1 = stripOrNone (inp.timeline.getD []) := by
    simp [urgencyTimeline, givenTimeline_shipped, given, different]
  rw [urgencyPoints_timeline, used]

theorem hintedBand_points (hint : Text) :
    3 ≤ min (bandPoints shippedConfig.urgency.bands
      (some ((urgencyHintToBand hint).getD (text "unknown")))).1 15 := by
  unfold urgencyHintToBand
  split
  · decide
  · split
    · decide
    · split
      · decide
      · split <;> decide

theorem not_timelineKnown {inp : ScoreInput} :
    ¬ TimelineKnown inp ↔ stripOrNone (inp.timeline.getD []) = none ∨
      stripOrNone (inp.timeline.getD []) = some (text "unknown") := by
  unfold TimelineKnown
  cases stripOrNone (inp.timeline.getD []) with
  | none => simp
  | some timeline => simp

/-- Without one, the hint gives the band when there is a hint. -/
theorem urgencyPoints_fallback {inp : ScoreInput}
    (fallback : stripOrNone (inp.timeline.getD []) = none ∨
      stripOrNone (inp.timeline.getD []) = some (text "unknown")) :
    (urgencyPoints inp shippedConfig).1 = min (bandPoints shippedConfig.urgency.bands
      (if strip (inp.urgencyHint.getD []) = [] then stripOrNone (inp.timeline.getD [])
        else some ((urgencyHintToBand (strip (inp.urgencyHint.getD []))).getD (text "unknown")))).1
      15 := by
  have used : (urgencyTimeline inp shippedConfig).1 =
      if strip (inp.urgencyHint.getD []) = [] then stripOrNone (inp.timeline.getD [])
        else some ((urgencyHintToBand (strip (inp.urgencyHint.getD []))).getD (text "unknown")) := by
    rw [urgencyTimeline, givenTimeline_shipped, if_pos fallback]
    dsimp only
    split <;> rfl
  rw [urgencyPoints_timeline, used]

theorem urgencyPoints_hinted {inp : ScoreInput} (unknown : ¬ TimelineKnown inp) :
    3 ≤ (urgencyPoints inp shippedConfig).1 := by
  have fallback := not_timelineKnown.mp unknown
  rw [urgencyPoints_fallback fallback]
  split
  · rcases fallback with given | given <;> rw [given] <;> decide
  · exact hintedBand_points _

theorem breakdown_sum (lower : Text → Text) (inp : ScoreInput) (config : ScoringConfig) :
    (breakdown lower inp config).1.sum = (companySizePoints inp config).1 +
      (industryPoints lower inp config).1 + (budgetPoints inp config).1 +
        (urgencyPoints inp config).1 + (aiPoints inp config).1 := by
  simp only [breakdown, Breakdown.sum]

/-- With the shipped file only the free-mail override caps the score. -/
theorem score_shipped (lower : Text → Text) (inp : ScoreInput) :
    (scoreLead lower inp shippedConfig).score =
      let total := formPoints lower inp + (urgencyPoints inp shippedConfig).1 +
        (aiPoints inp shippedConfig).1
      if inp.isFreeMail then min total 60 else total := by
  have company := companySizePoints_shipped inp
  have industry := industryPoints_shipped lower inp
  have budget := budgetPoints_shipped inp
  have urgency := urgencyPoints_shipped inp
  have ai := aiPoints_shipped inp
  have sum : min (breakdown lower inp shippedConfig).1.sum shippedConfig.maxScore =
      formPoints lower inp + (urgencyPoints inp shippedConfig).1 +
        (aiPoints inp shippedConfig).1 := by
    have most : shippedConfig.maxScore = 100 := rfl
    rw [breakdown_sum, formPoints, most]
    omega
  have free : matches_ [(text "is_free_mail", .bool true)] inp = inp.isFreeMail := by
    have field : inp.getattr (text "is_free_mail") = .bool inp.isFreeMail := rfl
    simp [matches_, field, Value.truthy]
  rw [scoreLead_score, sum]
  generalize formPoints lower inp + (urgencyPoints inp shippedConfig).1 +
    (aiPoints inp shippedConfig).1 = total
  have routed (override : Override) (uncapped : override.capScore = none) (total : Int) :
      override.capTotal inp total = total := by
    rw [Override.capTotal, uncapped]
    exact ite_self total
  have capped (override : Override) (clause : override.when_ = some [(text "is_free_mail", .bool true)])
      (cap : override.capScore = some 60) (total : Int) :
      override.capTotal inp total = if inp.isFreeMail then min total 60 else total := by
    rw [Override.capTotal, Override.applies, clause, cap]
    simp only [Option.elim, free]
  simp only [shippedConfig, List.foldl_cons, List.foldl_nil]
  rw [routed _ rfl, capped _ rfl rfl, routed _ rfl, routed _ rfl, routed _ rfl]

/-- The two inputs agree on everything the model does not supply. -/
structure SameForm (form inp : ScoreInput) : Prop where
  companySize : inp.companySize = form.companySize
  industry : inp.industry = form.industry
  budgetRange : inp.budgetRange = form.budgetRange
  timeline : inp.timeline = form.timeline
  isFreeMail : inp.isFreeMail = form.isFreeMail

theorem SameForm.formPoints {form inp : ScoreInput} (same : SameForm form inp)
    (lower : Text → Text) : formPoints lower inp = Leads.formPoints lower form := by
  have budget : ∀ given : ScoreInput, budgetPoints given shippedConfig =
      budgetPoints { budgetRange := given.budgetRange } shippedConfig := fun _ => rfl
  unfold Leads.formPoints companySizePoints industryPoints
  rw [same.companySize, same.industry, budget inp, budget form, same.budgetRange]

theorem SameForm.timelineKnown {form inp : ScoreInput} (same : SameForm form inp) :
    TimelineKnown inp ↔ TimelineKnown form := by
  unfold TimelineKnown
  rw [same.timeline]

/-- The form as a model that says nothing leaves it. -/
def ScoreInput.silent (form : ScoreInput) : ScoreInput :=
  { form with urgencyHint := none, intent := none, llmStatus := none }

/-- The form with the highest answers the model can give. -/
def ScoreInput.eager (form : ScoreInput) : ScoreInput :=
  { form with
    urgencyHint := some (text "now")
    intent := some (text "demo_request")
    llmStatus := none }

theorem sameForm_silent (form : ScoreInput) : SameForm form form.silent :=
  ⟨rfl, rfl, rfl, rfl, rfl⟩

theorem sameForm_eager (form : ScoreInput) : SameForm form form.eager :=
  ⟨rfl, rfl, rfl, rfl, rfl⟩

theorem aiPoints_silent (form : ScoreInput) : (aiPoints form.silent shippedConfig).1 = 0 := rfl

theorem aiPoints_eager (form : ScoreInput) : (aiPoints form.eager shippedConfig).1 = 20 := by
  have blind : aiPoints form.eager shippedConfig =
      aiPoints { intent := some (text "demo_request") } shippedConfig := rfl
  rw [blind]
  decide

theorem urgencyPoints_silent {form : ScoreInput} (unknown : ¬ TimelineKnown form) :
    (urgencyPoints form.silent shippedConfig).1 = 3 := by
  have fallback := not_timelineKnown.mp (mt (sameForm_silent form).timelineKnown.mp unknown)
  have hint : strip (form.silent.urgencyHint.getD []) = [] := rfl
  rw [urgencyPoints_fallback fallback, if_pos hint]
  rcases fallback with given | given <;>
  · rw [given]
    decide

theorem urgencyPoints_eager {form : ScoreInput} (unknown : ¬ TimelineKnown form) :
    (urgencyPoints form.eager shippedConfig).1 = 15 := by
  have fallback := not_timelineKnown.mp (mt (sameForm_eager form).timelineKnown.mp unknown)
  have hint : strip (form.eager.urgencyHint.getD []) = text "now" := rfl
  rw [urgencyPoints_fallback fallback, hint, if_neg (by decide)]
  decide

/-- With the shipped configuration, the fields that the model supplies move the
score of a form by at most `LLM_SCORE_CAP` exactly when the form gives a timeline,
or its mail is free and its other points reach 37. -/
theorem llm_influence_capped (lower : Text → Text) (form : ScoreInput) :
    (∀ first second, SameForm form first → SameForm form second →
      |(scoreLead lower first shippedConfig).score -
        (scoreLead lower second shippedConfig).score| ≤ llmScoreCap) ↔
      TimelineKnown form ∨ form.isFreeMail = true ∧ 37 ≤ formPoints lower form := by
  constructor
  · intro capped
    by_cases known : TimelineKnown form
    · exact .inl known
    · right
      -- The silent model against the most eager one: 3 points against 35.
      have gap := abs_le.mp (capped _ _ (sameForm_eager form) (sameForm_silent form))
      rw [score_shipped, score_shipped, (sameForm_eager form).formPoints,
        (sameForm_silent form).formPoints, aiPoints_silent, aiPoints_eager,
        urgencyPoints_silent known, urgencyPoints_eager known, (sameForm_eager form).isFreeMail,
        (sameForm_silent form).isFreeMail] at gap
      cases free : form.isFreeMail with
      | false =>
        simp only [free, llmScoreCap, Bool.false_eq_true, if_false] at gap
        omega
      | true =>
        simp only [free, llmScoreCap, if_true] at gap
        exact ⟨rfl, by omega⟩
  · intro condition first second sameFirst sameSecond
    have aiFirst := aiPoints_shipped first
    have aiSecond := aiPoints_shipped second
    have urgencyFirst := urgencyPoints_shipped first
    have urgencySecond := urgencyPoints_shipped second
    rw [score_shipped, score_shipped, sameFirst.formPoints, sameSecond.formPoints,
      sameFirst.isFreeMail, sameSecond.isFreeMail, abs_le]
    by_cases known : TimelineKnown form
    · have urgency : (urgencyPoints first shippedConfig).1 = (urgencyPoints second shippedConfig).1 := by
        rw [urgencyPoints_known (sameFirst.timelineKnown.mpr known),
          urgencyPoints_known (sameSecond.timelineKnown.mpr known), sameFirst.timeline,
          sameSecond.timeline]
      dsimp only [llmScoreCap]
      split <;> omega
    · obtain ⟨free, points⟩ := condition.resolve_left known
      have lowFirst := urgencyPoints_hinted (mt sameFirst.timelineKnown.mp known)
      have lowSecond := urgencyPoints_hinted (mt sameSecond.timelineKnown.mp known)
      simp only [free, llmScoreCap, if_true]
      omega

/-- `str.lower` on ASCII text. -/
def lowerAscii (value : Text) : Text :=
  value.map fun code => if 65 ≤ code ∧ code ≤ 90 then code + 32 else code

/-- An empty form scores 13 points from a silent model and 45 from an eager one. -/
theorem llm_influence_not_capped :
    ¬ ∀ (lower : Text → Text) (form first second : ScoreInput), SameForm form first →
      SameForm form second → |(scoreLead lower first shippedConfig).score -
        (scoreLead lower second shippedConfig).score| ≤ llmScoreCap := by
  intro capped
  have gap := capped lowerAscii {} _ _ (sameForm_eager {}) (sameForm_silent {})
  revert gap
  decide +kernel

end N8nSystems.Leads
