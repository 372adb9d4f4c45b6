import N8nSystems.Leads.ScoreCap

/-! Scores of inputs with and without surrounding whitespace. The points functions
strip what they read, and the overrides compare it as it is. -/

namespace N8nSystems.Leads

open Lib.Py

/-- Every text field with `str.strip()` applied. -/
def ScoreInput.stripped (inp : ScoreInput) : ScoreInput where
  companySize := inp.companySize.map strip
  industry := inp.industry.map strip
  budgetRange := inp.budgetRange.map strip
  timeline := inp.timeline.map strip
  urgencyHint := inp.urgencyHint.map strip
  intent := inp.intent.map strip
  isFreeMail := inp.isFreeMail
  llmStatus := inp.llmStatus.map strip

theorem strip_getD (value : Option Text) : strip ((value.map strip).getD []) = strip (value.getD []) := by
  cases value with
  | none => rfl
  | some value => exact strip_idem value

theorem stripOrNone_getD (value : Option Text) :
    stripOrNone ((value.map strip).getD []) = stripOrNone (value.getD []) := by
  rw [stripOrNone, stripOrNone, strip_getD]

theorem bandPoints_stripped (bands : Bands) (key : Option Text) :
    bandPoints bands (key.map strip) = bandPoints bands key := by
  rw [bandPoints, bandPoints, stripOrNone_getD]

section Points

variable (lower : Text → Text) (inp : ScoreInput)

theorem companySizePoints_stripped :
    (companySizePoints inp.stripped shippedConfig).1 = (companySizePoints inp shippedConfig).1 := by
  have field : inp.stripped.companySize = inp.companySize.map strip := rfl
  simp only [companySizePoints, field, bandPoints_stripped]

theorem industryPoints_stripped :
    (industryPoints lower inp.stripped shippedConfig).1 = (industryPoints lower inp shippedConfig).1 := by
  have field : inp.stripped.industry = inp.industry.map strip := rfl
  unfold industryPoints
  rw [field, strip_getD]

theorem budgetPoints_stripped :
    (budgetPoints inp.stripped shippedConfig).1 = (budgetPoints inp shippedConfig).1 := by
  have points : ∀ given : ScoreInput, (budgetPoints given shippedConfig).1 =
      min (bandPoints shippedConfig.budget.bands given.budgetRange).1 20 := by
    intro given
    have raw : (given.getattr (text "budget_range")).str? = given.budgetRange := by
      have field : given.getattr (text "budget_range") = .ofText given.budgetRange := rfl
      rw [field]
      cases given.budgetRange <;> rfl
    show min (bandPoints shippedConfig.budget.bands (given.getattr (text "budget_range")).str?).1 20 = _
    rw [raw]
  have field : inp.stripped.budgetRange = inp.budgetRange.map strip := rfl
  rw [points, points, field, bandPoints_stripped]

theorem urgencyPoints_stripped :
    (urgencyPoints inp.stripped shippedConfig).1 = (urgencyPoints inp shippedConfig).1 := by
  have given : givenTimeline inp.stripped shippedConfig = givenTimeline inp shippedConfig := by
    rw [givenTimeline_shipped, givenTimeline_shipped, ScoreInput.stripped, stripOrNone_getD]
  have hint : strip (inp.stripped.urgencyHint.getD []) = strip (inp.urgencyHint.getD []) := strip_getD _
  have used : urgencyTimeline inp.stripped shippedConfig = urgencyTimeline inp shippedConfig := by
    unfold urgencyTimeline
    rw [given, hint]
  unfold urgencyPoints
  rw [used]

/-- The points of everything but the model's verdict. -/
def otherPoints : Int := formPoints lower inp + (urgencyPoints inp shippedConfig).1

theorem otherPoints_stripped : otherPoints lower inp.stripped = otherPoints lower inp := by
  rw [otherPoints, otherPoints, formPoints, formPoints, companySizePoints_stripped,
    industryPoints_stripped, budgetPoints_stripped, urgencyPoints_stripped]

/-- The intent as the points read it. -/
def trimmedIntent : Text := strip (inp.intent.getD [])

theorem trimmedIntent_stripped : trimmedIntent inp.stripped = trimmedIntent inp := strip_getD _

/-- The intents with points. -/
def scoringIntents : List Text :=
  [text "demo_request", text "pricing", text "partnership", text "other"]

/-- The intents that an override gives a route of its own. -/
def routedIntents : List Text := [text "spam", text "job_application", text "support"]

/-- The points of an intent, when the model did not fail. -/
def intentPoints (intent : Text) : Int :=
  if intent = text "demo_request" then 20
  else if intent = text "pricing" then 16
  else if intent = text "partnership" then 8
  else if intent = text "other" then 4
  else 0

theorem intentPoints_eq_zero (intent : Text) : intentPoints intent = 0 ↔ intent ∉ scoringIntents := by
  unfold intentPoints scoringIntents
  split
  · simp [*]
  · split
    · simp [*]
    · split
      · simp [*]
      · split
        · simp [*]
        · simp [*]

theorem dictGet_intentPoints (intent : Text) :
    capComponent (text "ai_qualification")
      ((dictGet shippedConfig.aiQualification.intentPoints intent).getD 0)
      shippedConfig.aiQualification.max = intentPoints intent := by
  by_cases known : intent ∈ scoringIntents ++ routedIntents
  · revert known
    revert intent
    decide
  · have listed : ∀ pair ∈ shippedConfig.aiQualification.intentPoints.reverse,
        pair.1 ∈ scoringIntents ++ routedIntents := by decide
    have absent : dictGet shippedConfig.aiQualification.intentPoints intent = none := by
      rw [dictGet, Option.map_eq_none_iff, List.find?_eq_none]
      intro pair member same
      rw [← of_decide_eq_true same] at known
      exact known (listed pair member)
    have worthless : intentPoints intent = 0 :=
      (intentPoints_eq_zero intent).mpr fun scoring => known (List.mem_append_left _ scoring)
    rw [absent, worthless]
    rfl

theorem aiPoints_intent : (aiPoints inp shippedConfig).1 =
    if inp.llmStatus = some (text "failed") then 0 else intentPoints (trimmedIntent inp) := by
  unfold aiPoints
  dsimp only
  by_cases failed : inp.llmStatus = some (text "failed")
  · rw [if_pos failed, if_pos failed]
  · rw [if_neg failed, if_neg failed]
    change (if trimmedIntent inp = [] then _ else _ : Int × List Text).1 = _
    by_cases empty : trimmedIntent inp = []
    · rw [if_pos empty, empty]
      decide
    · rw [if_neg empty]
      exact dictGet_intentPoints (trimmedIntent inp)

end Points

section Route

variable (lower : Text → Text) (inp : ScoreInput)

/-- The route of an intent with an override. -/
def intentRoute (intent : Option Text) : Option Text :=
  if intent = some (text "spam") then some (text "archive")
  else if intent = some (text "job_application") then some (text "hr_forward")
  else if intent = some (text "support") then some (text "support_forward")
  else none

theorem intentRoute_eq_none {intent : Option Text} : intentRoute intent = none ↔
    intent ≠ some (text "spam") ∧ intent ≠ some (text "job_application") ∧
      intent ≠ some (text "support") := by
  unfold intentRoute
  split
  · simp [*]
  · split
    · simp [*]
    · split <;> simp [*]

/-- An override that routes an intent. -/
def intentOverride (intent route : String) : Override where
  when_ := some [(text "intent", .text (text intent))]
  route := some (text route)

def freeMailOverride : Override where
  when_ := some [(text "is_free_mail", .bool true)]
  capScore := some 60

def failedOverride : Override where
  when_ := some [(text "llm_status", .text (text "failed"))]
  capRoute := some (text "nurture")

theorem overrides_shipped : shippedConfig.overrides =
    [intentOverride "spam" "archive", intentOverride "job_application" "hr_forward",
      intentOverride "support" "support_forward", freeMailOverride, failedOverride] := rfl

theorem applies_intent (intent route : String) :
    (intentOverride intent route).applies inp = decide (inp.intent = some (text intent)) := by
  have field : inp.getattr (text "intent") = .ofText inp.intent := rfl
  have other : text "intent" ≠ text "is_free_mail" := by decide
  rw [Override.applies, intentOverride]
  simp only [Option.elim, matches_, List.all_cons, List.all_nil, Bool.and_true, if_neg other, field]
  cases inp.intent with
  | none => rfl
  | some given =>
    by_cases same : given = text intent <;> simp [Value.ofText, same]

theorem applies_failed :
    failedOverride.applies inp = decide (inp.llmStatus = some (text "failed")) := by
  have field : inp.getattr (text "llm_status") = .ofText inp.llmStatus := rfl
  have other : text "llm_status" ≠ text "is_free_mail" := by decide
  rw [Override.applies, failedOverride]
  simp only [Option.elim, matches_, List.all_cons, List.all_nil, Bool.and_true, if_neg other, field]
  cases inp.llmStatus with
  | none => rfl
  | some given =>
    by_cases same : given = text "failed" <;> simp [Value.ofText, same]

theorem apply_intent (config : ScoringConfig) (progress : Progress) (intent route : String) :
    progress.apply inp config (intentOverride intent route) =
      if inp.intent = some (text intent) then progress.forceRoute (text route) else progress := by
  rw [Progress.apply, applies_intent]
  by_cases same : inp.intent = some (text intent)
  · simp only [same, decide_true, if_true]
    rfl
  · simp only [same, decide_false, Bool.false_eq_true, if_false]

/-- The overrides of the intents force the route of the intent. -/
theorem foldl_intents (config : ScoringConfig) (progress : Progress) {route : Text}
    (named : intentRoute inp.intent = some route) :
    ((shippedConfig.overrides.take 3).foldl (Progress.apply inp config) progress).forcedRoute = true ∧
      ((shippedConfig.overrides.take 3).foldl (Progress.apply inp config) progress).route = route := by
  rw [overrides_shipped]
  simp only [List.take_succ_cons, List.take_zero, List.foldl_cons, List.foldl_nil, apply_intent]
  unfold intentRoute at named
  split at named
  · rename_i spam
    cases named
    rw [spam]
    exact ⟨rfl, rfl⟩
  · split at named
    · rename_i job
      cases named
      rw [job]
      exact ⟨rfl, rfl⟩
    · split at named
      · rename_i support
        cases named
        rw [support]
        exact ⟨rfl, rfl⟩
      · cases named

theorem apply_freeMail (config : ScoringConfig) (progress : Progress) (forced : progress.forcedRoute = true) :
    (progress.apply inp config freeMailOverride).route = progress.route := by
  rw [Progress.apply]
  split
  · simp [freeMailOverride, Progress.capScore, forced]
  · rfl

/-- The other two overrides leave a forced route but for the cap of a failed model. -/
theorem foldl_caps (config : ScoringConfig) (progress : Progress) (forced : progress.forcedRoute = true) :
    ((shippedConfig.overrides.drop 3).foldl (Progress.apply inp config) progress).route =
      if inp.llmStatus = some (text "failed") then capRoute progress.route (text "nurture")
      else progress.route := by
  rw [overrides_shipped, ← apply_freeMail inp config progress forced]
  simp only [List.drop_succ_cons, List.drop_zero, List.foldl_cons, List.foldl_nil]
  generalize progress.apply inp config freeMailOverride = progress
  rw [Progress.apply, applies_failed]
  by_cases failed : inp.llmStatus = some (text "failed")
  · simp only [failed, decide_true, if_true]
    rfl
  · simp only [failed, decide_false, Bool.false_eq_true, if_false]

theorem lateCaps_shipped (plain : intentRoute inp.intent = none) :
    Unforced inp shippedConfig.overrides ∧ lateCaps inp shippedConfig.overrides =
      if inp.llmStatus = some (text "failed") then [text "nurture"] else [] := by
  obtain ⟨spam, job, support⟩ := intentRoute_eq_none.mp plain
  rw [overrides_shipped]
  constructor
  · intro override member applies
    simp only [List.mem_cons, List.not_mem_nil, or_false] at member
    obtain rfl | rfl | rfl | rfl | rfl := member
    · rw [applies_intent] at applies
      exact absurd (of_decide_eq_true applies) spam
    · rw [applies_intent] at applies
      exact absurd (of_decide_eq_true applies) job
    · rw [applies_intent] at applies
      exact absurd (of_decide_eq_true applies) support
    · rfl
    · rfl
  · simp only [lateCaps, List.foldl_cons, List.foldl_nil, applies_intent, applies_failed, spam, job,
      support, decide_false, Bool.false_eq_true, if_false, decide_eq_true_eq]
    have freed : (if freeMailOverride.applies inp = true then
        (if freeMailOverride.capScore.isSome = true then [] else []) ++ freeMailOverride.capRoute.toList
      else []) = [] := by
      split <;> rfl
    rw [freed]
    rfl

/-- The route of the shipped file: an intent with an override decides it, and
otherwise the score does, below sales when the model failed. -/
theorem route_shipped : (scoreLead lower inp shippedConfig).route =
    (intentRoute inp.intent).getD
      (if inp.llmStatus = some (text "failed") then
        capRoute (routeFromScore (scoreLead lower inp shippedConfig).score shippedConfig) (text "nurture")
      else routeFromScore (scoreLead lower inp shippedConfig).score shippedConfig) := by
  cases named : intentRoute inp.intent with
  | none =>
    obtain ⟨unforced, caps⟩ := lateCaps_shipped inp named
    rw [scoreLead_route unforced, caps]
    split <;> rfl
  | some route =>
    have parts : shippedConfig.overrides =
        shippedConfig.overrides.take 3 ++ shippedConfig.overrides.drop 3 := (List.take_append_drop 3 _).symm
    have uncapped : capRoute route (text "nurture") = route := by
      unfold intentRoute at named
      split at named
      · cases named
        decide
      · split at named
        · cases named
          decide
        · split at named
          · cases named
            decide
          · cases named
    unfold scoreLead
    dsimp only
    rw [parts, List.foldl_append]
    obtain ⟨forced, here⟩ := foldl_intents inp shippedConfig
      ⟨min (breakdown lower inp shippedConfig).1.sum shippedConfig.maxScore, routeFromScore
        (min (breakdown lower inp shippedConfig).1.sum shippedConfig.maxScore) shippedConfig, false,
        (breakdown lower inp shippedConfig).2⟩ named
    rw [foldl_caps inp shippedConfig _ forced, here, uncapped, ite_self, Option.getD_some]

end Route

section Agreement

variable (lower : Text → Text) (inp : ScoreInput)

theorem routeFromScore_shipped (score : Int) : routeFromScore score shippedConfig =
    if 80 ≤ score then text "sales" else if 50 ≤ score then text "nurture" else text "archive" := by
  have ordered : (shippedConfig.routes.insertionSort fun a b => b.min ≤ a.min) =
      shippedConfig.routes := by decide
  unfold routeFromScore
  dsimp only
  rw [ordered]
  simp only [shippedConfig, List.find?_cons, List.find?_nil]
  by_cases high : 80 ≤ score
  · simp [high]
  · by_cases middle : 50 ≤ score
    · simp [high, middle]
    · by_cases low : 0 ≤ score
      · simp [high, middle, low]
      · simp [high, middle, low]

theorem intentRoute_stripped :
    intentRoute inp.stripped.intent = intentRoute (some (trimmedIntent inp)) := by
  have field : inp.stripped.intent = inp.intent.map strip := rfl
  rw [field, trimmedIntent]
  cases inp.intent with
  | none => decide
  | some intent => rfl

/-- An intent has a route when it has it as it stands. -/
theorem intentRoute_raw : intentRoute inp.intent =
    if inp.intent = some (trimmedIntent inp) then intentRoute (some (trimmedIntent inp)) else none := by
  by_cases clean : inp.intent = some (trimmedIntent inp)
  · rw [if_pos clean, ← clean]
  · rw [if_neg clean, intentRoute_eq_none]
    have padded {intent : Text} (plain : strip intent = intent) : inp.intent ≠ some intent := by
      intro given
      apply clean
      rw [trimmedIntent, given, Option.getD_some, plain]
    exact ⟨padded (by decide), padded (by decide), padded (by decide)⟩

theorem intentRoute_some {intent route : Text} (named : intentRoute (some intent) = some route) :
    intent = text "spam" ∧ route = text "archive" ∨
      (intent = text "job_application" ∨ intent = text "support") ∧ route ∉ ladderRoutes := by
  unfold intentRoute at named
  split at named
  · rename_i spam
    cases named
    exact .inl ⟨Option.some.inj spam, rfl⟩
  · split at named
    · rename_i job
      cases named
      exact .inr ⟨.inl (Option.some.inj job), by decide⟩
    · split at named
      · rename_i support
        cases named
        exact .inr ⟨.inr (Option.some.inj support), by decide⟩
      · cases named

/-- The score of the shipped file over what the model says. -/
theorem score_model : (scoreLead lower inp shippedConfig).score =
    if inp.isFreeMail then min (otherPoints lower inp + (aiPoints inp shippedConfig).1) 60
    else otherPoints lower inp + (aiPoints inp shippedConfig).1 :=
  score_shipped lower inp

/-- The model's points are read off the trimmed intent, but the failure of the model
off the status as it stands. -/
theorem aiPoints_stripped_iff :
    (aiPoints inp.stripped shippedConfig).1 = (aiPoints inp shippedConfig).1 ↔
      (inp.llmStatus.map strip = some (text "failed") → inp.llmStatus = some (text "failed") ∨
        trimmedIntent inp ∉ scoringIntents) := by
  have field : inp.stripped.llmStatus = inp.llmStatus.map strip := rfl
  rw [aiPoints_intent, aiPoints_intent, trimmedIntent_stripped, field, ← intentPoints_eq_zero]
  by_cases failed : inp.llmStatus = some (text "failed")
  · have trimmed : inp.llmStatus.map strip = some (text "failed") := by
      rw [failed]
      decide
    rw [if_pos failed, if_pos trimmed]
    simp only [failed, true_or, implies_true]
  · by_cases trimmed : inp.llmStatus.map strip = some (text "failed")
    · simp only [failed, trimmed, if_true, if_false, false_or, true_implies]
      exact eq_comm
    · simp [failed, trimmed]

/-- The route that the score alone gives. -/
def scoredRoute (failed : Bool) (score : Int) : Text :=
  if failed then capRoute (routeFromScore score shippedConfig) (text "nurture")
  else routeFromScore score shippedConfig

theorem scoredRoute_eq (failed : Bool) (score : Int) : scoredRoute failed score =
    if 80 ≤ score ∧ failed = false then text "sales"
    else if 50 ≤ score then text "nurture" else text "archive" := by
  have cut : capRoute (text "sales") (text "nurture") = text "nurture" ∧
      capRoute (text "nurture") (text "nurture") = text "nurture" ∧
      capRoute (text "archive") (text "nurture") = text "archive" := by decide
  rw [scoredRoute, routeFromScore_shipped]
  cases failed with
  | false => simp
  | true =>
    by_cases high : 80 ≤ score
    · have middle : 50 ≤ score := by omega
      simp [high, middle, cut]
    · by_cases middle : 50 ≤ score <;> simp [high, middle, cut]

theorem scoredRoute_archive {failed : Bool} {score : Int} :
    scoredRoute failed score = text "archive" ↔ score < 50 := by
  have different : text "sales" ≠ text "archive" ∧ text "nurture" ≠ text "archive" := by decide
  rw [scoredRoute_eq]
  split
  · simp only [different.1, false_iff]
    omega
  · split
    · simp only [different.2, false_iff]
      omega
    · simp only [true_iff]
      omega

theorem scoredRoute_ladder (failed : Bool) (score : Int) : scoredRoute failed score ∈ ladderRoutes := by
  rw [scoredRoute_eq]
  split
  · decide
  · split <;> decide

theorem scoredRoute_failed {score : Int} : scoredRoute true score = scoredRoute false score ↔ score < 80 := by
  have different : text "sales" ≠ text "nurture" := by decide
  rw [scoredRoute_eq, scoredRoute_eq]
  by_cases high : 80 ≤ score
  · have middle : 50 ≤ score := by omega
    simp [high, middle, different.symm]
  · simp [high]
    omega

theorem route_scored : (scoreLead lower inp shippedConfig).route =
    (intentRoute inp.intent).getD (scoredRoute (decide (inp.llmStatus = some (text "failed")))
      (scoreLead lower inp shippedConfig).score) := by
  rw [route_shipped, scoredRoute]
  simp only [decide_eq_true_eq]

/-- Where the surrounding whitespace of an input is without effect: an intent with a
route of its own stands without it, or is spam that the score archives as well; and so
does the status of a failed model, or the intent has no points to lose and the route
cannot be sales. -/
structure SpacesHarmless : Prop where
  forwarded : trimmedIntent inp = text "job_application" ∨ trimmedIntent inp = text "support" →
    inp.intent = some (trimmedIntent inp)
  archived : trimmedIntent inp = text "spam" →
    inp.intent = some (text "spam") ∨ otherPoints lower inp < 50
  failed : inp.llmStatus.map strip = some (text "failed") → inp.llmStatus = some (text "failed") ∨
    trimmedIntent inp ∉ scoringIntents ∧
      (trimmedIntent inp ∈ routedIntents ∨ inp.isFreeMail = true ∨ otherPoints lower inp < 80)

/-- The two inputs have the same score, breakdown and route. -/
def SameVerdict (config : ScoringConfig) (first second : ScoreInput) : Prop :=
  (scoreLead lower first config).score = (scoreLead lower second config).score ∧
    (scoreLead lower first config).breakdown = (scoreLead lower second config).breakdown ∧
    (scoreLead lower first config).route = (scoreLead lower second config).route

theorem breakdown_stripped_iff :
    (scoreLead lower inp shippedConfig).breakdown = (scoreLead lower inp.stripped shippedConfig).breakdown ↔
      (aiPoints inp.stripped shippedConfig).1 = (aiPoints inp shippedConfig).1 := by
  show Breakdown.mk _ _ _ _ _ = Breakdown.mk _ _ _ _ _ ↔ _
  rw [companySizePoints_stripped, industryPoints_stripped, budgetPoints_stripped,
    urgencyPoints_stripped, Breakdown.mk.injEq]
  simp only [true_and]
  exact eq_comm

theorem score_stripped
    (same : (aiPoints inp.stripped shippedConfig).1 = (aiPoints inp shippedConfig).1) :
    (scoreLead lower inp.stripped shippedConfig).score = (scoreLead lower inp shippedConfig).score := by
  have field : inp.stripped.isFreeMail = inp.isFreeMail := rfl
  rw [score_model, score_model, otherPoints_stripped, same, field]

/-- Without points for the intent, the thresholds of the routes are those of the form. -/
theorem score_lt_iff (worthless : (aiPoints inp shippedConfig).1 = 0) :
    ((scoreLead lower inp shippedConfig).score < 50 ↔ otherPoints lower inp < 50) ∧
      ((scoreLead lower inp shippedConfig).score < 80 ↔
        inp.isFreeMail = true ∨ otherPoints lower inp < 80) := by
  rw [score_model, worthless]
  cases inp.isFreeMail with
  | false =>
    simp only [Bool.false_eq_true, if_false, false_or]
    omega
  | true =>
    simp only [if_true, true_or, iff_true]
    omega

theorem aiPoints_worthless (unscored : trimmedIntent inp ∉ scoringIntents) :
    (aiPoints inp shippedConfig).1 = 0 := by
  rw [aiPoints_intent, (intentPoints_eq_zero _).mpr unscored, ite_self]

/-- For an intent without a route of its own the status of the model is left. -/
theorem spacesHarmless_unrouted (unrouted : trimmedIntent inp ∉ routedIntents) :
    SpacesHarmless lower inp ↔ (inp.llmStatus.map strip = some (text "failed") →
      inp.llmStatus = some (text "failed") ∨ trimmedIntent inp ∉ scoringIntents ∧
        (inp.isFreeMail = true ∨ otherPoints lower inp < 80)) := by
  obtain ⟨spam, job, support⟩ : trimmedIntent inp ≠ text "spam" ∧
      trimmedIntent inp ≠ text "job_application" ∧ trimmedIntent inp ≠ text "support" := by
    simpa [routedIntents] using unrouted
  constructor
  · intro harmless trimmed
    refine (harmless.failed trimmed).imp_right ?_
    rintro ⟨unscored, low⟩
    exact ⟨unscored, low.resolve_left unrouted⟩
  · intro failed
    refine ⟨?_, fun it => absurd it spam, ?_⟩
    · rintro (it | it)
      · exact absurd it job
      · exact absurd it support
    · intro trimmed
      refine (failed trimmed).imp_right ?_
      rintro ⟨unscored, low⟩
      exact ⟨unscored, .inr low⟩

theorem routed_not_scoring (routed : trimmedIntent inp ∈ routedIntents) :
    trimmedIntent inp ∉ scoringIntents := by
  have apart : ∀ intent ∈ routedIntents, intent ∉ scoringIntents := by decide
  exact apart _ routed

/-- For an intent with a route of its own the status of the model is without effect. -/
theorem spacesHarmless_routed (routed : trimmedIntent inp ∈ routedIntents) :
    SpacesHarmless lower inp ↔ inp.intent = some (trimmedIntent inp) ∨
      trimmedIntent inp = text "spam" ∧ otherPoints lower inp < 50 := by
  have harmless (forwarded : trimmedIntent inp = text "job_application" ∨
        trimmedIntent inp = text "support" → inp.intent = some (trimmedIntent inp))
      (archived : trimmedIntent inp = text "spam" →
        inp.intent = some (text "spam") ∨ otherPoints lower inp < 50) : SpacesHarmless lower inp :=
    ⟨forwarded, archived, fun _ => .inr ⟨routed_not_scoring inp routed, .inl routed⟩⟩
  constructor
  · intro spaces
    have either : trimmedIntent inp = text "spam" ∨
        trimmedIntent inp = text "job_application" ∨ trimmedIntent inp = text "support" := by
      simpa [routedIntents] using routed
    rcases either with spam | other
    · rcases spaces.archived spam with clean | low
      · exact .inl (by rw [clean, spam])
      · exact .inr ⟨spam, low⟩
    · exact .inl (spaces.forwarded other)
  · rintro (clean | ⟨spam, low⟩)
    · refine harmless (fun _ => clean) fun spam => .inl ?_
      rw [clean, spam]
    · refine harmless (fun forwarded => absurd forwarded ?_) fun _ => .inr low
      rw [spam]
      decide

section
variable (same : (aiPoints inp.stripped shippedConfig).1 = (aiPoints inp shippedConfig).1)
include same

/-- Without a route for the intent, only the cap of a failed model tells the inputs apart. -/
theorem route_stripped_unrouted (named : intentRoute (some (trimmedIntent inp)) = none) :
    (scoreLead lower inp shippedConfig).route = (scoreLead lower inp.stripped shippedConfig).route ↔
      SpacesHarmless lower inp := by
  have unrouted : trimmedIntent inp ∉ routedIntents := by
    simpa [routedIntents, intentRoute_eq_none] using named
  have status := (aiPoints_stripped_iff inp).mp same
  have field : inp.stripped.llmStatus = inp.llmStatus.map strip := rfl
  rw [spacesHarmless_unrouted lower inp unrouted, route_scored, route_scored,
    score_stripped lower inp same, intentRoute_stripped, intentRoute_raw, field, named, ite_self,
    Option.getD_none, Option.getD_none]
  by_cases failed : inp.llmStatus = some (text "failed")
  · have trimmed : inp.llmStatus.map strip = some (text "failed") := by
      rw [failed]
      decide
    rw [decide_eq_true failed, decide_eq_true trimmed]
    exact iff_of_true rfl fun _ => .inl failed
  · rw [decide_eq_false failed]
    by_cases trimmed : inp.llmStatus.map strip = some (text "failed")
    · have unscored := (status trimmed).resolve_left failed
      rw [decide_eq_true trimmed, eq_comm, scoredRoute_failed,
        (score_lt_iff lower inp (aiPoints_worthless inp unscored)).2]
      constructor
      · intro low _
        exact .inr ⟨unscored, low⟩
      · intro harmless
        exact ((harmless trimmed).resolve_left failed).2
    · rw [decide_eq_false trimmed]
      exact iff_of_true rfl fun it => absurd it trimmed

/-- An intent with a route has it without its whitespace. -/
theorem route_stripped_routed {route : Text} (named : intentRoute (some (trimmedIntent inp)) = some route) :
    (scoreLead lower inp shippedConfig).route = (scoreLead lower inp.stripped shippedConfig).route ↔
      SpacesHarmless lower inp := by
  have routed : trimmedIntent inp ∈ routedIntents := by
    rcases intentRoute_some named with ⟨spam, -⟩ | ⟨job | support, -⟩ <;>
      simp [routedIntents, *]
  have worthless := aiPoints_worthless inp (routed_not_scoring inp routed)
  rw [spacesHarmless_routed lower inp routed, route_scored, route_scored, score_stripped lower inp same,
    intentRoute_stripped, intentRoute_raw, named]
  by_cases clean : inp.intent = some (trimmedIntent inp)
  · rw [if_pos clean]
    exact iff_of_true rfl (.inl clean)
  · rw [if_neg clean, Option.getD_none, Option.getD_some]
    simp only [clean, false_or]
    rcases intentRoute_some named with ⟨spam, rfl⟩ | ⟨other, off⟩
    · rw [scoredRoute_archive, (score_lt_iff lower inp worthless).1, and_iff_right spam]
    · refine iff_of_false ?_ ?_
      · intro equal
        rw [← equal] at off
        exact off (scoredRoute_ladder _ _)
      · rintro ⟨spam, -⟩
        rw [spam] at other
        revert other
        decide

theorem route_stripped_iff :
    (scoreLead lower inp shippedConfig).route = (scoreLead lower inp.stripped shippedConfig).route ↔
      SpacesHarmless lower inp := by
  cases named : intentRoute (some (trimmedIntent inp)) with
  | none => exact route_stripped_unrouted lower inp same named
  | some route => exact route_stripped_routed lower inp same named

end

/-- Whitespace around the fields changes the verdict of the shipped file exactly when
an override reads a field that the points have trimmed. -/
theorem verdict_stripped_iff :
    SameVerdict lower shippedConfig inp inp.stripped ↔ SpacesHarmless lower inp := by
  rw [SameVerdict, breakdown_stripped_iff]
  constructor
  · intro ⟨_, same, route⟩
    exact (route_stripped_iff lower inp same).mp route
  · intro harmless
    have same : (aiPoints inp.stripped shippedConfig).1 = (aiPoints inp shippedConfig).1 := by
      rw [aiPoints_stripped_iff]
      intro trimmed
      exact (harmless.failed trimmed).imp_right And.left
    exact ⟨(score_stripped lower inp same).symm, same, (route_stripped_iff lower inp same).mpr harmless⟩

/-- Spam by its intent, but for a space behind it, with 80 points from the form. -/
def paddedSpam : ScoreInput where
  companySize := some (text "51-200")
  industry := some (text "software")
  budgetRange := some (text "50k+")
  timeline := some (text "now")
  intent := some (text "spam ")

theorem padded_spam_sold :
    ¬ ∀ (lower : Text → Text) (inp : ScoreInput), SameVerdict lower shippedConfig inp inp.stripped := by
  intro same
  obtain ⟨-, -, route⟩ := same lowerAscii paddedSpam
  revert route
  decide

end Agreement

end N8nSystems.Leads
