import Mathlib.Data.List.Sort
import N8nSystems.Lib.PyText

/-! Deterministic lead scoring: five components read from the configuration, a
global cap, and the overrides in their order. -/

namespace N8nSystems.Leads

open Lib.Py

def llmScoreCap : Int := 20

def ladderRoutes : List Text := [text "archive", text "nurture", text "sales"]

def urgencyHintToBand (hint : Text) : Option Text :=
  if hint = text "now" then some (text "now")
  else if hint = text "soon" then some (text "1-3 months")
  else if hint = text "later" then some (text "3-6 months")
  else if hint = text "unknown" then some (text "unknown")
  else none

structure ScoreInput where
  companySize : Option Text := none
  industry : Option Text := none
  budgetRange : Option Text := none
  timeline : Option Text := none
  urgencyHint : Option Text := none
  intent : Option Text := none
  isFreeMail : Bool := false
  llmStatus : Option Text := none
  deriving DecidableEq, Repr

/-- A scalar of the configuration file, or another value by its truthiness. -/
inductive Value where
  | null
  | bool (value : Bool)
  | text (value : Text)
  | other (truthy : Bool)
  deriving DecidableEq, Repr

def Value.ofText : Option Text → Value
  | none => .null
  | some value => .text value

/-- `bool(value)`. -/
def Value.truthy : Value → Bool
  | .null => false
  | .bool value => value
  | .text value => value ≠ []
  | .other truthy => truthy

/-- `getattr(inp, name, None)` for the declared fields. -/
def ScoreInput.getattr (inp : ScoreInput) (name : Text) : Value :=
  if name = text "company_size" then .ofText inp.companySize
  else if name = text "industry" then .ofText inp.industry
  else if name = text "budget_range" then .ofText inp.budgetRange
  else if name = text "timeline" then .ofText inp.timeline
  else if name = text "urgency_hint" then .ofText inp.urgencyHint
  else if name = text "intent" then .ofText inp.intent
  else if name = text "is_free_mail" then .bool inp.isFreeMail
  else if name = text "llm_status" then .ofText inp.llmStatus
  else .null

/-- `raw if isinstance(raw, str) else None`. -/
def Value.str? : Value → Option Text
  | .text value => some value
  | _ => none

abbrev Bands := List (Text × Int)

structure BandComponent where
  max : Int
  formField : Option Text
  bands : Bands

structure IndustryComponent where
  max : Int
  fit : List Text
  partly : List Text
  fitPoints : Int
  partlyPoints : Int
  otherPoints : Int

structure UrgencyComponent extends BandComponent where
  llmFallbackField : Option Text

structure AiComponent where
  max : Int
  intentPoints : Bands

structure Route where
  name : Text
  min : Int
  deriving DecidableEq, Repr

/-- `when_` is the clause with its keys, or `none` when it is no mapping. -/
structure Override where
  when_ : Option (List (Text × Value))
  capScore : Option Int := none
  route : Option Text := none
  capRoute : Option Text := none

structure ScoringConfig where
  maxScore : Int
  companySize : BandComponent
  industryFit : IndustryComponent
  budget : BandComponent
  urgency : UrgencyComponent
  aiQualification : AiComponent
  routes : List Route
  overrides : List Override

structure Breakdown where
  companySize : Int
  industryFit : Int
  budget : Int
  urgency : Int
  aiQualification : Int
  deriving DecidableEq, Repr

def Breakdown.sum (breakdown : Breakdown) : Int :=
  breakdown.companySize + breakdown.industryFit + breakdown.budget + breakdown.urgency +
    breakdown.aiQualification

structure ScoreResult where
  score : Int
  breakdown : Breakdown
  route : Text
  reasons : List Text
  deriving DecidableEq, Repr

/-- `str(n)`. -/
def intText (n : Int) : Text := text (toString n)

/-- `d.get(key)` of a dict built from pairs: the last pair of a key counts. -/
def dictGet (pairs : List (Text × Int)) (key : Text) : Option Int :=
  (pairs.reverse.find? (·.1 = key)).map Prod.snd

def bandPoints (bands : Bands) (key : Option Text) : Int × Text :=
  let unknownKey := text "unknown"
  match stripOrNone (key.getD []) with
  | none => ((dictGet bands unknownKey).getD 0, unknownKey)
  | some normalized =>
    match dictGet bands normalized with
    | some points => (points, normalized)
    | none => ((dictGet bands unknownKey).getD 0, unknownKey)

def capComponent (name : Text) (points max : Int) : Int :=
  let capped := min points max
  if name = text "ai_qualification" then min capped llmScoreCap else capped

/-- A component's points and the reason it appends. -/
def bandReason (name used : Text) (points : Int) : Text :=
  name ++ text "=" ++ used ++ text " -> " ++ intText points

def companySizePoints (inp : ScoreInput) (config : ScoringConfig) : Int × List Text :=
  let component := config.companySize
  let (points, used) := bandPoints component.bands inp.companySize
  let points := capComponent (text "company_size") points component.max
  (points, [bandReason (text "company_size") used points])

/-- `lower` is `str.lower`. -/
def industryPoints (lower : Text → Text) (inp : ScoreInput) (config : ScoringConfig) :
    Int × List Text :=
  let component := config.industryFit
  let industry := lower (strip (inp.industry.getD []))
  let fit := component.fit.map lower
  let partly := component.partly.map lower
  let (points, label, industry) :=
    if industry ∈ fit then (component.fitPoints, text "fit", industry)
    else if industry ∈ partly then (component.partlyPoints, text "partial", industry)
    else (component.otherPoints, text "other",
      if industry = [] then text "unknown" else industry)
  let points := capComponent (text "industry_fit") points component.max
  (points, [text "industry=" ++ industry ++ text " (" ++ label ++ text ") -> " ++ intText points])

def budgetPoints (inp : ScoreInput) (config : ScoringConfig) : Int × List Text :=
  let component := config.budget
  let raw := inp.getattr (component.formField.getD (text "budget_range"))
  let (points, used) := bandPoints component.bands raw.str?
  let points := capComponent (text "budget") points component.max
  (points, [bandReason (text "budget") used points])

/-- The form's timeline, stripped; `none` when it is missing or blank. -/
def givenTimeline (inp : ScoreInput) (config : ScoringConfig) : Option Text :=
  let raw := inp.getattr (config.urgency.formField.getD (text "timeline"))
  stripOrNone (raw.str?.getD [])

/-- The fallback on the model's hint, when the form has no timeline. -/
def urgencyTimeline (inp : ScoreInput) (config : ScoringConfig) : Option Text × List Text :=
  let timeline := givenTimeline inp config
  if timeline = none ∨ timeline = some (text "unknown") then
    let hint := strip (inp.urgencyHint.getD [])
    let fallbackField := config.urgency.llmFallbackField.getD (text "urgency_hint")
    if hint = [] then (timeline, [])
    else
      let band := (urgencyHintToBand hint).getD (text "unknown")
      (some band, [text "urgency used " ++ fallbackField ++ text "=" ++ hint ++ text " as " ++ band])
  else (timeline, [])

def urgencyPoints (inp : ScoreInput) (config : ScoringConfig) : Int × List Text :=
  let component := config.urgency
  let (timeline, reasons) := urgencyTimeline inp config
  let (points, used) := bandPoints component.bands timeline
  let points := capComponent (text "urgency") points component.max
  (points, reasons ++ [bandReason (text "urgency") used points])

def aiPoints (inp : ScoreInput) (config : ScoringConfig) : Int × List Text :=
  let component := config.aiQualification
  if inp.llmStatus = some (text "failed") then
    (0, [text "llm_status=failed -> ai_qualification=0"])
  else
    let intent := strip (inp.intent.getD [])
    if intent = [] then (0, [text "ai_qualification missing intent -> 0"])
    else
      let raw := (dictGet component.intentPoints intent).getD 0
      let points := capComponent (text "ai_qualification") raw component.max
      (points, [text "intent=" ++ intent ++ text " -> " ++ intText points ++
        text " (LLM cap " ++ intText llmScoreCap ++ text ")"])

/-- `_matches`: every key of the clause has the expected value. -/
def matches_ (clause : List (Text × Value)) (inp : ScoreInput) : Bool :=
  clause.all fun (key, expected) =>
    let actual := inp.getattr key
    if key = text "is_free_mail" then actual.truthy == expected.truthy else actual == expected

/-- The override takes effect: its clause is a mapping and matches. -/
def Override.applies (override : Override) (inp : ScoreInput) : Bool :=
  override.when_.elim false fun clause => matches_ clause inp

/-- `_route_from_score`: a stable sort by falling minimum, then the first that fits. -/
def routeFromScore (score : Int) (config : ScoringConfig) : Text :=
  let ordered := config.routes.insertionSort fun a b => b.min ≤ a.min
  match ordered.find? fun item => item.min ≤ score with
  | some item => item.name
  | none => text "archive"

def capRoute (current cap : Text) : Text :=
  if current ∉ ladderRoutes ∨ cap ∉ ladderRoutes then current
  else if ladderRoutes.idxOf current > ladderRoutes.idxOf cap then cap
  else current

/-- The locals of the override loop. -/
structure Progress where
  total : Int
  route : Text
  forcedRoute : Bool
  reasons : List Text

def Progress.capScore (progress : Progress) (config : ScoringConfig) (cap : Int) : Progress :=
  let reason :=
    if progress.total > cap then
      text "override cap_score=" ++ intText cap ++ text " (was " ++ intText progress.total ++ text ")"
    else
      text "override cap_score=" ++ intText cap ++ text " (score already " ++
        intText progress.total ++ text ")"
  let total := if progress.total > cap then cap else progress.total
  { progress with
    total := total
    route := if progress.forcedRoute then progress.route else routeFromScore total config
    reasons := progress.reasons ++ [reason] }

def Progress.forceRoute (progress : Progress) (route : Text) : Progress :=
  { progress with
    route := route
    forcedRoute := true
    reasons := progress.reasons ++ [text "override route=" ++ route] }

def Progress.capRoute (progress : Progress) (cap : Text) : Progress :=
  let capped := Leads.capRoute progress.route cap
  let reason :=
    if capped ≠ progress.route then
      text "override cap_route=" ++ cap ++ text " (was " ++ progress.route ++ text ")"
    else
      text "override cap_route=" ++ cap ++ text " (route stays " ++ progress.route ++ text ")"
  { progress with
    route := capped
    reasons := progress.reasons ++ [reason] }

/-- One round of the override loop. -/
def Progress.apply (inp : ScoreInput) (config : ScoringConfig) (progress : Progress)
    (override : Override) : Progress :=
  if override.applies inp then
    let progress := override.capScore.elim progress (progress.capScore config)
    let progress := override.route.elim progress progress.forceRoute
    override.capRoute.elim progress progress.capRoute
  else progress

def breakdown (lower : Text → Text) (inp : ScoreInput) (config : ScoringConfig) :
    Breakdown × List Text :=
  let companySize := companySizePoints inp config
  let industryFit := industryPoints lower inp config
  let budget := budgetPoints inp config
  let urgency := urgencyPoints inp config
  let aiQualification := aiPoints inp config
  (⟨companySize.1, industryFit.1, budget.1, urgency.1, aiQualification.1⟩,
    companySize.2 ++ industryFit.2 ++ budget.2 ++ urgency.2 ++ aiQualification.2)

def scoreLead (lower : Text → Text) (inp : ScoreInput) (config : ScoringConfig) : ScoreResult :=
  let (breakdown, reasons) := breakdown lower inp config
  let total := min breakdown.sum config.maxScore
  let start : Progress := ⟨total, routeFromScore total config, false, reasons⟩
  let final := config.overrides.foldl (Progress.apply inp config) start
  { score := final.total
    breakdown := breakdown
    route := final.route
    reasons := final.reasons ++
      [text "route=" ++ final.route ++ text " score=" ++ intText final.total] }

/-- `config/scoring.yaml` as shipped. -/
def shippedConfig : ScoringConfig where
  maxScore := 100
  companySize :=
    { max := 25
      formField := none
      bands := [(text "1-10", 5), (text "11-50", 15), (text "51-200", 25), (text "201-1000", 20),
        (text "1000+", 10), (text "unknown", 5)] }
  industryFit :=
    { max := 20
      fit := [text "software", text "saas", text "manufacturing", text "logistics"]
      partly := [text "retail", text "public_sector"]
      fitPoints := 20
      partlyPoints := 10
      otherPoints := 0 }
  budget :=
    { max := 20
      formField := some (text "budget_range")
      bands := [(text "<5k", 0), (text "5k-20k", 10), (text "20k-50k", 16), (text "50k+", 20),
        (text "unknown", 5)] }
  urgency :=
    { max := 15
      formField := some (text "timeline")
      bands := [(text "now", 15), (text "1-3 months", 10), (text "3-6 months", 5),
        (text "exploring", 2), (text "unknown", 3)]
      llmFallbackField := some (text "urgency_hint") }
  aiQualification :=
    { max := 20
      intentPoints := [(text "demo_request", 20), (text "pricing", 16), (text "partnership", 8),
        (text "other", 4), (text "support", 0), (text "job_application", 0), (text "spam", 0)] }
  routes := [⟨text "sales", 80⟩, ⟨text "nurture", 50⟩, ⟨text "archive", 0⟩]
  overrides := [
    { when_ := some [(text "intent", .text (text "spam"))], route := some (text "archive") },
    { when_ := some [(text "intent", .text (text "job_application"))],
      route := some (text "hr_forward") },
    { when_ := some [(text "intent", .text (text "support"))],
      route := some (text "support_forward") },
    { when_ := some [(text "is_free_mail", .bool true)], capScore := some 60 },
    { when_ := some [(text "llm_status", .text (text "failed"))],
      capRoute := some (text "nurture") }]

end N8nSystems.Leads
