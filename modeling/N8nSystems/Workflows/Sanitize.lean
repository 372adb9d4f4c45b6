import Mathlib.Data.List.Lex
import N8nSystems.Lib.Regex

/-! `scripts/sanitize_workflows.py`. -/

namespace N8nSystems.Workflows

open Lib Lib.Py

/-- Keys dropped at any depth. -/
def dropKeys : List Text :=
  [text "pinData", text "staticData", text "executionId", text "executionIds",
    text "lastExecution", text "lastExecutionStatus"]

section
variable (unicode : Unicode)

open Regex in
def secretPatterns : List (Text × Regex) :=
  let edge := Regex.boundary unicode.isWord
  let digit := isAsciiDigit
  let letter c := upper c || lower c
  let alnum c := letter c || digit c
  let capital c := upper c || digit c
  [(text "private-key-header",
      .seq [literal "-----BEGIN ", .many 0 none fun c => upper c || anyOf " " c,
        literal "PRIVATE KEY-----"]),
    (text "aws-access-key",
      .seq [edge,
        .oneOf [.seq [literal "A3T", .one capital], literal "AKIA", literal "AGPA", literal "AIDA",
          literal "AROA", literal "AIPA", literal "ANPA", literal "ANVA", literal "ASIA"],
        .many 16 (some 16) capital, edge]),
    (text "github-pat",
      .seq [edge, literal "gh", .one (anyOf "pousr"), literal "_", .many 36 (some 36) alnum, edge]),
    (text "github-fine-grained",
      .seq [edge, literal "github_pat_", .many 20 none fun c => alnum c || anyOf "_" c, edge]),
    (text "gitlab-pat",
      .seq [edge, literal "glpat-", .many 20 none fun c => alnum c || anyOf "_-" c, edge]),
    (text "stripe-key",
      .seq [edge, .oneOf [literal "sk", literal "pk", literal "rk"], literal "_",
        .oneOf [literal "live", literal "test"], literal "_", .many 16 none alnum, edge]),
    (text "openai-sk", .seq [edge, literal "sk-", .many 16 none alnum, edge]),
    (text "slack-xox",
      .seq [edge, anyCase "xox", .one fun c => anyOf "baprs" (foldCase c), literal "-",
        .many 10 none fun c => unicode.isWord c || anyOf "-" c, edge]),
    (text "bearer-token",
      .seq [edge, literal "Bearer", .many 1 none isSpace,
        .many 24 none fun c => alnum c || anyOf "._-+=/" c])]

end

mutual

def collectStrings : Json → List Text
  | .string value => [value]
  | .object fields => collectFields fields
  | .array items => collectItems items
  | _ => []
  termination_by structural value => value

def collectItems : List Json → List Text
  | [] => []
  | item :: items => collectStrings item ++ collectItems items
  termination_by structural items => items

def collectFields : List (Text × Json) → List Text
  | [] => []
  | field :: fields => collectField field ++ collectFields fields
  termination_by structural fields => fields

def collectField : Text × Json → List Text
  | (_, value) => collectStrings value
  termination_by structural field => field

end

theorem mem_collectItems {items : List Json} {value : Text} :
    value ∈ collectItems items ↔ ∃ item ∈ items, value ∈ collectStrings item := by
  induction items with
  | nil => simp [collectItems]
  | cons item items ih => simp [collectItems, ih]

theorem mem_collectFields {fields : List (Text × Json)} {value : Text} :
    value ∈ collectFields fields ↔ ∃ field ∈ fields, value ∈ collectStrings field.2 := by
  induction fields with
  | nil => simp [collectFields]
  | cons field fields ih =>
    obtain ⟨key, item⟩ := field
    simp [collectFields, collectField, ih]

section
variable (unicode : Unicode)

/-- The hits and the keys seen after one pattern is tried on one text. -/
def noteMatch (state : List Text × List Text) (trial : Text × Text × Regex) : List Text × List Text :=
  let (value, name, pattern) := trial
  if pattern.search value then
    let key := name ++ text ":" ++ value.take 12
    if key ∈ state.2 then state
    else (state.1 ++ [name ++ text " (string starts with " ++ reprText unicode (value.take 12) ++
      text "...)"], state.2 ++ [key])
  else state

def findSecretMatches (value : Json) : List Text :=
  (((collectStrings value).flatMap fun found =>
    (secretPatterns unicode).map fun pattern => (found, pattern)).foldl (noteMatch unicode) ([], [])).1

/-- The same for patterns of any kind, each a name with its test. -/
def notePattern (state : List Text × List Text) (trial : Text × Text × (Text → Bool)) :
    List Text × List Text :=
  let (value, name, test) := trial
  if test value then
    let key := name ++ text ":" ++ value.take 12
    if key ∈ state.2 then state
    else (state.1 ++ [name ++ text " (string starts with " ++ reprText unicode (value.take 12) ++
      text "...)"], state.2 ++ [key])
  else state

/-- `find_secret_matches` for such patterns. -/
def findMatches (patterns : List (Text × (Text → Bool))) (value : Json) : List Text :=
  (((collectStrings value).flatMap fun found =>
    patterns.map fun pattern => (found, pattern)).foldl (notePattern unicode) ([], [])).1

/-- The patterns of the script with `search` as their test. -/
def secretTests : List (Text × (Text → Bool)) :=
  (secretPatterns unicode).map fun pattern => (pattern.1, pattern.2.search)

theorem findSecretMatches_eq (value : Json) :
    findSecretMatches unicode value = findMatches unicode (secretTests unicode) value := by
  have trials : ((collectStrings value).flatMap fun found =>
      (secretTests unicode).map fun pattern => (found, pattern)) =
      ((collectStrings value).flatMap fun found =>
        (secretPatterns unicode).map fun pattern => (found, pattern)).map
          fun trial => (trial.1, trial.2.1, trial.2.2.search) := by
    simp only [secretTests, List.map_map, List.map_flatMap]
    rfl
  unfold findSecretMatches findMatches
  rw [trials, List.foldl_map]
  rfl

theorem notePatterns_nil_iff {trials : List (Text × Text × (Text → Bool))}
    {state : List Text × List Text} (paired : state.1 = [] ↔ state.2 = []) :
    (trials.foldl (notePattern unicode) state).1 = [] ↔
      state.1 = [] ∧ ∀ trial ∈ trials, trial.2.2 trial.1 = false := by
  induction trials generalizing state with
  | nil => simp
  | cons trial trials ih =>
    rw [List.foldl_cons]
    cases hit : trial.2.2 trial.1 with
    | false =>
      have skipped : notePattern unicode state trial = state := by simp [notePattern, hit]
      rw [skipped, ih paired]
      simp [hit]
    | true =>
      -- A hit is new to an empty list, and a list of hits never shrinks.
      have noted : (notePattern unicode state trial).1 ≠ [] ∧
          (notePattern unicode state trial).2 ≠ [] := by
        simp only [notePattern, hit, if_true]
        split
        · rename_i seen
          have seenSome : state.2 ≠ [] := List.ne_nil_of_mem seen
          exact ⟨fun none => seenSome (paired.mp none), seenSome⟩
        · simp
      rw [ih (by simp [noted])]
      simp [noted, hit]

/-- Nothing is found exactly where no pattern matches any string of the value. -/
theorem findMatches_nil_iff {patterns : List (Text × (Text → Bool))} {value : Json} :
    findMatches unicode patterns value = [] ↔ ∀ found ∈ collectStrings value,
      ∀ pattern ∈ patterns, pattern.2 found = false := by
  rw [findMatches, notePatterns_nil_iff unicode Iff.rfl]
  simp only [List.mem_flatMap, List.mem_map, true_and]
  constructor
  · intro silent found member pattern known
    exact silent (found, pattern) ⟨found, member, pattern, known, rfl⟩
  · rintro silent trial ⟨found, member, pattern, known, rfl⟩
    exact silent found member pattern known

/-- No secret is found exactly where no pattern matches any string of the value. -/
theorem findSecretMatches_nil_iff {value : Json} :
    findSecretMatches unicode value = [] ↔ ∀ found ∈ collectStrings value,
      ∀ pattern ∈ secretPatterns unicode, pattern.2.search found = false := by
  rw [findSecretMatches_eq, findMatches_nil_iff]
  simp only [secretTests, List.forall_mem_map]

end

def isString : Json → Bool
  | .string _ => true
  | _ => false

def childPath (path key : Text) : Text := if path ≠ [] then path ++ text "." ++ key else key

/-- The path of an object that is the value of a key `meta`. -/
def underMeta (path : Text) : Prop := path = text "meta" ∨ text ".meta" <:+ path

instance (path : Text) : Decidable (underMeta path) := inferInstanceAs (Decidable (_ ∨ _))

/-- Whether `_strip` keeps a field of the object at the path. -/
def keeps (path key : Text) (item : Json) : Bool :=
  if key ∈ dropKeys then false
  else if key = text "instanceId" ∧ underMeta path then false
  else if key = text "execution" ∧ ¬isString item then false
  else true

mutual

/-- `_strip`. -/
def strip (path : Text) : Json → Json
  | .object fields => .object (stripFields path fields)
  | .array items => .array (stripItems path items)
  | value => value
  termination_by structural value => value

def stripItems (path : Text) : List Json → List Json
  | [] => []
  | item :: items => strip path item :: stripItems path items
  termination_by structural items => items

def stripFields (path : Text) : List (Text × Json) → List (Text × Json)
  | [] => []
  | field :: fields =>
    if keeps path field.1 field.2 then stripField path field :: stripFields path fields
    else stripFields path fields
  termination_by structural fields => fields

def stripField (path : Text) : Text × Json → Text × Json
  | (key, item) => (key, strip (childPath path key) item)
  termination_by structural field => field

end

mutual

/-- The order that `sort_keys` prints: every object by its keys. -/
def sortKeys : Json → Json
  | .object fields => .object ((sortFields fields).mergeSort fun first second => first.1 ≤ second.1)
  | .array items => .array (sortItems items)
  | value => value
  termination_by structural value => value

def sortItems : List Json → List Json
  | [] => []
  | item :: items => sortKeys item :: sortItems items
  termination_by structural items => items

def sortFields : List (Text × Json) → List (Text × Json)
  | [] => []
  | field :: fields => sortField field :: sortFields fields
  termination_by structural fields => fields

def sortField : Text × Json → Text × Json
  | (key, item) => (key, sortKeys item)
  termination_by structural field => field

end

/-- `json.dumps(value, indent=2, sort_keys=True, ensure_ascii=False) + "\n"`, where
`render` prints a value in the order it has. -/
def dumpsStable (render : Json → Text) (value : Json) : Text := render (sortKeys value) ++ [10]

inductive SanitizeFailure where
  | decode
  | sanitize (message : Text)
  deriving DecidableEq

section
variable (unicode : Unicode)

def sanitizeDocument (value : Json) : Except SanitizeFailure Json :=
  let found := findSecretMatches unicode value
  if found ≠ [] then
    .error (.sanitize (text "secret pattern(s) matched: " ++ (text "; ").intercalate found))
  else .ok (strip [] value)

def processText (loads : Text → Option Json) (render : Json → Text) (value : Text) :
    Except SanitizeFailure Text :=
  match loads value with
  | none => .error .decode
  | some document => do return dumpsStable render (← sanitizeDocument unicode document)

end

end N8nSystems.Workflows
