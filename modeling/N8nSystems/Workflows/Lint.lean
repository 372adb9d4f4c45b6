import Mathlib.Data.List.Infix
import N8nSystems.Lib.PyFloat
import N8nSystems.Workflows.Sanitize

/-! `scripts/lint_workflows.py`. -/

namespace N8nSystems.Workflows

open Lib Lib.Py

/-- The directory `code-snippets`, by the names of its files without `.js`. A file
whose bytes are not UTF-8 has no contents. -/
structure SnippetsDir where
  path : Text → Text
  file : Text → Option (Option Text)

/-- `snippet_path.read_text(encoding="utf-8").replace("\r\n", "\n")`. -/
def readSnippet (contents : Text) : Text := crlfToLf (universalNewlines contents)

/-- What an issue says, without its place. -/
inductive Finding where
  | pinData
  | missingErrorWorkflow
  | tooManyNodes (count : Nat)
  | nodePinData (label : Text)
  | defaultNodeName (label : Text)
  | missingTimeout (label : Text)
  | invalidSnippetName (label name : Text)
  | missingSnippet (label name path : Text)
  | bodyDiffers (label name : Text)
  | hardcodedUrl (label : Text)
  | secret (found : Text)
  | notAWorkflow
  deriving DecidableEq

structure Issue where
  path : Text
  finding : Finding
  deriving DecidableEq

/-- `str(n)`. -/
def number (n : Nat) : Text := (Nat.toDigits 10 n).map Char.toNat

def maxNodes : Nat := 40

def Finding.message (unicode : Unicode) : Finding → Text
  | .pinData => text "pinData is present"
  | .missingErrorWorkflow => text "missing settings.errorWorkflow"
  | .tooManyNodes count =>
    text "more than " ++ number maxNodes ++ text " nodes (" ++ number count ++ text " found)"
  | .nodePinData label => text "node " ++ label ++ text ": pinData is present"
  | .defaultNodeName label => text "node " ++ label ++ text ": default node name"
  | .missingTimeout label =>
    text "node " ++ label ++ text ": HTTP Request missing parameters.options.timeout"
  | .invalidSnippetName label name =>
    text "node " ++ label ++ text ": invalid snippet name " ++ reprText unicode name
  | .missingSnippet label name path =>
    text "node " ++ label ++ text ": snippet " ++ reprText unicode name ++ text " missing at " ++ path
  | .bodyDiffers label name =>
    text "node " ++ label ++ text ": Code body differs from code-snippets/" ++ name ++ text ".js"
  | .hardcodedUrl label => text "node " ++ label ++ text ": hardcoded http(s) URL in parameters"
  | .secret found => text "secret pattern matched: " ++ found
  | .notAWorkflow => text "expected a workflow object or a list of workflows"

/-- What the scripts raise: on a value without `get`, on a number too long to print,
on a file that is not UTF-8, and `SyncError` of `sync_snippets.py`. -/
inductive ScriptError where
  | attribute
  | value (error : ValueError)
  | unreadable
  | sync (message : Text)
  deriving DecidableEq

def codeTypes : List Text := [text "n8n-nodes-base.code"]

def httpRequestTypes : List Text :=
  [text "n8n-nodes-base.httpRequest", text "n8n-nodes-base.httpRequestTool"]

def codeBodyKeys : List Text := [text "jsCode", text "pythonCode", text "functionCode", text "code"]

def isNameChar (c : Nat) : Bool :=
  Regex.upper c || Regex.lower c || isAsciiDigit c || Regex.anyOf "_.-" c

/-- `SNIPPET_FIRST_LINE_RE.match(line)` with its group. The class of the group holds
no space, so the group is all of the text between the spaces. -/
def snippetName (line : Text) : Option Text :=
  if text "// snippet:" <+: line then
    let rest := (line.drop (text "// snippet:").length).dropWhile isSpace
    let name := rest.takeWhile isNameChar
    if name ≠ [] ∧ (rest.dropWhile isNameChar).all isSpace then some name else none
  else none

/-- `".." in name or "/" in name or "\\" in name`. -/
def isInvalidName (name : Text) : Prop := text ".." <:+: name ∨ text "/" <:+: name ∨ text "\\" <:+: name

instance (name : Text) : Decidable (isInvalidName name) := inferInstanceAs (Decidable (_ ∨ _ ∨ _))

section
variable (unicode : Unicode)

open Regex in
def defaultNodeName : Regex :=
  .seq [.oneOf ([
      "HTTP Request", "Code", "Set", "IF", "If", "Switch", "Merge", "Webhook",
      "Edit Fields", "Filter", "Wait", "Split Out", "Split In Batches",
      "Schedule Trigger", "Manual Trigger", "Error Trigger",
      "No Operation, do nothing", "Sticky Note", "Note",
      "Execute Workflow", "Execute Sub-workflow"].map literal),
    .many 0 none fun c => (unicode.decimal c).isSome]

open Regex in
def literalHttp : Regex :=
  .seq [anyCase "http", .many 0 (some 1) fun c => foldCase c == 115, literal "://"]

open Regex in
def settingsLookupName : Regex :=
  let gap := Regex.many 0 (some 40) fun c => c != 10
  let words (choices : List String) := Regex.oneOf (choices.map anyCase)
  .oneOf [.seq [words ["lookup", "load", "get", "read", "fetch"], gap, anyCase "settings"],
    .seq [anyCase "settings", gap, words ["lookup", "table", "row"]]]

def settingsWord : Regex :=
  .seq [.boundary unicode.isWord, Regex.anyCase "settings", .boundary unicode.isWord]

/-- The group of `EXPRESSION_ONLY_RE.fullmatch(value)`. -/
def expressionOnly (value : Text) : Option Text :=
  let unmarked := match value with
    | 61 :: rest => rest
    | _ => value
  match unmarked.dropWhile isSpace with
  | 123 :: 123 :: rest =>
    let inner := rest.rdropWhile isSpace
    if [125, 125] <:+ inner ∧ 2 < inner.length then some (inner.take (inner.length - 2)) else none
  | _ => none

def hasLiteralHttpUrl (value : Text) : Bool :=
  if literalHttp.search value then
    match expressionOnly (Py.strip value) with
    | some inner => literalHttp.search inner
    | none => true
  else false

mutual

def scanHardcodedUrls (label path : Text) : Json → List Issue
  | .object fields => scanFields label path fields
  | .array items => scanItems label path 0 items
  | .string value => if hasLiteralHttpUrl value then [⟨path, .hardcodedUrl label⟩] else []
  | _ => []
  termination_by structural value => value

def scanItems (label path : Text) (index : Nat) : List Json → List Issue
  | [] => []
  | item :: items =>
    scanHardcodedUrls label (path ++ text "[" ++ number index ++ text "]") item ++
      scanItems label path (index + 1) items
  termination_by structural items => items

def scanFields (label path : Text) : List (Text × Json) → List Issue
  | [] => []
  | field :: fields => scanField label path field ++ scanFields label path fields
  termination_by structural fields => fields

def scanField (label path : Text) : Text × Json → List Issue
  | (key, item) => scanHardcodedUrls label (path ++ text "." ++ key) item
  termination_by structural field => field

end

/-- The literal URLs in a node's parameters. -/
def urlIssues (label : Text) (node : Json) (path : Text) : List Issue :=
  match node.get (text "parameters") with
  | some .null | none => []
  | some parameters => scanHardcodedUrls label (path ++ text ".parameters") parameters

/-- `params = node.get("parameters") or {}`, and then `params.get`. -/
def parametersOf (node : Json) : Except ScriptError (List (Text × Json)) :=
  match node.get (text "parameters") with
  | some (.object fields) => .ok fields
  | other => if truthy other then .error .attribute else .ok []

/-- The first of the keys of a code body with a text, and that text. -/
def codeField (parameters : List (Text × Json)) : Option (Text × Text) :=
  codeBodyKeys.findSome? fun key =>
    match Json.lookup key parameters with
    | some (.string value) => some (key, value)
    | _ => none

def codeBody (node : Json) : Except ScriptError Text := do
  let parameters ← parametersOf node
  return ((codeField parameters).map Prod.snd).getD []

/-- `value not in (None, "")`. -/
def isGiven : Option Json → Bool
  | none | some .null | some (.string []) => false
  | _ => true

def httpTimeout (node : Json) : Except ScriptError (Option Json) := do
  let parameters ← parametersOf node
  let direct := Json.lookup (text "timeout") parameters
  let fallback := if isGiven direct then direct else none
  return match Json.lookup (text "options") parameters with
    | some (.object options) =>
      if isGiven (Json.lookup (text "timeout") options) then Json.lookup (text "timeout") options
      else fallback
    | _ => fallback

def timeoutIsSet (node : Json) : Except ScriptError Bool := do
  return match ← httpTimeout node with
    | none | some .null | some (.bool _) => false
    | some (.int value) => 0 < value
    | some (.float value) => 0 < value
    | some (.infinite negative) => !negative
    | some (.string value) =>
      let stripped := Py.strip value
      if stripped = [] then false
      else if text "=\x7b\x7b" <+: stripped ∨ text "\x7b\x7b" <+: stripped then true
      else match floatLiteral unicode stripped with
        | some read => roundsPositive read
        | none => true
    | some (.array _) | some (.object _) => true

/-- The issue of an HTTP Request node without a timeout. -/
def timeoutIssues (nodeType label : Text) (node : Json) (path : Text) :
    Except ScriptError (List Issue) :=
  if nodeType ∈ httpRequestTypes then do
    let given ← timeoutIsSet unicode node
    return if given then [] else [⟨path, .missingTimeout label⟩]
  else .ok []

variable (reprFloat : Rat → Text)

/-- `str(value or "")`. -/
def strOrEmpty (value : Option Json) : Except ScriptError Text :=
  match value with
  | some value => if truthy (some value) then (str unicode reprFloat value).mapError .value else .ok []
  | none => .ok []

def reprOf (value : Json) : Except ScriptError Text := (repr unicode reprFloat value).mapError .value

/-- `first or node.get("id") or last`. -/
def labelOf (first : Option Json) (node last : Json) : Json :=
  match first with
  | some value => if truthy (some value) then value else rest
  | none => rest
where
  rest := match node.get (text "id") with
    | some id => if truthy (some id) then id else last
    | none => last

def isSettingsLookupNode (node : Json) : Except ScriptError Bool := do
  let name ← strOrEmpty unicode reprFloat (node.get (text "name"))
  if settingsLookupName.search name then return true
  let nodeType ← strOrEmpty unicode reprFloat (node.get (text "type"))
  if text ".postgres" <:+ nodeType then
    let parameters ← parametersOf node
    let query := if truthy (Json.lookup (text "query") parameters)
      then Json.lookup (text "query") parameters else Json.lookup (text "sql") parameters
    return match query with
      | some (.string query) => (settingsWord unicode).search query
      | _ => false
  else return false

variable (dir : SnippetsDir)

def snippetIssues (node : Json) (path : Text) : Except ScriptError (List Issue) := do
  let body ← codeBody node
  match snippetName (firstLine body) with
  | none => return []
  | some name =>
    let label ← reprOf unicode reprFloat
      (labelOf (node.get (text "name")) node (.string (text "?")))
    if isInvalidName name then
      return [⟨path, .invalidSnippetName label name⟩]
    else match dir.file name with
      | none => return [⟨path, .missingSnippet label name (dir.path name)⟩]
      | some none => throw .unreadable
      | some (some contents) =>
        if crlfToLf body ≠ readSnippet contents then return [⟨path, .bodyDiffers label name⟩]
        else return []

def codeIssues (nodeType : Text) (node : Json) (path : Text) : Except ScriptError (List Issue) :=
  if nodeType ∈ codeTypes then snippetIssues unicode reprFloat dir node path else .ok []

def hasKey (key : Text) (fields : List (Text × Json)) : Bool := fields.any (·.1 = key)

/-- One round of the loop over the nodes. -/
def lintNode (path : Text) (index : Nat) (node : Json) : Except ScriptError (List Issue) :=
  match node with
  | .object fields => do
    let nodePath := path ++ text ".nodes[" ++ number index ++ text "]"
    let name ← strOrEmpty unicode reprFloat (node.get (text "name"))
    let label ← reprOf unicode reprFloat (labelOf (some (.string name)) node (.int index))
    let pinned := if hasKey (text "pinData") fields then [⟨nodePath, .nodePinData label⟩] else []
    let named := if (defaultNodeName unicode).fullmatch name
      then [⟨nodePath, .defaultNodeName label⟩] else []
    let nodeType ← strOrEmpty unicode reprFloat (node.get (text "type"))
    let timed ← timeoutIssues unicode nodeType label node nodePath
    let snippet ← codeIssues unicode reprFloat dir nodeType node nodePath
    let lookup ← isSettingsLookupNode unicode reprFloat node
    let urls := if lookup then [] else urlIssues label node nodePath
    return pinned ++ named ++ timed ++ snippet ++ urls
  | _ => .ok []

/-- `error_workflow in (None, "", {}, [])`. -/
def isMissing : Option Json → Bool
  | none | some .null | some (.string []) | some (.object []) | some (.array []) => true
  | _ => false

def nodesOf (workflow : List (Text × Json)) : List Json :=
  match Json.lookup (text "nodes") workflow with
  | some (.array nodes) => nodes
  | _ => []

def lintWorkflow (path : Text) (workflow : List (Text × Json)) : Except ScriptError (List Issue) := do
  let name ← strOrEmpty unicode reprFloat (Json.lookup (text "name") workflow)
  let pinned := if hasKey (text "pinData") workflow then [⟨path, .pinData⟩] else []
  let settings := match Json.lookup (text "settings") workflow with
    | some (.object settings) => settings
    | _ => []
  let unhandled := if isMissing (Json.lookup (text "errorWorkflow") settings) ∧
    ¬text "Error Handler" <:+: name then [⟨path, .missingErrorWorkflow⟩] else []
  let nodes := nodesOf workflow
  let crowded := if nodes.length > maxNodes then [⟨path, .tooManyNodes nodes.length⟩] else []
  let perNode ← nodes.zipIdx.mapM fun (node, index) => lintNode unicode reprFloat dir path index node
  let secrets := (findSecretMatches unicode (.object workflow)).map fun found => ⟨path, .secret found⟩
  return pinned ++ unhandled ++ crowded ++ perNode.flatten ++ secrets

/-- `_iter_workflows`: the workflows of a document, each with its place. -/
def iterWorkflows : Json → List (Text × List (Text × Json))
  | .object workflow => [([], workflow)]
  | .array items => items.zipIdx.filterMap fun (item, index) =>
    match item with
    | .object workflow => some (text "[" ++ number index ++ text "]", workflow)
    | _ => none
  | _ => []

def lintDocument (path : Text) (document : Json) : Except ScriptError (List Issue) := do
  let workflows := iterWorkflows document
  let issues ← workflows.mapM fun (place, workflow) =>
    lintWorkflow unicode reprFloat dir (path ++ place) workflow
  return issues.flatten ++ if workflows.isEmpty then [⟨path, .notAWorkflow⟩] else []

end

end N8nSystems.Workflows
