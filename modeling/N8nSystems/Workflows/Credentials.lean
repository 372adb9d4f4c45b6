import N8nSystems.Lib.PyCodec
import N8nSystems.Lib.PyTemplate
import N8nSystems.Workflows.Rewritten

/-! `scripts/import_workflows.sh`: the credentials that it renders from their template. -/

namespace N8nSystems.Workflows

open Lib Lib.Py

/-- The variables with a default; an empty one takes it too. -/
def testDefaults : List (Text × Text) := [
  (text "MOCK_LLM_API_KEY", text "test-token-not-a-secret"),
  (text "MOCK_LLM_URL", text "http://mock-llm:8090/v1"),
  (text "INTERNAL_API_TOKEN", text "test-token-not-a-secret"),
  (text "POSTGRES_HOST", text "postgres"),
  (text "POSTGRES_DB_APP", text "app"),
  (text "POSTGRES_USER", text "n8n_app"),
  (text "POSTGRES_PASSWORD", text "test-token-not-a-secret"),
  (text "POSTGRES_PORT", text "5432")]

/-- `os.environ.get(name, "")` after the exports. -/
def environGet (environ : Text → Option Text) (name : Text) : Text :=
  let given := (environ name).getD []
  if given.isEmpty then (testDefaults.lookup name).getD [] else given

/-- `json.dumps(data, indent=2)`. -/
def credentialsLayout : Layout := { Layout.indented with ensureAscii := true }

section
variable (unicode : Unicode)

/-- `port` as an `int` where it is a text of digits; nothing where `int` raises. -/
def convertPort (fields : List (Text × Json)) : Option (List (Text × Json)) :=
  match Json.lookup (text "port") fields with
  | some (.string port) =>
    if allOf unicode.isDigit port then
      match parseInt unicode port with
      | .ok number => some (Json.setField (text "port") (.int number) fields)
      | .error _ => none
    else some fields
  | _ => some fields

def convertCredential : Json → Option Json
  | .object cred =>
    match Json.lookup (text "data") cred with
    | some (.object fields) =>
      (convertPort unicode fields).map fun fields => .object (Json.setField (text "data") (.object fields) cred)
    | _ => some (.object cred)
  | cred => some cred

/-- The loop over the credentials; nothing where it raises. -/
def convertCredentials : Json → Option Json
  | .object cred => (convertCredential unicode (.object cred)).map fun cred => .array [cred]
  | .array creds => (creds.mapM (convertCredential unicode)).map .array
  | .string value => some (.string value)
  | _ => none

/-- The file that is written for the template; nothing where the script raises. -/
def renderCredentials (floats : FloatText) (environ : Text → Option Text) (template : ByteArray) :
    Option ByteArray :=
  (decodeUtf8 template).bind fun value =>
    (loads floats (render (environGet environ) (universalNewlines value))).bind fun data =>
      (convertCredentials unicode data).bind fun data =>
        encodeUtf8 (credentialsLayout.dumps floats data ++ [10])

end

section
variable {unicode : Unicode} {floats : FloatText} {environ : Text → Option Text}

/-- Variables without quotes, backslashes and control characters get into the strings of the
credentials and nowhere else: the file is printed from the document of the template, its
strings filled in and its ports converted. -/
theorem credentials_filled (lawful : floats.Lawful) {template : ByteArray} {value : Text} {document : Json}
    (decoded : (decodeUtf8 template).map universalNewlines = some value) (shape : Template floats value)
    (plain : ∀ name, Mentions value name → Loads.Plain (environGet environ name))
    (read : loads floats value = some document) :
    renderCredentials unicode floats environ template =
      (convertCredentials unicode (fill (environGet environ) document)).bind fun credentials =>
        encodeUtf8 (credentialsLayout.dumps floats credentials ++ [10]) := by
  obtain ⟨original, known, rfl⟩ := Option.map_eq_some_iff.mp decoded
  rw [renderCredentials, known, Option.bind_some, loads_render lawful shape plain read, Option.bind_some]

end

theorem testDefaults_plain (name : Text) : Loads.Plain ((testDefaults.lookup name).getD []) := by
  have each : ∀ given ∈ testDefaults, ∀ c ∈ given.2, c ≠ 34 ∧ c ≠ 92 ∧ 32 ≤ c := by decide
  cases found : testDefaults.lookup name with
  | none => simp [Loads.Plain]
  | some value =>
    obtain ⟨before, after, same, -⟩ := List.lookup_eq_some_iff.mp found
    exact each (name, value) (same ▸ List.mem_append_right before List.mem_cons_self)

def hostEnviron (name : Text) : Option Text := if name = text "POSTGRES_HOST" then some (text "db") else none

/-- The template of one credential, and the file that is rendered for it. -/
def databaseTemplate : String :=
  "[\x7b\"data\":\x7b\"host\":\"$\x7bPOSTGRES_HOST\x7d\",\"port\":\"$\x7bPOSTGRES_PORT\x7d\"\x7d\x7d]"

def databaseRendered : String :=
  "[\n  \x7b\n    \"data\": \x7b\n      \"host\": \"db\",\n      \"port\": 5432\n    \x7d\n  \x7d\n]\n"

def databaseDocument (host port : Json) : Json :=
  .array [.object [(text "data", .object [(text "host", host), (text "port", port)])]]

theorem credentials_filled_database :
    renderCredentials asciiUnicode noFloats hostEnviron databaseTemplate.toByteArray =
      some databaseRendered.toByteArray := by
  have decoded : (decodeUtf8 databaseTemplate.toByteArray).map universalNewlines = some (text databaseTemplate) := by
    rw [decodeUtf8_toByteArray, Option.map_some, universalNewlines_eq_self_iff.mpr (by decide)]
  have read : loads noFloats (text databaseTemplate) = some (databaseDocument
      (.string (text "$\x7bPOSTGRES_HOST\x7d")) (.string (text "$\x7bPOSTGRES_PORT\x7d"))) := rfl
  have plain (name : Text) : Loads.Plain (environGet hostEnviron name) := by
    unfold environGet hostEnviron
    split
    · simp only [Option.getD_some]
      exact (by decide : ∀ c ∈ text "db", c ≠ 34 ∧ c ≠ 92 ∧ 32 ≤ c)
    · exact testDefaults_plain name
  rw [credentials_filled noFloats_lawful decoded ⟨by decide, by decide⟩ (fun name _ => plain name) read]
  have converted : convertCredentials asciiUnicode (fill (environGet hostEnviron) (databaseDocument
      (.string (text "$\x7bPOSTGRES_HOST\x7d")) (.string (text "$\x7bPOSTGRES_PORT\x7d")))) =
        some (databaseDocument (.string (text "db")) (.int 5432)) := rfl
  have printed : credentialsLayout.dumps noFloats (databaseDocument (.string (text "db")) (.int 5432)) ++ [10] =
      text databaseRendered := by decide +kernel
  rw [converted, Option.bind_some, printed, encodeUtf8_text]

end N8nSystems.Workflows
