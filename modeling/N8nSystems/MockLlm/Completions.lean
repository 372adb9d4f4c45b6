import N8nSystems.Lib.PyCodec
import N8nSystems.MockLlm.SchemaValid
import N8nSystems.Workflows.Rewritten

/-! `POST /v1/chat/completions` of `platform/services/mock-llm`. -/

namespace N8nSystems.MockLlm

open Lib Lib.Py
open Lib.Json (lookup)
open Workflows (sortKeys)

/-- What the endpoint raises. The first is `UnicodeEncodeError` of a lone surrogate. -/
inductive Failure where
  | encode
  | fixture
  | overflow
  deriving DecidableEq

/-- The content of a message: absent, a text, or a list of parts. -/
inductive Content where
  | absent
  | text (value : Text)
  | parts (items : List Json)

def Content.json : Content → Json
  | .absent => .null
  | .text value => .string value
  | .parts items => .array items

structure ChatMessage where
  role : Text
  content : Content

/-- `message.model_dump()`. -/
def ChatMessage.dump (message : ChatMessage) : List (Text × Json) :=
  [(text "role", .string message.role), (text "content", message.content.json)]

structure JsonSchemaSpec where
  schema : List (Text × Json)

structure ResponseFormat where
  jsonSchema : Option JsonSchemaSpec

structure ChatCompletionRequest where
  model : Text
  messages : List ChatMessage
  responseFormat : Option ResponseFormat

inductive AdminMode where
  | invalidJson
  | timeout
  | tooManyRequests
  | serverError
  | normal
  deriving DecidableEq

structure ServiceState where
  mode : AdminMode
  retryAfterS : Nat

section
variable (sha256 : ByteArray → Text) (floats : FloatText)

/-- `message.get(key)`. -/
def part (key : Text) (message : List (Text × Json)) : Json := (lookup key message).getD .null

def normalized (message : List (Text × Json)) : Json :=
  .object [(text "content", part (text "content") message), (text "role", part (text "role") message)]

/-- The value whose text is hashed. -/
def hashed (model : Text) (messages : List (List (Text × Json))) : Json :=
  .object [(text "messages", .array (messages.map normalized)), (text "model", .string model)]

/-- `json.dumps(value, ensure_ascii=False, separators=(",", ":"), sort_keys=True)`. -/
def dumpsCompact (value : Json) : Text := (Layout.compact false).dumps floats (sortKeys value)

def requestHash (model : Text) (messages : List (List (Text × Json))) : Except Failure Text :=
  match encodeUtf8 (dumpsCompact floats (hashed model messages)) with
  | some blob => .ok (sha256 blob)
  | none => .error .encode

def countTokens (value : Text) : Nat := if value = [] then 0 else max 1 ((value.length + 3) / 4)

/-- `_unwrap_fixture`. -/
def unwrapFixture : Json → Json
  | .object fields =>
    match lookup (text "content") fields, lookup (text "response") fields with
    | some content, _ => content
    | none, some response => response
    | none, none => .object fields
  | data => data

/-- `json.loads(path.read_text(encoding="utf-8"))`. -/
def readFixture (content : ByteArray) : Except Failure Json :=
  match (decodeUtf8 content).bind fun value => loads floats (universalNewlines value) with
  | some loaded => .ok loaded
  | none => .error .fixture

/-- Where `None` stands for a JSON null. -/
def notNone : Json → Option Json
  | .null => none
  | value => some value

def mappings (items : List Json) : List (List (Text × Json)) :=
  items.filterMap fun item =>
    match item with
    | .object fields => some fields
    | _ => none

def isText (value : Text) : Option Json → Bool
  | some (.string found) => found = value
  | _ => false

/-- Whether the loop stops at what a fixture file holds. -/
def answers (digest : Text) (loaded : Json) : Except Failure Bool :=
  match loaded with
  | .object fields =>
    if isText digest (lookup (text "hash") fields) then .ok true
    else match lookup (text "model") fields, lookup (text "messages") fields with
      | some (.string model), some (.array messages) => do
        return decide ((← requestHash sha256 floats model (mappings messages)) = digest)
      | _, _ => .ok false
  | _ => .ok false

/-- The loop over the files `*.json`, in their sorted order. -/
def scanFixtures (digest : Text) : List (Text × ByteArray) → Except Failure (Option Json)
  | [] => .ok none
  | file :: rest => do
    let loaded ← readFixture floats file.2
    if ← answers sha256 floats digest loaded then return notNone (unwrapFixture loaded)
    else scanFixtures digest rest

/-- `lookup_fixture` in a directory of files, each with its name before `.json`; `none` is
no directory. -/
def lookupFixture (digest : Text) (fixtures : Option (List (Text × ByteArray))) :
    Except Failure (Option Json) :=
  match fixtures with
  | none => .ok none
  | some files =>
    match files.find? (·.1 = digest) with
    | some file => do return notNone (unwrapFixture (← readFixture floats file.2))
    | none => scanFixtures sha256 floats digest files

/-- `_message_text`. -/
def messageText : Content → Text
  | .absent => []
  | .text value => value
  | .parts items => [32].intercalate (items.filterMap fun item =>
      match item with
      | .object fields =>
        match lookup (text "text") fields with
        | some (.string value) => some value
        | _ => none
      | _ => none)

/-- `_assistant_content`. -/
def assistantContent : Json → Text
  | .string value => value
  | payload => dumpsCompact floats payload

structure Completion where
  id : Text
  model : Text
  content : Text
  promptTokens : Nat
  completionTokens : Nat
  totalTokens : Nat

/-- An error as the provider words it, with its `Retry-After`, or a completion. -/
inductive Response where
  | error (status : Nat) (message type code : Text) (retryAfter : Option Nat)
  | completion (body : Completion)

def completionResponse (model digest content promptText : Text) : Response :=
  .completion {
    id := text "chatcmpl-" ++ digest.take 24
    model := model
    content := content
    promptTokens := countTokens promptText
    completionTokens := countTokens content
    totalTokens := countTokens promptText + countTokens content }

/-- `fmt.json_schema.schema_`, and `None` without one. -/
def schemaOf (body : ChatCompletionRequest) : Json :=
  match body.responseFormat.bind ResponseFormat.jsonSchema with
  | some spec => .object spec.schema
  | none => .null

/-- The value that a completion carries: the fixture, or else the default of the schema. -/
def payloadFor (body : ChatCompletionRequest) (fixture : Option Json) : Except Failure Json :=
  match fixture with
  | some value => .ok value
  | none => (defaultFromSchema (schemaOf body)).mapError fun _ => .overflow

def chatCompletions (state : ServiceState) (fixtures : Option (List (Text × ByteArray)))
    (body : ChatCompletionRequest) : Except Failure Response := do
  let digest ← requestHash sha256 floats body.model (body.messages.map ChatMessage.dump)
  let promptText := [32].intercalate (body.messages.map fun message => messageText message.content)
  match state.mode with
  | .serverError =>
    return .error 500 (text "Internal server error") (text "server_error") (text "internal_error") none
  | .tooManyRequests =>
    return .error 429 (text "Rate limit exceeded") (text "rate_limit_error") (text "rate_limit_exceeded")
      (some state.retryAfterS)
  | .invalidJson => return completionResponse body.model digest (text "not-json\x7b") promptText
  | .timeout | .normal =>
    let fixture ← lookupFixture sha256 floats digest fixtures
    let payload ← payloadFor body fixture
    return completionResponse body.model digest (assistantContent floats payload) promptText

end

/-- The two messages have the same role and content, but for the order of keys. -/
def SameMessage (message other : List (Text × Json)) : Prop :=
  sortKeys (part (text "content") message) = sortKeys (part (text "content") other) ∧
    sortKeys (part (text "role") message) = sortKeys (part (text "role") other)

/-- The two calls ask the same. -/
def SameRequest (model other : Text) (messages others : List (List (Text × Json))) : Prop :=
  model = other ∧ List.Forall₂ SameMessage messages others

section
variable {sha256 : ByteArray → Text} {floats : FloatText}

theorem dumpsCompact_injective (lawful : floats.Lawful) {value other : Json} (loaded : Loaded floats value)
    (otherLoaded : Loaded floats other) :
    dumpsCompact floats value = dumpsCompact floats other ↔ sortKeys value = sortKeys other := by
  constructor
  · intro same
    have first := loads_dumps lawful (Workflows.loaded_sortKeys loaded) (@Layout.admits_raw (.compact false) rfl _)
    have second := loads_dumps lawful (Workflows.loaded_sortKeys otherLoaded) (@Layout.admits_raw (.compact false) rfl _)
    exact Option.some.inj (first.symm.trans ((congrArg (loads floats) same).trans second))
  · exact congrArg ((Layout.compact false).dumps floats)

theorem loaded_part {message : List (Text × Json)} (loaded : Loaded floats (.object message)) (key : Text) :
    Loaded floats (part key message) := by
  unfold part
  cases found : lookup key message with
  | none => exact .null
  | some value => exact loaded.ofLookup found

theorem loaded_hashed {model : Text} {messages : List (List (Text × Json))}
    (loaded : ∀ message ∈ messages, Loaded floats (.object message)) :
    Loaded floats (hashed model messages) := by
  have each : ∀ item ∈ messages.map normalized, Loaded floats item := by
    intro item member
    obtain ⟨message, known, rfl⟩ := List.mem_map.mp member
    refine .object (by decide : [text "content", text "role"].Nodup) ?_
    simp only [List.forall_mem_cons, List.not_mem_nil, false_implies, implies_true, and_true]
    exact ⟨loaded_part (loaded message known) _, loaded_part (loaded message known) _⟩
  refine .object (by decide : [text "messages", text "model"].Nodup) ?_
  simp only [List.forall_mem_cons, List.not_mem_nil, false_implies, implies_true, and_true]
  exact ⟨.array each, .string⟩

theorem sortKeys_normalized (message : List (Text × Json)) : sortKeys (normalized message) =
    .object [(text "content", sortKeys (part (text "content") message)),
      (text "role", sortKeys (part (text "role") message))] :=
  Workflows.sortKeys_of_sorted (by decide : [text "content", text "role"].Pairwise (· ≤ ·))

theorem sortKeys_hashed (model : Text) (messages : List (List (Text × Json))) :
    sortKeys (hashed model messages) =
      .object [(text "messages", .array (messages.map fun message => sortKeys (normalized message))),
        (text "model", .string model)] := by
  have keys : ((hashed model messages).fields.map Prod.fst).Pairwise (· ≤ ·) :=
    (by decide : [text "messages", text "model"].Pairwise (· ≤ ·))
  refine (Workflows.sortKeys_of_sorted keys).trans ?_
  show Json.object [(text "messages", .array (Workflows.sortItems (messages.map normalized))),
    (text "model", .string model)] = _
  rw [Workflows.sortItems_eq, List.map_map]
  rfl

theorem sameRequest_iff {model other : Text} {messages others : List (List (Text × Json))} :
    sortKeys (hashed model messages) = sortKeys (hashed other others) ↔
      SameRequest model other messages others := by
  have message (one two : List (Text × Json)) :
      sortKeys (normalized one) = sortKeys (normalized two) ↔ SameMessage one two := by
    simp [sortKeys_normalized, SameMessage]
  have listed : (messages.map fun message => sortKeys (normalized message)) =
      (others.map fun message => sortKeys (normalized message)) ↔
        List.Forall₂ SameMessage messages others := by
    rw [← List.forall₂_eq_eq_eq, List.forall₂_map_left_iff, List.forall₂_map_right_iff]
    simp only [message]
  rw [sortKeys_hashed, sortKeys_hashed]
  simp only [Json.object.injEq, List.cons.injEq, Prod.mk.injEq, true_and, Json.array.injEq,
    Json.string.injEq, and_true, listed]
  exact and_comm

theorem requestHash_ok {model digest : Text} {messages : List (List (Text × Json))}
    (hashed : requestHash sha256 floats model messages = .ok digest) :
    ∃ blob, encodeUtf8 (dumpsCompact floats (MockLlm.hashed model messages)) = some blob ∧
      sha256 blob = digest := by
  unfold requestHash at hashed
  split at hashed
  · rename_i blob encoded
    exact ⟨blob, encoded, Except.ok.inj hashed⟩
  · cases hashed

/-- What two calls are hashed by is different, and has one hash. -/
def Collide (sha256 : ByteArray → Text) (floats : FloatText) (model other : Text)
    (messages others : List (List (Text × Json))) : Prop :=
  ∃ blob last, encodeUtf8 (dumpsCompact floats (hashed model messages)) = some blob ∧
    encodeUtf8 (dumpsCompact floats (hashed other others)) = some last ∧ blob ≠ last ∧ sha256 blob = sha256 last

theorem hash_of_sameRequest (lawful : floats.Lawful) {model other first second : Text}
    {messages others : List (List (Text × Json))}
    (loaded : ∀ message ∈ messages, Loaded floats (.object message))
    (otherLoaded : ∀ message ∈ others, Loaded floats (.object message))
    (one : requestHash sha256 floats model messages = .ok first)
    (two : requestHash sha256 floats other others = .ok second)
    (same : SameRequest model other messages others) : first = second := by
  obtain ⟨blob, encoded, rfl⟩ := requestHash_ok one
  obtain ⟨last, written, rfl⟩ := requestHash_ok two
  have printed := dumpsCompact_injective lawful (@loaded_hashed _ model _ loaded)
    (@loaded_hashed _ other _ otherLoaded)
  rw [sameRequest_iff] at printed
  rw [printed.mpr same] at encoded
  cases encoded.symm.trans written
  rfl

theorem sameRequest_of_hash (lawful : floats.Lawful) {model other digest : Text}
    {messages others : List (List (Text × Json))}
    (loaded : ∀ message ∈ messages, Loaded floats (.object message))
    (otherLoaded : ∀ message ∈ others, Loaded floats (.object message))
    (one : requestHash sha256 floats model messages = .ok digest)
    (two : requestHash sha256 floats other others = .ok digest) :
    SameRequest model other messages others ∨ Collide sha256 floats model other messages others := by
  obtain ⟨blob, encoded, found⟩ := requestHash_ok one
  obtain ⟨last, written, same⟩ := requestHash_ok two
  have printed := dumpsCompact_injective lawful (@loaded_hashed _ model _ loaded)
    (@loaded_hashed _ other _ otherLoaded)
  rw [sameRequest_iff] at printed
  by_cases equal : blob = last
  · subst equal
    have values := (decodeUtf8_eq_some_iff.mpr encoded).symm.trans (decodeUtf8_eq_some_iff.mpr written)
    exact .inl (printed.mp (Option.some.inj values))
  · exact .inr ⟨blob, last, encoded, written, equal, found.trans same.symm⟩

theorem hash_of_collide {model other first second : Text} {messages others : List (List (Text × Json))}
    (one : requestHash sha256 floats model messages = .ok first)
    (two : requestHash sha256 floats other others = .ok second)
    (collide : Collide sha256 floats model other messages others) : first = second := by
  obtain ⟨blob, encoded, rfl⟩ := requestHash_ok one
  obtain ⟨last, written, rfl⟩ := requestHash_ok two
  obtain ⟨_, _, here, there, -, same⟩ := collide
  cases encoded.symm.trans here
  cases written.symm.trans there
  exact same

/-- Calls have the same hash exactly when they ask the same, or what they are hashed by collides. -/
theorem requestHash_eq_iff (lawful : floats.Lawful) {model other first second : Text}
    {messages others : List (List (Text × Json))}
    (loaded : ∀ message ∈ messages, Loaded floats (.object message))
    (otherLoaded : ∀ message ∈ others, Loaded floats (.object message))
    (one : requestHash sha256 floats model messages = .ok first)
    (two : requestHash sha256 floats other others = .ok second) :
    first = second ↔
      SameRequest model other messages others ∨ Collide sha256 floats model other messages others := by
  constructor
  · rintro rfl
    exact sameRequest_of_hash lawful loaded otherLoaded one two
  · rintro (same | collide)
    · exact hash_of_sameRequest lawful loaded otherLoaded one two same
    · exact hash_of_collide one two collide

/-- A fixture file is for the call: it has its hash, or a model and messages that ask the same. -/
def Records (model digest : Text) (messages : List (List (Text × Json))) (loaded : Json) : Prop :=
  loaded.get (text "hash") = some (.string digest) ∨
    ∃ other others, loaded.get (text "model") = some (.string other) ∧
      loaded.get (text "messages") = some (.array others) ∧
      SameRequest other model (mappings others) messages

/-- A fixture file is taken for one of the call: it has a model and messages that ask something
else, with the hash of the call. -/
def Mistaken (sha256 : ByteArray → Text) (floats : FloatText) (model : Text)
    (messages : List (List (Text × Json))) (loaded : Json) : Prop :=
  ∃ other others, loaded.get (text "model") = some (.string other) ∧
    loaded.get (text "messages") = some (.array others) ∧
    Collide sha256 floats other model (mappings others) messages

theorem isText_iff {value : Text} {given : Option Json} :
    isText value given = true ↔ given = some (.string value) := by
  unfold isText
  split <;> simp_all

theorem loaded_mappings {items : List Json} (loaded : Loaded floats (.array items)) :
    ∀ message ∈ mappings items, Loaded floats (.object message) := by
  intro message member
  obtain ⟨item, known, chosen⟩ := List.mem_filterMap.mp member
  split at chosen
  · cases chosen
    exact loaded.item known
  · cases chosen

theorem answers_iff (lawful : floats.Lawful) {model digest : Text} {messages : List (List (Text × Json))}
    (asked : ∀ message ∈ messages, Loaded floats (.object message))
    (hashed : requestHash sha256 floats model messages = .ok digest) {value : Json}
    (loaded : Loaded floats value) {stops : Bool} (returned : answers sha256 floats digest value = .ok stops) :
    stops = true ↔ Records model digest messages value ∨ Mistaken sha256 floats model messages value := by
  cases value with
  | object fields =>
    simp only [answers] at returned
    by_cases named : isText digest (lookup (text "hash") fields) = true
    · rw [if_pos named] at returned
      cases returned
      exact iff_of_true rfl (.inl (.inl (isText_iff.mp named)))
    · rw [if_neg named] at returned
      have unnamed : lookup (text "hash") fields ≠ some (.string digest) := fun same => named (isText_iff.mpr same)
      split at returned
      · rename_i other others modelHeld messagesHeld
        obtain ⟨found, run, same⟩ := bind_ok_iff.mp returned
        cases same
        have recorded := loaded_mappings (loaded.ofLookup messagesHeld)
        rw [decide_eq_true_eq]
        constructor
        · rintro rfl
          exact (sameRequest_of_hash lawful recorded asked run hashed).imp
            (fun asks => .inr ⟨other, others, modelHeld, messagesHeld, asks⟩)
            fun collide => ⟨other, others, modelHeld, messagesHeld, collide⟩
        · rintro ((here | ⟨_, _, modelSame, messagesSame, asks⟩) | ⟨_, _, modelSame, messagesSame, collide⟩)
          · exact absurd here unnamed
          · cases modelHeld.symm.trans modelSame
            cases messagesHeld.symm.trans messagesSame
            exact hash_of_sameRequest lawful recorded asked run hashed asks
          · cases modelHeld.symm.trans modelSame
            cases messagesHeld.symm.trans messagesSame
            exact hash_of_collide run hashed collide
      · rename_i unmatched
        cases returned
        refine iff_of_false Bool.noConfusion ?_
        rintro ((here | ⟨other, others, modelSame, messagesSame, -⟩) | ⟨other, others, modelSame, messagesSame, -⟩)
        · exact unnamed here
        · exact unmatched other others modelSame messagesSame
        · exact unmatched other others modelSame messagesSame
  | _ =>
    cases returned
    refine iff_of_false Bool.noConfusion ?_
    rintro ((here | ⟨_, _, here, -⟩) | ⟨_, _, here, -⟩) <;> cases here

theorem loaded_readFixture (lawful : floats.Lawful) {content : ByteArray} {loaded : Json}
    (read : readFixture floats content = .ok loaded) : Loaded floats loaded := by
  unfold readFixture at read
  split at read
  · rename_i value found
    cases read
    obtain ⟨text, -, parsed⟩ := Option.bind_eq_some_iff.mp found
    exact loads_loaded lawful parsed
  · cases read

/-- The file is neither for the call nor taken for one that is. -/
def Apart (sha256 : ByteArray → Text) (floats : FloatText) (model digest : Text)
    (messages : List (List (Text × Json))) (file : Text × ByteArray) : Prop :=
  ∃ loaded, readFixture floats file.2 = .ok loaded ∧ ¬Records model digest messages loaded ∧
    ¬Mistaken sha256 floats model messages loaded

/-- After the files before it, the file is the first one that is for the call or taken for one. -/
structure First (sha256 : ByteArray → Text) (floats : FloatText) (model digest : Text)
    (messages : List (List (Text × Json))) (before : List (Text × ByteArray)) (loaded : Json) : Prop where
  records : Records model digest messages loaded ∨ Mistaken sha256 floats model messages loaded
  earlier : ∀ file ∈ before, Apart sha256 floats model digest messages file

/-- The loop ends at the first file for the call, or finds none. -/
theorem scanFixtures_first (lawful : floats.Lawful) {model digest : Text}
    {messages : List (List (Text × Json))} (asked : ∀ message ∈ messages, Loaded floats (.object message))
    (hashed : requestHash sha256 floats model messages = .ok digest) {files : List (Text × ByteArray)}
    {fixture : Option Json} (returned : scanFixtures sha256 floats digest files = .ok fixture) :
    (∃ before file after loaded, files = before ++ file :: after ∧ readFixture floats file.2 = .ok loaded ∧
      First sha256 floats model digest messages before loaded ∧ fixture = notNone (unwrapFixture loaded)) ∨
    (fixture = none ∧ ∀ file ∈ files, Apart sha256 floats model digest messages file) := by
  induction files with
  | nil =>
    cases returned
    exact .inr ⟨rfl, by simp⟩
  | cons file rest ih =>
    obtain ⟨loaded, read, later⟩ := bind_ok_iff.mp returned
    obtain ⟨stops, run, last⟩ := bind_ok_iff.mp later
    have ends := answers_iff lawful asked hashed (loaded_readFixture lawful read) run
    cases stops with
    | true =>
      cases last
      exact .inl ⟨[], file, rest, loaded, rfl, read, ⟨ends.mp rfl, by simp⟩, rfl⟩
    | false =>
      have here : Apart sha256 floats model digest messages file :=
        ⟨loaded, read, not_or.mp fun taken => Bool.noConfusion (ends.mpr taken)⟩
      rcases ih last with ⟨before, found, after, value, rfl, parsed, first, same⟩ | ⟨none, absent⟩
      · exact .inl ⟨file :: before, found, after, value, rfl, parsed,
          ⟨first.records, List.forall_mem_cons.mpr ⟨here, first.earlier⟩⟩, same⟩
      · exact .inr ⟨none, List.forall_mem_cons.mpr ⟨here, absent⟩⟩

/-- The fixture that the directory has for the call: the file named by its hash, or else
the first one that is for it or taken for one. -/
inductive Chosen (sha256 : ByteArray → Text) (floats : FloatText) (model digest : Text)
    (messages : List (List (Text × Json))) (files : List (Text × ByteArray)) : Json → Prop
  | named (found : files.find? (·.1 = digest) = some file) (read : readFixture floats file.2 = .ok loaded) :
      Chosen sha256 floats model digest messages files (unwrapFixture loaded)
  | first (unnamed : ∀ file ∈ files, file.1 ≠ digest) (split : files = before ++ file :: after)
      (read : readFixture floats file.2 = .ok loaded)
      (first : First sha256 floats model digest messages before loaded) :
      Chosen sha256 floats model digest messages files (unwrapFixture loaded)

/-- No file is for the call, or taken for one. -/
def NoneChosen (sha256 : ByteArray → Text) (floats : FloatText) (model digest : Text)
    (messages : List (List (Text × Json))) (files : List (Text × ByteArray)) : Prop :=
  ∀ file ∈ files, file.1 ≠ digest ∧ Apart sha256 floats model digest messages file

theorem lookupFixture_chosen (lawful : floats.Lawful) {model digest : Text}
    {messages : List (List (Text × Json))} (asked : ∀ message ∈ messages, Loaded floats (.object message))
    (hashed : requestHash sha256 floats model messages = .ok digest) {files : List (Text × ByteArray)}
    {fixture : Option Json} (returned : lookupFixture sha256 floats digest (some files) = .ok fixture) :
    (∃ value, Chosen sha256 floats model digest messages files value ∧ Loaded floats value ∧
      fixture = notNone value) ∨
    (fixture = none ∧ NoneChosen sha256 floats model digest messages files) := by
  have unwrapped {loaded : Json} (known : Loaded floats loaded) : Loaded floats (unwrapFixture loaded) := by
    unfold unwrapFixture
    split
    · split
      · rename_i found
        exact known.ofLookup found
      · rename_i found
        exact known.ofLookup found
      · exact known
    · exact known
  unfold lookupFixture at returned
  cases found : files.find? (·.1 = digest) with
  | some file =>
    simp only [found] at returned
    obtain ⟨loaded, read, same⟩ := bind_ok_iff.mp returned
    cases same
    exact .inl ⟨_, .named found read, unwrapped (loaded_readFixture lawful read), rfl⟩
  | none =>
    simp only [found] at returned
    have unnamed : ∀ file ∈ files, file.1 ≠ digest := by simpa using List.find?_eq_none.mp found
    rcases scanFixtures_first lawful asked hashed returned with
      ⟨before, file, after, loaded, split, read, first, rfl⟩ | ⟨rfl, absent⟩
    · exact .inl ⟨_, .first unnamed split read first, unwrapped (loaded_readFixture lawful read), rfl⟩
    · exact .inr ⟨rfl, fun file member => ⟨unnamed file member, absent file member⟩⟩

end

end N8nSystems.MockLlm
