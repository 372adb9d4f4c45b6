import N8nSystems.MockLlm.Completions
import N8nSystems.Workflows.SyncFile

/-! What a completion carries: text that `json.loads` reads as a value of the schema. -/

namespace N8nSystems.MockLlm

open Lib Lib.Py
open Lib.Json (lookup same sameItems sameFields sameField hasType TypeAllows Asserts Valid)
open Workflows (sortKeys get_sortKeys)

section
variable {floats : FloatText}

/-- What the assertions on objects and on lists see of a value. -/
structure Alike (value other : Json) : Prop where
  keys : ∀ fields, value = .object fields → ∃ fields', other = .object fields' ∧
    ∀ name, (lookup name fields').isSome = (lookup name fields).isSome
  length : ∀ items, value = .array items → ∃ items', other = .array items' ∧ items'.length = items.length

/-- The floats are doubles: `float` of an integer is one that a literal denotes, and the
whole part of one is printed. -/
structure Doubles (floats : FloatText) : Prop where
  whole : ∀ value converted, floatOfInt value = .ok converted → ∃ chars, floats.read chars = .float converted
  short : ∀ chars value, floats.read chars = .float value →
    (Nat.toDigits 10 (truncate value).natAbs).length ≤ intMaxStrDigits

theorem loaded_okTrue : Loaded floats okTrue := by
  refine .object (by decide : [text "ok"].Nodup) ?_
  simp only [List.forall_mem_singleton]
  exact .bool

theorem loaded_fixedValue {fields : List (Text × Json)} (loaded : Loaded floats (.object fields))
    {value : Json} (fixed : fixedValue fields = some value) : Loaded floats value := by
  unfold fixedValue at fixed
  split at fixed
  · cases fixed
    exact loaded_okTrue
  split at fixed
  · rename_i found
    cases fixed
    exact loaded.ofLookup found
  split at fixed
  · rename_i found
    cases fixed
    exact (loaded.ofLookup found).item List.mem_cons_self
  · exact loaded.ofLookup fixed

theorem loaded_intOrZero (doubles : Doubles floats) {given : Option Json}
    (loaded : ∀ value, given = some value → Loaded floats value) {number : Int}
    (read : intOrZero given = .ok number) : Loaded floats (.int number) := by
  have small : ∀ digit : Int, digit = 0 ∨ digit = 1 → Loaded floats (.int digit) := by
    rintro digit (rfl | rfl) <;> exact .int (by decide)
  unfold intOrZero at read
  split at read
  · cases read
    exact loaded _ rfl
  · cases read
    cases loaded _ rfl with
    | float isFloat chars => exact .int (doubles.short _ _ chars)
  · cases read
  · rename_i flag
    cases read
    cases flag
    · exact small 0 (.inl rfl)
    · exact small 1 (.inr rfl)
  · cases read
    exact small 0 (.inl rfl)

theorem loaded_floatOrZero (doubles : Doubles floats) {given : Option Json}
    (loaded : ∀ value, given = some value → Loaded floats value) {value : Json}
    (read : floatOrZero given = .ok value) : Loaded floats value := by
  have whole {number : Int} {converted : Rat} (rounded : floatOfInt number = .ok converted) :
      Loaded floats (.float converted) := by
    obtain ⟨chars, literal⟩ := doubles.whole number converted rounded
    exact .float trivial literal
  have zero : floatOfInt 0 = .ok 0 := by decide +kernel
  have one : floatOfInt 1 = .ok 1 := by decide +kernel
  unfold floatOrZero at read
  split at read
  · obtain ⟨converted, rounded, same⟩ := bind_ok_iff.mp read
    cases same
    exact whole rounded
  · cases read
    exact loaded _ rfl
  · cases read
    exact loaded _ rfl
  · rename_i flag
    cases read
    cases flag
    · exact whole zero
    · exact whole one
  · cases read
    exact whole zero

theorem loaded_scalarDefault (doubles : Doubles floats) {name : Option Text} {minimum : Option Json}
    (loaded : ∀ value, minimum = some value → Loaded floats value) {value : Json}
    (chosen : scalarDefault name minimum = some (.ok value)) : Loaded floats value := by
  unfold scalarDefault at chosen
  split at chosen
  · cases chosen
    exact .string
  split at chosen
  · obtain ⟨number, read, same⟩ := bind_ok_iff.mp (Option.some.inj chosen)
    cases same
    exact loaded_intOrZero doubles loaded read
  split at chosen
  · exact loaded_floatOrZero doubles loaded (Option.some.inj chosen)
  split at chosen
  · cases chosen
    exact .bool
  split at chosen
  · cases chosen
    exact .null
  · cases chosen

theorem loaded_assign {key : Text} {value : Json} {out : List (Text × Json)}
    (loaded : Loaded floats (.object out)) (item : Loaded floats value) :
    Loaded floats (.object (assign key value out)) := by
  have same : assign key value out = Loads.putField key value out := by
    simp only [assign, Loads.putField, lookup, Option.isSome_map, List.find?_isSome, List.any_eq_true]
  cases loaded with
  | float isFloat => exact isFloat.elim
  | object distinct each =>
    obtain ⟨keys, values⟩ := @Loads.sound_putField _ key _ _ distinct each item
    exact same ▸ .object keys values

theorem loaded_buildObject {child : Text → Except OverflowError Json} {keys : List Text}
    (each : ∀ key ∈ keys, ∀ value, child key = .ok value → Loaded floats value)
    {out : List (Text × Json)} (built : buildObject child keys = .ok out) :
    Loaded floats (.object out) := by
  refine @buildObject_induction child keys (fun out => Loaded floats (.object out))
    (.object List.nodup_nil (by simp)) ?_ out built
  exact fun key member value out read loaded => loaded_assign loaded (each key member value read)

theorem loaded_propertiesOf {fields : List (Text × Json)} (loaded : Loaded floats (.object fields))
    {key : Text} {child : Json} (held : lookup key (propertiesOf fields) = some child) :
    Loaded floats child := by
  unfold propertiesOf at held
  split at held
  · rename_i properties listed
    exact (loaded.ofLookup listed).ofLookup held
  · cases held

theorem loaded_firstOption {fields : List (Text × Json)} (loaded : Loaded floats (.object fields))
    {option : Json} (first : firstOption fields = some option) : Loaded floats option := by
  have listed {key : Text} (found : firstOf (lookup key fields) = some option) : Loaded floats option := by
    obtain ⟨rest, held⟩ := firstOf_eq_some found
    exact (loaded.ofLookup held).item List.mem_cons_self
  rcases Option.or_eq_some_iff.mp first with found | ⟨-, found⟩
  · exact listed found
  · exact listed found

/-- The default of a schema that `json.loads` returned prints. -/
theorem loaded_default (doubles : Doubles floats) {schema value : Json} (loaded : Loaded floats schema)
    (returned : defaultFromSchema schema = .ok value) : Loaded floats value := by
  induction measured : sizeOf schema using Nat.strong_induction_on generalizing schema value with
  | _ size ih =>
    subst measured
    have smaller {child item : Json} (less : sizeOf child < sizeOf schema) (childLoaded : Loaded floats child)
        (built : defaultFromSchema child = .ok item) : Loaded floats item :=
      ih _ less childLoaded built rfl
    cases schema with
    | object fields =>
      cases free : fixedValue fields with
      | some fixed =>
        rw [defaultFromSchema, free] at returned
        cases returned
        exact loaded_fixedValue loaded free
      | none =>
        by_cases isObject : IsObject fields
        · obtain ⟨out, built, ⟨-, rfl⟩ | ⟨-, rfl⟩⟩ := default_object_ok free isObject returned
          · exact loaded_okTrue
          · refine loaded_buildObject ?_ built
            intro key _ item given
            unfold childDefault at given
            split at given
            · rename_i child held
              exact smaller (sizeOf_property held) (loaded_propertiesOf loaded held) given
            · cases given
              exact loaded_okTrue
        by_cases array : typeName (lookup (text "type") fields) = some (text "array")
        · obtain rfl | ⟨child, item, least, held, built, -, rfl⟩ := default_array_ok free isObject array returned
          · exact .array (by simp)
          · refine .array ?_
            intro other member
            rw [List.eq_of_mem_replicate member]
            exact smaller (Json.sizeOf_lookup held) (loaded.ofLookup held) built
        cases chosen : scalarDefault (typeName (lookup (text "type") fields)) (lookup (text "minimum") fields) with
        | some result =>
          rw [default_scalar free isObject array chosen] at returned
          subst returned
          exact loaded_scalarDefault doubles (fun _ => loaded.ofLookup) chosen
        | none =>
          rw [default_other free isObject array chosen] at returned
          cases first : firstOption fields with
          | some option =>
            rw [first] at returned
            exact smaller (sizeOf_firstOption first) (loaded_firstOption loaded first) returned
          | none =>
            rw [first] at returned
            cases returned
            exact loaded_okTrue
    | _ =>
      rw [defaultFromSchema] at returned
      · cases returned
        exact loaded_okTrue
      · exact fun _ same => by cases same

end

section
variable {sha256 : ByteArray → Text} {floats : FloatText}

/-- The text of a payload: the payload itself when it is a text, and else its JSON. -/
theorem assistantContent_reads (lawful : floats.Lawful) {payload : Json} (loaded : Loaded floats payload) :
    (∃ value, payload = .string value ∧ assistantContent floats payload = value) ∨
      loads floats (assistantContent floats payload) = some (sortKeys payload) := by
  cases payload with
  | string value => exact .inl ⟨value, rfl, rfl⟩
  | _ =>
    exact .inr (loads_dumps lawful (Workflows.loaded_sortKeys loaded)
      (@Layout.admits_raw (.compact false) rfl _))

theorem completion_inv {state : ServiceState} {fixtures : Option (List (Text × ByteArray))}
    {body : ChatCompletionRequest} {completion : Completion}
    (mode : state.mode = .normal ∨ state.mode = .timeout)
    (returned : chatCompletions sha256 floats state fixtures body = .ok (.completion completion)) :
    ∃ digest fixture payload,
      requestHash sha256 floats body.model (body.messages.map ChatMessage.dump) = .ok digest ∧
      lookupFixture sha256 floats digest fixtures = .ok fixture ∧
      payloadFor body fixture = .ok payload ∧ completion.content = assistantContent floats payload := by
  obtain ⟨digest, hashed, rest⟩ := bind_ok_iff.mp returned
  have served : (do
      let fixture ← lookupFixture sha256 floats digest fixtures
      let payload ← payloadFor body fixture
      return completionResponse body.model digest (assistantContent floats payload)
        ([32].intercalate (body.messages.map fun message => messageText message.content))) =
      Except.ok (Response.completion completion) := by
    rcases mode with normal | timeout
    · simpa only [normal] using rest
    · simpa only [timeout] using rest
  obtain ⟨fixture, found, later⟩ := bind_ok_iff.mp served
  obtain ⟨payload, chosen, same⟩ := bind_ok_iff.mp later
  cases same
  exact ⟨digest, fixture, payload, hashed, found, chosen, rfl⟩

theorem loaded_dump {message : ChatMessage} (loaded : Loaded floats message.content.json) :
    Loaded floats (.object message.dump) := by
  refine .object (by decide : [text "role", text "content"].Nodup) ?_
  simp only [ChatMessage.dump, List.forall_mem_cons, List.not_mem_nil, false_implies, implies_true, and_true]
  exact ⟨.string, loaded⟩

theorem payloadFor_ok {body : ChatCompletionRequest} {fixture : Option Json} {payload : Json}
    (chosen : payloadFor body fixture = .ok payload) :
    fixture = some payload ∨ fixture = none ∧ defaultFromSchema (schemaOf body) = .ok payload := by
  cases fixture with
  | some value =>
    cases chosen
    exact .inl rfl
  | none =>
    refine .inr ⟨rfl, ?_⟩
    unfold payloadFor at chosen
    cases built : defaultFromSchema (schemaOf body) with
    | error failure =>
      rw [built] at chosen
      cases chosen
    | ok value =>
      rw [built] at chosen
      cases chosen
      rfl

theorem notNone_eq_some {value payload : Json} (same : notNone value = some payload) :
    value = payload ∧ payload ≠ .null := by
  unfold notNone at same
  split at same
  · cases same
  · rename_i given
    cases same
    exact ⟨rfl, given⟩

theorem notNone_eq_none {value : Json} (none : notNone value = none) : value = .null := by
  unfold notNone at none
  split at none
  · rfl
  · cases none

/-- A completion carries the fixture that the directory has for the call, unless there is
none or it is a null; then it carries the default of the schema. Its text is what it carries,
or is read by `json.loads` as that with its keys sorted. -/
theorem completion_payload (lawful : floats.Lawful) (doubles : Doubles floats) {state : ServiceState}
    {fixtures : Option (List (Text × ByteArray))} {body : ChatCompletionRequest} {completion : Completion}
    (asked : ∀ message ∈ body.messages, Loaded floats message.content.json)
    (schema : Loaded floats (schemaOf body)) (mode : state.mode = .normal ∨ state.mode = .timeout)
    (returned : chatCompletions sha256 floats state fixtures body = .ok (.completion completion)) :
    ∃ digest payload,
      requestHash sha256 floats body.model (body.messages.map ChatMessage.dump) = .ok digest ∧
      ((∃ files, fixtures = some files ∧ payload ≠ .null ∧
          Chosen sha256 floats body.model digest (body.messages.map ChatMessage.dump) files payload) ∨
        (∀ files, fixtures = some files →
          NoneChosen sha256 floats body.model digest (body.messages.map ChatMessage.dump) files ∨
          Chosen sha256 floats body.model digest (body.messages.map ChatMessage.dump) files .null) ∧
        defaultFromSchema (schemaOf body) = .ok payload) ∧
      ((∃ value, payload = .string value ∧ completion.content = value) ∨
        loads floats completion.content = some (sortKeys payload)) := by
  obtain ⟨digest, fixture, payload, hashed, found, chosen, content⟩ := completion_inv mode returned
  have messages : ∀ message ∈ body.messages.map ChatMessage.dump, Loaded floats (.object message) := by
    intro message member
    obtain ⟨given, known, rfl⟩ := List.mem_map.mp member
    exact loaded_dump (asked given known)
  rw [content]
  have lookup (files : List (Text × ByteArray)) (given : fixtures = some files) :=
    lookupFixture_chosen lawful messages hashed (given ▸ found)
  rcases payloadFor_ok chosen with rfl | ⟨rfl, built⟩
  · cases fixtures with
    | none => cases found
    | some files =>
      rcases lookup files rfl with ⟨value, first, loaded, same⟩ | ⟨none, -⟩
      · obtain ⟨rfl, given⟩ := notNone_eq_some same.symm
        exact ⟨digest, value, hashed, .inl ⟨files, rfl, given, first⟩, assistantContent_reads lawful loaded⟩
      · cases none
  · refine ⟨digest, payload, hashed, .inr ⟨?_, built⟩,
      assistantContent_reads lawful (loaded_default doubles schema built)⟩
    intro files given
    rcases lookup files given with ⟨value, first, -, same⟩ | ⟨-, absent⟩
    · exact .inr (notNone_eq_none same.symm ▸ first)
    · exact .inl absent

end

/-- The integer before the last two characters, when it is one that prints. -/
def wholeOf (chars : Text) : Int :=
  match Loads.readInt (chars.take (chars.length - 2)) with
  | some (.int value) => if (Nat.toDigits 10 value.natAbs).length ≤ intMaxStrDigits then value else 0
  | _ => 0

def printWhole : Json → Text
  | .float value => text (toString value.num) ++ text ".0"
  | _ => text "0.0"

theorem printWhole_ascii (value : Json) : ∀ c ∈ printWhole value, c < 128 := by
  unfold printWhole
  split
  · exact List.forall_mem_append.mpr ⟨text_int_ascii _, by decide⟩
  · decide

/-- Floats for documents whose floats are whole numbers. -/
def wholeFloats : FloatText where
  read chars := .float (wholeOf chars)
  print := printWhole
  print_ascii := printWhole_ascii

theorem wholeOf_short (chars : Text) :
    (Nat.toDigits 10 (wholeOf chars).natAbs).length ≤ intMaxStrDigits := by
  unfold wholeOf
  split
  · split
    · rename_i short
      exact short
    · decide
  · decide

theorem wholeOf_printed {value : Int} (short : (Nat.toDigits 10 value.natAbs).length ≤ intMaxStrDigits) :
    wholeOf (text (toString value) ++ text ".0") = value := by
  have two : (text ".0").length = 2 := by decide
  have front : (text (toString value) ++ text ".0").take ((text (toString value) ++ text ".0").length - 2) =
      text (toString value) := by
    rw [List.length_append, two, Nat.add_sub_cancel, List.take_left]
  simp only [wholeOf, front, Loads.readInt_toString short, if_pos short]

theorem wholeFloats_lawful : wholeFloats.Lawful where
  isFloat _ := trivial
  literal chars := by
    obtain ⟨place, -, either, spells⟩ := Loads.spells_int (wholeOf chars)
    refine .inl ?_
    show Loads.Spells (text (toString (wholeOf chars)) ++ [46, 48]) .fraction
    generalize text (toString (wholeOf chars)) = digits at spells
    cases digits with
    | nil => exact spells.elim
    | cons c rest =>
      obtain ⟨start, begun, later⟩ := Option.bind_eq_some_iff.mp spells
      rw [List.cons_append, Loads.Spells, begun, Option.bind_some, List.foldlM_append, later]
      rcases either with rfl | rfl <;> rfl
  back chars := congrArg (fun value : Int => Json.float value) (wholeOf_printed (wholeOf_short chars))

theorem floatOfInt_ok {value : Int} {converted : Rat} (rounded : floatOfInt value = .ok converted) :
    roundNat value.natAbs < 2 ^ 1024 ∧ ∃ whole : Int, converted = whole ∧ whole.natAbs = roundNat value.natAbs := by
  have shape : floatOfInt value = if 2 ^ 1024 ≤ roundNat value.natAbs then .error .overflow
      else .ok (if value < 0 then -(roundNat value.natAbs : Rat) else roundNat value.natAbs) := rfl
  rw [shape] at rounded
  generalize roundNat value.natAbs = number at rounded ⊢
  generalize (2 : Nat) ^ 1024 = limit at rounded ⊢
  by_cases big : limit ≤ number
  · rw [if_pos big] at rounded
    cases rounded
  · rw [if_neg big] at rounded
    refine ⟨not_le.mp big, (if value < 0 then -(number : Int) else number), ?_, ?_⟩
    · rw [← Except.ok.inj rounded]
      split
      · exact (Rat.intCast_neg number).symm
      · rfl
    · split
      · rw [Int.natAbs_neg, Int.natAbs_natCast]
      · rw [Int.natAbs_natCast]

theorem truncate_intCast (n : Int) : truncate (n : Rat) = n := by
  simp [truncate]

theorem wholeFloats_doubles : Doubles wholeFloats where
  whole value converted rounded := by
    obtain ⟨small, whole, rfl, same⟩ := floatOfInt_ok rounded
    have short : (Nat.toDigits 10 whole.natAbs).length ≤ intMaxStrDigits := by
      have bound (bits : Nat) (few : bits ≤ intMaxStrDigits) : 2 ^ bits ≤ 10 ^ intMaxStrDigits :=
        (Nat.pow_le_pow_left (by decide) bits).trans (Nat.pow_le_pow_right (by decide) few)
      rw [Nat.length_toDigits_le_iff (by decide) (by decide), same]
      exact small.trans_le (bound 1024 (by decide))
    exact ⟨text (toString whole) ++ text ".0",
      congrArg (fun value : Int => Json.float value) (wholeOf_printed short)⟩
  short chars value read := by
    cases read
    rw [truncate_intCast]
    exact wholeOf_short chars

/-- A hash that spells the blob out. -/
def spelledOut (blob : ByteArray) : Text := blob.toList.map UInt8.toNat

def hello : ChatMessage := ⟨text "user", .text (text "hi")⟩

def helloBlob : String :=
  "\x7b\"messages\":[\x7b\"content\":\"hi\",\"role\":\"user\"\x7d],\"model\":\"m\"\x7d"

theorem hello_loaded : Loaded wholeFloats hello.content.json := .string

theorem hello_printed : ∀ message ∈ [hello.dump, hello.dump.reverse],
    encodeUtf8 (dumpsCompact wholeFloats (hashed (text "m") [message])) = some helloBlob.toByteArray := by
  have printed : ∀ message ∈ [hello.dump, hello.dump.reverse],
      dumpsCompact wholeFloats (hashed (text "m") [message]) = text helloBlob := by
    simp only [dumpsCompact, sortKeys_hashed, List.map_cons, List.map_nil, sortKeys_normalized]
    decide +kernel
  intro message member
  rw [printed message member, encodeUtf8_text]

theorem hello_hashed : ∀ message ∈ [hello.dump, hello.dump.reverse],
    requestHash spelledOut wholeFloats (text "m") [message] = .ok (spelledOut helloBlob.toByteArray) := by
  intro message member
  rw [requestHash, hello_printed message member]

/-- The order of the keys of a message does not change the hash. -/
theorem requestHash_reordered : SameRequest (text "m") (text "m") [hello.dump] [hello.dump.reverse] := by
  have loaded : ∀ message ∈ [hello.dump, hello.dump.reverse], Loaded wholeFloats (.object message) := by
    have dumped := loaded_dump hello_loaded
    simp only [List.forall_mem_cons, List.not_mem_nil, false_implies, implies_true, and_true]
    refine ⟨dumped, .object (by decide : [text "content", text "role"].Nodup) ?_⟩
    intro field member
    cases dumped with
    | float isFloat => exact isFloat.elim
    | object distinct each => exact each field (List.mem_reverse.mp member)
  have asked := (requestHash_eq_iff wholeFloats_lawful (by simpa using loaded hello.dump (by simp))
    (by simpa using loaded hello.dump.reverse (by simp)) (hello_hashed _ (by simp))
    (hello_hashed _ (by simp))).1 rfl
  refine asked.resolve_right ?_
  rintro ⟨_, _, encoded, written, different, -⟩
  cases encoded.symm.trans (hello_printed hello.dump (by simp))
  exact different (Option.some.inj ((hello_printed hello.dump.reverse (by simp)).symm.trans written))

def helloRequest (format : Option ResponseFormat) : ChatCompletionRequest := ⟨text "m", [hello], format⟩

theorem hello_completed {format : Option ResponseFormat} {payload : Json}
    (built : defaultFromSchema (schemaOf (helloRequest format)) = .ok payload) :
    ∃ completion, chatCompletions spelledOut wholeFloats ⟨.normal, 2⟩ none (helloRequest format) =
      .ok (.completion completion) ∧ completion.content = assistantContent wholeFloats payload := by
  have hashed := hello_hashed hello.dump (by simp)
  have chosen : payloadFor (helloRequest format) none = .ok payload := by
    rw [payloadFor, built]
    rfl
  exact ⟨_, bind_ok_iff.mpr ⟨_, hashed, bind_ok_iff.mpr ⟨none, rfl, bind_ok_iff.mpr ⟨payload, chosen, rfl⟩⟩⟩, rfl⟩

/-- Without a response format and fixtures, a completion carries `{"ok": true}`. -/
theorem completion_payload_hello : ∃ payload, defaultFromSchema .null = .ok payload ∧
    loads wholeFloats (assistantContent wholeFloats okTrue) = some (sortKeys payload) := by
  have built : defaultFromSchema (schemaOf (helloRequest none)) = .ok okTrue := by
    simp [schemaOf, helloRequest, defaultFromSchema]
  obtain ⟨completion, completed, content⟩ := hello_completed built
  obtain ⟨_, payload, -, source, reads⟩ := completion_payload wholeFloats_lawful wholeFloats_doubles
    (by simpa [helloRequest] using hello_loaded) .null (.inl rfl) completed
  rw [content] at reads
  rcases source with ⟨_, none, -⟩ | ⟨-, chosen⟩
  · cases none
  · cases built.symm.trans chosen
    refine ⟨okTrue, chosen, reads.resolve_left ?_⟩
    rintro ⟨_, same, -⟩
    cases same

end N8nSystems.MockLlm
