import N8nSystems.Errors.Agreement

/-! Plain inputs, on which the two classifiers agree: numbers and ASCII digits as
statuses, and an ASCII message. -/

namespace N8nSystems.Errors

open Lib
open Lib.Py (Text text Unicode strip spelled intMaxStrDigits asciiDecimal)
open Lib.Js (Engine)

abbrev Ascii (c : Nat) : Prop := c < 128

/-- Both languages read the value without their own rules for texts. -/
inductive PlainValue : Option Json → Prop
  | missing : PlainValue none
  | null : PlainValue (some .null)
  | bool : PlainValue (some (.bool value))
  | int : PlainValue (some (.int value))
  | float : PlainValue (some (.float value))
  | infinite : PlainValue (some (.infinite negative))
  | digits (ascii : value.mapM asciiDecimal = some digits) (nonempty : value ≠ [])
      (short : value.length ≤ intMaxStrDigits) : PlainValue (some (.string value))

/-- The values that the message is taken from. -/
def messagesOf (input : Json) : List (Option Json) :=
  [(srcOf input).get (text "message"), (nestedOf input).get (text "message"),
    (srcOf input).get (text "error")]

/-- The first value that is truthy to either language is the same ASCII text. -/
structure PlainMessage (input : Json) (message : Text) : Prop where
  python : firstTruthy Py.truthy (messagesOf input) = .string message
  javaScript : firstTruthy Js.truthy (messagesOf input) = .string message
  ascii : ∀ c ∈ message, Ascii c

structure Plain (unicode : Unicode) (input : Json) : Prop where
  values : ∀ value ∈ slots (srcOf input) (nestedOf input), PlainValue value
  message : ∃ message, PlainMessage input message
  code : codeOf unicode input ∉ JavaScript.objectPrototype

variable (unicode : Unicode) (reprFloat : Rat → Text) (engine : Engine)

theorem charClasses_sameOn :
    CharClasses.SameOn Ascii (Python.charClasses unicode) JavaScript.charClasses where
  same letter c letterAscii ascii := by
    have fold (c : Nat) (ascii : c < 128) :
        Py.foldCase c = if 65 ≤ c ∧ c ≤ 90 then c + 32 else c := by
      unfold Py.foldCase
      split
      · rfl
      · rw [if_neg (by omega), if_neg (by omega), if_neg (by omega)]
    apply Bool.eq_iff_iff.mpr
    simp only [Python.charClasses, JavaScript.charClasses, beq_iff_eq, fold _ letterAscii,
      fold _ ascii, JavaScript.canonicalize]
    split <;> split <;> split <;> split <;> omega
  digit c ascii := by
    show (unicode.decimal c).isSome = Py.isAsciiDigit c
    rw [unicode.decimal_ascii c ascii, asciiDecimal]
    split <;> simp_all
  word c ascii := unicode.isWord_ascii c ascii

theorem statusInMessage_plain {before : Option Nat} {value : Text} (plain : ∀ c ∈ value, Ascii c) :
    statusInMessage (Python.charClasses unicode) before value =
      statusInMessage JavaScript.charClasses before value := by
  have alike := charClasses_sameOn unicode
  have known : ∀ c ∈ text "status code ", Ascii c := by decide
  unfold statusInMessage
  rw [alike.literal known plain]
  cases found : JavaScript.charClasses.literal (text "status code ") value with
  | none => rfl
  | some rest =>
    have plainRest : ∀ c ∈ rest, Ascii c := fun c member =>
      plain c (CharClasses.literal_subset _ found c member)
    simp only [Option.bind_some, alike.threeDigits plainRest]

theorem httpInMessage_plain {before : Option Nat} {value : Text}
    (plainBefore : ∀ c ∈ before, Ascii c) (plain : ∀ c ∈ value, Ascii c) :
    httpInMessage (Python.charClasses unicode) before value =
      httpInMessage JavaScript.charClasses before value := by
  have alike := charClasses_sameOn unicode
  have known : ∀ c ∈ text "HTTP", Ascii c := by decide
  have head {value : Text} (plain : ∀ c ∈ value, Ascii c) : ∀ c ∈ value.head?, Ascii c :=
    fun c member => plain c (List.mem_of_mem_head? member)
  unfold httpInMessage
  rw [alike.boundary plainBefore (head plain), alike.literal known plain]
  cases found : JavaScript.charClasses.literal (text "HTTP") value with
  | none => rfl
  | some rest =>
    cases rest with
    | nil => rfl
    | cons separator rest =>
      have plainRest : ∀ c ∈ rest, Ascii c := fun c member =>
        plain c (CharClasses.literal_subset _ found c (List.mem_cons_of_mem _ member))
      dsimp only
      rw [alike.threeDigits plainRest]
      cases three : JavaScript.charClasses.threeDigits rest with
      | none => rfl
      | some group =>
        obtain ⟨digits, tail⟩ := group
        have split := CharClasses.threeDigits_append _ three
        have plainDigits : ∀ c ∈ digits.getLast?, Ascii c := fun c member =>
          plainRest c (split ▸ List.mem_append_left _ (List.mem_of_getLast? member))
        have plainTail : ∀ c ∈ tail, Ascii c := fun c member =>
          plainRest c (split ▸ List.mem_append_right _ member)
        dsimp only
        rw [alike.boundary plainDigits (head plainTail)]

theorem messageDigits_plain {message : Text} (plain : ∀ c ∈ message, Ascii c) :
    messageDigits (Python.charClasses unicode) message =
      messageDigits JavaScript.charClasses message := by
  have start : ∀ c ∈ (none : Option Nat), Ascii c := by
    intro c member
    cases member
  unfold messageDigits
  rw [search_congr (fun _ _ _ plain => statusInMessage_plain unicode plain) start plain,
    search_congr (fun _ _ before plain => httpInMessage_plain unicode before plain) start plain]

/-- ASCII digits are decimal to every Unicode table. -/
theorem mapM_decimal_ascii {value : Text} {digits : List Nat}
    (ascii : value.mapM asciiDecimal = some digits) : value.mapM unicode.decimal = some digits := by
  rw [mapM_eq_some_iff] at ascii ⊢
  rw [← ascii]
  apply List.map_congr_left
  intro c member
  have digit := Py.isAsciiDigit_iff.mp (Js.isAsciiDigit_of_mapM (mapM_eq_some_iff.mpr ascii) c member)
  exact unicode.decimal_ascii c (by omega)

theorem python_toStatus_ascii {value : Text} {digits : List Nat}
    (ascii : value.mapM asciiDecimal = some digits) (nonempty : value ≠ [])
    (short : value.length ≤ intMaxStrDigits) :
    Python.toStatus unicode (some (.string value)) = .ok (inRange (spelled digits)) := by
  have values := mapM_decimal_ascii unicode ascii
  have stripped : strip value = value :=
    Py.trimmed_self fun c member => (Python.isDigit_of_decimal unicode values c member).2
  apply Python.toStatus_digits unicode <;> rw [stripped] <;> assumption

theorem PlainValue.alike {value : Option Json} (plain : PlainValue value) :
    ∃ status, Python.toStatus unicode value = .ok status ∧
      JavaScript.toStatus engine value = .ok status := by
  cases plain with
  | int => exact ⟨_, rfl, congrArg _ (JavaScript.numberStatus_round engine _)⟩
  | @float value =>
    refine ⟨_, rfl, ?_⟩
    simp [JavaScript.toStatus, JavaScript.numberStatus, Js.Number.isInteger]
  | digits ascii nonempty short =>
    exact ⟨_, python_toStatus_ascii unicode ascii nonempty short,
      JavaScript.toStatus_ascii engine ascii nonempty⟩
  | _ => exact ⟨none, rfl, rfl⟩

theorem PlainMessage.alike {input : Json} {message : Text} (plain : PlainMessage input message) :
    ∃ status, messageStatus (Python.printedMessage unicode reprFloat (srcOf input) (nestedOf input))
        (Python.charClasses unicode) (fun digits => Python.toStatus unicode (some (.string digits))) =
          .ok status ∧
      messageStatus (JavaScript.printedMessage engine (srcOf input) (nestedOf input))
        JavaScript.charClasses (fun digits => JavaScript.toStatus engine (some (.string digits))) =
          .ok status := by
  have python : Python.printedMessage unicode reprFloat (srcOf input) (nestedOf input) = .ok message :=
    congrArg (Py.str unicode reprFloat) plain.python
  have javaScript : JavaScript.printedMessage engine (srcOf input) (nestedOf input) = .ok message :=
    congrArg (Js.toText engine) plain.javaScript
  rw [python, javaScript]
  unfold messageStatus
  simp only [bind, Except.bind, messageDigits_plain unicode plain.ascii]
  cases hit : messageDigits JavaScript.charClasses message with
  | none => exact ⟨none, rfl, rfl⟩
  | some value =>
    obtain ⟨digits, ascii, read⟩ := JavaScript.toStatus_messageDigits engine hit
    obtain ⟨length, _⟩ := messageDigits_digit hit
    refine ⟨_, python_toStatus_ascii unicode ascii ?_ ?_, read⟩
    · exact List.ne_nil_of_length_pos (by omega)
    · rw [length]
      decide

/-- On a plain input both classifiers return the same result. -/
theorem Plain.agree {input : Json} (plain : Plain unicode input) :
    Agree unicode reprFloat engine input := by
  obtain ⟨message, plainMessage⟩ := plain.message
  obtain ⟨status, python, javaScript⟩ := firstReading_alike
    (fun value member => (plain.values value member).alike unicode engine)
    (plainMessage.alike unicode reprFloat engine)
  refine ⟨((statusClass status (createdOf input)).getD (textClassOf unicode input)).result, ?_, ?_⟩
  · rw [python_classifyError, Python.firstStatus, python]
    rfl
  · rw [javaScript_classifyError, JavaScript.firstStatus, javaScript, javaScript_textClass,
      if_neg plain.code]
    rfl

end N8nSystems.Errors
