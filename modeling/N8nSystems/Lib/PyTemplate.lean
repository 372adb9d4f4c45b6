import N8nSystems.Lib.PyLoaded
import N8nSystems.Lib.Regex

/-! Variables `${NAME}` replaced in the text of a JSON document, as `re.sub` replaces them,
and in the strings of the document. -/

namespace N8nSystems.Lib.Py

/-- `[A-Za-z_]`. -/
def isNameStart (c : Nat) : Bool := Regex.upper c || Regex.lower c || c == 95

/-- `[A-Za-z0-9_]`. -/
def isVariableChar (c : Nat) : Bool := isNameStart c || isAsciiDigit c

/-- The name in a match of `\$\{([A-Za-z_][A-Za-z0-9_]*)\}` at the front. -/
def reference (value : Text) : Option Text :=
  let rest := value.drop 2
  let name := rest.takeWhile isVariableChar
  if value.take 2 = [36, 123] ∧ name.head?.any isNameStart ∧ (rest.dropWhile isVariableChar).head? = some 125 then
    some name
  else none

section
variable (env : Text → Text)

/-- `pattern.sub(repl, value)` after as many characters that belong to a match. -/
def renderFrom : Nat → Text → Text
  | _, [] => []
  | skip + 1, _ :: rest => renderFrom skip rest
  | 0, c :: rest =>
    match reference (c :: rest) with
    | some name => env name ++ renderFrom (name.length + 2) rest
    | none => c :: renderFrom 0 rest

def render (value : Text) : Text := renderFrom env 0 value

mutual

/-- The value with the variables replaced in its strings, its keys apart. -/
def fill : Json → Json
  | .string value => .string (render env value)
  | .array items => .array (fillItems items)
  | .object fields => .object (fillFields fields)
  | value => value
  termination_by structural value => value

def fillItems : List Json → List Json
  | [] => []
  | item :: rest => fill item :: fillItems rest
  termination_by structural items => items

def fillFields : List (Text × Json) → List (Text × Json)
  | [] => []
  | field :: rest => fillField field :: fillFields rest
  termination_by structural fields => fields

def fillField : Text × Json → Text × Json
  | (key, value) => (key, fill value)
  termination_by structural field => field

end

theorem fillItems_eq (items : List Json) : fillItems env items = items.map (fill env) := by
  induction items with
  | nil => rfl
  | cons item rest ih => rw [fillItems, ih, List.map_cons]

theorem fillFields_eq (fields : List (Text × Json)) :
    fillFields env fields = fields.map fun field => (field.1, fill env field.2) := by
  induction fields with
  | nil => rfl
  | cons field rest ih =>
    obtain ⟨key, value⟩ := field
    rw [fillFields, ih, List.map_cons, fillField]

end

/-- A character that ends no match that began before it. -/
structure Apart (c : Nat) : Prop where
  dollar : c ≠ 36
  opening : c ≠ 123
  closing : c ≠ 125
  name : isVariableChar c = false

theorem takeWhile_apart {c : Nat} (apart : Apart c) (before after : Text) :
    (before ++ c :: after).takeWhile isVariableChar = before.takeWhile isVariableChar := by
  induction before with
  | nil => simp [apart.name]
  | cons first rest ih => simp only [List.cons_append, List.takeWhile_cons, ih]

theorem dropWhile_apart {c : Nat} (apart : Apart c) (before after : Text) :
    ((before ++ c :: after).dropWhile isVariableChar).head? = some 125 ↔
      (before.dropWhile isVariableChar).head? = some 125 := by
  induction before with
  | nil => simp [apart.name, apart.closing]
  | cons first rest ih =>
    simp only [List.cons_append, List.dropWhile_cons]
    split
    · exact ih
    · exact Iff.rfl

theorem reference_append {c : Nat} (apart : Apart c) {before : Text} (begun : before ≠ []) (after : Text) :
    reference (before ++ c :: after) = reference before := by
  match before with
  | [] => exact absurd rfl begun
  | [first] => simp [reference, apart.opening]
  | first :: second :: rest =>
    simp only [reference, List.cons_append, List.take_succ_cons, List.take_zero, List.drop_succ_cons,
      List.drop_zero, takeWhile_apart apart, dropWhile_apart apart]

theorem reference_inv {value name : Text} (found : reference value = some name) :
    value.head? = some 36 ∧ name.length + 3 ≤ value.length := by
  obtain ⟨⟨opened, -, closed⟩, same⟩ := Option.ite_none_right_eq_some.mp found
  cases same
  match value with
  | [] | [_] => cases opened
  | first :: second :: rest =>
    cases opened
    have parts := congrArg List.length (List.takeWhile_append_dropWhile (p := isVariableChar) (l := rest))
    have one : 0 < (rest.dropWhile isVariableChar).length := by
      cases after : rest.dropWhile isVariableChar with
      | nil =>
        rw [List.drop_succ_cons, List.drop_succ_cons, List.drop_zero, after] at closed
        cases closed
      | cons => exact Nat.succ_pos _
    rw [List.length_append] at parts
    refine ⟨rfl, ?_⟩
    simp only [List.drop_succ_cons, List.drop_zero, List.length_cons]
    omega

section
variable {env : Text → Text}

theorem renderFrom_append {c : Nat} (apart : Apart c) {before : Text} (after : Text) {skip : Nat}
    (inside : skip ≤ before.length) :
    renderFrom env skip (before ++ c :: after) = renderFrom env skip before ++ renderFrom env 0 (c :: after) := by
  induction before generalizing skip with
  | nil =>
    obtain rfl : skip = 0 := Nat.le_zero.mp inside
    rfl
  | cons first rest ih =>
    cases skip with
    | succ skip => exact ih (Nat.le_of_succ_le_succ inside)
    | zero =>
      have same := reference_append apart (List.cons_ne_nil first rest) after
      rw [List.cons_append] at same
      rw [List.cons_append, renderFrom, renderFrom, same]
      cases found : reference (first :: rest) with
      | none => exact congrArg (first :: ·) (ih (Nat.zero_le _))
      | some name =>
        have fits := (reference_inv found).2
        rw [List.length_cons] at fits
        simp only [ih (by omega : name.length + 2 ≤ rest.length), List.append_assoc]

theorem render_cons {c : Nat} (plain : c ≠ 36) (rest : Text) : render env (c :: rest) = c :: render env rest := by
  rw [render, renderFrom]
  cases found : reference (c :: rest) with
  | none => rfl
  | some name => exact absurd (Option.some.inj (reference_inv found).1) plain

/-- A match does not go beyond a quote. -/
theorem render_append {c : Nat} (apart : Apart c) (before after : Text) :
    render env (before ++ c :: after) = render env before ++ c :: render env after := by
  rw [render, renderFrom_append apart after (Nat.zero_le _), ← render, ← render, render_cons apart.dollar]

theorem render_literal {value : Text} (literal : 36 ∉ value) : render env value = value := by
  induction value with
  | nil => rfl
  | cons c rest ih =>
    obtain ⟨plain, later⟩ := not_or.mp (List.mem_cons.not.mp literal)
    rw [render_cons (Ne.symm plain), ih later]

/-- The variables of the text. -/
def Mentions (value name : Text) : Prop := ∃ after, after <:+ value ∧ reference after = some name

theorem Mentions.suffix {value after name : Text} (mentions : Mentions after name) (behind : after <:+ value) :
    Mentions value name := by
  obtain ⟨place, inside, found⟩ := mentions
  exact ⟨place, inside.trans behind, found⟩

theorem Mentions.append {c : Nat} (apart : Apart c) {before name : Text} (mentions : Mentions before name)
    (after : Text) : Mentions (before ++ c :: after) name := by
  obtain ⟨place, inside, found⟩ := mentions
  have begun : place ≠ [] := by
    rintro rfl
    cases (reference_inv found).1
  exact ⟨place ++ c :: after, List.suffix_append_self_iff.mpr inside, (reference_append apart begun after).trans found⟩

theorem mem_renderFrom {value : Text} {skip c : Nat} (member : c ∈ renderFrom env skip value) :
    c ∈ value ∨ ∃ name, Mentions value name ∧ c ∈ env name := by
  have further {first : Nat} {rest : Text} (inside : c ∈ rest ∨ ∃ name, Mentions rest name ∧ c ∈ env name) :
      c ∈ first :: rest ∨ ∃ name, Mentions (first :: rest) name ∧ c ∈ env name := by
    refine inside.imp (List.mem_cons_of_mem first) ?_
    rintro ⟨name, mentions, filled⟩
    exact ⟨name, mentions.suffix (List.suffix_cons first rest), filled⟩
  induction value generalizing skip with
  | nil =>
    cases skip <;> cases member
  | cons first rest ih =>
    cases skip with
    | succ skip => exact further (ih member)
    | zero =>
      rw [renderFrom] at member
      split at member
      · rename_i name found
        rcases List.mem_append.mp member with value | later
        · exact .inr ⟨name, ⟨_, List.suffix_refl _, found⟩, value⟩
        · exact further (ih later)
      · rcases List.mem_cons.mp member with rfl | later
        · exact .inl List.mem_cons_self
        · exact further (ih later)

end

namespace Loads

section
variable (env : Text → Text)

def fillMode : Mode → Mode
  | .finished value => .finished (fill env value)
  | mode => mode

def fillFrame : Frame → Frame
  | .array items => .array (items.map (fill env))
  | .object fields key => .object (fields.map fun field => (field.1, fill env field.2)) key

def fillState (state : State) : State := ⟨fillMode env state.mode, state.stack.map (fillFrame env)⟩

end

def Mode.IsString : Mode → Prop
  | .string .. => True
  | _ => False

section
variable {env : Text → Text} {floats : FloatText}

theorem putField_fill (key : Text) (value : Json) (fields : List (Text × Json)) :
    putField key (fill env value) (fields.map fun field => (field.1, fill env field.2)) =
      (putField key value fields).map fun field => (field.1, fill env field.2) := by
  have known : (fields.map fun field => (field.1, fill env field.2)).any (·.1 = key) =
      fields.any (·.1 = key) := by
    rw [List.any_map]
    rfl
  simp only [putField, known]
  split
  · simp only [Json.setField, List.map_map]
    refine List.map_congr_left fun field _ => ?_
    simp only [Function.comp_apply]
    split <;> rfl
  · rw [List.map_append]
    rfl

theorem complete_fill (value : Json) (stack : List Frame) :
    complete (fill env value) (stack.map (fillFrame env)) = fillState env (complete value stack) := by
  cases stack with
  | nil => rfl
  | cons frame rest =>
    cases frame with
    | array items => simp only [List.map_cons, fillFrame, complete, fillState, List.map_append]; rfl
    | object fields key => simp only [List.map_cons, fillFrame, complete, putField_fill]; rfl

theorem startValue_fill (stack : List Frame) (c : Nat) :
    startValue (stack.map (fillFrame env)) c = (startValue stack c).map (fillState env) := by
  simp only [startValue, apply_ite (Option.map (fillState env)), Option.map_some, Option.map_none]
  rfl

theorem afterValue_fill (state : State) (c : Nat) :
    afterValue (fillState env state) c = (afterValue state c).map (fillState env) := by
  obtain ⟨mode, stack⟩ := state
  unfold afterValue
  split
  · rfl
  cases mode with
  | done =>
    cases stack with
    | nil => rfl
    | cons frame rest =>
      cases frame with
      | array items =>
        have whole := @complete_fill env (.array items) rest
        rw [fill, fillItems_eq] at whole
        simp only [fillState, fillMode, List.map_cons, fillFrame, whole]
        split
        · rfl
        split <;> rfl
      | object fields key =>
        have whole := @complete_fill env (.object fields) rest
        rw [fill, fillFields_eq] at whole
        simp only [fillState, fillMode, List.map_cons, fillFrame, whole]
        split
        · rfl
        split <;> rfl
  | _ => rfl

theorem fill_float {value : Json} (isFloat : IsFloat value) : fill env value = value := by
  cases value with
  | float | infinite => rfl
  | _ => exact isFloat.elim

theorem fill_readNumeral (lawful : floats.Lawful) {chars : Text} {place : Numeral} {value : Json}
    (read : readNumeral floats chars place = some value) : fill env value = value := by
  cases place with
  | zero | whole =>
    obtain ⟨-, same⟩ := Option.ite_none_right_eq_some.mp read
    cases same
    rfl
  | fraction | power =>
    cases read
    exact fill_float (lawful.isFloat chars)
  | _ => cases read

theorem fill_meaning (lawful : floats.Lawful) (word : Word) : fill env (word.meaning floats) = word.meaning floats := by
  cases word with
  | nan | infinity | minusInfinity => exact fill_float (lawful.isFloat _)
  | _ => rfl

/-- Outside the strings, the reader goes alike over the filled values. -/
theorem step_fill (lawful : floats.Lawful) {state : State} (outside : ¬state.mode.IsString) (c : Nat) :
    step floats (fillState env state) c = (step floats state c).map (fillState env) := by
  obtain ⟨mode, stack⟩ := state
  cases mode with
  | string => exact absurd trivial outside
  | done => exact afterValue_fill ⟨.done, stack⟩ c
  | finished value => exact afterValue_fill ⟨.finished value, stack⟩ c
  | value =>
    simp only [step, fillState, fillMode]
    split
    · rfl
    · exact startValue_fill stack c
  | firstItem =>
    simp only [step, fillState, fillMode, ← List.map_tail]
    split
    · rfl
    split
    · exact congrArg some (complete_fill (.array []) stack.tail)
    · exact startValue_fill stack c
  | firstKey =>
    simp only [step, fillState, fillMode, ← List.map_tail]
    split
    · rfl
    split
    · rfl
    split
    · exact congrArg some (complete_fill (.object []) stack.tail)
    · rfl
  | key | colon =>
    simp only [step, fillState, fillMode]
    split
    · rfl
    split <;> rfl
  | numeral chars place =>
    have ended : (readNumeral floats chars place).bind
        (fun value => afterValue (complete value (stack.map (fillFrame env))) c) =
          ((readNumeral floats chars place).bind fun value => afterValue (complete value stack) c).map
            (fillState env) := by
      cases read : readNumeral floats chars place with
      | none => rfl
      | some value =>
        simp only [Option.bind_some]
        rw [← afterValue_fill, ← complete_fill, fill_readNumeral lawful read]
    simp only [step, fillState, fillMode]
    cases place.next c with
    | some next => rfl
    | none =>
      cases place with
      | minus =>
        dsimp only
        split <;> rfl
      | _ => exact ended
  | word word count =>
    have whole := @complete_fill env (word.meaning floats) stack
    rw [fill_meaning lawful] at whole
    simp only [step, fillState, fillMode, whole]
    split
    · split <;> rfl
    · rfl

theorem step_dollar {state : State} (outside : ¬state.mode.IsString) : step floats state 36 = none := by
  obtain ⟨mode, stack⟩ := state
  have after (state : State) : afterValue state 36 = none := by
    unfold afterValue
    rw [if_neg (by decide)]
    split <;> rfl
  cases mode with
  | string => exact absurd trivial outside
  | done | finished => exact after _
  | numeral chars place =>
    have ended : (readNumeral floats chars place).bind
        (fun value => afterValue (complete value stack) 36) = none := by
      simp only [after, Option.bind_fun_none]
    cases place with
    | minus => rfl
    | _ => exact ended
  | word word count =>
    have unspelled : 36 ∉ word.spelling := by
      cases word <;> decide
    exact if_neg fun here => unspelled (List.mem_of_getElem? here)
  | _ => rfl

/-- A string that is read has just begun. -/
def Mode.Fresh : Mode → Prop
  | .string _ chars escape => chars = [] ∧ escape = .plain false
  | _ => True

theorem Mode.fresh_of_outside {mode : Mode} (outside : ¬mode.IsString) : mode.Fresh := by
  cases mode with
  | string => exact absurd trivial outside
  | _ => trivial

theorem complete_outside (value : Json) (stack : List Frame) : ¬(complete value stack).mode.IsString := by
  cases stack with
  | nil => exact id
  | cons frame rest => cases frame <;> exact id

theorem afterValue_outside {state next : State} {c : Nat} (outside : ¬state.mode.IsString)
    (taken : afterValue state c = some next) : ¬next.mode.IsString := by
  have opened {first last : Option State} {mark close : Nat} (value : first = some next → ¬next.mode.IsString)
      (whole : last = some next → ¬next.mode.IsString)
      (taken : (if c = mark then first else if c = close then last else none) = some next) :
      ¬next.mode.IsString := by
    split at taken
    · exact value taken
    split at taken
    · exact whole taken
    · cases taken
  unfold afterValue at taken
  split at taken
  · cases taken
    exact outside
  split at taken
  · refine opened (fun same => ?_) (fun same => ?_) taken
    · cases same
      exact id
    · cases same
      exact complete_outside _ _
  · refine opened (fun same => ?_) (fun same => ?_) taken
    · cases same
      exact id
    · cases same
      exact complete_outside _ _
  · cases taken

theorem fresh_of_eq {mode : Mode} {stack : List Frame} {next : State} (same : some ⟨mode, stack⟩ = some next)
    (fresh : mode.Fresh) : next.mode.Fresh := by
  cases same
  exact fresh

theorem fresh_of_none {next : State} (stuck : none = some next) : next.mode.Fresh := by cases stuck

theorem startValue_fresh {stack : List Frame} {next : State} {c : Nat} (taken : startValue stack c = some next) :
    next.mode.Fresh := by
  refine of_ite ?_ (of_ite ?_ (of_ite ?_ (of_ite ?_ (of_ite ?_ (of_ite ?_ (of_ite ?_ (of_ite ?_ (of_ite ?_
    (of_ite ?_ (of_ite ?_ fresh_of_none)))))))))) taken
  · exact fun _ same => fresh_of_eq same ⟨rfl, rfl⟩
  all_goals exact fun _ same => fresh_of_eq same trivial

/-- Outside the strings, a step begins one at most. -/
theorem step_fresh {state next : State} {c : Nat} (outside : ¬state.mode.IsString)
    (taken : step floats state c = some next) : next.mode.Fresh := by
  obtain ⟨mode, stack⟩ := state
  have whole {value : Json} {stack : List Frame} (same : some (complete value stack) = some next) :
      next.mode.Fresh := by
    cases same
    exact Mode.fresh_of_outside (complete_outside _ _)
  have begun (mode : Mode) (fresh : mode.Fresh) {stack : List Frame} (same : some ⟨mode, stack⟩ = some next) :
      next.mode.Fresh := fresh_of_eq same fresh
  have started (same : startValue stack c = some next) : next.mode.Fresh := startValue_fresh same
  have stuck (same : none = some next) : next.mode.Fresh := fresh_of_none same
  cases mode with
  | string => exact absurd trivial outside
  | done | finished => exact Mode.fresh_of_outside (afterValue_outside outside taken)
  | value => exact of_ite (fun _ => begun .value trivial) started taken
  | firstItem =>
    exact of_ite (fun _ => begun .firstItem trivial) (of_ite (fun _ => whole) started) taken
  | firstKey =>
    exact of_ite (fun _ => begun .firstKey trivial)
      (of_ite (fun _ => begun (.string true [] (.plain false)) ⟨rfl, rfl⟩) (of_ite (fun _ => whole) stuck)) taken
  | key =>
    exact of_ite (fun _ => begun .key trivial)
      (of_ite (fun _ => begun (.string true [] (.plain false)) ⟨rfl, rfl⟩) stuck) taken
  | colon =>
    exact of_ite (fun _ => begun .colon trivial) (of_ite (fun _ => begun .value trivial) stuck) taken
  | numeral chars place =>
    cases read : place.next c with
    | some after =>
      simp only [step, read] at taken
      exact begun (.numeral (chars ++ [c]) after) trivial taken
    | none =>
      have ended (same : ((readNumeral floats chars place).bind fun value =>
          afterValue (complete value stack) c) = some next) : next.mode.Fresh := by
        obtain ⟨value, -, after⟩ := Option.bind_eq_some_iff.mp same
        exact Mode.fresh_of_outside (afterValue_outside (complete_outside _ _) after)
      cases place with
      | minus =>
        simp only [step, read] at taken
        exact of_ite (fun _ => begun (.word .minusInfinity 2) trivial) stuck taken
      | _ =>
        simp only [step, read] at taken
        exact ended taken
  | word word count =>
    exact of_ite (fun _ => of_ite (fun _ => whole) (begun (.word word (count + 1)) trivial)) stuck taken

/-- Between two quotes, without escapes. -/
def Plain (body : Text) : Prop := ∀ c ∈ body, c ≠ 34 ∧ c ≠ 92 ∧ 32 ≤ c

theorem foldlM_body {isKey : Bool} {body : Text} {stack : List Frame} (plain : Plain body) (chars : Text) :
    body.foldlM (step floats) ⟨.string isKey chars (.plain false), stack⟩ =
      some ⟨.string isKey (chars ++ body) (.plain false), stack⟩ := by
  induction body generalizing chars with
  | nil => simp
  | cons c rest ih =>
    obtain ⟨⟨quote, backslash, visible⟩, later⟩ := List.forall_mem_cons.mp plain
    rw [foldlM_plain quote backslash (Nat.not_lt.mpr visible), ih later, List.append_assoc, List.singleton_append]

/-- A body without quotes and backslashes that is read has no control character. -/
theorem plain_of_foldlM {isKey : Bool} {chars body : Text} {stack : List Frame} {final : State}
    (raw : ∀ c ∈ body, c ≠ 34 ∧ c ≠ 92)
    (read : body.foldlM (step floats) ⟨.string isKey chars (.plain false), stack⟩ = some final) :
    Plain body := by
  induction body generalizing chars with
  | nil => simp [Plain]
  | cons c rest ih =>
    obtain ⟨⟨quote, backslash⟩, later⟩ := List.forall_mem_cons.mp raw
    by_cases visible : 32 ≤ c
    · rw [foldlM_plain quote backslash (Nat.not_lt.mpr visible)] at read
      exact List.forall_mem_cons.mpr ⟨⟨quote, backslash, visible⟩, ih later read⟩
    · have inside : closes (.plain false) c = false := by simpa [closes] using quote
      have control : step floats ⟨.string isKey chars (.plain false), stack⟩ c = none := by
        rw [step_string inside, stringStep, if_neg backslash, if_pos (Nat.lt_of_not_le visible)]
        rfl
      rw [List.foldlM_cons, control] at read
      cases read

theorem plain_render {body : Text} (plain : Plain body) (values : ∀ name, Mentions body name → Plain (env name)) :
    Plain (render env body) := by
  intro c member
  rcases mem_renderFrom member with own | ⟨name, mentions, filled⟩
  · exact plain c own
  · exact values name mentions c filled

/-- A key that was read has no variables. -/
def State.literalKey (state : State) : Bool :=
  match state.mode, state.stack with
  | .colon, .object _ key :: _ => !key.contains 36
  | _, _ => true

/-- The keys that are read from the state on have no variables. -/
def literalKeys (floats : FloatText) : State → Text → Bool
  | state, [] => state.literalKey
  | state, c :: rest => state.literalKey && ((step floats state c).all fun next => literalKeys floats next rest)

theorem literalKeys_head {state : State} {value : Text} (literal : literalKeys floats state value = true) :
    state.literalKey = true := by
  cases value with
  | nil => exact literal
  | cons => exact (Bool.and_eq_true_iff.mp literal).1

theorem literalKeys_after {state next : State} {before after : Text}
    (literal : literalKeys floats state (before ++ after) = true)
    (read : before.foldlM (step floats) state = some next) : literalKeys floats next after = true := by
  induction before generalizing state with
  | nil =>
    cases read
    exact literal
  | cons c rest ih =>
    obtain ⟨following, taken, later⟩ := Option.bind_eq_some_iff.mp (List.foldlM_cons.symm.trans read)
    have inner := (Bool.and_eq_true_iff.mp literal).2
    rw [taken, Option.all_some] at inner
    exact ih inner later

/-- The closing quote, over the filled values. -/
theorem step_close {isKey : Bool} {body : Text} {stack : List Frame} {next : State}
    (taken : step floats ⟨.string isKey body (.plain false), stack⟩ 34 = some next)
    (literal : next.literalKey = true) :
    ¬next.mode.IsString ∧
      step floats ⟨.string isKey (render env body) (.plain false), stack.map (fillFrame env)⟩ 34 =
        some (fillState env next) := by
  cases isKey with
  | false =>
    cases taken
    exact ⟨complete_outside _ _, congrArg some (complete_fill (.string body) stack)⟩
  | true =>
    cases stack with
    | nil => cases taken
    | cons frame rest =>
      cases frame with
      | array items => cases taken
      | object fields key =>
        cases taken
        rw [render_literal (by simpa [State.literalKey] using literal)]
        exact ⟨id, rfl⟩

theorem opened_of_fresh {state : State} (fresh : state.mode.Fresh) (string : state.mode.IsString) :
    ∃ isKey stack, state = ⟨.string isKey [] (.plain false), stack⟩ := by
  obtain ⟨mode, stack⟩ := state
  cases mode with
  | string isKey chars escape =>
    obtain ⟨rfl, rfl⟩ := fresh
    exact ⟨isKey, stack, rfl⟩
  | _ => exact string.elim

theorem rawBody {body : Text} (free : 34 ∉ body) (escapes : 92 ∉ body) :
    ∀ c ∈ body, c ≠ 34 ∧ c ≠ 92 := by
  intro c member
  refine ⟨?_, ?_⟩
  · rintro rfl
    exact free member
  · rintro rfl
    exact escapes member

theorem apart_quote : Apart 34 := ⟨by decide, by decide, by decide, by decide⟩

/-- The reader goes alike over the text with its variables replaced, from quote to quote. -/
theorem foldlM_render (lawful : floats.Lawful) {value : Text} {state final : State}
    (values : ∀ name, Mentions value name → Plain (env name)) (raw : 92 ∉ value)
    (literal : literalKeys floats state value = true) (outside : ¬state.mode.IsString)
    (ended : ¬final.mode.IsString) (read : value.foldlM (step floats) state = some final) :
    (render env value).foldlM (step floats) (fillState env state) = some (fillState env final) := by
  induction size : value.length using Nat.strong_induction_on generalizing value state with
  | _ n ih =>
  cases value with
  | nil =>
    cases read
    rfl
  | cons c rest =>
    obtain ⟨next, taken, later⟩ := Option.bind_eq_some_iff.mp (List.foldlM_cons.symm.trans read)
    have first : [c].foldlM (step floats) state = some next :=
      List.foldlM_cons.trans ((bind_pure _).trans taken)
    have inner := literalKeys_after (show literalKeys floats state ([c] ++ rest) = true from literal) first
    have behind := List.suffix_cons c rest
    have dollar : c ≠ 36 := by
      rintro rfl
      cases (step_dollar outside).symm.trans taken
    have escapes : 92 ∉ rest := List.not_mem_of_not_mem_cons raw
    rw [render_cons dollar, List.foldlM_cons, step_fill lawful outside, taken, Option.map_some,
      Option.bind_eq_bind, Option.bind_some]
    by_cases string : next.mode.IsString
    · obtain ⟨isKey, stack, rfl⟩ := opened_of_fresh (step_fresh outside taken) string
      by_cases quote : 34 ∈ rest
      · -- The body goes up to the next quote.
        obtain ⟨body, after, rfl, free⟩ := List.eq_append_cons_of_mem quote
        obtain ⟨unescaped, tail⟩ := not_or.mp (List.mem_append.not.mp escapes)
        rw [List.foldlM_append] at later
        obtain ⟨inside, body_read, closing⟩ := Option.bind_eq_some_iff.mp later
        have plain : Plain body := plain_of_foldlM (rawBody free unescaped) body_read
        cases (foldlM_body plain []).symm.trans body_read
        obtain ⟨closed, close, onward⟩ := Option.bind_eq_some_iff.mp (List.foldlM_cons.symm.trans closing)
        have whole : (body ++ [34]).foldlM (step floats) ⟨.string isKey [] (.plain false), stack⟩ = some closed := by
          rw [List.foldlM_append, foldlM_body plain []]
          exact (bind_pure _).trans close
        rw [List.append_cons] at inner
        have onwards := literalKeys_after inner whole
        obtain ⟨left, filled⟩ := step_close close (literalKeys_head onwards)
        have shorter : after.length < n := by
          rw [← size, List.length_cons, List.length_append, List.length_cons]
          omega
        have remains : after <:+ c :: (body ++ 34 :: after) :=
          ((List.suffix_cons 34 after).trans (List.suffix_append body _)).trans behind
        have rest := ih after.length shorter (fun name mentions => values name (mentions.suffix remains))
          (List.not_mem_of_not_mem_cons tail) onwards left onward rfl
        have bodyValues (name : Text) (mentions : Mentions body name) : Plain (env name) :=
          values name ((mentions.append apart_quote after).suffix behind)
        rw [render_append apart_quote, List.foldlM_append]
        show ((render env body).foldlM (step floats) ⟨.string isKey [] (.plain false), _⟩ >>= _) = _
        rw [foldlM_body (plain_render plain bodyValues), Option.bind_eq_bind, Option.bind_some, List.foldlM_cons]
        exact (congrArg (· >>= _) filled).trans rest
      · have plain : Plain rest := plain_of_foldlM (rawBody quote escapes) later
        cases (foldlM_body plain []).symm.trans later
        exact absurd trivial ended
    · exact ih rest.length (by simp [← size]) (fun name mentions => values name (mentions.suffix behind)) escapes
        inner string later rfl

theorem finish_fill (lawful : floats.Lawful) (state : State) :
    finish floats (fillState env state) = (finish floats state).map (fill env) := by
  obtain ⟨mode, stack⟩ := state
  cases mode with
  | numeral chars place =>
    cases stack with
    | nil =>
      show readNumeral floats chars place = (readNumeral floats chars place).map (fill env)
      cases read : readNumeral floats chars place with
      | none => rfl
      | some value => rw [Option.map_some, fill_readNumeral lawful read]
    | cons => rfl
  | _ => cases stack <;> rfl

theorem outside_of_finish {state : State} {value : Json} (finished : finish floats state = some value) :
    ¬state.mode.IsString := by
  obtain ⟨mode, stack⟩ := state
  cases mode with
  | string => cases stack <;> cases finished
  | _ => exact id

end

end Loads

/-- A text without escapes that has its variables in no key. -/
structure Template (floats : FloatText) (value : Text) : Prop where
  raw : 92 ∉ value
  literal : Loads.literalKeys floats ⟨.value, []⟩ value = true

/-- Values without quotes, backslashes and control characters change a document only inside
its strings: replacing the variables in its text comes to replacing them in what is read. -/
theorem loads_render {floats : FloatText} (lawful : floats.Lawful) {env : Text → Text} {value : Text}
    {document : Json} (template : Template floats value)
    (values : ∀ name, Mentions value name → Loads.Plain (env name)) (read : loads floats value = some document) :
    loads floats (render env value) = some (fill env document) := by
  obtain ⟨final, run, finished⟩ := Option.bind_eq_some_iff.mp read
  have filled := Loads.foldlM_render lawful values template.raw template.literal id
    (Loads.outside_of_finish finished) run
  refine Option.bind_eq_some_iff.mpr ⟨_, filled, ?_⟩
  rw [Loads.finish_fill lawful, finished, Option.map_some]

end N8nSystems.Lib.Py
