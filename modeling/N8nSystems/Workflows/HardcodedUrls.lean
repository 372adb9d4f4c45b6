import N8nSystems.Workflows.Issues

/-! Which parameters of a node are reported as a hardcoded URL. -/

namespace N8nSystems.Workflows

open Lib Lib.Py

def schemes : List Text := [text "http://", text "https://"]

/-- A text with `http://` or `https://` in any letter case. Letters in different cases are
those that Unicode folds to the same letter, as the long s to an s. -/
def HasUrl (value : Text) : Prop := ∃ scheme ∈ schemes, scheme <:+: value.map foldCase

instance (value : Text) : Decidable (HasUrl value) :=
  inferInstanceAs (Decidable (∃ scheme ∈ schemes, _))

theorem foldCase_mark {c mark : Nat} (plain : mark < 65) (same : foldCase c = mark) : c = mark := by
  unfold foldCase at same
  split at same
  · omega
  · split at same
    · omega
    · split at same
      · omega
      · split at same
        · omega
        · exact same

theorem map_foldCase_marks {marks piece : Text} (plain : ∀ mark ∈ marks, mark < 65)
    (same : piece.map foldCase = marks) : piece = marks := by
  have kept : piece.map foldCase = piece.map id := by
    apply List.map_congr_left
    intro c member
    have mark : foldCase c ∈ marks := same ▸ List.mem_map_of_mem member
    exact (foldCase_mark (plain _ mark) rfl).symm
  rw [← same, kept, List.map_id]

theorem literalHttp_matches : literalHttp.Matches fun piece => piece.map foldCase ∈ schemes := by
  intro before value rest
  have spelled := (Regex.matches_letters foldCase (text "http")).cons
    ((Regex.matches_optional fun c => foldCase c == 115).cons
      ((Regex.matches_letters id (text "://")).cons Regex.matches_seq_nil))
  refine (spelled before value rest).trans (exists_congr fun piece => and_congr_left' ?_)
  constructor
  · rintro ⟨http, tail, front, ⟨s, tail, optional, ⟨marks, _, back, rfl, rfl⟩, rfl⟩, rfl⟩
    rw [List.map_id, List.map_id] at back
    subst back
    simp only [List.map_append, front]
    rcases optional with rfl | ⟨c, long, rfl⟩
    · decide
    · rw [List.map_singleton, eq_of_beq long]
      decide
  · intro scheme
    have known : piece.map foldCase = text "http" ++ text "://" ∨
        piece.map foldCase = text "http" ++ [115] ++ text "://" := by
      rcases List.mem_pair.mp scheme with same | same
      · exact Or.inl same
      · exact Or.inr same
    rcases known with plain | secure
    · obtain ⟨http, marks, rfl, front, back⟩ := List.map_eq_append_iff.mp plain
      refine ⟨http, marks, front, ⟨[], marks, Or.inl rfl, ⟨marks, [], ?_, rfl, by simp⟩, rfl⟩, rfl⟩
      rw [map_foldCase_marks (by decide) back]
    · obtain ⟨start, marks, rfl, front, back⟩ := List.map_eq_append_iff.mp secure
      obtain ⟨http, middle, rfl, letters, single⟩ := List.map_eq_append_iff.mp front
      obtain ⟨c, rfl, long⟩ := List.map_eq_singleton_iff.mp single
      refine ⟨http, [c] ++ marks, letters, ⟨[c], marks, Or.inr ⟨c, by simp [long], rfl⟩,
        ⟨marks, [], ?_, rfl, by simp⟩, rfl⟩, by simp⟩
      rw [map_foldCase_marks (by decide) back]

theorem literalHttp_search {value : Text} : literalHttp.search value = true ↔ HasUrl value := by
  rw [literalHttp_matches.search, HasUrl]
  constructor
  · rintro ⟨piece, scheme, inside⟩
    exact ⟨_, scheme, inside.map foldCase⟩
  · rintro ⟨scheme, known, inside⟩
    obtain ⟨piece, among, rfl⟩ := List.infix_map_iff.mp inside
    exact ⟨piece, known, among⟩

/-- What may stand around the text of an expression. -/
def isWrapper (c : Nat) : Bool := isSpace c || c == 61 || c == 123 || c == 125

theorem isWrapper_of_isSpace {c : Nat} (blank : isSpace c = true) : isWrapper c = true := by
  simp [isWrapper, blank]

/-- Blanks and the opening braces. -/
theorem opening_parts {value rest : Text} (opened : value.dropWhile isSpace = 123 :: 123 :: rest) :
    ∃ left, value = left ++ rest ∧ ∀ c ∈ left, isWrapper c = true := by
  refine ⟨value.takeWhile isSpace ++ [123, 123], ?_, ?_⟩
  · rw [List.append_assoc]
    change value = value.takeWhile isSpace ++ (123 :: 123 :: rest)
    rw [← opened, List.takeWhile_append_dropWhile]
  · intro c member
    rcases List.mem_append.mp member with blank | brace
    · exact isWrapper_of_isSpace (List.mem_takeWhile_imp blank)
    · rcases List.mem_pair.mp brace with rfl | rfl <;> rfl

/-- The closing braces and blanks. -/
theorem closing_parts {rest inner : Text} (closed : [125, 125] <:+ rest.rdropWhile isSpace)
    (same : inner = (rest.rdropWhile isSpace).take ((rest.rdropWhile isSpace).length - 2)) :
    ∃ right, rest = inner ++ right ∧ ∀ c ∈ right, isWrapper c = true := by
  refine ⟨[125, 125] ++ rest.rtakeWhile isSpace, ?_, ?_⟩
  · obtain ⟨front, whole⟩ := closed
    have front_eq : inner = front := by
      rw [same, ← whole]
      simp
    rw [front_eq, ← List.append_assoc, whole, List.rdropWhile_append_rtakeWhile]
  · intro c member
    rcases List.mem_append.mp member with brace | blank
    · rcases List.mem_pair.mp brace with rfl | rfl <;> rfl
    · exact isWrapper_of_isSpace (List.mem_rtakeWhile_imp blank)

theorem expressionOnly_parts {value inner : Text} (wrapped : expressionOnly value = some inner) :
    ∃ left right, value = left ++ inner ++ right ∧
      (∀ c ∈ left, isWrapper c = true) ∧ ∀ c ∈ right, isWrapper c = true := by
  unfold expressionOnly at wrapped
  dsimp only at wrapped
  split at wrapped
  · rename_i rest opened
    obtain ⟨⟨closed, -⟩, same⟩ := Option.ite_none_right_eq_some.mp wrapped
    obtain ⟨right, rfl, behind⟩ := closing_parts closed (Option.some.inj same).symm
    split at opened
    · obtain ⟨left, rfl, before⟩ := opening_parts opened
      refine ⟨61 :: left, right, by simp, ?_, behind⟩
      intro c member
      rcases List.mem_cons.mp member with rfl | later
      · rfl
      · exact before c later
    · obtain ⟨left, rfl, before⟩ := opening_parts opened
      exact ⟨left, right, by simp, before, behind⟩
  · cases wrapped

/-- No character of a scheme stands around an expression. -/
theorem scheme_apart {scheme : Text} (known : scheme ∈ schemes) {c : Nat} (wrapper : isWrapper c = true) :
    foldCase c ∉ scheme := by
  have letters : ∀ scheme ∈ schemes, ∀ letter ∈ scheme,
      letter = 104 ∨ letter = 116 ∨ letter = 112 ∨ letter = 115 ∨ letter = 58 ∨ letter = 47 := by decide
  simp only [isWrapper, isSpace, Bool.or_eq_true, Bool.and_eq_true, decide_eq_true_eq,
    beq_iff_eq] at wrapper
  have kept : foldCase c = c := by
    rw [foldCase, if_neg (by omega), if_neg (by omega), if_neg (by omega), if_neg (by omega)]
  intro member
  have letter := letters scheme known _ member
  rw [kept] at letter
  omega

theorem HasUrl.inner {left core right : Text} (found : HasUrl (left ++ core ++ right))
    (before : ∀ c ∈ left, isWrapper c = true) (behind : ∀ c ∈ right, isWrapper c = true) :
    HasUrl core := by
  obtain ⟨scheme, known, inside⟩ := found
  simp only [List.map_append] at inside
  refine ⟨scheme, known, infix_of_padded inside ?_ ?_⟩
  · intro c member
    obtain ⟨wrapper, among, rfl⟩ := List.mem_map.mp member
    exact scheme_apart known (before wrapper among)
  · intro c member
    obtain ⟨wrapper, among, rfl⟩ := List.mem_map.mp member
    exact scheme_apart known (behind wrapper among)

/-- The exemption of expressions hides no URL. -/
theorem hasLiteralHttpUrl_eq (value : Text) : hasLiteralHttpUrl value = decide (HasUrl value) := by
  have stripped : HasUrl value → HasUrl (Py.strip value) := by
    intro found
    obtain ⟨left, right, parts, before, behind⟩ := strip_parts value
    rw [parts] at found
    exact found.inner (fun c member => isWrapper_of_isSpace (before c member))
      fun c member => isWrapper_of_isSpace (behind c member)
  unfold hasLiteralHttpUrl
  by_cases found : HasUrl value
  · rw [if_pos (literalHttp_search.mpr found), decide_eq_true found]
    split
    · rename_i inner wrapped
      obtain ⟨left, right, parts, before, behind⟩ := expressionOnly_parts wrapped
      have whole := stripped found
      rw [parts] at whole
      exact literalHttp_search.mpr (whole.inner before behind)
    · rfl
  · rw [if_neg fun searched => found (literalHttp_search.mp searched), decide_eq_false found]

mutual

/-- The texts in a value with their paths, in the order of a traversal. -/
def stringLeaves (path : Text) : Json → List (Text × Text)
  | .object fields => fieldLeaves path fields
  | .array items => itemLeaves path 0 items
  | .string value => [(path, value)]
  | _ => []
  termination_by structural value => value

def itemLeaves (path : Text) (index : Nat) : List Json → List (Text × Text)
  | [] => []
  | item :: items =>
    stringLeaves (path ++ text "[" ++ number index ++ text "]") item ++ itemLeaves path (index + 1) items
  termination_by structural items => items

def fieldLeaves (path : Text) : List (Text × Json) → List (Text × Text)
  | [] => []
  | field :: fields => fieldLeaf path field ++ fieldLeaves path fields
  termination_by structural fields => fields

def fieldLeaf (path : Text) : Text × Json → List (Text × Text)
  | (key, item) => stringLeaves (path ++ text "." ++ key) item
  termination_by structural field => field

end

/-- One issue for each leaf with a URL, in their order. -/
def leafIssues (label : Text) (leaves : List (Text × Text)) : List Issue :=
  (leaves.filter fun leaf => HasUrl leaf.2).map fun leaf => ⟨leaf.1, .hardcodedUrl label⟩

theorem leafIssues_append (label : Text) (front back : List (Text × Text)) :
    leafIssues label (front ++ back) = leafIssues label front ++ leafIssues label back := by
  simp [leafIssues]

theorem scanItems_leaves {label path : Text} {index : Nat} {items : List Json}
    (each : ∀ item ∈ items, ∀ path,
      scanHardcodedUrls label path item = leafIssues label (stringLeaves path item)) :
    scanItems label path index items = leafIssues label (itemLeaves path index items) := by
  induction items generalizing index with
  | nil => rfl
  | cons item items ih =>
    rw [scanItems, itemLeaves, leafIssues_append, each item List.mem_cons_self,
      ih fun other member => each other (List.mem_cons_of_mem item member)]

theorem scanFields_leaves {label path : Text} {fields : List (Text × Json)}
    (each : ∀ field ∈ fields, ∀ path,
      scanHardcodedUrls label path field.2 = leafIssues label (stringLeaves path field.2)) :
    scanFields label path fields = leafIssues label (fieldLeaves path fields) := by
  induction fields with
  | nil => rfl
  | cons field fields ih =>
    rw [scanFields, fieldLeaves, leafIssues_append, scanField, fieldLeaf, each field List.mem_cons_self,
      ih fun other member => each other (List.mem_cons_of_mem field member)]

theorem scanHardcodedUrls_leaves (label path : Text) (value : Json) :
    scanHardcodedUrls label path value = leafIssues label (stringLeaves path value) := by
  induction value using Json.induction generalizing path with
  | string value =>
    by_cases found : HasUrl value <;>
      simp [scanHardcodedUrls, stringLeaves, leafIssues, hasLiteralHttpUrl_eq, found]
  | array items ih => exact scanItems_leaves ih
  | object fields ih => exact scanFields_leaves ih
  | _ => rfl

/-- The texts in the parameters of a node. -/
def parameterLeaves (node : Json) (path : Text) : List (Text × Text) :=
  ((node.get (text "parameters")).map (stringLeaves (path ++ text ".parameters"))).getD []

theorem urlIssues_leaves (label path : Text) (node : Json) :
    urlIssues label node path = leafIssues label (parameterLeaves node path) := by
  unfold urlIssues parameterLeaves
  split
  · rename_i null
    rw [null]
    rfl
  · rename_i missing
    rw [missing]
    rfl
  · rename_i parameters _ given
    rw [given]
    exact scanHardcodedUrls_leaves label _ parameters

def Finding.isHardcodedUrl : Finding → Bool
  | .hardcodedUrl _ => true
  | _ => false

theorem Finding.isHardcodedUrl_of_isSnippet {finding : Finding} (snippet : finding.isSnippet = true) :
    finding.isHardcodedUrl = false := by
  cases finding <;> first | rfl | cases snippet

/-- A check that reports something else or nothing. -/
theorem filter_shown {shown : Prop} [Decidable shown] {place : Text} {finding : Finding}
    (other : finding.isHardcodedUrl = false) :
    (if shown then [(⟨place, finding⟩ : Issue)] else []).filter (·.finding.isHardcodedUrl) = [] := by
  split
  · exact List.filter_cons_of_neg (by simp [other])
  · rfl

variable {unicode : Unicode} {reprFloat : Rat → Text} {dir : SnippetsDir}

/-- The URLs that are reported for a node that looks up no settings. -/
theorem lintNode_urls {path : Text} {index : Nat} {fields : List (Text × Json)} {issues : List Issue}
    (plain : isSettingsLookupNode unicode reprFloat (.object fields) = .ok false)
    (returned : lintNode unicode reprFloat dir path index (.object fields) = .ok issues) :
    ∃ name label, strOrEmpty unicode reprFloat (Json.get (.object fields) (text "name")) = .ok name ∧
      reprOf unicode reprFloat (labelOf (some (.string name)) (.object fields) (.int index)) = .ok label ∧
      issues.filter (·.finding.isHardcodedUrl) = leafIssues label
        (parameterLeaves (.object fields) (path ++ text ".nodes[" ++ number index ++ text "]")) := by
  simp only [lintNode, bind_ok_iff] at returned
  obtain ⟨name, named, label, labelled, nodeType, -, timed, timing, snippet, coded, lookup, looked,
    same⟩ := returned
  cases looked.symm.trans plain
  cases same
  refine ⟨name, label, named, labelled, ?_⟩
  -- the other checks report something else
  have timeouts : timed.filter (·.finding.isHardcodedUrl) = [] := by
    apply List.filter_eq_nil_iff.mpr
    intro issue member
    simp [timeoutIssues_finding timing issue member, Finding.isHardcodedUrl]
  have snippets : snippet.filter (·.finding.isHardcodedUrl) = [] := by
    apply List.filter_eq_nil_iff.mpr
    intro issue member
    simp [Finding.isHardcodedUrl_of_isSnippet (codeIssues_finding coded issue member)]
  have urls : ∀ place, (urlIssues label (.object fields) place).filter (·.finding.isHardcodedUrl) =
      urlIssues label (.object fields) place := by
    intro place
    apply List.filter_eq_self.mpr
    intro issue member
    rw [urlIssues_finding member]
    rfl
  have pinned (place : Text) := @filter_shown (hasKey (text "pinData") fields = true) _ place
    (.nodePinData label) rfl
  have defaults (place : Text) := @filter_shown ((defaultNodeName unicode).fullmatch name = true) _ place
    (.defaultNodeName label) rfl
  simp only [List.filter_append, pinned, defaults, timeouts, snippets, Bool.false_eq_true, if_false,
    urls, List.nil_append]
  exact urlIssues_leaves label _ _

/-- The report of hardcoded URLs: one issue for each text in the parameters that has one,
in the order of a traversal, and none for another text. The exemption of expressions hides
no URL. -/
theorem scanHardcodedUrls_exact :
    (∀ label path parameters,
      scanHardcodedUrls label path parameters = leafIssues label (stringLeaves path parameters)) ∧
    (∀ value, hasLiteralHttpUrl value = true ↔ HasUrl value) ∧
    ∀ (unicode : Unicode) (reprFloat : Rat → Text) (dir : SnippetsDir) (path : Text) (index : Nat)
      (fields : List (Text × Json)) (issues : List Issue),
      isSettingsLookupNode unicode reprFloat (.object fields) = .ok false →
      lintNode unicode reprFloat dir path index (.object fields) = .ok issues →
      ∃ name label, strOrEmpty unicode reprFloat (Json.get (.object fields) (text "name")) = .ok name ∧
        reprOf unicode reprFloat (labelOf (some (.string name)) (.object fields) (.int index)) = .ok label ∧
        issues.filter (·.finding.isHardcodedUrl) = leafIssues label
          (parameterLeaves (.object fields) (path ++ text ".nodes[" ++ number index ++ text "]")) := by
  refine ⟨scanHardcodedUrls_leaves, ?_, ?_⟩
  · intro value
    rw [hasLiteralHttpUrl_eq, decide_eq_true_eq]
  · intro unicode reprFloat dir path index fields issues plain returned
    exact lintNode_urls plain returned

/-- A node with a literal URL and a plain text in its parameters. -/
def linkedNode : List (Text × Json) := [
  (text "name", .string (text "Send")), (text "type", .string (text "n8n-nodes-base.set")),
  (text "parameters", .object [
    (text "to", .string (text "HTTPS://hooks.test/in")), (text "subject", .string (text "Hello"))])]

/-- A directory without a snippet. -/
def noSnippets : SnippetsDir := ⟨id, fun _ => none⟩

theorem linkedNode_linted :
    lintNode asciiUnicode (fun _ => []) noSnippets (text "a.json") 0 (.object linkedNode) = .ok
      [⟨text "a.json.nodes[0].parameters.to", .hardcodedUrl (text "'Send'")⟩] := by
  decide +kernel

theorem linkedNode_reported :
    ∃ label, leafIssues label (parameterLeaves (.object linkedNode) (text "a.json.nodes[0]")) =
      [⟨text "a.json.nodes[0].parameters.to", .hardcodedUrl (text "'Send'")⟩] := by
  have plain : isSettingsLookupNode asciiUnicode (fun _ => []) (.object linkedNode) = .ok false := by
    decide +kernel
  have place : text "a.json" ++ text ".nodes[" ++ number 0 ++ text "]" = text "a.json.nodes[0]" := by
    decide +kernel
  obtain ⟨_, label, _, _, same⟩ := scanHardcodedUrls_exact.2.2 asciiUnicode (fun _ => []) noSnippets
    (text "a.json") 0 linkedNode _ plain linkedNode_linted
  rw [place] at same
  exact ⟨label, same.symm.trans rfl⟩

end N8nSystems.Workflows
