import N8nSystems.Lib.PyCase

/-! The company domain of a lead in `normalize.py`, from its website or its email. -/

namespace N8nSystems.Leads

open Lib.Py

section
variable (table : Lowering)

/-- `if host.startswith(start): host = host[len(start):]`. -/
def withoutStart (start host : Text) : Text :=
  if start <+: host then host.drop start.length else host

/-- The host in a website, before it is known to be there. -/
def hostOf (website : Text) : Text :=
  let host := table.lower (strip website)
  let host := [text "https://", text "http://"].foldl (fun host start => withoutStart start host) host
  -- `host.split("/", 1)[0].split(":", 1)[0]`
  let host := (host.takeWhile (· ≠ 47)).takeWhile (· ≠ 58)
  withoutStart (text "www.") host

/-- The result that is taken from the website. -/
def websiteDomain : Option Text → Option Text
  | none => none
  | some website =>
    if website = [] then none
    else
      let host := hostOf table website
      if host = [] then none else some host

def companyDomain (website emailDomain : Option Text) (isFreeMail : Bool) : Option Text :=
  match websiteDomain table website with
  | some host => some host
  | none => emailDomain.filter fun domain => domain ≠ [] && !isFreeMail

end

/-- A start in any letter case. -/
def afterStart (start value : Text) : Text :=
  if start <+: value.map asciiLower then value.drop start.length else value

/-- What a website has between its scheme and the first slash or colon. -/
def authority (website : Text) : Text :=
  let rest := [text "https://", text "http://"].foldl (fun rest start => afterStart start rest)
    (strip website)
  (rest.takeWhile (· ≠ 47)).takeWhile (· ≠ 58)

/-- The authority is a name: it has no query, fragment, user or space, and it does not start
with `www.` twice. -/
structure PlainAuthority (website : Text) : Prop where
  marks : ∀ mark ∈ text "?#@", mark ∉ authority website
  spaces : ∀ c ∈ authority website, isSpace c = false
  once : ¬text "www.www." <+: (authority website).map asciiLower

structure BareHost (host : Text) : Prop where
  marks : ∀ mark ∈ text "/:?#@", mark ∉ host
  spaces : ∀ c ∈ host, isSpace c = false
  scheme : ∀ start ∈ [text "https://", text "http://"], ¬start <:+: host
  www : ¬text "www." <+: host

variable {table : Lowering} {website host start value name : Text}

theorem mem_of_withoutStart {c : Nat} (member : c ∈ withoutStart start value) : c ∈ value := by
  unfold withoutStart at member
  split at member
  · exact List.mem_of_mem_drop member
  · exact member

theorem mem_withoutStart {c : Nat} (member : c ∈ value) (other : c ∉ start) :
    c ∈ withoutStart start value := by
  unfold withoutStart
  split
  · rename_i started
    obtain ⟨rest, rfl⟩ := started
    rw [List.drop_left]
    exact (List.mem_append.mp member).resolve_left other
  · exact member

theorem withoutStart_append (rest : Text) : withoutStart start (start ++ rest) = rest := by
  rw [withoutStart, if_pos (List.prefix_append start rest), List.drop_left]

/-- A start is taken from the lowered text where it is taken from the text. -/
theorem withoutStart_lowered (plain : ∀ a ∈ start, a < 128 ∧ a ≠ 105 ∧ a ≠ 107)
    (origin : table.Lowered value name) :
    table.Lowered (afterStart start value) (withoutStart start name) := by
  obtain ⟨same, dropped⟩ := Lowering.Lowered.drop plain origin
  unfold afterStart withoutStart
  by_cases started : start <+: name
  · rw [if_pos started, if_pos (same.mp started)]
    exact dropped started
  · rw [if_neg started, if_neg fun other => started (same.mpr other)]
    exact origin

/-- The host comes from the authority of the website, in lower case. -/
theorem hostOf_lowered (table : Lowering) (website : Text) :
    ∃ name, table.Lowered (authority website) name ∧
      hostOf table website = withoutStart (text "www.") name := by
  have whole : table.Lowered (strip website) (table.lower (strip website)) := table.lower_replaced _
  have secure : table.Lowered (afterStart (text "https://") (strip website))
      (withoutStart (text "https://") (table.lower (strip website))) :=
    withoutStart_lowered (by decide) whole
  have bare : table.Lowered (afterStart (text "http://") (afterStart (text "https://") (strip website)))
      (withoutStart (text "http://") (withoutStart (text "https://") (table.lower (strip website)))) :=
    withoutStart_lowered (by decide) secure
  exact ⟨_, (bare.takeWhile (by decide : 47 < 65)).takeWhile (by decide : 58 < 65), rfl⟩

theorem authority_cut (website : Text) : 47 ∉ authority website ∧ 58 ∉ authority website := by
  unfold authority
  constructor
  · intro member
    have before := (List.takeWhile_sublist _).subset member
    simpa using List.mem_takeWhile_imp before
  · intro member
    simpa using List.mem_takeWhile_imp member

theorem mem_hostMarks {mark : Nat} :
    mark ∈ text "/:?#@" ↔ mark = 47 ∨ mark = 58 ∨ mark ∈ text "?#@" :=
  List.mem_cons.trans (or_congr_right List.mem_cons)

/-- The marks that are not cut off are no letters. -/
theorem queryMark {mark : Nat} (known : mark ∈ text "?#@") : mark < 65 ∧ mark ∉ text "www." :=
  (by decide : ∀ mark ∈ text "?#@", mark < 65 ∧ mark ∉ text "www.") mark known

theorem BareHost.no_start (bare : BareHost host) {start : Text} (slash : 47 ∈ start) : ¬start <+: host :=
  fun started => bare.marks 47 (by decide) (started.subset slash)

theorem takeWhile_absent {mark : Nat} (absent : mark ∉ value) : value.takeWhile (· ≠ mark) = value := by
  apply List.takeWhile_eq_self_iff.mpr
  intro c member
  apply decide_eq_true
  rintro rfl
  exact absent member

/-- A bare host is what it gives itself. -/
theorem hostOf_bare (bare : BareHost host) (stable : table.lower host = host) :
    hostOf table host = host := by
  have secure : withoutStart (text "https://") host = host := if_neg (bare.no_start (by decide))
  have plain : withoutStart (text "http://") host = host := if_neg (bare.no_start (by decide))
  have www : withoutStart (text "www.") host = host := if_neg bare.www
  have stripped : strip host = host := trimmed_self bare.spaces
  simp only [hostOf, stripped, stable, List.foldl_cons, List.foldl_nil, secure, plain,
    takeWhile_absent (bare.marks 47 (by decide)), takeWhile_absent (bare.marks 58 (by decide)), www]

/-- The host of a plain authority is bare. -/
theorem bareHost_of_plain (plain : PlainAuthority website) : BareHost (hostOf table website) := by
  obtain ⟨name, origin, same⟩ := hostOf_lowered table website
  have inside : ∀ c ∈ hostOf table website, c ∈ name := by
    rw [same]
    exact fun c member => mem_of_withoutStart member
  have marks : ∀ mark ∈ text "/:?#@", mark ∉ hostOf table website := by
    intro mark known member
    have among : mark < 65 → mark ∈ authority website :=
      fun below => (origin.mark_mem below).mp (inside mark member)
    rcases mem_hostMarks.mp known with rfl | rfl | other
    · exact (authority_cut website).1 (among (by decide))
    · exact (authority_cut website).2 (among (by decide))
    · exact plain.marks mark other (among (queryMark other).1)
  refine ⟨marks, ?_, ?_, ?_⟩
  · intro c member
    exact origin.spaces.mpr plain.spaces c (inside c member)
  · intro start known contained
    have slash : 47 ∈ start :=
      (by decide : ∀ start ∈ [text "https://", text "http://"], 47 ∈ start) start known
    exact marks 47 (by decide) (contained.subset slash)
  · intro started
    rw [same] at started
    apply plain.once
    by_cases www : text "www." <+: name
    · obtain ⟨rest, rfl⟩ := www
      rw [withoutStart_append] at started
      apply (Lowering.Lowered.drop (by decide) origin).1.mp
      exact (List.prefix_append_right_inj (text "www.")).mpr started
    · rw [withoutStart, if_neg www] at started
      exact absurd started www

/-- A bare host comes from a plain authority. -/
theorem plain_of_bareHost (bare : BareHost (hostOf table website)) : PlainAuthority website := by
  obtain ⟨name, origin, same⟩ := hostOf_lowered table website
  rw [same] at bare
  refine ⟨?_, ?_, ?_⟩
  · intro mark known member
    obtain ⟨below, other⟩ := queryMark known
    have kept := mem_withoutStart ((origin.mark_mem below).mpr member) other
    exact bare.marks mark (mem_hostMarks.mpr (Or.inr (Or.inr known))) kept
  · apply origin.spaces.mp
    intro d member
    by_cases www : d ∈ text "www."
    · exact (by decide : ∀ d ∈ text "www.", isSpace d = false) d www
    · exact bare.spaces d (mem_withoutStart member www)
  · intro twice
    have started := (Lowering.Lowered.drop (by decide) origin).1.mpr twice
    obtain ⟨rest, rfl⟩ := started
    apply bare.www
    change text "www." <+: withoutStart (text "www.") (text "www." ++ (text "www." ++ rest))
    rw [withoutStart_append]
    exact List.prefix_append _ rest

theorem websiteDomain_eq_some (taken : websiteDomain table (some website) = some host) :
    host = hostOf table website ∧ host ≠ [] := by
  unfold websiteDomain at taken
  obtain ⟨-, given⟩ := Option.ite_none_left_eq_some.mp taken
  obtain ⟨nonempty, same⟩ := Option.ite_none_left_eq_some.mp given
  cases same
  exact ⟨rfl, nonempty⟩

theorem websiteDomain_self (nonempty : host ≠ []) (same : hostOf table host = host) :
    websiteDomain table (some host) = some host := by
  rw [websiteDomain, if_neg nonempty]
  simp only [same, if_neg nonempty]

/-- What the website leads to is a bare host, and leads to itself. -/
def BareStable (table : Lowering) (host : Text) : Prop :=
  BareHost host ∧ ∀ emailDomain isFreeMail,
    companyDomain table (some host) emailDomain isFreeMail = some host

/-- The domain that is taken from a website is a bare and stable host, if and only if the
authority of the website is plain: the query, the fragment and the user are not cut off, and
`www.` is cut off once. -/
theorem companyDomain_bareStable_iff (table : Lowering) (website host : Text)
    (taken : websiteDomain table (some website) = some host) :
    (∀ emailDomain isFreeMail, companyDomain table (some website) emailDomain isFreeMail = some host) ∧
      (BareStable table host ↔ PlainAuthority website) := by
  obtain ⟨rfl, nonempty⟩ := websiteDomain_eq_some taken
  refine ⟨fun _ _ => by rw [companyDomain, taken], fun held => plain_of_bareHost held.1, ?_⟩
  intro plain
  have bare : BareHost (hostOf table website) := bareHost_of_plain plain
  refine ⟨bare, fun emailDomain isFreeMail => ?_⟩
  obtain ⟨name, origin, same⟩ := hostOf_lowered table website
  have stable : table.lower (hostOf table website) = hostOf table website := by
    apply Lowering.lower_of_stable
    intro d member
    rw [same] at member
    exact origin.stable d (mem_of_withoutStart member)
  rw [companyDomain, websiteDomain_self nonempty (hostOf_bare bare stable)]

theorem nordic_taken : websiteDomain asciiLowering
    (some (text "https://www.nordic-fabriken.test/contact")) = some (text "nordic-fabriken.test") := by
  decide +kernel

theorem nordic_plain : PlainAuthority (text "https://www.nordic-fabriken.test/contact") := by
  have named : authority (text "https://www.nordic-fabriken.test/contact") =
      text "www.nordic-fabriken.test" := by decide +kernel
  refine ⟨?_, ?_, ?_⟩ <;> rw [named] <;> decide +kernel

theorem nordic_bareStable : BareStable asciiLowering (text "nordic-fabriken.test") :=
  (companyDomain_bareStable_iff asciiLowering _ _ nordic_taken).2.mpr nordic_plain

theorem query_taken : websiteDomain asciiLowering (some (text "https://example.com?utm=ad")) =
    some (text "example.com?utm=ad") := by
  decide +kernel

/-- A query without a path stays in the domain. -/
theorem query_not_bareStable : ¬∀ (table : Lowering) (website host : Text),
    websiteDomain table (some website) = some host → BareStable table host := by
  intro always
  obtain ⟨bare, -⟩ := always asciiLowering _ _ query_taken
  exact bare.marks 63 (by decide) (by decide)

end N8nSystems.Leads
