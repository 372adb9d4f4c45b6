import N8nSystems.FlakyApi.Creates
import N8nSystems.FlakyApi.Faults

/-! The text of `GET /metrics`. -/

namespace N8nSystems.FlakyApi

open Lib Lib.Go

universe u

/-- The route as a string of Go. -/
def Route.name : Route → Bytes
  | .getItems => lit "GET /items"
  | .postItems => lit "POST /items"
  | .putItems => lit "PUT /items"
  | .getItemByID => lit "GET /items/\x7bid\x7d"

/-- The order that `render` gives to `sort.Slice`. -/
def MetricKey.before (key other : MetricKey) : Bool :=
  if key.route.name ≠ other.route.name then decide (key.route.name < other.route.name)
  else decide (key.code < other.code)

def lowerHex (n : UInt8) : UInt8 := if n < 10 then 48 + n else 87 + n

/-- A byte of a text in ASCII as `%q` writes it. -/
def quoteByte (b : UInt8) : Bytes :=
  if b = 34 ∨ b = 92 then [92, b]
  else if 32 ≤ b ∧ b ≤ 126 then [b]
  else if b = 7 then lit "\\a"
  else if b = 8 then lit "\\b"
  else if b = 9 then lit "\\t"
  else if b = 10 then lit "\\n"
  else if b = 11 then lit "\\v"
  else if b = 12 then lit "\\f"
  else if b = 13 then lit "\\r"
  else lit "\\x" ++ [lowerHex (b / 16), lowerHex (b % 16)]

/-- `%q`, for a text in ASCII. -/
def quote (value : Bytes) : Bytes := 34 :: (value.flatMap quoteByte ++ [34])

def renderLine (key : MetricKey) (count : UInt64) : Bytes :=
  lit "flaky_api_http_requests_total\x7bcode=" ++ (quote key.code ++ (lit ",route=" ++
    (quote key.route.name ++ (lit "\x7d " ++ (formatInt count.toNat ++ lit "\n")))))

def renderHeader : Bytes :=
  lit "# HELP flaky_api_http_requests_total HTTP requests handled by flaky-api, labeled by route and status code.\n" ++
    lit "# TYPE flaky_api_http_requests_total counter\n"

/-- The text for the keys, once they are sorted. -/
def renderKeys (metrics : GoMap MetricKey UInt64) (keys : List MetricKey) : Bytes :=
  renderHeader ++ keys.flatMap fun key => renderLine key (metrics.count key)

/-- What `sort.Slice` may make of the keys, in whichever order the map gives them. -/
structure Arranged (metrics : GoMap MetricKey UInt64) (keys : List MetricKey) : Prop where
  perm : keys.Perm (metrics.entries.map Prod.fst)
  ordered : keys.Pairwise fun key other => ¬other.before key

def sortedKeys (metrics : GoMap MetricKey UInt64) : List MetricKey :=
  (metrics.entries.map Prod.fst).mergeSort fun key other => !other.before key

/-- `metricStore.render`. -/
def render (metrics : GoMap MetricKey UInt64) : Bytes := renderKeys metrics (sortedKeys metrics)

theorem Route.name_injective : Function.Injective Route.name := by
  intro route other same
  cases route <;> cases other <;> first | rfl | exact absurd same (by decide)

theorem MetricKey.before_iff {key other : MetricKey} : key.before other = true ↔
    key.route.name < other.route.name ∨ key.route.name = other.route.name ∧ key.code < other.code := by
  unfold before
  split
  · rename_i apart
    rw [decide_eq_true_eq]
    exact ⟨.inl, fun either => either.resolve_right fun same => apart same.1⟩
  · rename_i same
    rw [decide_eq_true_eq, not_not.mp same]
    exact ⟨fun less => .inr ⟨rfl, less⟩, fun either => (either.resolve_left (List.lt_irrefl _)).2⟩

theorem MetricKey.not_before_iff {key other : MetricKey} : ¬other.before key = true ↔
    key.route.name < other.route.name ∨ key.route.name = other.route.name ∧ key.code ≤ other.code := by
  rw [before_iff, not_or, not_and, List.not_lt, List.not_lt]
  constructor
  · rintro ⟨most, ties⟩
    rcases List.le_iff_lt_or_eq.mp most with less | same
    · exact .inl less
    · exact .inr ⟨same, ties same.symm⟩
  · rintro (less | ⟨same, most⟩)
    · exact ⟨List.le_of_lt less, fun same => absurd less (same ▸ List.lt_irrefl _)⟩
    · exact ⟨same ▸ List.le_refl _, fun _ => most⟩

theorem MetricKey.eq_of_not_before {key other : MetricKey} (first : ¬other.before key = true)
    (second : ¬key.before other = true) : key = other := by
  obtain ⟨route, code⟩ := key
  obtain ⟨otherRoute, otherCode⟩ := other
  rcases not_before_iff.mp first with less | ⟨routes, most⟩
  · rcases not_before_iff.mp second with more | ⟨same, -⟩
    · exact absurd (List.lt_trans less more) (List.lt_irrefl _)
    · exact absurd less (same ▸ List.lt_irrefl _)
  · rcases not_before_iff.mp second with more | ⟨-, least⟩
    · exact absurd more (routes ▸ List.lt_irrefl _)
    · cases Route.name_injective routes
      cases List.le_antisymm most least
      rfl

/-- Whatever order the map gives its keys in, and though the sort is not stable, one arrangement is left. -/
theorem Arranged.unique {metrics others : GoMap MetricKey UInt64} {keys keys' : List MetricKey}
    (arranged : Arranged metrics keys) (arranged' : Arranged others keys')
    (same : (metrics.entries.map Prod.fst).Perm (others.entries.map Prod.fst)) : keys = keys' := by
  refine List.Perm.eq_of_pairwise ?_ arranged.ordered arranged'.ordered
    (arranged.perm.trans (same.trans arranged'.perm.symm))
  intro key other _ _ first second
  exact MetricKey.eq_of_not_before first second

theorem MetricKey.not_before_trans {one two three : MetricKey} (first : ¬two.before one = true)
    (second : ¬three.before two = true) : ¬three.before one = true := by
  rw [not_before_iff] at first second ⊢
  rcases first with less | ⟨same, most⟩
  · rcases second with more | ⟨same, -⟩
    · exact .inl (List.lt_trans less more)
    · exact .inl (same ▸ less)
  · rcases second with more | ⟨also, least⟩
    · exact .inl (same ▸ more)
    · exact .inr ⟨same.trans also, List.le_trans most least⟩

theorem MetricKey.not_before_total (key other : MetricKey) : ¬other.before key = true ∨ ¬key.before other = true := by
  rw [not_before_iff, not_before_iff]
  by_cases same : key.route.name = other.route.name
  · exact (List.le_total key.code other.code).imp (fun most => .inr ⟨same, most⟩) fun most => .inr ⟨same.symm, most⟩
  · by_cases less : key.route.name < other.route.name
    · exact .inl (.inl less)
    · exact .inr (.inl ((List.le_iff_lt_or_eq.mp (List.not_lt.mp less)).resolve_right (Ne.symm same)))

theorem arranged_sortedKeys (metrics : GoMap MetricKey UInt64) : Arranged metrics (sortedKeys metrics) where
  perm := List.mergeSort_perm _ _
  ordered := by
    have sorted := @List.pairwise_mergeSort MetricKey (fun key other => !other.before key) ?_ ?_
      (metrics.entries.map Prod.fst)
    · exact sorted.imp fun ordered => Bool.eq_false_iff.mp ((Bool.not_eq_true' _).mp ordered)
    · intro one two three first second
      rw [Bool.not_eq_true', ← Bool.not_eq_true] at first second ⊢
      exact MetricKey.not_before_trans first second
    · intro one other
      rw [Bool.or_eq_true, Bool.not_eq_true', Bool.not_eq_true', ← Bool.not_eq_true, ← Bool.not_eq_true]
      exact MetricKey.not_before_total one other

/-- A byte that `%q` leaves as it is. -/
def PlainByte (b : UInt8) : Prop := 32 ≤ b ∧ b ≤ 126 ∧ b ≠ 34 ∧ b ≠ 92

instance (b : UInt8) : Decidable (PlainByte b) := inferInstanceAs (Decidable (32 ≤ b ∧ b ≤ 126 ∧ b ≠ 34 ∧ b ≠ 92))

theorem quote_plain {value : Bytes} (plain : ∀ b ∈ value, PlainByte b) : quote value = 34 :: (value ++ [34]) := by
  have each : value.flatMap quoteByte = value := by
    induction value with
    | nil => rfl
    | cons b rest ih =>
      obtain ⟨⟨low, high, noQuote, noSlash⟩, later⟩ := List.forall_mem_cons.mp plain
      rw [List.flatMap_cons, ih later, quoteByte, if_neg (not_or.mpr ⟨noQuote, noSlash⟩), if_pos ⟨low, high⟩]
      rfl
  rw [quote, each]

theorem plain_name (route : Route) : ∀ b ∈ route.name, PlainByte b := by
  cases route <;> decide +kernel

theorem plain_of_intByte {b : UInt8} (byte : IntByte b) : PlainByte b := by
  rcases byte with rfl | rfl | ⟨low, high⟩
  · decide
  · decide
  · rw [UInt8.le_iff_toNat_le] at low high
    refine ⟨UInt8.le_iff_toNat_le.mpr (le_trans (by decide) low),
      UInt8.le_iff_toNat_le.mpr (le_trans high (by decide)), ?_, ?_⟩
    · rintro rfl
      exact absurd low (by decide)
    · rintro rfl
      exact absurd high (by decide)

theorem plain_formatInt (n : Nat) : ∀ b ∈ formatInt n, PlainByte b := by
  rw [formatInt_nat]
  exact fun b member => plain_of_intByte (formatInt_intByte n b member)

/-- The code is the number of a status. -/
def MetricKey.Coded (key : MetricKey) : Prop := ∃ status : Nat, 100 ≤ status ∧ status ≤ 599 ∧ key.code = formatInt status

theorem MetricKey.Coded.plain {key : MetricKey} (coded : key.Coded) : ∀ b ∈ key.code, PlainByte b := by
  obtain ⟨status, -, -, same⟩ := coded
  rw [same]
  exact plain_formatInt status

/-- A framed text with a byte that its first part cannot contain. -/
theorem plain_frame {separator : UInt8} (mark : ¬PlainByte separator) {one other rest tail : Bytes}
    (plain : ∀ b ∈ one, PlainByte b) (also : ∀ b ∈ other, PlainByte b)
    (same : one ++ separator :: rest = other ++ separator :: tail) : one = other ∧ rest = tail :=
  frame_injective (fun member => mark (plain _ member)) (fun member => mark (also _ member)) same

theorem quote_frame {one other rest tail : Bytes} (plain : ∀ b ∈ one, PlainByte b) (also : ∀ b ∈ other, PlainByte b)
    (same : quote one ++ rest = quote other ++ tail) : one = other ∧ rest = tail := by
  rw [quote_plain plain, quote_plain also, List.cons_append, List.cons_append, List.append_assoc,
    List.append_assoc] at same
  exact plain_frame (by decide) plain also (List.cons.inj same).2

/-- A line tells its key and its count, and where it ends. -/
theorem renderLine_frame {key other : MetricKey} {count otherCount : UInt64} {rest tail : Bytes} (coded : key.Coded)
    (also : other.Coded) (same : renderLine key count ++ rest = renderLine other otherCount ++ tail) :
    key = other ∧ count = otherCount ∧ rest = tail := by
  obtain ⟨route, code⟩ := key
  obtain ⟨otherRoute, otherCode⟩ := other
  simp only [renderLine, List.append_assoc] at same
  obtain ⟨rfl, afterCode⟩ := quote_frame coded.plain also.plain (List.append_cancel_left same)
  obtain ⟨names, afterRoute⟩ := quote_frame (plain_name route) (plain_name otherRoute)
    (List.append_cancel_left afterCode)
  obtain ⟨digits, ends⟩ := @plain_frame 10 (by decide) _ _ _ _ (plain_formatInt _) (plain_formatInt _)
    (List.append_cancel_left afterRoute)
  cases Route.name_injective names
  rw [formatInt_nat, formatInt_nat, formatInt_injective.eq_iff, Int.natCast_inj, UInt64.toNat_inj] at digits
  exact ⟨rfl, digits, ends⟩

theorem renderLine_ne_nil (key : MetricKey) (count : UInt64) (rest : Bytes) : renderLine key count ++ rest ≠ [] := by
  simp [renderLine, quote]

/-- The lines of sorted keys tell the keys and their counts. -/
theorem lines_injective {counts others : MetricKey → UInt64} {keys keys' : List MetricKey}
    (coded : ∀ key ∈ keys, key.Coded) (also : ∀ key ∈ keys', key.Coded)
    (same : (keys.flatMap fun key => renderLine key (counts key)) =
      keys'.flatMap fun key => renderLine key (others key)) :
    keys = keys' ∧ ∀ key ∈ keys, counts key = others key := by
  induction keys generalizing keys' with
  | nil =>
    cases keys' with
    | nil => exact ⟨rfl, by simp⟩
    | cons key rest => exact absurd same.symm (renderLine_ne_nil _ _ _)
  | cons key rest ih =>
    cases keys' with
    | nil => exact absurd same (renderLine_ne_nil _ _ _)
    | cons other tail =>
      rw [List.forall_mem_cons] at coded also
      rw [List.flatMap_cons, List.flatMap_cons] at same
      obtain ⟨rfl, count, later⟩ := renderLine_frame coded.1 also.1 same
      obtain ⟨rfl, counted⟩ := ih coded.2 also.2 later
      exact ⟨rfl, List.forall_mem_cons.mpr ⟨count, counted⟩⟩

theorem mem_keys_iff {metrics : GoMap MetricKey UInt64} {key : MetricKey} :
    key ∈ metrics.entries.map Prod.fst ↔ ∃ count, metrics.get? key = some count := by
  constructor
  · intro member
    obtain ⟨entry, held, rfl⟩ := List.mem_map.mp member
    exact ⟨entry.2, GoMap.get?_eq_some_iff.mpr held⟩
  · rintro ⟨count, held⟩
    exact List.mem_map_of_mem (GoMap.get?_eq_some_iff.mp held)

/-- The counters of a map, one by one. -/
theorem get?_eq_iff {metrics others : GoMap MetricKey UInt64} : (∀ key, metrics.get? key = others.get? key) ↔
    (metrics.entries.map Prod.fst).Perm (others.entries.map Prod.fst) ∧
      ∀ key ∈ metrics.entries.map Prod.fst, metrics.count key = others.count key := by
  rw [List.perm_ext_iff_of_nodup metrics.distinct others.distinct]
  constructor
  · intro same
    refine ⟨fun key => ?_, fun key _ => congrArg (Option.getD · 0) (same key)⟩
    rw [mem_keys_iff, mem_keys_iff, same key]
  · rintro ⟨keys, counts⟩ key
    by_cases member : key ∈ metrics.entries.map Prod.fst
    · obtain ⟨count, held⟩ := mem_keys_iff.mp member
      obtain ⟨other, also⟩ := mem_keys_iff.mp ((keys key).mp member)
      have same := counts key member
      rw [GoMap.count, GoMap.count, held, also] at same
      rw [held, also]
      exact congrArg some same
    · have absent : ∀ count, metrics.get? key ≠ some count :=
        fun count held => member (mem_keys_iff.mpr ⟨count, held⟩)
      have absent' : ∀ count, others.get? key ≠ some count :=
        fun count held => member ((keys key).mpr (mem_keys_iff.mpr ⟨count, held⟩))
      rw [Option.eq_none_iff_forall_ne_some.mpr absent, Option.eq_none_iff_forall_ne_some.mpr absent']

/-- Two maps have the same text exactly when they have the same counters. -/
theorem render_eq_iff {metrics others : GoMap MetricKey UInt64}
    (coded : ∀ key ∈ metrics.entries.map Prod.fst, key.Coded) (also : ∀ key ∈ others.entries.map Prod.fst, key.Coded) :
    render metrics = render others ↔ ∀ key, metrics.get? key = others.get? key := by
  have arranged := arranged_sortedKeys metrics
  have arranged' := arranged_sortedKeys others
  rw [get?_eq_iff]
  constructor
  · intro same
    obtain ⟨keys, counts⟩ := lines_injective (fun key member => coded key (arranged.perm.mem_iff.mp member))
      (fun key member => also key (arranged'.perm.mem_iff.mp member)) (List.append_cancel_left same)
    exact ⟨arranged.perm.symm.trans (keys ▸ arranged'.perm),
      fun key member => counts key (arranged.perm.mem_iff.mpr member)⟩
  · rintro ⟨keys, counts⟩
    rw [render, render, renderKeys, renderKeys, ← arranged.unique arranged' keys]
    refine congrArg (renderHeader ++ ·) (List.flatMap_congr ?_)
    intro key member
    rw [counts key (arranged.perm.mem_iff.mp member)]

section
variable {Request : Type u} [DecidableEq Request] {runtime : Runtime} {calls : Request → Call}
  {before after final : Pool Request Phase Server} {label : Request × Rat} {labels : List (Request × Rat)}

def Response.Valid (response : Response) : Prop := 100 ≤ response.status ∧ response.status ≤ 599

theorem valid_writeJSON {status : Int} {body : Body} (low : 100 ≤ status) (high : status ≤ 599) :
    (writeJSON status body).Valid := ⟨low, high⟩

theorem handle_valid (call : ItemCall) (draw : Rat) (store : Store) : (call.handle runtime draw store).1.Valid := by
  cases call with
  | list => exact valid_writeJSON (by decide) (by decide)
  | create decoded =>
    simp only [ItemCall.handle]
    unfold handleCreateItem
    split
    · exact valid_writeJSON (by decide) (by decide)
    · split <;> exact valid_writeJSON (by decide) (by decide)
  | put decoded =>
    simp only [ItemCall.handle]
    unfold handlePutItem
    split
    · exact valid_writeJSON (by decide) (by decide)
    · split <;> exact valid_writeJSON (by decide) (by decide)
  | get id =>
    simp only [ItemCall.handle, handleGetItem]
    split
    · exact valid_writeJSON (by decide) (by decide)
    · split <;> exact valid_writeJSON (by decide) (by decide)

theorem RouteMode.Fails.valid {mode : RouteMode} {response : Response} (valid : mode.Valid)
    (fails : mode.Fails runtime response) : response.Valid := by
  rcases fails with ⟨-, rfl⟩ | ⟨-, rfl⟩
  · exact valid_writeJSON (by decide) (by decide)
  · simp only [failure, Response.Valid]
    split
    · decide
    · rename_i given
      exact valid.status.resolve_left given

/-- Every answer has a valid status, and so has every counter of the metrics. -/
structure Numbered (calls : Request → Call) (pool : Pool Request Phase Server) : Prop where
  moded : Moded calls pool
  answers : ∀ request call response, calls request = .item call → pool.phase request = .answered response →
    response.Valid
  metrics : ∀ key ∈ pool.shared.metrics.entries.map Prod.fst, key.Coded

theorem metrics_step (taken : Pool.step (serve runtime calls) before label = some after) :
    after.shared.metrics = before.shared.metrics ∨ after.shared.metrics = .empty ∨
      ∃ call response, calls label.1 = .item call ∧ before.phase label.1 = .answered response ∧
        after.shared.metrics = before.shared.metrics.bump
          ⟨call.route, formatInt (if response.status = 0 then 200 else response.status)⟩ := by
  have effect := step_effect taken
  generalize event calls before label = seen at effect
  cases effect with
  | enter _ _ _ _ _ metrics | clearStats _ _ _ _ metrics | silent _ metrics => exact .inl metrics
  | clearMetrics _ _ _ _ metrics => exact .inr (.inl metrics)
  | exit call response code asked phase =>
    have own := Pool.step_own _ taken
    simp only [serve, asked, phase, withFaults] at own
    have shared := (Prod.mk.inj (Option.some.inj own)).2
    exact .inr (.inr ⟨call, response, asked, phase, by rw [← shared]⟩)

theorem coded_of_valid {response : Response} (valid : response.Valid) (route : Route) :
    (MetricKey.mk route (formatInt (if response.status = 0 then 200 else response.status))).Coded := by
  obtain ⟨low, high⟩ := valid
  have positive : response.status ≠ 0 := by omega
  refine ⟨response.status.toNat, by omega, by omega, ?_⟩
  rw [if_neg positive, Int.toNat_of_nonneg (by omega)]

theorem Numbered.step (numbered : Numbered calls before)
    (taken : Pool.step (serve runtime calls) before label = some after) : Numbered calls after where
  moded := numbered.moded.step taken
  answers := by
    intro request call response asked answered
    by_cases own : request = label.1
    · subst own
      have move := step_move taken
      generalize settled runtime calls before label = seen at move
      cases move with
      | served other mode draw same phase next =>
        cases next.symm.trans answered
        exact handle_valid _ _ _
      | injected other mode response same phase next fails =>
        cases next.symm.trans answered
        refine fails.valid ?_
        rcases numbered.moded.admitted label.1 other mode same phase with rfl | given
        · exact absurd fails not_fails_zero
        · exact given.1
      | silent fresh item => cases (item call asked).symm.trans answered
      | emptied _ _ next | admitted _ _ _ next | observed _ _ _ _ next | moded _ _ _ _ _ next =>
        cases next.symm.trans answered
    · rw [Pool.step_other _ taken own] at answered
      exact numbered.answers request call response asked answered
  metrics := by
    rcases metrics_step taken with same | emptied | ⟨call, response, asked, phase, counted⟩
    · rw [same]
      exact numbered.metrics
    · rw [emptied]
      simp [GoMap.empty]
    · rw [counted]
      intro key member
      rcases GoMap.mem_keys_put.mp member with rfl | old
      · exact coded_of_valid (numbered.answers _ call response asked phase) call.route
      · exact numbered.metrics key old

theorem numbered_of_run (reached : run (Pool.step (serve runtime calls)) initial labels = some final) :
    Numbered calls final := by
  refine run_invariant (Numbered calls) ⟨moded_initial, ?_, ?_⟩ (fun _ _ _ => Numbered.step) reached
  · intro request call response _ answered
    cases answered
  · simp [initial, newServer, GoMap.empty]

/-- After every run the text of the metrics is the same for every order in which the map gives
its keys and every sort of them; each counter is one of a status of HTTP; and the texts after two
runs are the same exactly when all their counters are. -/
theorem metrics_text {runtime' : Runtime} {calls' : Request → Call} {final' : Pool Request Phase Server}
    {labels' : List (Request × Rat)}
    (reached : run (Pool.step (serve runtime calls)) initial labels = some final)
    (reached' : run (Pool.step (serve runtime' calls')) initial labels' = some final') :
    (∀ keys, Arranged final.shared.metrics keys →
      renderKeys final.shared.metrics keys = render final.shared.metrics) ∧
    (∀ key count, final.shared.metrics.get? key = some count → key.Coded) ∧
    (render final.shared.metrics = render final'.shared.metrics ↔
      ∀ key, final.shared.metrics.get? key = final'.shared.metrics.get? key) := by
  have numbered := numbered_of_run reached
  refine ⟨?_, ?_, render_eq_iff numbered.metrics (numbered_of_run reached').metrics⟩
  · intro keys arranged
    rw [render, arranged.unique (arranged_sortedKeys _) (List.Perm.refl _)]
  · intro key count held
    exact numbered.metrics key (mem_keys_iff.mpr ⟨count, held⟩)

end

/-- One request to list the items is refused and the other is served. -/
theorem metrics_text_apart : ∃ final final' : Pool Bool Phase Server,
    run (Pool.step (serve plainRuntime listAndMode)) initial refused = some final ∧
      run (Pool.step (serve plainRuntime listAndReset)) initial overtaken = some final' ∧
      render final.shared.metrics ≠ render final'.shared.metrics := by
  have first : (run (Pool.step (serve plainRuntime listAndMode)) initial refused).map
      (fun system => system.shared.metrics.get? ⟨.getItems, formatInt 401⟩) = some (some 1) := rfl
  have second : (run (Pool.step (serve plainRuntime listAndReset)) initial overtaken).map
      (fun system => system.shared.metrics.get? ⟨.getItems, formatInt 401⟩) = some none := rfl
  obtain ⟨final, reached, one⟩ := Option.map_eq_some_iff.mp first
  obtain ⟨final', reached', none_⟩ := Option.map_eq_some_iff.mp second
  refine ⟨final, final', reached, reached', ?_⟩
  intro same
  have counters := (metrics_text reached reached').2.2.mp same ⟨.getItems, formatInt 401⟩
  cases one.symm.trans (counters.trans none_)

end N8nSystems.FlakyApi
