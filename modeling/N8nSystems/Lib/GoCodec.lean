import N8nSystems.Lib.GoTrim

/-! The encoders of `encoding/hex` and `encoding/base64`, and that the decoders
invert them. -/

namespace N8nSystems.Lib.Go

def hexByte (digit : Nat) : UInt8 :=
  if digit < 10 then UInt8.ofNat (digit + 48) else UInt8.ofNat (digit + 87)

/-- `hex.EncodeToString`. -/
def hexEncodeToString (bytes : Bytes) : Bytes :=
  bytes.flatMap fun b => [hexByte (b.toNat / 16), hexByte (b.toNat % 16)]

theorem hexDigit_hexByte : ∀ digit < 16, hexDigit (hexByte digit) = some (UInt8.ofNat digit) := by
  decide

theorem hexByte_word : ∀ digit < 16, WordByte (hexByte digit) := by
  decide

theorem hexDecodeString_encode (bytes : Bytes) :
    hexDecodeString (hexEncodeToString bytes) = some bytes := by
  induction bytes with
  | nil => rfl
  | cons b rest ih =>
    have range := b.toNat_lt
    have high := hexDigit_hexByte (b.toNat / 16) (by omega)
    have low := hexDigit_hexByte (b.toNat % 16) (by omega)
    have whole : 16 * UInt8.ofNat (b.toNat / 16) + UInt8.ofNat (b.toNat % 16) = b := by
      apply UInt8.toNat.inj
      simp only [UInt8.toNat_add, UInt8.toNat_mul, UInt8.toNat_ofNat', UInt8.reduceToNat]
      omega
    rw [hexEncodeToString] at ih ⊢
    rw [List.flatMap_cons, List.cons_append, List.cons_append, List.nil_append, hexDecodeString, high,
      low, ih]
    simp [whole]

theorem hexEncodeToString_word (bytes : Bytes) : ∀ b ∈ hexEncodeToString bytes, WordByte b := by
  intro b member
  obtain ⟨source, _, inside⟩ := List.mem_flatMap.mp member
  have range := source.toNat_lt
  rcases List.mem_cons.mp inside with rfl | later
  · exact hexByte_word _ (by omega)
  · rw [List.mem_singleton.mp later]
    exact hexByte_word _ (by omega)

/-- The standard base64 alphabet. -/
def base64Byte (sextet : Nat) : UInt8 :=
  if sextet < 26 then UInt8.ofNat (sextet + 65)
  else if sextet < 52 then UInt8.ofNat (sextet + 71)
  else if sextet < 62 then UInt8.ofNat (sextet - 4)
  else if sextet = 62 then 43
  else 47

def base64Value (b : UInt8) : Option Nat :=
  if 65 ≤ b ∧ b ≤ 90 then some (b.toNat - 65)
  else if 97 ≤ b ∧ b ≤ 122 then some (b.toNat - 71)
  else if 48 ≤ b ∧ b ≤ 57 then some (b.toNat + 4)
  else if b = 43 then some 62
  else if b = 47 then some 63
  else none

/-- `base64.StdEncoding.EncodeToString`: three bytes give four sextets, and the
last quantum is padded. -/
def base64EncodeToString : Bytes → Bytes
  | [] => []
  | [a] =>
    [base64Byte (a.toNat / 4), base64Byte (a.toNat % 4 * 16), 61, 61]
  | [a, b] =>
    [base64Byte (a.toNat / 4), base64Byte (a.toNat % 4 * 16 + b.toNat / 16),
      base64Byte (b.toNat % 16 * 4), 61]
  | a :: b :: c :: rest =>
    base64Byte (a.toNat / 4) :: base64Byte (a.toNat % 4 * 16 + b.toNat / 16) ::
      base64Byte (b.toNat % 16 * 4 + c.toNat / 64) :: base64Byte (c.toNat % 64) ::
      base64EncodeToString rest

/-- The quanta of a base64 text without line breaks. Bits that the padding cuts
off are not looked at. -/
def base64Quanta : Bytes → Option Bytes
  | [] => some []
  | [a, b, 61, 61] => (base64Value a).bind fun x => (base64Value b).map fun y =>
      [UInt8.ofNat (x * 4 + y / 16)]
  | [a, b, c, 61] => (base64Value a).bind fun x => (base64Value b).bind fun y =>
      (base64Value c).map fun z => [UInt8.ofNat (x * 4 + y / 16), UInt8.ofNat (y % 16 * 16 + z / 4)]
  | a :: b :: c :: d :: rest => (base64Value a).bind fun x => (base64Value b).bind fun y =>
      (base64Value c).bind fun z => (base64Value d).bind fun w =>
        (base64Quanta rest).map fun tail =>
          UInt8.ofNat (x * 4 + y / 16) :: UInt8.ofNat (y % 16 * 16 + z / 4) ::
            UInt8.ofNat (z % 4 * 64 + w) :: tail
  | _ => none

/-- `base64.StdEncoding.DecodeString`: line breaks are skipped. -/
def base64DecodeString (text : Bytes) : Option Bytes :=
  base64Quanta (text.filter fun b => b != 10 && b != 13)

theorem base64Value_byte : ∀ sextet < 64, base64Value (base64Byte sextet) = some sextet := by
  decide

theorem base64Byte_word : ∀ sextet < 64, WordByte (base64Byte sextet) := by
  decide

theorem base64Byte_ne_padding : ∀ sextet < 64, base64Byte sextet ≠ 61 := by
  decide

theorem base64Quanta_cons (ordinary : d ≠ 61) (rest : Bytes) :
    base64Quanta (a :: b :: c :: d :: rest) =
      ((base64Value a).bind fun x => (base64Value b).bind fun y => (base64Value c).bind fun z =>
        (base64Value d).bind fun w => (base64Quanta rest).map fun tail =>
          UInt8.ofNat (x * 4 + y / 16) :: UInt8.ofNat (y % 16 * 16 + z / 4) ::
            UInt8.ofNat (z % 4 * 64 + w) :: tail) := by
  rw [base64Quanta]
  · intro _ last
    exact absurd last ordinary
  · intro last
    exact absurd last ordinary

theorem ofNat_eq_of_toNat (same : n = b.toNat) : UInt8.ofNat n = b := by
  rw [same, UInt8.ofNat_toNat]

theorem base64Quanta_encode (bytes : Bytes) :
    base64Quanta (base64EncodeToString bytes) = some bytes := by
  fun_induction base64EncodeToString bytes with
  | case1 => rfl
  | case2 a =>
    have range := a.toNat_lt
    rw [base64Quanta, base64Value_byte _ (by omega), base64Value_byte _ (by omega), Option.bind_some,
      Option.map_some, ofNat_eq_of_toNat]
    omega
  | case3 a b =>
    have range := a.toNat_lt
    have range' := b.toNat_lt
    have ordinary := base64Byte_ne_padding (b.toNat % 16 * 4) (by omega)
    rw [base64Quanta, base64Value_byte _ (by omega), base64Value_byte _ (by omega),
      base64Value_byte _ (by omega), Option.bind_some, Option.bind_some, Option.map_some,
      ofNat_eq_of_toNat, ofNat_eq_of_toNat]
    · omega
    · omega
    · exact ordinary
  | case4 a b c rest ih =>
    have range := a.toNat_lt
    have range' := b.toNat_lt
    have range'' := c.toNat_lt
    rw [base64Quanta_cons (base64Byte_ne_padding _ (by omega)), ih,
      base64Value_byte _ (by omega), base64Value_byte _ (by omega), base64Value_byte _ (by omega),
      base64Value_byte _ (by omega), Option.bind_some, Option.bind_some, Option.bind_some,
      Option.bind_some, Option.map_some, ofNat_eq_of_toNat, ofNat_eq_of_toNat, ofNat_eq_of_toNat]
    all_goals omega

theorem base64EncodeToString_word (bytes : Bytes) :
    ∀ b ∈ base64EncodeToString bytes, WordByte b := by
  have padding : WordByte 61 := by decide
  fun_induction base64EncodeToString bytes with
  | case1 => simp
  | case2 a =>
    have range := a.toNat_lt
    have first := base64Byte_word (a.toNat / 4) (by omega)
    have second := base64Byte_word (a.toNat % 4 * 16) (by omega)
    simp [first, second, padding]
  | case3 a b =>
    have range := a.toNat_lt
    have range' := b.toNat_lt
    have first := base64Byte_word (a.toNat / 4) (by omega)
    have second := base64Byte_word (a.toNat % 4 * 16 + b.toNat / 16) (by omega)
    have third := base64Byte_word (b.toNat % 16 * 4) (by omega)
    simp [first, second, third, padding]
  | case4 a b c rest ih =>
    have range := a.toNat_lt
    have range' := b.toNat_lt
    have range'' := c.toNat_lt
    have first := base64Byte_word (a.toNat / 4) (by omega)
    have second := base64Byte_word (a.toNat % 4 * 16 + b.toNat / 16) (by omega)
    have third := base64Byte_word (b.toNat % 16 * 4 + c.toNat / 64) (by omega)
    have fourth := base64Byte_word (c.toNat % 64) (by omega)
    simp only [List.forall_mem_cons]
    exact ⟨first, second, third, fourth, ih⟩

theorem base64DecodeString_encode (bytes : Bytes) :
    base64DecodeString (base64EncodeToString bytes) = some bytes := by
  have unbroken : ∀ b ∈ base64EncodeToString bytes, (b != 10 && b != 13) = true := by
    intro b member
    have plain := (base64EncodeToString_word bytes b member).plain
    simp only [Bool.and_eq_true, bne_iff_ne]
    refine ⟨fun same => ?_, fun same => ?_⟩
    · exact plain [10] (by decide) (by simp [same])
    · exact plain [13] (by decide) (by simp [same])
  rw [base64DecodeString, List.filter_eq_self.mpr unbroken, base64Quanta_encode]

theorem base64EncodeToString_ne_nil (present : bytes ≠ []) : base64EncodeToString bytes ≠ [] := by
  fun_cases base64EncodeToString bytes with
  | case1 => exact absurd rfl present
  | case2 a => simp
  | case3 a b => simp
  | case4 a b c rest => simp

end N8nSystems.Lib.Go
