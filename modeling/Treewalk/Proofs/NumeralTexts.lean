import Mathlib
import Treewalk.Numeral.Layout

/-!
The text of a number determines the number. The decimals that round to one finite double lie between two ends that belong
to it only where its mantissa is even, and the next double takes over there. The shortest decimal rounds to its double, and
the positional text of a decimal gives its value back, so two doubles with the same text have a decimal in common.
-/

set_option autoImplicit false

namespace Treewalk.Numeral

-- Exact values. The quarter of a double is what the distance to the ends of its interval is counted in.

def Decimal.value (decimal : Decimal) : ℚ := decimal.digits * 10 ^ decimal.exponent

namespace Magnitude

def quarter (size : Magnitude) : ℚ := 2 ^ (size.exponent - 2)

def low (size : Magnitude) : Nat := 4 * size.mantissa - size.stepsDown

def high (size : Magnitude) : Nat := 4 * size.mantissa + 2

theorem quarter_pos (size : Magnitude) : 0 < size.quarter := zpow_pos (by norm_num) _

end Magnitude

theorem zpow_scaled (base : ℚ) (nonzero : base ≠ 0) (exponent : ℤ) :
    base ^ exponent * base ^ (-exponent).toNat = base ^ exponent.toNat := by
  rw [← zpow_natCast, ← zpow_natCast, ← zpow_add₀ nonzero]
  congr 1
  omega

-- The two products that are compared are the exact values in units of one common fraction.
theorem admits_scale (size : Magnitude) (decimal : Decimal) :
    ∃ unit : ℚ, 0 < unit ∧
      decimal.value * unit =
        (decimal.digits * tenPow decimal.exponent.toNat * twoPow (2 - size.exponent).toNat : ℕ) ∧
      size.quarter * unit = (twoPow (size.exponent - 2).toNat * tenPow (-decimal.exponent).toNat : ℕ) := by
  have tens := zpow_scaled 10 (by norm_num) decimal.exponent
  have twos := zpow_scaled 2 (by norm_num) (size.exponent - 2)
  rw [neg_sub] at twos
  refine ⟨10 ^ (-decimal.exponent).toNat * 2 ^ (2 - size.exponent).toNat, by positivity, ?_, ?_⟩
  · simp only [tenPow, twoPow, Nat.pow_eq]
    push_cast
    rw [Decimal.value, ← tens]
    ring
  · simp only [tenPow, twoPow, Nat.pow_eq]
    push_cast
    rw [Magnitude.quarter, ← twos]
    ring

theorem admits_iff (size : Magnitude) (decimal : Decimal) :
    size.admits decimal = true ↔
      if size.mantissa % 2 = 0 then
        size.low * size.quarter ≤ decimal.value ∧ decimal.value ≤ size.high * size.quarter
      else size.low * size.quarter < decimal.value ∧ decimal.value < size.high * size.quarter := by
  obtain ⟨unit, positive, pointed, scaled⟩ := admits_scale size decimal
  unfold Magnitude.admits
  dsimp only
  generalize decimal.digits * tenPow decimal.exponent.toNat * twoPow (2 - size.exponent).toNat = point at pointed ⊢
  generalize twoPow (size.exponent - 2).toNat * tenPow (-decimal.exponent).toNat = scale at scaled ⊢
  have measured (count : ℕ) : count * size.quarter * unit = (count * scale : ℕ) := by
    rw [mul_assoc, scaled, Nat.cast_mul]
  have below (count : ℕ) : count * size.quarter ≤ decimal.value ↔ count * scale ≤ point := by
    rw [← mul_le_mul_iff_of_pos_right positive, measured, pointed, Nat.cast_le]
  have above (count : ℕ) : decimal.value ≤ count * size.quarter ↔ point ≤ count * scale := by
    rw [← mul_le_mul_iff_of_pos_right positive, measured, pointed, Nat.cast_le]
  have inside (count : ℕ) : count * size.quarter < decimal.value ↔ count * scale < point := by
    rw [← not_le, above, not_le]
  have under (count : ℕ) : decimal.value < count * size.quarter ↔ point < count * scale := by
    rw [← not_le, below, not_le]
  split
  · rw [below, above, Bool.and_eq_true, decide_eq_true_eq, decide_eq_true_eq]
    rfl
  · rw [inside, under, Bool.and_eq_true, decide_eq_true_eq, decide_eq_true_eq]
    rfl

-- The sizes that doubles have.
structure Magnitude.Stored (size : Magnitude) : Prop where
  short : size.mantissa < 2 ^ 53
  least : -1074 ≤ size.exponent
  full : 2 ^ 52 ≤ size.mantissa ∨ size.exponent = -1074

-- The number of steps from zero up to a size, which are the bits of the double.
def Magnitude.index (size : Magnitude) : Nat := (size.exponent + 1074).toNat * 2 ^ 52 + size.mantissa

theorem magnitude_stored (x : Float) (size : Magnitude) (found : magnitude x = some size) :
    size.Stored ∧ x.toBits.toNat % 2 ^ 63 = size.index := by
  unfold magnitude at found
  dsimp only at found
  generalize x.toBits.toNat = bits at found ⊢
  split at found
  · cases found
  · split at found
    · cases found
      refine ⟨⟨?_, le_refl _, .inr rfl⟩, ?_⟩ <;>
        simp only [Magnitude.index, twoPow, fractionBits, leastExponent, Nat.pow_eq] at * <;> omega
    · cases found
      refine ⟨⟨?_, ?_, .inl ?_⟩, ?_⟩ <;>
        simp only [Magnitude.index, twoPow, fractionBits, leastExponent, infinityField, Nat.pow_eq] at * <;> omega

-- A decimal that two doubles admit lies at the upper end of the lower one or above the lower end of the other.
theorem admits_between (lower upper : Magnitude) (first second : Decimal) (same : first.value = second.value)
    (ordered : lower.exponent ≤ upper.exponent) (inLower : lower.admits first = true)
    (inUpper : upper.admits second = true) :
    upper.low * 2 ^ (upper.exponent - lower.exponent).toNat ≤ lower.high ∧
      (upper.low * 2 ^ (upper.exponent - lower.exponent).toNat = lower.high →
        lower.mantissa % 2 = 0 ∧ upper.mantissa % 2 = 0) := by
  have quarters : upper.quarter = 2 ^ (upper.exponent - lower.exponent).toNat * lower.quarter := by
    rw [Magnitude.quarter, Magnitude.quarter, ← zpow_natCast, ← zpow_add₀ (by norm_num)]
    congr 1
    omega
  have positive := lower.quarter_pos
  rw [admits_iff] at inLower inUpper
  rw [← same, quarters, ← mul_assoc] at inUpper
  have bounds : upper.low * 2 ^ (upper.exponent - lower.exponent).toNat * lower.quarter ≤ lower.high * lower.quarter ∧
      (upper.low * 2 ^ (upper.exponent - lower.exponent).toNat * lower.quarter = lower.high * lower.quarter →
        lower.mantissa % 2 = 0 ∧ upper.mantissa % 2 = 0) := by
    split at inLower <;> split at inUpper
    · exact ⟨inUpper.1.trans inLower.2, fun _ => ⟨‹_›, ‹_›⟩⟩
    · exact ⟨(inUpper.1.trans_le inLower.2).le, fun equal => absurd equal (inUpper.1.trans_le inLower.2).ne⟩
    · exact ⟨(inUpper.1.trans_lt inLower.2).le, fun equal => absurd equal (inUpper.1.trans_lt inLower.2).ne⟩
    · exact ⟨(inUpper.1.trans inLower.2).le, fun equal => absurd equal (inUpper.1.trans inLower.2).ne⟩
  rw [mul_le_mul_iff_of_pos_right positive, mul_left_inj' positive.ne'] at bounds
  exact_mod_cast bounds

theorem not_admits_both (lower upper : Magnitude) (ofLower : lower.Stored) (ofUpper : upper.Stored)
    (first second : Decimal) (same : first.value = second.value) (inLower : lower.admits first = true)
    (before : lower.exponent < upper.exponent ∨
      lower.exponent = upper.exponent ∧ lower.mantissa < upper.mantissa) : upper.admits second = false := by
  by_contra inUpper
  rw [Bool.not_eq_false] at inUpper
  obtain ⟨reaches, meets⟩ := admits_between lower upper first second same (by omega) inLower inUpper
  have steps : upper.stepsDown = 2 ∨
      upper.stepsDown = 1 ∧ upper.mantissa = 2 ^ 52 := by
    unfold Magnitude.stepsDown
    split
    · exact .inr ⟨rfl, ‹_ ∧ _›.1⟩
    · exact .inl rfl
  have short := ofLower.short
  rcases before with finer | ⟨equal, less⟩
  · -- The upper double is full, and one step of its quarters is two of the others.
    have least := ofLower.least
    have full : 2 ^ 52 ≤ upper.mantissa := ofUpper.full.resolve_right (by omega)
    have twice : 2 ≤ 2 ^ (upper.exponent - lower.exponent).toNat := by
      calc 2 = 2 ^ 1 := rfl
        _ ≤ 2 ^ (upper.exponent - lower.exponent).toNat := Nat.pow_le_pow_right (by decide) (by omega)
    have doubled := Nat.mul_le_mul_left upper.low twice
    have closer : upper.mantissa = 2 ^ 52 → upper.stepsDown = 1 := fun least =>
      if_pos ⟨least, by unfold leastExponent; omega⟩
    generalize upper.low * 2 ^ (upper.exponent - lower.exponent).toNat = reached at reaches meets doubled
    unfold Magnitude.low at doubled
    unfold Magnitude.high at reaches meets
    omega
  · rw [equal, sub_self, Int.toNat_zero, pow_zero, mul_one] at reaches meets
    unfold Magnitude.low Magnitude.high at reaches meets
    omega

theorem admits_unique (size other : Magnitude) (ofSize : size.Stored) (ofOther : other.Stored)
    (first second : Decimal) (same : first.value = second.value) (inSize : size.admits first = true)
    (inOther : other.admits second = true) : size = other := by
  have notBefore := mt (not_admits_both size other ofSize ofOther first second same inSize) (by simp [inOther])
  have notBehind := mt (not_admits_both other size ofOther ofSize second first same.symm inOther) (by simp [inSize])
  obtain ⟨mantissa, exponent⟩ := size
  obtain ⟨mantissa', exponent'⟩ := other
  simp only [Magnitude.mk.injEq] at *
  omega

-- The shortest decimal rounds to its double.

theorem exact_value (size : Magnitude) : size.exact.value = 4 * size.mantissa * size.quarter := by
  have whole : (4 * size.mantissa * size.quarter : ℚ) = size.mantissa * 2 ^ size.exponent := by
    have four : (2 : ℚ) ^ size.exponent = 2 ^ (size.exponent - 2) * 2 ^ (2 : ℤ) := by
      rw [← zpow_add₀ (by norm_num)]
      congr 1
      omega
    rw [Magnitude.quarter, four]
    ring
  rw [whole]
  unfold Magnitude.exact Decimal.value
  split
  · rename_i positive
    have power : (2 : ℚ) ^ size.exponent.toNat = 2 ^ size.exponent := by
      rw [← zpow_natCast, Int.toNat_of_nonneg positive]
    simp only [twoPow, Nat.pow_eq]
    push_cast
    rw [power, mul_one]
  · rename_i negative
    -- The fives make up the tens.
    have fives := zpow_scaled 5 (by norm_num) size.exponent
    have nothing : size.exponent.toNat = 0 := by omega
    rw [nothing, pow_zero] at fives
    have tens : (10 : ℚ) ^ size.exponent = 5 ^ size.exponent * 2 ^ size.exponent := by
      rw [← mul_zpow]
      norm_num
    simp only [Nat.pow_eq]
    push_cast
    calc (size.mantissa : ℚ) * 5 ^ (-size.exponent).toNat * 10 ^ size.exponent
        = size.mantissa * 2 ^ size.exponent * (5 ^ size.exponent * 5 ^ (-size.exponent).toNat) := by rw [tens]; ring
      _ = size.mantissa * 2 ^ size.exponent := by rw [fives, mul_one]

theorem exact_admitted (size : Magnitude) : size.admits size.exact = true := by
  have positive := size.quarter_pos
  rw [admits_iff, exact_value, mul_le_mul_iff_of_pos_right positive, mul_le_mul_iff_of_pos_right positive,
    mul_lt_mul_iff_of_pos_right positive, mul_lt_mul_iff_of_pos_right positive]
  have down : 1 ≤ size.stepsDown := by
    unfold Magnitude.stepsDown
    split <;> decide
  have below : size.low ≤ 4 * size.mantissa := Nat.sub_le _ _
  have above : 4 * size.mantissa < size.high := Nat.lt_add_of_pos_right (by decide)
  split
  · exact_mod_cast And.intro below above.le
  · have inside : size.low < 4 * size.mantissa := by
      unfold Magnitude.low
      omega
    exact_mod_cast And.intro inside above

theorem hit_admitted (size : Magnitude) (place : Int) (decimal : Decimal) (hit : size.hit? place = some decimal) :
    size.admits decimal = true := by
  unfold Magnitude.hit? at hit
  dsimp only at hit
  split at hit
  · cases hit
  · rename_i inBelow _
    cases hit
    exact (Bool.and_eq_true _ _ ▸ inBelow).2
  · rename_i _ inAbove
    cases hit
    exact inAbove
  · rename_i inBelow inAbove
    split at hit <;> cases hit
    · exact inAbove
    · exact (Bool.and_eq_true _ _ ▸ inBelow).2

theorem search_admitted (size : Magnitude) (grids : Nat) : ∀ place : Int, size.admits (size.search grids place) = true := by
  induction grids with
  | zero => exact fun _ => exact_admitted size
  | succ grids ih =>
      intro place
      unfold Magnitude.search
      cases hit : size.hit? place with
      | none => exact ih (place - 1)
      | some decimal => exact hit_admitted size place decimal hit

theorem shortest_admitted (size : Magnitude) : size.admits size.shortest = true := by
  unfold Magnitude.shortest
  split
  · rename_i zero
    simp [Magnitude.admits, zero]
  · exact search_admitted size 24 size.topPlace

-- Positional texts: digits, with a point among them or without one.

inductive Spells : ℚ → List Char → Prop where
  | whole (digits : List Char) (some : digits ≠ []) (all : ∀ char ∈ digits, char.isDigit = true) :
      Spells (natOfDigits digits) digits
  | pointed (digits places : List Char) (some : digits ≠ []) (all : ∀ char ∈ digits ++ places, char.isDigit = true) :
      Spells (natOfDigits (digits ++ places) * 10 ^ (-(places.length : ℤ))) (digits ++ '.' :: places)

def valueOfText (text : List Char) : ℚ :=
  natOfDigits (text.filter (· ≠ '.')) * 10 ^ (-((text.dropWhile (· ≠ '.')).tail.length : ℤ))

theorem digit_not_point (char : Char) (digit : char.isDigit = true) : decide (char ≠ '.') = true := by
  rw [decide_eq_true_eq]
  rintro rfl
  cases digit

theorem spells_value (value : ℚ) (text : List Char) (spells : Spells value text) : valueOfText text = value := by
  cases spells with
  | whole _ _ all =>
      have unpointed : ∀ char ∈ text, decide (char ≠ '.') = true := fun char inside =>
        digit_not_point char (all char inside)
      rw [valueOfText, List.filter_eq_self.mpr unpointed, List.dropWhile_eq_nil_iff.mpr unpointed]
      simp
  | pointed digits places _ all =>
      have unpointed (char : Char) (inside : char ∈ digits ++ places) : decide (char ≠ '.') = true :=
        digit_not_point char (all char inside)
      have before : ∀ char ∈ digits, decide (char ≠ '.') = true := fun char inside =>
        unpointed char (List.mem_append_left places inside)
      have behind : ∀ char ∈ places, decide (char ≠ '.') = true := fun char inside =>
        unpointed char (List.mem_append_right digits inside)
      have rest : (digits ++ '.' :: places).dropWhile (· ≠ '.') = '.' :: places := by
        rw [List.dropWhile_append_of_pos before]
        rfl
      have kept : (digits ++ '.' :: places).filter (· ≠ '.') = digits ++ places := by
        rw [List.filter_append, List.filter_cons_of_neg (by decide), List.filter_eq_self.mpr before,
          List.filter_eq_self.mpr behind]
      rw [valueOfText, rest, kept, List.tail_cons]

theorem natOfDigits_digitsOf (value : Nat) : natOfDigits (digitsOf value) = value := Nat.ofDigitChars_ten_toDigits

theorem natOfDigits_append (left right : List Char) :
    natOfDigits (left ++ right) = 10 ^ right.length * natOfDigits left + natOfDigits right :=
  (Nat.ofDigitChars_append 0).trans Nat.ofDigitChars_eq_ofDigitChars_zero

theorem natOfDigits_zeros (count : Nat) : natOfDigits (zeros count) = 0 := Nat.ofDigitChars_replicate_zero

theorem zeros_isDigit (count : Nat) : ∀ char ∈ zeros count, char.isDigit = true := by
  intro char inside
  rw [List.eq_of_mem_replicate inside]
  decide

theorem positional_spells (decimal : Decimal) : Spells decimal.value decimal.positional := by
  have shown : ∀ char ∈ digitsOf decimal.digits, char.isDigit = true := fun _ inside =>
    Nat.isDigit_of_mem_toDigits (by decide) (by decide) inside
  have some : digitsOf decimal.digits ≠ [] := Nat.toDigits_ne_nil
  have number := natOfDigits_digitsOf decimal.digits
  unfold Decimal.positional
  dsimp only
  generalize digitsOf decimal.digits = digits at shown some number ⊢
  split
  · rename_i positive
    have spells := Spells.whole (digits ++ zeros decimal.exponent.toNat) (by simp [some])
      (List.forall_mem_append.mpr ⟨shown, zeros_isDigit _⟩)
    have value : (natOfDigits (digits ++ zeros decimal.exponent.toNat) : ℚ) = decimal.value := by
      have power : (10 : ℚ) ^ decimal.exponent.toNat = 10 ^ decimal.exponent := by
        rw [← zpow_natCast, Int.toNat_of_nonneg positive]
      rw [natOfDigits_append, natOfDigits_zeros, number, zeros, List.length_replicate]
      push_cast
      rw [power, add_zero, mul_comm]
      rfl
    rwa [value] at spells
  · rename_i negative
    have exponent : -((-decimal.exponent).toNat : ℤ) = decimal.exponent := by omega
    split
    · rename_i inside
      -- The point stands between two of the digits.
      generalize places : (-decimal.exponent).toNat = count at inside exponent ⊢
      have joined := List.take_append_drop (digits.length - count) digits
      have length : (digits.drop (digits.length - count)).length = count := by
        rw [List.length_drop]
        omega
      have spells := Spells.pointed (digits.take (digits.length - count)) (digits.drop (digits.length - count))
        (by simp [some]; omega) (by rwa [joined])
      rw [joined, number, length, exponent] at spells
      exact spells
    · rename_i outside
      -- Zeros fill up the places before the first digit.
      generalize places : (-decimal.exponent).toNat = count at outside exponent ⊢
      have length : (zeros (count - digits.length) ++ digits).length = count := by
        rw [List.length_append, zeros, List.length_replicate]
        omega
      have filled : natOfDigits (['0'] ++ (zeros (count - digits.length) ++ digits)) = decimal.digits := by
        rw [natOfDigits_append, natOfDigits_append, natOfDigits_zeros, number]
        simp [natOfDigits, digitValue]
      have spells := Spells.pointed ['0'] (zeros (count - digits.length) ++ digits) (by simp)
        (List.forall_mem_append.mpr ⟨zeros_isDigit 1, List.forall_mem_append.mpr ⟨zeros_isDigit _, shown⟩⟩)
      rw [filled, length, exponent] at spells
      exact spells

theorem spells_chars (value : ℚ) (text : List Char) (spells : Spells value text) :
    (∀ char ∈ text, char.isDigit = true ∨ char = '.') ∧ ∃ first rest, text = first :: rest ∧ first.isDigit = true := by
  cases spells with
  | whole _ some all =>
      obtain ⟨first, rest, rfl⟩ := List.exists_cons_of_ne_nil some
      exact ⟨fun char inside => .inl (all char inside), first, rest, rfl, all first List.mem_cons_self⟩
  | pointed digits places some all =>
      obtain ⟨first, rest, rfl⟩ := List.exists_cons_of_ne_nil some
      refine ⟨?_, first, rest ++ '.' :: places, rfl, all first List.mem_cons_self⟩
      intro char inside
      rcases List.mem_append.mp inside with before | behind
      · exact .inl (all char (List.mem_append_left places before))
      · rcases List.mem_cons.mp behind with point | after
        · exact .inr point
        · exact .inl (all char (List.mem_append_right _ after))

-- The bits of a double: which ones are finite, and the sign of what is written in a text.

section bits

open Float.Model Float.Model.UnpackedFloat

theorem unpackExponent_toNat (bits : BitVec Format.binary64.numBits) :
    (unpackExponent bits).toNat = bits.toNat / 2 ^ 52 % 2048 := by
  simp [unpackExponent, BitVec.extractLsb, Nat.shiftRight_eq_div_pow]

theorem unpack_infinite (bits : BitVec Format.binary64.numBits) (full : bits.toNat / 2 ^ 52 % 2048 = 2047) :
    (unpack Format.binary64 bits).isFinite = false := by
  have exponent : unpackExponent bits = -1#_ := by
    apply BitVec.eq_of_toNat_eq
    rw [unpackExponent_toNat, full]
    rfl
  unfold UnpackedFloat.unpack
  dsimp only
  rw [if_pos exponent]
  split <;> rfl

theorem finite_magnitude (x : Float) (finite : x.isFinite = true) : ∃ size, magnitude x = some size := by
  unfold magnitude
  dsimp only
  split
  · rename_i full
    have infinite := unpack_infinite x.toBits.toBitVec full
    change (unpack Format.binary64 x.toBits.toBitVec).isFinite = true at finite
    rw [infinite] at finite
    cases finite
  · split <;> exact ⟨_, rfl⟩

theorem unpackSign_positive (bits : BitVec Format.binary64.numBits) (low : bits.toNat < 2 ^ 63) :
    Sign.ofBitVec (unpackSign bits) = .positive := by
  have sign : unpackSign bits = 0#1 := by
    apply BitVec.eq_of_toNat_eq
    simp [unpackSign, BitVec.extractLsb, Nat.shiftRight_eq_div_pow]
    omega
  rw [sign]
  rfl

theorem append_low (exponent : BitVec 11) (mantissa : BitVec 52) : (0#1 ++ exponent ++ mantissa).toNat < 2 ^ 63 := by
  have first : (0#1 ++ exponent ++ mantissa).msb = false := by
    rw [BitVec.msb_append, BitVec.msb_append]
    rfl
  have half := BitVec.msb_eq_false_iff_two_mul_lt.mp first
  omega

theorem pack_finite_low (mantissa : Nat) (exponent : Int) (some : 0 < mantissa) :
    (UnpackedFloat.pack Format.binary64 (.finite .positive mantissa exponent some)).toNat < 2 ^ 63 := by
  unfold UnpackedFloat.pack
  dsimp only
  split
  · exact append_low _ _
  · split <;> exact append_low _ _

theorem pack_low (bits : BitVec Format.binary64.numBits) (low : bits.toNat < 2 ^ 63) :
    (UnpackedFloat.pack Format.binary64 (UnpackedFloat.unpack Format.binary64 bits)).toNat < 2 ^ 63 := by
  unfold UnpackedFloat.unpack
  dsimp only
  rw [unpackSign_positive bits low]
  split
  · split <;> exact append_low _ _
  · split
    · split
      · exact append_low _ _
      · exact pack_finite_low _ _ _
    · exact pack_finite_low _ _ _

theorem ofBits_positive (bits : UInt64) (low : bits.toNat < 2 ^ 63) : isNegative (Float.ofBits bits) = false := by
  unfold isNegative
  rw [decide_eq_false_iff_not, Nat.not_le]
  exact pack_low bits.toBitVec low

theorem nearestBits_low (decimal : Decimal) : nearestBits decimal < 2 ^ 63 := by
  have bound : infinityBits < 2 ^ 63 := by decide
  unfold nearestBits
  dsimp only
  split
  · decide
  · split
    · exact bound
    · exact Nat.lt_of_le_of_lt (Nat.min_le_left _ _) bound

theorem ofParts_positive (whole places : List Char) (exponent : Int) :
    isNegative (ofParts whole places exponent) = false := by
  apply ofBits_positive
  have low := nearestBits_low ⟨natOfDigits (whole ++ places), exponent - places.length⟩
  rw [Nat.toUInt64, UInt64.toNat_ofNat']
  omega

end bits

-- Finite doubles that are not below zero.
structure Natural (x : Float) : Prop where
  finite : x.isFinite = true
  positive : isNegative x = false

theorem plain_spells (x : Float) (natural : Natural x) :
    ∃ size : Magnitude, magnitude x = some size ∧ (plain x).toList = size.shortest.positional := by
  obtain ⟨size, found⟩ := finite_magnitude x natural.finite
  refine ⟨size, found, ?_⟩
  simp only [plain, render, found, signed, natural.positive, Bool.false_eq_true, if_false, String.toList_ofList]

theorem plain_chars (x : Float) (natural : Natural x) :
    (∀ char ∈ (plain x).toList, char.isDigit = true ∨ char = '.') ∧
      ∃ first rest, (plain x).toList = first :: rest ∧ first.isDigit = true := by
  obtain ⟨size, -, text⟩ := plain_spells x natural
  rw [text]
  exact spells_chars _ _ (positional_spells size.shortest)

theorem plain_unique (x y : Float) (ofX : Natural x) (ofY : Natural y) (same : plain x = plain y) : x = y := by
  obtain ⟨size, found, text⟩ := plain_spells x ofX
  obtain ⟨other, found', text'⟩ := plain_spells y ofY
  obtain ⟨stored, bits⟩ := magnitude_stored x size found
  obtain ⟨stored', bits'⟩ := magnitude_stored y other found'
  have values : size.shortest.value = other.shortest.value := by
    rw [← spells_value _ _ (positional_spells size.shortest), ← text, same, text',
      spells_value _ _ (positional_spells other.shortest)]
  have sizes : size = other := admits_unique size other stored stored' _ _ values (shortest_admitted size)
    (shortest_admitted other)
  have below (z : Float) (natural : Natural z) : z.toBits.toNat < 2 ^ 63 := by
    have positive := natural.positive
    unfold isNegative at positive
    exact Nat.lt_of_not_le (of_decide_eq_false positive)
  rw [Nat.mod_eq_of_lt (below x ofX)] at bits
  rw [Nat.mod_eq_of_lt (below y ofY), ← sizes] at bits'
  exact Float.toBits_inj.mp (UInt64.toNat_inj.mp (bits.trans bits'.symm))

end Treewalk.Numeral
