import Mathlib.Tactic.FieldSimp
import Mathlib.Tactic.Linarith
import Mathlib.Tactic.Ring
import MaterialShader.Proofs.Numeric.Order

/-!
Rounding to nearest.
-/

namespace MaterialShader.Numeric

structure NearestEven (q : ℚ) (n : Nat) : Prop where
  near : |q - n| ≤ 1 / 2
  tie : |q - n| = 1 / 2 → n % 2 = 0

namespace NearestEven

variable {p q : ℚ} {m n : Nat}

theorem lower (nearest : NearestEven q n) : (n : ℚ) - 1 / 2 ≤ q := by
  have := (abs_le.1 nearest.near).1
  linarith

theorem upper (nearest : NearestEven q n) : q ≤ n + 1 / 2 := by
  have := (abs_le.1 nearest.near).2
  linarith

theorem mono (first : NearestEven p m) (second : NearestEven q n) (le : p ≤ q) : m ≤ n := by
  by_contra above
  have step : (n : ℚ) + 1 ≤ m := by exact_mod_cast not_le.1 above
  have low := first.lower
  have high := second.upper
  -- Both numbers are the tie between `n` and `m`, which cannot both be even.
  have even_m : m % 2 = 0 := first.tie (by rw [abs_eq (by norm_num)]; right; linarith)
  have even_n : n % 2 = 0 := second.tie (by rw [abs_eq (by norm_num)]; left; linarith)
  have next : m = n + 1 := by
    have : (m : ℚ) = n + 1 := by linarith
    exact_mod_cast this
  omega

theorem unique (first : NearestEven q m) (second : NearestEven q n) : m = n :=
  (first.mono second le_rfl).antisymm (second.mono first le_rfl)

theorem natCast (n : Nat) : NearestEven n n := by
  constructor <;> norm_num

theorem even_le_iff (nearest : NearestEven q n) (even : m % 2 = 0) :
    m ≤ n ↔ (m : ℚ) - 1 / 2 ≤ q := by
  constructor
  · intro le
    have cast : (m : ℚ) ≤ n := by exact_mod_cast le
    have := nearest.lower
    linarith
  · intro above
    by_contra below
    have step : (n : ℚ) + 1 ≤ m := by exact_mod_cast not_le.1 below
    have high := nearest.upper
    have odd : n % 2 = 0 := nearest.tie (by rw [abs_eq (by norm_num)]; left; linarith)
    have next : m = n + 1 := by
      have : (m : ℚ) = n + 1 := by linarith
      exact_mod_cast this
    omega

end NearestEven

theorem roundDiv_nearest (num : Nat) {den : Nat} (positive : 0 < den) :
    NearestEven (num / den) (roundDiv num den) := by
  have unit : (0 : ℚ) < den := by exact_mod_cast positive
  have parts : (num : ℚ) / den = (num / den : Nat) + (num % den : Nat) / den := by
    have whole : ((den * (num / den) + num % den : Nat) : ℚ) = num := by
      exact_mod_cast Nat.div_add_mod num den
    rw [← whole]
    push_cast
    field_simp
  have small : num % den < den := Nat.mod_lt num positive
  unfold roundDiv
  dsimp only
  rw [parts]
  generalize num % den = r at *
  generalize num / den = k at *
  have inside : (0 : ℚ) ≤ r / den := by positivity
  split_ifs with less more even
  · have half : (r : ℚ) / den < 1 / 2 := by
      rw [div_lt_div_iff₀ unit two_pos]
      exact_mod_cast (by omega : r * 2 < 1 * den)
    rw [← abs_of_nonneg inside] at half
    exact ⟨by simpa using half.le, fun tie => absurd tie (by simpa using half.ne)⟩
  · have half : 1 / 2 < (r : ℚ) / den := by
      rw [div_lt_div_iff₀ two_pos unit]
      exact_mod_cast (by omega : 1 * den < r * 2)
    have whole : (r : ℚ) / den < 1 := (div_lt_one unit).2 (by exact_mod_cast small)
    have distance : |(k : ℚ) + r / den - (k + 1 : Nat)| < 1 / 2 := by
      rw [abs_lt]
      push_cast
      constructor <;> linarith
    exact ⟨distance.le, fun tie => absurd tie distance.ne⟩
  all_goals
    have half : (r : ℚ) / den = 1 / 2 := by
      rw [div_eq_div_iff unit.ne' two_ne_zero]
      exact_mod_cast (by omega : r * 2 = 1 * den)
    rw [half]
  · exact ⟨by norm_num, fun _ => even⟩
  · refine ⟨?_, fun _ => by omega⟩
    rw [abs_le]
    push_cast
    constructor <;> linarith

theorem roundScaled_nearest (num : Nat) {den : Nat} (positive : 0 < den) (e : Int) :
    NearestEven (num / den * 2 ^ e) (roundScaled num den e) := by
  cases e with
  | ofNat k =>
    have scaled := roundDiv_nearest (num * 2 ^ k) positive
    push_cast at scaled
    rwa [mul_div_right_comm] at scaled
  | negSucc k =>
    have scaled := roundDiv_nearest num (Nat.mul_pos positive (Nat.two_pow_pos (k + 1)))
    push_cast at scaled
    rwa [← div_div, div_eq_mul_inv _ ((2 : ℚ) ^ (k + 1)), ← zpow_negSucc] at scaled

theorem log2_quotient_bounds {num den : Nat} (above : 0 < num) (positive : 0 < den) :
    (2 : ℚ) ^ ((num.log2 : Int) - den.log2 - 1) ≤ num / den ∧
      (num : ℚ) / den < 2 ^ ((num.log2 : Int) - den.log2 + 1) := by
  have unit : (0 : ℚ) < den := by exact_mod_cast positive
  have low_num : (2 : ℚ) ^ (num.log2 : Int) ≤ num := by
    exact_mod_cast Nat.log2_self_le above.ne'
  have high_num : (num : ℚ) < 2 ^ ((num.log2 : Int) + 1) := by
    exact_mod_cast Nat.lt_log2_self (n := num)
  have low_den : (2 : ℚ) ^ (den.log2 : Int) ≤ den := by
    exact_mod_cast Nat.log2_self_le positive.ne'
  have high_den : (den : ℚ) < 2 ^ ((den.log2 : Int) + 1) := by
    exact_mod_cast Nat.lt_log2_self (n := den)
  generalize (num.log2 : Int) = a at *
  generalize (den.log2 : Int) = b at *
  constructor
  · rw [le_div_iff₀ unit]
    calc (2 : ℚ) ^ (a - b - 1) * den
        ≤ 2 ^ (a - b - 1) * 2 ^ (b + 1) := by gcongr
      _ = 2 ^ a := by rw [← zpow_add₀ two_ne_zero]; congr 1; omega
      _ ≤ num := low_num
  · rw [div_lt_iff₀ unit]
    calc (num : ℚ) < 2 ^ (a + 1) := high_num
      _ = 2 ^ (a - b + 1) * 2 ^ b := by rw [← zpow_add₀ two_ne_zero]; congr 1; omega
      _ ≤ 2 ^ (a - b + 1) * den := by gcongr

theorem binaryExponent_bounds {num den : Nat} (above : 0 < num) (positive : 0 < den) :
    (2 : ℚ) ^ binaryExponent num den ≤ num / den ∧
      (num : ℚ) / den < 2 ^ (binaryExponent num den + 1) := by
  have unit : (0 : ℚ) < den := by exact_mod_cast positive
  obtain ⟨low, high⟩ := log2_quotient_bounds above positive
  unfold binaryExponent
  generalize (num.log2 : Int) - den.log2 = guess at *
  have chosen (reached : Bool) (exact_ : reached ↔ (2 : ℚ) ^ guess ≤ num / den) :
      (2 : ℚ) ^ (if reached then guess else guess - 1) ≤ num / den ∧
        (num : ℚ) / den < 2 ^ ((if reached then guess else guess - 1) + 1) := by
    cases reached with
    | true => exact ⟨exact_.1 rfl, high⟩
    | false =>
      refine ⟨low, ?_⟩
      rw [if_neg Bool.false_ne_true, sub_add_cancel]
      exact not_le.1 fun reached => Bool.false_ne_true (exact_.2 reached)
  apply chosen
  cases guess with
  | ofNat k =>
    rw [decide_eq_true_iff, le_div_iff₀ unit, Int.ofNat_eq_natCast, zpow_natCast, mul_comm]
    exact_mod_cast Iff.rfl
  | negSucc k =>
    rw [decide_eq_true_iff, zpow_negSucc, inv_le_iff_one_le_mul₀ (by positivity),
      div_mul_eq_mul_div, one_le_div₀ unit]
    exact_mod_cast Iff.rfl

variable (negative : Bool)

variable {den code : Nat}

namespace Format

variable (f : Format)

def maxExponent : Int := f.minExponent + (2 ^ f.exponentBits - 3 : Nat)

def overflow : ℚ := (2 ^ (f.fractionBits + 1) - 1 / 2) * 2 ^ f.maxExponent

theorem infinityCode_pos (wide : 2 ≤ f.exponentBits) : 0 < f.infinityCode := by
  have four : 2 ^ 2 ≤ 2 ^ f.exponentBits := Nat.pow_le_pow_right two_pos wide
  exact Nat.mul_pos (by omega) (Nat.two_pow_pos _)

theorem overflow_pos : 0 < f.overflow := by
  have places : (1 : ℚ) ≤ 2 ^ (f.fractionBits + 1) := one_le_pow₀ one_le_two
  have top : (0 : ℚ) < 2 ^ f.maxExponent := by positivity
  exact mul_pos (by linarith) top

theorem overflow_lt : f.overflow < 2 ^ (f.maxExponent + f.fractionBits + 1) := by
  have top : (0 : ℚ) < 2 ^ f.maxExponent := by positivity
  calc f.overflow < 2 ^ (f.fractionBits + 1) * 2 ^ f.maxExponent := by
        unfold overflow
        gcongr
        linarith
    _ = 2 ^ (f.maxExponent + f.fractionBits + 1) := by
        rw [← zpow_natCast, ← zpow_add₀ two_ne_zero]
        congr 1
        push_cast
        ring

theorem lt_overflow : (2 : ℚ) ^ (f.maxExponent + f.fractionBits) < f.overflow := by
  have top : (0 : ℚ) < 2 ^ f.maxExponent := by positivity
  have place : (1 : ℚ) ≤ 2 ^ f.fractionBits := one_le_pow₀ one_le_two
  calc (2 : ℚ) ^ (f.maxExponent + f.fractionBits) = 2 ^ f.fractionBits * 2 ^ f.maxExponent := by
        rw [← zpow_natCast, ← zpow_add₀ two_ne_zero, add_comm]
    _ < f.overflow := by
        unfold overflow
        gcongr
        rw [pow_succ]
        linarith

def place (num den : Nat) : Nat :=
  let e := max f.minExponent (binaryExponent num den - (f.fractionBits : Int))
  (e - f.minExponent).toNat * 2 ^ f.fractionBits + roundScaled num den (-e)

theorem place_lt_iff (wide : 2 ≤ f.exponentBits) {num : Nat} (above : 0 < num) (positive : 0 < den) :
    f.place num den < f.infinityCode ↔ (num : ℚ) / den < f.overflow := by
  obtain ⟨low, high⟩ := binaryExponent_bounds above positive
  have top : 4 ≤ 2 ^ f.exponentBits := Nat.pow_le_pow_right two_pos wide
  have unit : 0 < 2 ^ f.fractionBits := Nat.two_pow_pos _
  have largest : f.maxExponent = f.minExponent + (2 ^ f.exponentBits - 3 : Nat) := rfl
  unfold place infinityCode
  dsimp only
  generalize exponent : max f.minExponent (binaryExponent num den - (f.fractionBits : Int)) = e
  generalize binaryExponent num den = k at *
  have nearest := roundScaled_nearest num positive (-e)
  generalize roundScaled num den (-e) = r at *
  generalize difference : (e - f.minExponent).toNat = d
  have bounded : r ≤ 2 * 2 ^ f.fractionBits := by
    rw [← pow_succ']
    refine nearest.mono (.natCast _) ?_
    calc (num : ℚ) / den * 2 ^ (-e) ≤ 2 ^ (k + 1) * 2 ^ (-e) := by gcongr
      _ = 2 ^ (k + 1 - e) := by rw [← zpow_add₀ two_ne_zero, sub_eq_add_neg]
      _ ≤ 2 ^ ((f.fractionBits + 1 : Nat) : Int) := zpow_le_zpow_right₀ one_le_two (by omega)
      _ = (2 ^ (f.fractionBits + 1) : Nat) := by rw [zpow_natCast]; norm_cast
  -- Below the last exponent nothing overflows, above it everything does, and at it the rounded
  -- significand decides.
  obtain less | equal | more := lt_trichotomy e f.maxExponent
  · have code : d * 2 ^ f.fractionBits + r < (2 ^ f.exponentBits - 1) * 2 ^ f.fractionBits :=
      calc d * 2 ^ f.fractionBits + r ≤ (d + 2) * 2 ^ f.fractionBits := by rw [add_mul]; omega
        _ < (2 ^ f.exponentBits - 1) * 2 ^ f.fractionBits :=
          Nat.mul_lt_mul_of_pos_right (by omega) unit
    have number : (num : ℚ) / den < f.overflow :=
      calc (num : ℚ) / den < 2 ^ (k + 1) := high
        _ ≤ 2 ^ (f.maxExponent + f.fractionBits) := zpow_le_zpow_right₀ one_le_two (by omega)
        _ < f.overflow := f.lt_overflow
    exact iff_of_true code number
  · have code : d * 2 ^ f.fractionBits + r < (2 ^ f.exponentBits - 1) * 2 ^ f.fractionBits ↔
        ¬ 2 ^ (f.fractionBits + 1) ≤ r := by
      rw [show 2 ^ f.exponentBits - 1 = d + 2 by omega, add_mul, pow_succ']
      omega
    have even : 2 ^ (f.fractionBits + 1) % 2 = 0 := by rw [pow_succ']; exact Nat.mul_mod_right _ _
    rw [code, nearest.even_le_iff even, not_le, overflow, ← equal, zpow_neg,
      ← div_eq_mul_inv, div_lt_iff₀ (by positivity)]
    push_cast
    rfl
  · have reached : 2 ^ f.fractionBits ≤ r := by
      refine NearestEven.mono (.natCast _) nearest ?_
      calc ((2 ^ f.fractionBits : Nat) : ℚ) = 2 ^ k * 2 ^ (-e) := by
            have sum : k + -e = (f.fractionBits : Int) := by omega
            rw [← zpow_add₀ two_ne_zero, sum, zpow_natCast]
            norm_cast
        _ ≤ num / den * 2 ^ (-e) := by gcongr
    have code : (2 ^ f.exponentBits - 1) * 2 ^ f.fractionBits ≤ d * 2 ^ f.fractionBits + r :=
      calc (2 ^ f.exponentBits - 1) * 2 ^ f.fractionBits ≤ (d + 1) * 2 ^ f.fractionBits :=
            Nat.mul_le_mul_right _ (by omega)
        _ ≤ d * 2 ^ f.fractionBits + r := by rw [add_mul]; omega
    have number : f.overflow ≤ (num : ℚ) / den :=
      calc f.overflow ≤ 2 ^ (f.maxExponent + f.fractionBits + 1) := f.overflow_lt.le
        _ ≤ 2 ^ k := zpow_le_zpow_right₀ one_le_two (by omega)
        _ ≤ num / den := low
    exact iff_of_false (not_lt.2 code) (not_lt.2 number)

theorem magnitude_eq {num : Nat} (above : 0 < num) (den : Nat) :
    f.magnitude num den = min f.infinityCode (f.place num den) := if_neg above.ne'

theorem magnitude_lt_iff (wide : 2 ≤ f.exponentBits) (num : Nat) (positive : 0 < den) :
    f.magnitude num den < f.infinityCode ↔ (num : ℚ) / den < f.overflow := by
  obtain rfl | above := Nat.eq_zero_or_pos num
  · rw [Nat.cast_zero, zero_div]
    exact iff_of_true (f.infinityCode_pos wide) f.overflow_pos
  · rw [f.magnitude_eq above, ← f.place_lt_iff wide above positive]
    omega

theorem magnitude_le (num den : Nat) : f.magnitude num den ≤ f.infinityCode := by
  obtain rfl | above := Nat.eq_zero_or_pos num
  · exact Nat.zero_le _
  · rw [f.magnitude_eq above]
    exact min_le_left _ _

def signed (negative : Bool) (code : Nat) : Nat := (if negative then f.signCode else 0) + code

theorem infinityCode_lt : f.infinityCode < f.signCode := by
  have unit : 0 < 2 ^ f.fractionBits := Nat.two_pow_pos _
  have top : 0 < 2 ^ f.exponentBits := Nat.two_pow_pos _
  rw [signCode, pow_add]
  exact Nat.mul_lt_mul_of_pos_right (by omega) unit

theorem signCode_le_signed {negative : Bool} (below : code ≤ f.infinityCode) :
    decide (f.signCode ≤ f.signed negative code) = negative := by
  have apart := f.infinityCode_lt
  cases negative with
  | false => simpa [signed] using by omega
  | true => simp [signed]

theorem field_signed (code : Nat) :
    f.signed negative code / 2 ^ f.fractionBits % 2 ^ f.exponentBits =
      code / 2 ^ f.fractionBits % 2 ^ f.exponentBits := by
  cases negative with
  | false => simp [signed]
  | true =>
    rw [signed, if_pos rfl, signCode, pow_add, mul_comm, Nat.mul_add_div (Nat.two_pow_pos _),
      Nat.add_mod_left]

theorem fraction_signed (code : Nat) :
    f.signed negative code % 2 ^ f.fractionBits = code % 2 ^ f.fractionBits := by
  cases negative with
  | false => simp [signed]
  | true => simp [signed, signCode, pow_add]

theorem read_infinity : f.read (f.signed negative f.infinityCode) = .infinite negative := by
  have top : 0 < 2 ^ f.exponentBits := Nat.two_pow_pos _
  have field :
      f.infinityCode / 2 ^ f.fractionBits % 2 ^ f.exponentBits = 2 ^ f.exponentBits - 1 := by
    rw [infinityCode, Nat.mul_div_cancel _ (Nat.two_pow_pos _), Nat.mod_eq_of_lt (by omega)]
  have fraction : f.infinityCode % 2 ^ f.fractionBits = 0 := Nat.mul_mod_left _ _
  unfold read
  rw [f.field_signed, f.fraction_signed, if_pos field, if_pos fraction,
    f.signCode_le_signed le_rfl]

theorem read_below (below : code < f.infinityCode) :
    ∃ m e, f.read (f.signed negative code) = .finite negative m e := by
  have top : 0 < 2 ^ f.exponentBits := Nat.two_pow_pos _
  have field : code / 2 ^ f.fractionBits < 2 ^ f.exponentBits - 1 :=
    (Nat.div_lt_iff_lt_mul (Nat.two_pow_pos _)).2 below
  unfold read
  dsimp only
  rw [f.field_signed, f.fraction_signed, f.signCode_le_signed below.le,
    Nat.mod_eq_of_lt (by omega), if_neg (by omega)]
  split_ifs
  · exact ⟨_, _, rfl⟩
  · exact ⟨_, _, rfl⟩

theorem read_round (wide : 2 ≤ f.exponentBits) (negative : Bool) (num : Nat) (positive : 0 < den) :
    (num : ℚ) / den < f.overflow ∧
        (∃ m e, f.read (f.round negative num den) = .finite negative m e) ∨
      f.overflow ≤ num / den ∧ f.read (f.round negative num den) = .infinite negative := by
  obtain below | above := lt_or_ge ((num : ℚ) / den) f.overflow
  · exact .inl ⟨below, f.read_below negative ((f.magnitude_lt_iff wide num positive).2 below)⟩
  · have code : f.magnitude num den = f.infinityCode :=
      le_antisymm (f.magnitude_le num den)
        (not_lt.1 fun less => not_lt.2 above ((f.magnitude_lt_iff wide num positive).1 less))
    refine .inr ⟨above, ?_⟩
    rw [round, code]
    exact f.read_infinity negative

theorem read_finite (wide : 2 ≤ f.exponentBits) {m : Nat} {negative : Bool} {e : Int}
    (finite : f.read code = .finite negative m e) :
    m < 2 ^ (f.fractionBits + 1) ∧ f.minExponent ≤ e ∧ e ≤ f.maxExponent := by
  have top : 4 ≤ 2 ^ f.exponentBits := Nat.pow_le_pow_right two_pos wide
  have fraction : code % 2 ^ f.fractionBits < 2 ^ f.fractionBits :=
    Nat.mod_lt _ (Nat.two_pow_pos _)
  have field : code / 2 ^ f.fractionBits % 2 ^ f.exponentBits < 2 ^ f.exponentBits :=
    Nat.mod_lt _ (Nat.two_pow_pos _)
  have largest : f.maxExponent = f.minExponent + (2 ^ f.exponentBits - 3 : Nat) := rfl
  unfold read at finite
  dsimp only at finite
  split_ifs at finite <;> obtain ⟨-, rfl, rfl⟩ := Reading.finite.inj finite
  · exact ⟨by omega, le_rfl, by omega⟩
  · exact ⟨by omega, by omega, by omega⟩

theorem round_lt (num den : Nat) : f.round negative num den < 2 * f.signCode := by
  have code := f.magnitude_le num den
  have apart := f.infinityCode_lt
  unfold round
  split_ifs <;> omega

end Format

def singleLimit : ℚ := 2 ^ 128 - 2 ^ 103

theorem overflow_single : singleFormat.overflow = singleLimit := by
  have top : singleFormat.maxExponent = 104 := by decide
  rw [Format.overflow, top, singleLimit]
  norm_num [singleFormat]

namespace Single

theorem reading_ofCode (small : code < 2 ^ 32) :
    (ofCode code).reading = singleFormat.read code := by
  rw [reading, ofCode, Nat.toUInt32_eq, UInt32.toNat_ofNat_of_lt' small]

theorem reading_round (num : Nat) (positive : 0 < den) :
    (num : ℚ) / den < singleLimit ∧
        (∃ m e, (ofCode (singleFormat.round negative num den)).reading = .finite negative m e) ∨
      singleLimit ≤ num / den ∧
        (ofCode (singleFormat.round negative num den)).reading = .infinite negative := by
  have small : singleFormat.round negative num den < 2 ^ 32 :=
    lt_of_lt_of_eq (singleFormat.round_lt negative num den) (by decide)
  rw [reading_ofCode small, ← overflow_single]
  exact singleFormat.read_round (by decide) negative num positive

theorem isFinite_round (num : Nat) (positive : 0 < den) :
    (ofCode (singleFormat.round negative num den)).isFinite ↔
      (num : ℚ) / den < singleLimit := by
  unfold isFinite
  obtain ⟨below, m, e, word⟩ | ⟨above, word⟩ := reading_round negative num positive
  · rw [word]
    exact iff_of_true rfl below
  · rw [word]
    exact iff_of_false Bool.false_ne_true (not_lt.2 above)

theorem roundDyadic_eq (f : Format) (negative : Bool) (m : Nat) (e : Int) :
    f.roundDyadic negative m e =
      f.round negative (dyadicFraction m e).1 (dyadicFraction m e).2 := by
  cases e <;> rfl

theorem reading_ofReading (m : Nat) (e : Int) :
    (m : ℚ) * 2 ^ e < singleLimit ∧
        (∃ m' e', (ofReading (.finite negative m e)).reading = .finite negative m' e') ∨
      singleLimit ≤ (m : ℚ) * 2 ^ e ∧
        (ofReading (.finite negative m e)).reading = .infinite negative := by
  rw [ofReading, Format.ofReading, roundDyadic_eq, ← dyadicFraction_eq]
  exact reading_round negative _ (dyadicFraction_pos m e)

theorem isFinite_ofReading {r : Reading} {q : ℚ} (number : r.rational? = some q) :
    (ofReading r).isFinite ↔ |q| < singleLimit := by
  obtain ⟨negative, m, e, rfl, rfl⟩ := Reading.rational?_eq_some.1 number
  rw [ofReading, Format.ofReading, roundDyadic_eq, isFinite_round _ _ (dyadicFraction_pos m e),
    dyadicFraction_eq, abs_signedDyadic]

theorem isFinite_ofInt (n : Int) : (ofInt n).isFinite ↔ |(n : ℚ)| < singleLimit := by
  rw [ofInt, isFinite_round _ _ one_pos, Nat.cast_one, div_one, Nat.cast_natAbs, Int.cast_abs]

end Single

namespace Reading

variable {r s : Reading} {p q : ℚ}

theorem rational?_negate (number : r.rational? = some p) : r.negate.rational? = some (-p) := by
  obtain ⟨negative, m, e, rfl, rfl⟩ := rational?_eq_some.1 number
  rw [negate, rational?_finite]
  cases negative <;> simp [signedDyadic]

theorem rational?_mul (left : r.rational? = some p) (right : s.rational? = some q) :
    (r.mul s).rational? = some (p * q) := by
  obtain ⟨a, m, e, rfl, rfl⟩ := rational?_eq_some.1 left
  obtain ⟨b, n, g, rfl, rfl⟩ := rational?_eq_some.1 right
  rw [mul, rational?_finite, Option.some_inj]
  have powers : (2 : ℚ) ^ (e + g) = 2 ^ e * 2 ^ g := zpow_add₀ two_ne_zero e g
  cases a <;> cases b <;> simp only [signedDyadic, bne, Nat.cast_mul, powers] <;> simp <;> ring

theorem signedDyadic_total (total low : Int) :
    signedDyadic (total < 0) total.natAbs low = total * 2 ^ low := by
  unfold signedDyadic
  split_ifs with negative
  · rw [decide_eq_true_iff] at negative
    rw [Nat.cast_natAbs, abs_of_neg negative]
    push_cast
    ring
  · rw [decide_eq_true_iff, not_lt] at negative
    rw [Nat.cast_natAbs, abs_of_nonneg negative]

theorem rational?_add (left : r.rational? = some p) (right : s.rational? = some q) :
    (r.add s).rational? = some (p + q) := by
  obtain ⟨a, m, e, rfl, rfl⟩ := rational?_eq_some.1 left
  obtain ⟨b, n, g, rfl, rfl⟩ := rational?_eq_some.1 right
  rw [← aligned_eq a m (min_le_left e g), ← aligned_eq b n (min_le_right e g), ← add_mul,
    ← Int.cast_add]
  unfold add
  dsimp only
  split_ifs with zero
  · rw [rational?_finite, zero]
    cases a && b <;> simp [signedDyadic]
  · rw [rational?_finite, signedDyadic_total]

end Reading

namespace Single

variable {x y : Single} {p q : ℚ}

theorem rational_lt_limit (number : x.reading.rational? = some p) : |p| < singleLimit := by
  obtain ⟨negative, m, e, word, rfl⟩ := Reading.rational?_eq_some.1 number
  obtain ⟨significand, -, exponent⟩ := singleFormat.read_finite (by decide) word
  have whole : (m : ℚ) + 1 ≤ 2 ^ (singleFormat.fractionBits + 1) := by exact_mod_cast significand
  rw [abs_signedDyadic, ← overflow_single, Format.overflow]
  calc (m : ℚ) * 2 ^ e ≤ m * 2 ^ singleFormat.maxExponent := by
        gcongr
        exact one_le_two
    _ < (2 ^ (singleFormat.fractionBits + 1) - 1 / 2) * 2 ^ singleFormat.maxExponent := by
        gcongr
        linarith

theorem isFinite_div (left : x.reading.rational? = some p) (right : y.reading.rational? = some q)
    (nonzero : q ≠ 0) : (x.div y).isFinite ↔ |p / q| < singleLimit := by
  obtain ⟨a, m, e, word, rfl⟩ := Reading.rational?_eq_some.1 left
  obtain ⟨b, n, g, word', rfl⟩ := Reading.rational?_eq_some.1 right
  have divisor : n ≠ 0 := by
    rintro rfl
    cases b <;> simp [signedDyadic] at nonzero
  have size : |signedDyadic a m e / signedDyadic b n g| = (m : ℚ) / n * 2 ^ (e - g) := by
    rw [abs_div, abs_signedDyadic, abs_signedDyadic, zpow_sub₀ two_ne_zero]
    ring
  rw [size, div, word, word', Format.quotient, if_neg divisor]
  generalize e - g = k
  cases k with
  | ofNat k =>
    rw [isFinite_round _ _ (Nat.pos_of_ne_zero divisor), Nat.cast_mul, Nat.cast_pow, Nat.cast_two,
      mul_div_right_comm, Int.ofNat_eq_natCast, zpow_natCast]
  | negSucc k =>
    have denominator : 0 < n * 2 ^ (k + 1) :=
      Nat.mul_pos (Nat.pos_of_ne_zero divisor) (Nat.two_pow_pos _)
    rw [isFinite_round _ _ denominator, Nat.cast_mul, Nat.cast_pow, Nat.cast_two, ← div_div,
      div_eq_mul_inv _ ((2 : ℚ) ^ (k + 1)), zpow_negSucc]

end Single

end MaterialShader.Numeric
