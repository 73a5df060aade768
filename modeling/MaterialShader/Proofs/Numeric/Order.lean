import Mathlib.Algebra.Order.Field.Power
import Mathlib.Data.Rat.Floor
import MaterialShader.Numeric.Decimal

/-!
The rational numbers that finite words stand for.
-/

namespace MaterialShader.Numeric

namespace Reading

/-- The number that a finite word stands for. -/
def rational? : Reading → Option ℚ
  | .finite true m e => some (-(m * 2 ^ e))
  | .finite false m e => some (m * 2 ^ e)
  | _ => none

def clampedFloor (top : Nat) (r : Reading) : Int :=
  match r.rational?, r with
  | some q, _ => max 0 (min ⌊q⌋ top)
  | none, .infinite false => top
  | none, _ => 0

end Reading

theorem natCast_min_eq_clamp (q top : Nat) :
    ((Nat.min q top : Nat) : Int) = max 0 (min (q : Int) (top : Int)) := by
  change ((min q top : Nat) : Int) = _
  omega

theorem Single.floorWithin_eq (top : Nat) (x : Single) :
    (x.floorWithin top : Int) = x.reading.clampedFloor top := by
  unfold floorWithin
  split <;> rename_i shape <;> rw [shape] <;> simp only [Reading.clampedFloor, Reading.rational?]
  · rename_i m e
    have below : ⌊-((m : ℚ) * 2 ^ e)⌋ ≤ 0 := by
      apply Int.floor_nonpos
      have size : (0 : ℚ) ≤ m * 2 ^ e := by positivity
      linarith
    omega
  · rename_i m k
    have whole : (m : ℚ) * 2 ^ Int.ofNat k = ((m * 2 ^ k : Nat) : ℚ) := by simp
    rw [whole, Int.floor_natCast, natCast_min_eq_clamp]
  · rename_i m k
    have part : (m : ℚ) * 2 ^ Int.negSucc k = (m : ℚ) / ((2 ^ (k + 1) : Nat) : ℚ) := by
      simp [zpow_negSucc, div_eq_mul_inv]
    rw [part, Rat.floor_natCast_div_natCast, ← Int.natCast_ediv, natCast_min_eq_clamp]
  · rename_i negative
    cases negative <;> rfl
  · rfl

variable (negative : Bool)

def signedDyadic (negative : Bool) (significand : Nat) (exponent : Int) : ℚ :=
  if negative then -(significand * 2 ^ exponent) else significand * 2 ^ exponent

theorem abs_signedDyadic (m : Nat) (e : Int) : |signedDyadic negative m e| = m * 2 ^ e := by
  have size : (0 : ℚ) ≤ m * 2 ^ e := by positivity
  cases negative <;> simp [signedDyadic, abs_of_nonneg size]

theorem dyadicFraction_pos (m : Nat) (e : Int) : 0 < (dyadicFraction m e).2 := by
  cases e with
  | ofNat k => exact one_pos
  | negSucc k => exact Nat.two_pow_pos (k + 1)

theorem dyadicFraction_eq (m : Nat) (e : Int) :
    ((dyadicFraction m e).1 : ℚ) / (dyadicFraction m e).2 = m * 2 ^ e := by
  cases e with
  | ofNat k => simp [dyadicFraction]
  | negSucc k => simp [dyadicFraction, zpow_negSucc, div_eq_mul_inv]

namespace Reading

theorem rational?_finite (m : Nat) (e : Int) :
    (finite negative m e).rational? = some (signedDyadic negative m e) := by
  cases negative <;> rfl

theorem rational?_eq_some {r : Reading} {q : ℚ} :
    r.rational? = some q ↔
      ∃ negative m e, r = .finite negative m e ∧ signedDyadic negative m e = q := by
  cases r with
  | finite negative m e => simp [rational?_finite]
  | infinite | notANumber => simp [rational?]

theorem rational?_isSome {r : Reading} : r.rational?.isSome = r.isFinite := by
  cases r with
  | finite negative m e => rw [rational?_finite]; rfl
  | infinite | notANumber => rfl

theorem aligned_eq (m : Nat) {e low : Int} (below : low ≤ e) :
    (aligned negative m e low : ℚ) * 2 ^ low = signedDyadic negative m e := by
  have shift : (2 : ℚ) ^ (e - low).toNat * 2 ^ low = 2 ^ e := by
    rw [← zpow_natCast, ← zpow_add₀ two_ne_zero, Int.toNat_of_nonneg (by omega), sub_add_cancel]
  cases negative <;> simp [aligned, signedDyadic, mul_assoc, shift]

section

variable {r s : Reading} {p q : ℚ} (left : r.rational? = some p) (right : s.rational? = some q)

include left right

theorem lt_iff : r.lt s ↔ p < q := by
  obtain ⟨a, m, e, rfl, rfl⟩ := rational?_eq_some.1 left
  obtain ⟨b, n, g, rfl, rfl⟩ := rational?_eq_some.1 right
  have unit : (0 : ℚ) < 2 ^ min e g := by positivity
  rw [← aligned_eq a m (min_le_left e g), ← aligned_eq b n (min_le_right e g),
    mul_lt_mul_iff_left₀ unit, Int.cast_lt]
  exact decide_eq_true_iff

theorem eq_iff : r.eq s ↔ p = q := by
  obtain ⟨a, m, e, rfl, rfl⟩ := rational?_eq_some.1 left
  obtain ⟨b, n, g, rfl, rfl⟩ := rational?_eq_some.1 right
  have unit : (2 : ℚ) ^ min e g ≠ 0 := by positivity
  rw [← aligned_eq a m (min_le_left e g), ← aligned_eq b n (min_le_right e g),
    mul_left_inj' unit, Int.cast_inj]
  exact decide_eq_true_iff

theorem le_iff : r.le s ↔ p ≤ q := by
  rw [le, Bool.or_eq_true, lt_iff left right, eq_iff left right, le_iff_lt_or_eq]

end

theorem signedDyadic_ofNat (m k : Nat) :
    signedDyadic negative m (.ofNat k) =
      ((if negative then -(m * 2 ^ k : Nat) else (m * 2 ^ k : Nat) : Int) : ℚ) := by
  cases negative <;> simp [signedDyadic]

theorem signedDyadic_negSucc (m k : Nat) :
    signedDyadic negative m (.negSucc k) =
      (if negative then -(m : Int) else (m : Int) : Int) / (2 ^ (k + 1) : ℚ) := by
  cases negative <;> simp [signedDyadic, zpow_negSucc, div_eq_mul_inv]

theorem natCast_eq_mul_iff {m unit : Nat} (positive : 0 < unit) {n : Int} :
    (m : Int) = n * unit ↔ m % unit = 0 ∧ ((m / unit : Nat) : Int) = n := by
  constructor
  · intro product
    have divides : unit ∣ m := Int.natCast_dvd_natCast.1 ⟨n, by rw [product, mul_comm]⟩
    refine ⟨Nat.mod_eq_zero_of_dvd divides, ?_⟩
    rw [Int.natCast_ediv, product, Int.mul_ediv_cancel _ (by omega)]
  · rintro ⟨divides, rfl⟩
    have parts := Nat.div_mul_cancel (Nat.dvd_of_mod_eq_zero divides)
    exact_mod_cast parts.symm

theorem toInt?_eq_some_iff {r : Reading} {n : Int} :
    r.toInt? = some n ↔ r.rational? = some (n : ℚ) := by
  cases r with
  | infinite | notANumber => simp [toInt?, rational?]
  | finite negative m e =>
    rw [rational?_finite, Option.some_inj]
    cases e with
    | ofNat k => rw [signedDyadic_ofNat, toInt?, Option.some_inj, Int.cast_inj]
    | negSucc k =>
      have unit : (2 : ℚ) ^ (k + 1) ≠ 0 := by positivity
      have whole : signedDyadic negative m (.negSucc k) = n ↔
          (if negative then -(m : Int) else (m : Int)) = n * (2 ^ (k + 1) : Nat) := by
        rw [signedDyadic_negSucc, div_eq_iff unit]
        exact_mod_cast Iff.rfl
      rw [whole, toInt?]
      cases negative with
      | false =>
        simp only [Bool.false_eq_true, if_false]
        rw [natCast_eq_mul_iff (by positivity)]
        split_ifs with divides <;> simp [divides]
      | true =>
        simp only [if_true]
        rw [neg_eq_iff_eq_neg, ← neg_mul, natCast_eq_mul_iff (by positivity), ← neg_eq_iff_eq_neg]
        split_ifs with divides <;> simp [divides]

end Reading

end MaterialShader.Numeric
