import Mathlib.Data.List.Induction
import Mathlib.Data.List.TakeWhile
import MaterialShader.Proofs.Numeric.Overflow

/-!
Decimal texts as numbers.
-/

namespace MaterialShader.Numeric

open List

def fraction? (cs : List Char) : Option ℚ :=
  match cs.dropWhile Char.isDigit with
  | '.' :: places =>
    let whole := cs.takeWhile Char.isDigit
    if whole.isEmpty || places.isEmpty || !places.all Char.isDigit then none
    else some (Nat.ofDigitChars 10 whole 0 + Nat.ofDigitChars 10 places 0 / 10 ^ places.length)
  | _ => none

def decimal? : List Char → Option ℚ
  | '-' :: cs => (fraction? cs).map Neg.neg
  | cs => fraction? cs

theorem fraction?_letters {cs : List Char} {q : ℚ} (number : fraction? cs = some q) :
    ∀ c ∈ cs, c.isDigit ∨ c = '.' := by
  intro c member
  have parts : cs.takeWhile Char.isDigit ++ cs.dropWhile Char.isDigit = cs :=
    takeWhile_append_dropWhile
  rw [← parts] at member
  unfold fraction? at number
  split at number
  · rename_i places behind
    dsimp only at number
    split_ifs at number with broken
    simp only [Bool.or_eq_true, Bool.not_eq_true', not_or, Bool.not_eq_false, all_eq_true]
      at broken
    rw [behind] at member
    obtain front | back := mem_append.1 member
    · exact .inl (mem_takeWhile_imp front)
    · obtain rfl | digit := mem_cons.1 back
      · exact .inr rfl
      · exact .inl (broken.2 c digit)
  · cases number

theorem blank_not_mem_decimal {cs : List Char} {q : ℚ} (number : decimal? cs = some q) :
    ' ' ∉ cs := by
  have plain {ds : List Char} {p : ℚ} (read : fraction? ds = some p) : ' ' ∉ ds := fun blank =>
    absurd (fraction?_letters read _ blank) (by decide)
  unfold decimal? at number
  split at number
  · obtain ⟨p, read, -⟩ := Option.map_eq_some_iff.1 number
    simpa using plain read
  · exact plain number

theorem ofDigitChars_init (cs : List Char) (init : Nat) :
    Nat.ofDigitChars 10 cs init = init * 10 ^ cs.length + Nat.ofDigitChars 10 cs 0 := by
  induction cs generalizing init with
  | nil => simp [Nat.ofDigitChars]
  | cons c rest ih =>
    rw [Nat.ofDigitChars_cons, Nat.ofDigitChars_cons, ih, ih (10 * 0 + _), length_cons]
    ring

theorem ofDigitChars_zeros (cs : List Char) (z : Nat) :
    Nat.ofDigitChars 10 (cs ++ List.replicate z '0') 0 = Nat.ofDigitChars 10 cs 0 * 10 ^ z := by
  induction z with
  | zero => simp
  | succ z ih =>
    rw [replicate_succ', ← append_assoc, Nat.ofDigitChars_append, ih]
    simp [Nat.ofDigitChars]
    ring

structure Pointed (whole places : List Char) : Prop where
  front : ∀ c ∈ whole, c.isDigit = true
  front_ne_nil : whole ≠ []
  back : ∀ c ∈ places, c.isDigit = true
  back_ne_nil : places ≠ []

theorem Pointed.fraction? {whole places : List Char} (pointed : Pointed whole places) :
    fraction? (whole ++ '.' :: places) =
      some ((Nat.ofDigitChars 10 (whole ++ places) 0 : ℚ) / 10 ^ places.length) := by
  have stops : ('.' :: places).dropWhile Char.isDigit = '.' :: places := rfl
  have taken : ('.' :: places).takeWhile Char.isDigit = [] := rfl
  have digits : places.all Char.isDigit := all_eq_true.2 pointed.back
  rw [Numeric.fraction?, dropWhile_append_of_pos pointed.front, stops]
  simp only [takeWhile_append_of_pos pointed.front, taken, append_nil, digits,
    isEmpty_eq_false_iff.2 pointed.front_ne_nil,
    isEmpty_eq_false_iff.2 pointed.back_ne_nil, Bool.or_self, Bool.not_true,
    Bool.false_eq_true, if_false, Option.some_inj]
  rw [Nat.ofDigitChars_append, ofDigitChars_init places (Nat.ofDigitChars 10 whole 0)]
  push_cast
  field_simp

theorem Pointed.decimal? {whole places : List Char} (pointed : Pointed whole places) :
    decimal? (whole ++ '.' :: places) =
      some ((Nat.ofDigitChars 10 (whole ++ places) 0 : ℚ) / 10 ^ places.length) := by
  rw [← pointed.fraction?]
  obtain ⟨c, rest, rfl⟩ := exists_cons_of_ne_nil pointed.front_ne_nil
  have digit := pointed.front c mem_cons_self
  rw [cons_append, Numeric.decimal?]
  rintro rest ⟨⟩
  exact absurd digit (by decide)

theorem digits_isDigit (n : Nat) : ∀ c ∈ digits n, c.isDigit :=
  fun _ member => Nat.isDigit_of_mem_toDigits (by decide) (by decide) member

theorem ofDigitChars_padLeft (width n : Nat) :
    Nat.ofDigitChars 10 (padLeft width (digits n)) 0 = n := by
  have zeros : ∀ k, Nat.ofDigitChars 10 (List.replicate k '0') 0 = 0 := by
    intro k
    simpa [Nat.ofDigitChars] using ofDigitChars_zeros [] k
  rw [padLeft, Nat.ofDigitChars_append, zeros, digits, Nat.ofDigitChars_ten_toDigits]

theorem pointed_eq (places n : Nat) (several : 0 < places) :
    ∃ whole fraction, pointed places n = whole ++ '.' :: fraction ∧ Pointed whole fraction ∧
      fraction.length = places ∧ Nat.ofDigitChars 10 (whole ++ fraction) 0 = n := by
  have digit : ∀ c ∈ padLeft (places + 1) (digits n), c.isDigit := by
    intro c member
    obtain zero | digit := mem_append.1 member
    · rw [eq_of_mem_replicate zero]
      decide
    · exact digits_isDigit n c digit
  have long : places + 1 ≤ (padLeft (places + 1) (digits n)).length := by
    rw [padLeft, length_append, length_replicate]
    omega
  have value := ofDigitChars_padLeft (places + 1) n
  unfold pointed
  refine ⟨_, _, rfl, ⟨?_, ?_, ?_, ?_⟩, ?_, ?_⟩
  · exact fun c member => digit c (mem_of_mem_take member)
  · rw [← length_pos_iff, length_take]
    omega
  · exact fun c member => digit c (mem_of_mem_drop member)
  · rw [← length_pos_iff, length_drop]
    omega
  · rw [length_drop]
    omega
  · rw [take_append_drop, value]

theorem dropTrailingZeros_zero (cs : List Char) :
    dropTrailingZeros (cs ++ ['0']) = dropTrailingZeros cs := by
  simp [dropTrailingZeros]

theorem dropTrailingZeros_eq (whole : List Char) {places : List Char}
    (digit : ∀ c ∈ places, c.isDigit) :
    ∃ kept z, places = kept ++ List.replicate z '0' ∧ kept.getLast? ≠ some '0' ∧
      dropTrailingZeros (whole ++ '.' :: places) =
        whole ++ '.' :: if kept = [] then ['0'] else kept := by
  induction places using List.reverseRecOn with
  | nil => exact ⟨[], 0, rfl, nofun, by simp [dropTrailingZeros]⟩
  | append_singleton places c ih =>
    rw [forall_mem_append, forall_mem_singleton] at digit
    by_cases zero : c = '0'
    · obtain ⟨kept, z, split, last, dropped⟩ := ih digit.1
      refine ⟨kept, z + 1, ?_, last, ?_⟩
      · rw [zero, split, append_assoc, replicate_succ']
      · rw [zero, ← dropped, ← dropTrailingZeros_zero (whole ++ '.' :: places), append_assoc,
          cons_append]
    · refine ⟨places ++ [c], 0, by simp, by simpa using zero, ?_⟩
      have point : c ≠ '.' := by
        rintro rfl
        exact absurd digit.2 (by decide)
      have last : ('.' :: (places ++ [c])).getLast? = some c := by
        rw [← cons_append, List.getLast?_concat]
      simp [dropTrailingZeros, zero, last, point]

theorem dropTrailingZeros_fixed (num den : Nat) (negative : Bool) :
    ∃ whole places, dropTrailingZeros (fixed literalPlaces negative num den) =
        (if negative then ['-'] else []) ++ (whole ++ '.' :: places) ∧
      Pointed whole places ∧ places.length ≤ literalPlaces ∧
      (1 < places.length → places.getLast? ≠ some '0') ∧
      (Nat.ofDigitChars 10 (whole ++ places) 0 : ℚ) / 10 ^ places.length =
        roundDiv (num * 10 ^ 9) den / 10 ^ 9 := by
  obtain ⟨whole, places, shape, point, length, value⟩ :=
    pointed_eq literalPlaces (roundDiv (num * 10 ^ 9) den) (by decide)
  have printed : fixed literalPlaces negative num den =
      (if negative then ['-'] else []) ++ whole ++ '.' :: places := by
    change (if negative then '-' :: pointed literalPlaces (roundDiv (num * 10 ^ 9) den)
      else pointed literalPlaces (roundDiv (num * 10 ^ 9) den)) = _
    rw [shape]
    cases negative <;> simp
  obtain ⟨kept, z, split, last, dropped⟩ :=
    dropTrailingZeros_eq ((if negative then ['-'] else []) ++ whole) point.back
  have size : kept.length + z = literalPlaces := by
    rwa [split, length_append, length_replicate] at length
  have total : (roundDiv (num * 10 ^ 9) den : ℚ) / 10 ^ 9 =
      Nat.ofDigitChars 10 (whole ++ kept) 0 / 10 ^ kept.length := by
    have nine : kept.length + z = 9 := size
    rw [← value, split, ← append_assoc, ofDigitChars_zeros, ← nine, pow_add]
    push_cast
    field_simp
  rw [printed, dropped, append_assoc, total]
  refine ⟨whole, _, rfl, ?_⟩
  split_ifs with none
  · subst none
    refine ⟨⟨point.front, point.front_ne_nil, forall_mem_singleton.2 rfl, by simp⟩, by decide,
      by simp, ?_⟩
    simp [Nat.ofDigitChars]
  · refine ⟨⟨point.front, point.front_ne_nil, fun c member => ?_, none⟩, by omega,
      fun _ => last, rfl⟩
    exact point.back c (split ▸ mem_append_left _ member)

theorem decimal?_fixed (num den : Nat) (negative : Bool) :
    decimal? (dropTrailingZeros (fixed literalPlaces negative num den)) =
      some (if negative then -(roundDiv (num * 10 ^ 9) den / 10 ^ 9 : ℚ)
        else roundDiv (num * 10 ^ 9) den / 10 ^ 9) := by
  obtain ⟨whole, places, text, point, _, _, same⟩ := dropTrailingZeros_fixed num den negative
  rw [text, ← same]
  cases negative with
  | true =>
    change (fraction? (whole ++ '.' :: places)).map Neg.neg = _
    rw [point.fraction?]
    rfl
  | false => exact point.decimal?

namespace Single

def printed (x : Single) : ℚ :=
  match x.reading with
  | .finite negative m e =>
    let n := roundDiv ((dyadicFraction m e).1 * 10 ^ 9) (dyadicFraction m e).2
    if negative then -(n / 10 ^ 9) else n / 10 ^ 9
  | _ => 0

theorem decimal?_zero : decimal? ['0', '.', '0'] = some 0 := by
  have digit : ∀ c ∈ ['0'], c.isDigit := forall_mem_singleton.2 rfl
  have zero : Pointed ['0'] ['0'] := ⟨digit, by simp, digit, by simp⟩
  simpa [Nat.ofDigitChars] using zero.decimal?

theorem decimal?_literal (x : Single) : decimal? x.literal.toList = some x.printed := by
  rw [literal, String.toList_ofList]
  unfold literalChars printed
  cases x.reading with
  | finite negative m e =>
    have value := decimal?_fixed (dyadicFraction m e).1 (dyadicFraction m e).2 negative
    dsimp only
    by_cases zero : dropTrailingZeros
        (fixed literalPlaces negative (dyadicFraction m e).1 (dyadicFraction m e).2) =
        ['-', '0', '.', '0']
    · have none : decimal? ['-', '0', '.', '0'] = some (-0) := congrArg (Option.map _) decimal?_zero
      rw [zero, none, neg_zero] at value
      rw [if_pos zero, decimal?_zero, value]
    · rw [if_neg zero, value]
  | infinite | notANumber => exact decimal?_zero

variable {x y : Single} {p q : ℚ}

theorem printed_nearest (number : x.reading.rational? = some q) :
    ∃ n : Nat, NearestEven (|q| * 10 ^ 9) n ∧
      x.printed = if q < 0 then -(n / 10 ^ 9 : ℚ) else n / 10 ^ 9 := by
  obtain ⟨negative, m, e, word, rfl⟩ := Reading.rational?_eq_some.1 number
  have nearest := roundDiv_nearest ((dyadicFraction m e).1 * 10 ^ 9) (dyadicFraction_pos m e)
  have scaled : (((dyadicFraction m e).1 * 10 ^ 9 : Nat) : ℚ) / (dyadicFraction m e).2 =
      |signedDyadic negative m e| * 10 ^ 9 := by
    rw [abs_signedDyadic, ← dyadicFraction_eq]
    push_cast
    ring
  rw [scaled] at nearest
  refine ⟨_, nearest, ?_⟩
  simp only [printed, word]
  have size : (0 : ℚ) ≤ m * 2 ^ e := by positivity
  cases negative with
  | false =>
    have sign : ¬ signedDyadic false m e < 0 := not_lt.2 size
    rw [if_neg sign, if_neg Bool.false_ne_true]
  | true =>
    rw [if_pos rfl]
    obtain zero | positive := size.eq_or_lt
    · have none : signedDyadic true m e = 0 := by
        rw [signedDyadic, if_pos rfl, ← zero, neg_zero]
      rw [none, abs_zero, zero_mul] at nearest
      rw [none, if_neg (lt_irrefl _), nearest.unique (.natCast 0)]
      simp
    · have sign : signedDyadic true m e < 0 := neg_neg_of_pos positive
      rw [if_pos sign]

theorem printed_mono (left : x.reading.rational? = some p) (right : y.reading.rational? = some q)
    (le : p ≤ q) : x.printed ≤ y.printed := by
  obtain ⟨a, first, shown⟩ := printed_nearest left
  obtain ⟨b, second, shown'⟩ := printed_nearest right
  rw [shown, shown']
  have of_a : (0 : ℚ) ≤ a / 10 ^ 9 := by positivity
  have of_b : (0 : ℚ) ≤ b / 10 ^ 9 := by positivity
  split_ifs with negative negative' negative'
  · rw [abs_of_neg negative] at first
    rw [abs_of_neg negative'] at second
    have sizes : b ≤ a := second.mono first (by linarith)
    gcongr
  · linarith
  · linarith
  · rw [abs_of_nonneg (not_lt.1 negative)] at first
    rw [abs_of_nonneg (not_lt.1 negative')] at second
    have sizes : a ≤ b := first.mono second (by linarith)
    gcongr

theorem finite_le {negative : Bool} {m : Nat} {e top : Int}
    (word : x.reading = .finite negative m e) (fine : e ≤ top) : |signedDyadic negative m e| ≤ 2 ^ 24 * 2 ^ top := by
  rw [abs_signedDyadic]
  have whole : (m : ℚ) ≤ 2 ^ 24 := by
    exact_mod_cast (singleFormat.read_finite (by decide) word).1.le
  gcongr
  exact one_le_two

theorem signedDyadic_multiple (negative : Bool) (m : Nat) {e : Int} {k : Nat}
    (coarse : -(k : Int) ≤ e) : ∃ a : Int, signedDyadic negative m e = a / 2 ^ k := by
  have scale : (2 : ℚ) ^ e = 2 ^ (e + k).toNat / 2 ^ k := by
    rw [eq_div_iff (by positivity), ← zpow_natCast, ← zpow_natCast,
      Int.toNat_of_nonneg (by omega), ← zpow_add₀ two_ne_zero]
  cases negative with
  | false => exact ⟨m * 2 ^ (e + k).toNat, by simp [signedDyadic, scale, mul_div_assoc]⟩
  | true => exact ⟨-(m * 2 ^ (e + k).toNat), by simp [signedDyadic, scale, mul_div_assoc, neg_div]⟩

theorem gap_natCast (number : x.reading.rational? = some q) {k : Nat} (positive : 0 < k)
    (below : q < k) : q + 1 / 2 ^ 30 ≤ k := by
  obtain ⟨negative, m, e, word, rfl⟩ := Reading.rational?_eq_some.1 number
  have one_le : (1 : ℚ) ≤ k := by exact_mod_cast positive
  obtain fine | coarse := lt_or_ge e (-30)
  · -- Below the thirtieth binary place all words are small.
    have bound := (le_abs_self _).trans (finite_le word (show e ≤ -31 by omega))
    norm_num at bound ⊢
    linarith
  · -- Otherwise the number is a multiple of the thirtieth binary place.
    obtain ⟨a, multiple⟩ := signedDyadic_multiple negative m (k := 30) coarse
    rw [multiple] at below ⊢
    rw [div_lt_iff₀ (by positivity)] at below
    rw [← add_div, div_le_iff₀ (by positivity)]
    have whole : a < (k : Int) * 2 ^ 30 := by exact_mod_cast below
    exact_mod_cast (by omega : a + 1 ≤ (k : Int) * 2 ^ 30)

theorem printed_lt_natCast (number : x.reading.rational? = some q) {k : Nat} (positive : 0 < k) :
    x.printed < k ↔ q < k := by
  obtain ⟨n, nearest, shown⟩ := printed_nearest number
  have above : (0 : ℚ) < k := by exact_mod_cast positive
  have size : (0 : ℚ) ≤ n / 10 ^ 9 := by positivity
  rw [shown]
  split_ifs with negative
  · exact iff_of_true (by linarith) (by linarith)
  · rw [abs_of_nonneg (not_lt.1 negative)] at nearest
    have reached := nearest.even_le_iff (m := k * 10 ^ 9) (by omega)
    rw [Nat.cast_mul, Nat.cast_pow, Nat.cast_ofNat] at reached
    have below : (n / 10 ^ 9 : ℚ) < k ↔ ¬ k * 10 ^ 9 ≤ n := by
      rw [div_lt_iff₀ (by positivity), not_le]
      exact_mod_cast Iff.rfl
    rw [below, reached, not_le]
    constructor
    · intro rounded
      linarith
    · intro smaller
      have gap := gap_natCast number positive smaller
      linarith

end Single

end MaterialShader.Numeric
