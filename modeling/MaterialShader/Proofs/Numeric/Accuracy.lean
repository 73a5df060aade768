import MaterialShader.Proofs.Numeric.Printed

/-!
Literals are decimals near their numbers.
-/

namespace MaterialShader.Numeric

open List

/-- A sign or none, digits, a point, and at most nine digits that end in a zero only if it is the
first. -/
def IsLiteral (text : List Char) : Prop :=
  ∃ sign whole places, text = sign ++ (whole ++ '.' :: places) ∧ (sign = [] ∨ sign = ['-']) ∧
    Pointed whole places ∧ places.length ≤ literalPlaces ∧
    (1 < places.length → places.getLast? ≠ some '0')

namespace Single

variable {x y : Single} {q r : ℚ}

theorem literal_isLiteral (x : Single) : IsLiteral x.literal.toList ∧ x.literal ≠ "-0.0" := by
  have zero : IsLiteral ['0', '.', '0'] := by
    have digit : ∀ c ∈ ['0'], c.isDigit := forall_mem_singleton.2 rfl
    exact ⟨[], ['0'], ['0'], rfl, .inl rfl, ⟨digit, by simp, digit, by simp⟩, by decide, by simp⟩
  rw [Ne, ← String.toList_inj, literal, String.toList_ofList]
  unfold literalChars
  cases x.reading with
  | finite negative m e =>
    dsimp only
    split_ifs with none
    · exact ⟨zero, by decide⟩
    · obtain ⟨whole, places, text, point, short, last, _⟩ :=
        dropTrailingZeros_fixed (dyadicFraction m e).1 (dyadicFraction m e).2 negative
      exact ⟨⟨_, whole, places, text, by cases negative <;> simp, point, short, last⟩, none⟩
  | infinite | notANumber => exact ⟨zero, by simp⟩

theorem printed_near (number : x.reading.rational? = some q) : |x.printed - q| ≤ 5 / 10 ^ 10 := by
  obtain ⟨n, nearest, shown⟩ := printed_nearest number
  have low := nearest.lower
  have high := nearest.upper
  rw [shown, abs_le]
  split_ifs with negative
  · rw [abs_of_neg negative] at low high
    constructor <;> linarith
  · rw [abs_of_nonneg (not_lt.1 negative)] at low high
    constructor <;> linarith

theorem printed_eq (number : x.reading.rational? = some q) {n : Nat} (whole : |q| * 10 ^ 9 = n) :
    x.printed = q := by
  obtain ⟨n', nearest, shown⟩ := printed_nearest number
  rw [whole] at nearest
  obtain rfl := nearest.unique (.natCast n)
  rw [shown, ← whole]
  split_ifs with negative
  · rw [abs_of_neg negative]
    ring
  · rw [abs_of_nonneg (not_lt.1 negative)]
    ring

theorem spacing (left : x.reading.rational? = some q) (right : y.reading.rational? = some r)
    (large : 1 / 2 ^ 6 < |q|) (ne : r ≠ q) : 1 / 2 ^ 29 ≤ |q - r| := by
  obtain ⟨_, m, e, word, rfl⟩ := Reading.rational?_eq_some.1 left
  obtain ⟨_, n, g, word', rfl⟩ := Reading.rational?_eq_some.1 right
  have unit : (0 : ℚ) < 2 ^ 29 := by positivity
  have coarse : -29 ≤ e := by
    by_contra fine
    have bound := finite_le word (show e ≤ -30 by omega)
    norm_num at bound large
    linarith
  obtain ⟨a, first⟩ := signedDyadic_multiple _ m (k := 29) coarse
  rw [first] at large ne ⊢
  obtain fine | coarse' := lt_or_ge g (-29)
  · -- The other number reaches at most the sixth binary place.
    have bound := finite_le word' (show g ≤ -30 by omega)
    have above : (2 ^ 23 + 1 : ℚ) ≤ |(a : ℚ)| := by
      rw [abs_div, abs_of_pos unit, lt_div_iff₀ unit] at large
      have far : (2 ^ 23 : ℚ) < |(a : ℚ)| := by linarith
      exact_mod_cast far
    calc (1 / 2 ^ 29 : ℚ) = (2 ^ 23 + 1) / 2 ^ 29 - 2 ^ 24 * 2 ^ (-30 : Int) := by norm_num
      _ ≤ |(a : ℚ)| / 2 ^ 29 - |signedDyadic _ n g| := by gcongr
      _ = |(a : ℚ) / 2 ^ 29| - |signedDyadic _ n g| := by rw [abs_div, abs_of_pos unit]
      _ ≤ _ := abs_sub_abs_le_abs_sub _ _
  · obtain ⟨b, second⟩ := signedDyadic_multiple _ n (k := 29) coarse'
    rw [second] at ne ⊢
    have other : a - b ≠ 0 := fun same => ne (by rw [sub_eq_zero.1 same])
    have step : (1 : ℚ) ≤ |(a : ℚ) - b| := by exact_mod_cast Int.one_le_abs other
    rw [← sub_div, abs_div, abs_of_pos unit]
    gcongr

theorem printed_nearest_word (left : x.reading.rational? = some q)
    (right : y.reading.rational? = some r) (large : 1 / 2 ^ 6 ≤ |q|) (ne : r ≠ q) :
    |x.printed - q| < |x.printed - r| := by
  obtain edge | above := large.eq_or_lt
  · have exact_ : x.printed = q :=
      printed_eq left (n := 15625000) (by rw [← edge]; norm_num)
    rw [exact_, sub_self, abs_zero]
    exact abs_pos.2 (sub_ne_zero.2 ne.symm)
  · have near := printed_near left
    have apart := spacing left right above ne
    have far := abs_sub_le q x.printed r
    rw [abs_sub_comm q x.printed] at far
    linarith

end Single

/-- The literal of a finite number is a decimal that differs from the number by at most half of the
ninth place. For a number from the sixth binary place on it is nearer to that number than to any
other, and is the literal of no other. -/
theorem literal_accurate {x : Single} {q : ℚ} (number : x.reading.rational? = some q) :
    IsLiteral x.literal.toList ∧ x.literal ≠ "-0.0" ∧
    ∃ d, decimal? x.literal.toList = some d ∧ |d - q| ≤ 5 / 10 ^ 10 ∧
      (1 / 2 ^ 6 ≤ |q| → ∀ (y : Single) r, y.reading.rational? = some r → r ≠ q →
        |d - q| < |d - r| ∧ (1 / 2 ^ 6 ≤ |r| → y.literal ≠ x.literal)) := by
  refine ⟨x.literal_isLiteral.1, x.literal_isLiteral.2, x.printed, x.decimal?_literal,
    Single.printed_near number, fun large y r other ne => ?_⟩
  have nearer := Single.printed_nearest_word number other large ne
  refine ⟨nearer, fun large' same => ?_⟩
  have nearer' := Single.printed_nearest_word other number large' ne.symm
  have shown := y.decimal?_literal
  rw [same, x.decimal?_literal, Option.some_inj] at shown
  rw [← shown] at nearer'
  exact lt_asymm nearer nearer'

/-- The number nearest to one tenth, and the next one. -/
theorem literal_accurate_tenth :
    let x : Single := ⟨0x3DCCCCCD⟩
    let y : Single := ⟨0x3DCCCCCE⟩
    x.reading.rational? = some (13421773 / 2 ^ 27) ∧
    y.reading.rational? = some (13421774 / 2 ^ 27) ∧
    x.literal = "0.100000001" ∧ IsLiteral x.literal.toList ∧ x.literal ≠ "-0.0" ∧
    ∃ d, decimal? x.literal.toList = some d ∧ |d - 13421773 / 2 ^ 27| ≤ 5 / 10 ^ 10 ∧
      |d - 13421773 / 2 ^ 27| < |d - 13421774 / 2 ^ 27| ∧ y.literal ≠ x.literal := by
  intro x y
  have first : x.reading.rational? = some (13421773 / 2 ^ 27) := by
    have word : x.reading = .finite false 13421773 (-27) := by decide
    rw [word, Reading.rational?]
    norm_num
  have second : y.reading.rational? = some (13421774 / 2 ^ 27) := by
    have word : y.reading = .finite false 13421774 (-27) := by decide
    rw [word, Reading.rational?]
    norm_num
  obtain ⟨form, signed, d, read, near, other⟩ := literal_accurate first
  obtain ⟨nearest, apart⟩ :=
    other (by norm_num [abs_of_pos]) y _ second (by norm_num)
  exact ⟨first, second, by decide, form, signed, d, read, near, nearest,
    apart (by norm_num [abs_of_pos])⟩

end MaterialShader.Numeric
