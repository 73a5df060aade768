import MaterialShader.Proofs.Numeric.Order
import MaterialShader.Proofs.Value.HasType

/-!
Integers read from JSON.
-/

namespace MaterialShader

open Numeric

namespace Json

/-- The number that a JSON value is. -/
def rational? : Json → Option ℚ
  | .int n => some n
  | .float x => x.reading.rational?
  | _ => none

def isUnchecked : Json → Bool
  | .int n => signedMax < n
  | .float _ => true
  | _ => false

/-- The integer of 32 bits that is read from a number. -/
def Gives (j : Json) (n : Int) : Prop :=
  ∃ whole : Int, j.rational? = some (whole : ℚ) ∧
    (-2 ^ 31 ≤ whole ∧ whole < 2 ^ 31 ∧ n = whole ∨
      j.isUnchecked ∧ (whole < -2 ^ 31 ∧ n = -2 ^ 31 ∨ 2 ^ 31 ≤ whole ∧ n = 2 ^ 31 - 1))

theorem clampInt32_eq_iff {whole n : Int} :
    clampInt32 whole = n ↔ -2 ^ 31 ≤ whole ∧ whole < 2 ^ 31 ∧ n = whole ∨
      whole < -2 ^ 31 ∧ n = -2 ^ 31 ∨ 2 ^ 31 ≤ whole ∧ n = 2 ^ 31 - 1 := by
  simp only [clampInt32, int32Min, int32Max]
  omega

theorem asInt32?_eq_some_iff {j : Json} {n : Int} : j.asInt32? = some n ↔ j.Gives n := by
  unfold Gives
  cases j with
  | int k =>
    simp only [rational?, Option.some_inj, Int.cast_inj, exists_eq_left', asInt32?, isUnchecked,
      decide_eq_true_eq]
    by_cases signed : k ≤ signedMax
    · rw [if_pos signed, or_iff_left fun wide => absurd signed (not_le.2 wide.1)]
      split_ifs with inside <;> simp only [int32Min, int32Max] at inside
      · rw [Option.some_inj]
        omega
      · simp only [false_iff]
        omega
    · rw [if_neg signed, Option.some_inj, clampInt32_eq_iff, and_iff_right (not_le.1 signed)]
  | float x =>
    simp only [asInt32?, Option.map_eq_some_iff, Reading.toInt?_eq_some_iff, clampInt32_eq_iff,
      rational?, isUnchecked, true_and]
  | null | bool | str | arr | obj | unreadable => simp [asInt32?, rational?]

end Json

namespace Value

theorem items_eq_ok_iff {α : Type} {t : ShaderType} {what : String} {read : Json → Option α}
    {js : List Json} {values : List α} :
    items t what read js = .ok values ↔ List.Forall₂ (fun j a => read j = some a) js values := by
  induction js generalizing values with
  | nil =>
    rw [items, List.forall₂_nil_left_iff]
    exact ⟨fun ok => by cases ok; rfl, fun none => by rw [none]⟩
  | cons j rest ih =>
    rw [items]
    cases first : read j with
    | none =>
      refine ⟨fun ok => (by cases ok), fun all => ?_⟩
      cases all with
      | cons here _ => rw [first] at here; cases here
    | some a =>
      rw [Result.map_ok]
      constructor
      · rintro ⟨others, ok, rfl⟩
        exact .cons first (ih.1 ok)
      · rintro (_ | ⟨here, later⟩)
        rw [first] at here
        cases here
        exact ⟨_, ih.2 later, rfl⟩

theorem items_refuses {α : Type} (t : ShaderType) (what : String) (read : Json → Option α)
    (js : List Json) :
    (∃ values, items t what read js = .ok values) ∨
      ∃ reason, items t what read js = fail (.invalidValue t.name reason) := by
  induction js with
  | nil => exact .inl ⟨[], rfl⟩
  | cons j rest ih =>
    rw [items]
    cases read j with
    | none => exact .inr ⟨_, rfl⟩
    | some a =>
      obtain ⟨values, ok⟩ | ⟨reason, refused⟩ := ih
      · exact .inl ⟨a :: values, by rw [ok]; rfl⟩
      · exact .inr ⟨reason, by rw [refused]; rfl⟩

section

variable {t : ShaderType} (integer : t.base = .integer) (valued : t.isClosure = false)

include integer valued

theorem ofJson_integer (single : t.size ≠ 0) {j : Json} {n : Int} (read : j.asInt32? = some n) :
    ofJson j t = .ok (.integer n) := by
  simp [ofJson, valued, integer, ShaderType.isArray, single, read]

theorem ofJson_not_integer (single : t.size ≠ 0) {j : Json} (unread : j.asInt32? = none) :
    ofJson j t = invalid t s!"expected an integer, got {j.compact}" := by
  simp [ofJson, valued, integer, ShaderType.isArray, single, unread]

theorem ofJson_integers (array : t.size = 0) (j : Json) : ofJson j t = arrayOfJson t j := by
  simp [ofJson, valued, integer, ShaderType.isArray, array]

end

end Value

/-- What is read for a type of integers, and that everything else is refused. -/
theorem integer_literal_iff {t : ShaderType} (integer : t.base = .integer)
    (valued : t.isClosure = false) (j : Json) :
    (∀ v, Value.ofJson j t = .ok v ↔
      t.size ≠ 0 ∧ (∃ n, j.Gives n ∧ v = .integer n) ∨
        t.size = 0 ∧ ∃ js ns, j = .arr js ∧ List.Forall₂ Json.Gives js ns ∧ v = .integerArray ns) ∧
    ((∀ v, Value.ofJson j t ≠ .ok v) →
      ∃ reason, Value.ofJson j t = fail (.invalidValue t.name reason)) := by
  by_cases array : t.size = 0
  · rw [Value.ofJson_integers integer valued array]
    cases j with
    | arr js =>
      rw [Value.arrayOfJson, if_pos integer]
      constructor
      · intro v
        simp only [Result.map_ok, Value.items_eq_ok_iff, Json.asInt32?_eq_some_iff]
        simp [array, eq_comm]
      · intro refused
        obtain ⟨ns, ok⟩ | ⟨reason, error⟩ :=
          Value.items_refuses t "non-integer item" Json.asInt32? js
        · exact absurd (by rw [ok]; rfl) (refused (.integerArray ns))
        · exact ⟨reason, by rw [error]; rfl⟩
    | null | bool | int | float | str | obj | unreadable =>
      exact ⟨by simp [Value.arrayOfJson, array, Value.invalid, fail], fun _ => ⟨_, rfl⟩⟩
  · simp only [← Json.asInt32?_eq_some_iff]
    cases read : j.asInt32? with
    | none =>
      rw [Value.ofJson_not_integer integer valued array read]
      exact ⟨by simp [array, Value.invalid, fail], fun _ => ⟨_, rfl⟩⟩
    | some n =>
      rw [Value.ofJson_integer integer valued array read]
      exact ⟨by simp [array, eq_comm], fun refused => absurd rfl (refused _)⟩

def integerType : ShaderType := ⟨"integer", .integer, .none, 1, true, .integer 0⟩

def threeBillion : Json := .float (Double.ofDecimal false 3 9)

theorem threeBillion_rational : threeBillion.rational? = some (3000000000 : Int) := by
  have word : (Double.ofDecimal false 3 9).reading = .finite false 6291456000000000 (-21) := by
    decide
  rw [threeBillion, Json.rational?, word, Reading.rational?_finite, signedDyadic]
  norm_num

theorem integer_literal_iff_threeBillion :
    integerType.base = .integer ∧ integerType.isClosure = false ∧
      threeBillion.Gives (2 ^ 31 - 1) ∧
      Value.ofJson threeBillion integerType = .ok (.integer (2 ^ 31 - 1)) := by
  have gives : threeBillion.Gives (2 ^ 31 - 1) :=
    ⟨_, threeBillion_rational, .inr ⟨rfl, .inr ⟨by norm_num, rfl⟩⟩⟩
  refine ⟨rfl, rfl, gives, ?_⟩
  exact ((integer_literal_iff rfl rfl threeBillion).1 _).2 (.inl ⟨by decide, _, gives, rfl⟩)

/-- A number that no integer of 32 bits equals is read as one. The same number written without a
point is refused. -/
theorem threeBillion_read_as_largest :
    threeBillion.rational? = some 3000000000 ∧
      Value.ofJson threeBillion integerType = .ok (.integer 2147483647) ∧
      Value.ofJson (.int 3000000000) integerType =
        fail (.invalidValue "integer" "expected an integer, got 3000000000") := by
  refine ⟨threeBillion_rational, ?_, ?_⟩
  · exact Value.ofJson_integer rfl rfl (by decide) (by decide)
  · exact Value.ofJson_not_integer rfl rfl (by decide) (by decide)

end MaterialShader
