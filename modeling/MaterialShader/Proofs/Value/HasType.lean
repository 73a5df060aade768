import MaterialShader.Proofs.Result
import MaterialShader.Value.Literal

/-!
Literals of the right kind and number of components.
-/

namespace MaterialShader

open List
open Numeric

def Value.HasType (t : ShaderType) : Value → Prop
  | .boolean _ => t.base = .boolean ∧ t.size = 1
  | .integer _ => t.base = .integer ∧ t.size = 1
  | .float _ => t.base = .float ∧ t.size = 1
  | .floats xs => t.base = .float ∧ 1 < t.size ∧ xs.length = t.size
  | .text _ => t.base = .string ∧ t.size = 1
  | .integerArray _ => t.base = .integer ∧ t.size = 0
  | .floatArray _ => t.base = .float ∧ t.size = 0

def ShaderType.Regular (t : ShaderType) : Prop :=
  t.base = .float ∨ t.size = 1 ∨ t.base = .integer ∧ t.size = 0

instance (t : ShaderType) : Decidable t.Regular :=
  inferInstanceAs (Decidable (t.base = .float ∨ t.size = 1 ∨ t.base = .integer ∧ t.size = 0))

theorem Registry.find?_standard_regular {name : String} {t : ShaderType}
    (found : Registry.standard.find? name = some t) : t.Regular := by
  have regular : ∀ t ∈ Registry.standard.types, t.Regular := by decide
  exact regular t (mem_of_find?_eq_some found)

namespace Value

variable {t : ShaderType} {v : Value}

theorem items_length {α : Type} {what : String} {read : Json → Option α} {js : List Json}
    {values : List α} (run : items t what read js = .ok values) : values.length = js.length := by
  induction js generalizing values with
  | nil =>
    cases run
    rfl
  | cons j rest ih =>
    unfold items at run
    split at run
    · cases run
    · obtain ⟨others, later, rfl⟩ := Result.map_ok.1 run
      rw [length_cons, length_cons, ih later]

theorem arrayOfJson_hasType {j : Json} (regular : t.Regular) (array : t.size = 0)
    (run : arrayOfJson t j = .ok v) : v.HasType t := by
  unfold arrayOfJson at run
  split at run
  · split_ifs at run with integer
    · obtain ⟨values, _, rfl⟩ := Result.map_ok.1 run
      exact ⟨integer, array⟩
    · obtain ⟨values, _, rfl⟩ := Result.map_ok.1 run
      obtain float | single | ⟨base, _⟩ := regular
      · exact ⟨float, array⟩
      · omega
      · exact absurd base integer
  · cases run

theorem aggregateOfJson_hasType {j : Json} (float : t.base = .float) (several : 1 < t.size)
    (run : aggregateOfJson t j = .ok v) : v.HasType t := by
  unfold aggregateOfJson at run
  split at run
  · cases run
    exact ⟨float, several, length_replicate⟩
  · split at run
    · split_ifs at run with length
      · obtain ⟨values, read, rfl⟩ := Result.map_ok.1 run
        exact ⟨float, several, (items_length read).trans length⟩
      · cases run
    · cases run

theorem ofJson_hasType {j : Json} (regular : t.Regular) (run : ofJson j t = .ok v) :
    v.HasType t := by
  unfold ofJson at run
  split at run
  · cases run
  · rename_i closure
    have carries : t.base ≠ .none := by
      intro none
      simp [none] at closure
    split at run
    · rename_i array
      simp only [ShaderType.isArray, Bool.and_eq_true, beq_iff_eq] at array
      exact arrayOfJson_hasType regular array.1 run
    · rename_i array
      have counted : t.size ≠ 0 := by
        intro zero
        simp [ShaderType.isArray, zero, carries] at array
      have single : t.base ≠ .float → t.size = 1 := by
        intro other
        obtain float | single | ⟨_, zero⟩ := regular
        · exact absurd float other
        · exact single
        · exact absurd zero counted
      cases base : t.base <;> simp only [base] at run
      case boolean =>
        split at run <;> cases run
        exact ⟨base, single (by simp [base])⟩
      case integer =>
        split at run <;> cases run
        exact ⟨base, single (by simp [base])⟩
      case string =>
        split at run <;> cases run
        exact ⟨base, single (by simp [base])⟩
      case float =>
        split at run
        · split at run <;> cases run
          exact ⟨base, by assumption⟩
        · exact aggregateOfJson_hasType base (by omega) run
      case none => cases run

theorem ofComponents_hasType {xs : List Single} (run : ofComponents t xs = .ok v) :
    v.HasType t := by
  unfold ofComponents at run
  split at run
  · cases run
  · rename_i fits
    simp only [Bool.or_eq_true, Bool.not_eq_true', bne_iff_ne, ne_eq, not_or, Bool.not_eq_false,
      Decidable.not_not, ShaderType.isFloatBased, Bool.and_eq_true, beq_iff_eq,
      decide_eq_true_eq] at fits
    obtain ⟨⟨⟨float, positive⟩, _⟩, length⟩ := fits
    split at run
    · cases run
      exact ⟨float, length.symm⟩
    · rename_i several
      cases run
      refine ⟨float, ?_, length⟩
      have other : xs.length ≠ 1 := by
        intro one
        obtain ⟨x, rfl⟩ := length_eq_one_iff.1 one
        exact several x rfl
      omega

end Value

end MaterialShader
