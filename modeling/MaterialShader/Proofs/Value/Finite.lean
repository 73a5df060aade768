import MaterialShader.Graph.Fold
import MaterialShader.Proofs.Numeric.Overflow
import MaterialShader.Proofs.Value.Integer

/-!
Literals with finite components.
-/

namespace MaterialShader

open List Result Option
open Numeric

variable {x : Single} {j : Json}

theorem Numeric.Single.isFinite_iff : x.isFinite ↔ ∃ q, x.reading.rational? = some q := by
  rw [isFinite, ← Reading.rational?_isSome, isSome_iff_exists]

theorem Numeric.Single.rational?_zero : Single.zero.reading.rational? = some 0 := by
  rw [show Single.zero.reading = .finite false 0 (-149) by decide, Reading.rational?_finite]
  simp [signedDyadic]

def Numeric.Double.Exceeds (d : Double) : Prop :=
  ∀ q, d.reading.rational? = some q → singleLimit ≤ |q|

theorem Numeric.Double.isFinite_toSingle (d : Double) :
    d.toSingle.isFinite ↔ ¬ d.Exceeds := by
  unfold toSingle Exceeds
  cases word : d.reading with
  | finite negative m e =>
    rw [Single.isFinite_ofReading (Reading.rational?_finite negative m e)]
    simp [Reading.rational?_finite]
  | infinite negative =>
    cases negative <;> exact iff_of_false (by decide) (by simp [Reading.rational?])
  | notANumber => exact iff_of_false (by decide) (by simp [Reading.rational?])

/-- The numbers that a literal is made of: the value itself, or the items of an array. -/
def Json.numbers : Json → List Double
  | .arr js => js.filterMap asDouble?
  | j => j.asDouble?.toList

theorem Json.isFinite_asSingle? (read : j.asSingle? = some x)
    (inside : ∀ d, j.asDouble? = some d → ¬ d.Exceeds) : x.isFinite := by
  obtain ⟨d, number, rfl⟩ := map_eq_some_iff.1 read
  exact d.isFinite_toSingle.2 (inside d number)

theorem Json.mem_numbers {d : Double} (number : j.asDouble? = some d) : d ∈ j.numbers := by
  cases j with
  | arr js => cases number
  | null | bool | int | float | str | obj | unreadable => simpa [numbers] using number

theorem Json.asInt32?_range {n : Int} (read : j.asInt32? = some n) : -2 ^ 31 ≤ n ∧ n < 2 ^ 31 := by
  obtain ⟨whole, _, inside | ⟨_, below | above⟩⟩ := asInt32?_eq_some_iff.1 read <;> omega

namespace Value

/-- The components that a literal holds as floats. -/
def floatComponents : Value → List Single
  | .float x => [x]
  | .floats xs => xs
  | .floatArray xs => xs
  | _ => []

def integers : Value → List Int
  | .integer n => [n]
  | .integerArray ns => ns
  | _ => []

structure Bounded (v : Value) : Prop where
  finite : ∀ x ∈ v.floatComponents, x.isFinite = true
  range : ∀ n ∈ v.integers, -2 ^ 31 ≤ n ∧ n < 2 ^ 31

theorem bounded_float (finite : x.isFinite) : (Value.float x).Bounded :=
  ⟨by simpa [floatComponents], by simp [integers]⟩

variable {xs : List Single} {v : Value} {t : ShaderType}

theorem bounded_floats (finite : ∀ x ∈ xs, x.isFinite) : (Value.floats xs).Bounded :=
  ⟨finite, by simp [integers]⟩

theorem bounded_integer {n : Int} (range : -2 ^ 31 ≤ n ∧ n < 2 ^ 31) :
    (Value.integer n).Bounded :=
  ⟨by simp [floatComponents], by simpa [integers]⟩

theorem Bounded.components (bounded : v.Bounded) (given : v.components? = some xs) :
    ∀ x ∈ xs, x.isFinite := by
  cases v with
  | float x => cases given; exact bounded.finite
  | floats ys => cases given; exact bounded.finite
  | boolean b =>
    cases given
    cases b <;> simp only [forall_mem_singleton] <;> decide
  | integer n =>
    cases given
    have range := bounded.range n mem_cons_self
    rw [forall_mem_singleton, Single.isFinite_ofInt, abs_lt, singleLimit]
    have low : (-2 ^ 31 : ℚ) ≤ n := by exact_mod_cast range.1
    have high : (n : ℚ) < 2 ^ 31 := by exact_mod_cast range.2
    constructor <;> linarith
  | text | integerArray | floatArray => cases given

theorem items_isFinite {what : String} {js : List Json}
    (run : items t what Json.asSingle? js = .ok xs)
    (inside : ∀ d ∈ (Json.arr js).numbers, ¬ d.Exceeds) : ∀ x ∈ xs, x.isFinite := by
  intro x member
  obtain ⟨j, listed, read⟩ := exists_of_mem_right (items_eq_ok_iff.1 run) member
  exact Json.isFinite_asSingle? read fun d number =>
    inside d (mem_filterMap.2 ⟨j, listed, number⟩)

section

variable (inside : ∀ d ∈ j.numbers, ¬ d.Exceeds)

include inside

theorem arrayOfJson_bounded (run : arrayOfJson t j = .ok v) : v.Bounded := by
  cases j with
  | arr js =>
    simp only [arrayOfJson] at run
    split_ifs at run with integer
    · obtain ⟨ns, read, rfl⟩ := map_ok.1 run
      refine ⟨by simp [floatComponents], fun n member => ?_⟩
      obtain ⟨j, _, read⟩ := exists_of_mem_right (items_eq_ok_iff.1 read) member
      exact Json.asInt32?_range read
    · obtain ⟨xs, read, rfl⟩ := map_ok.1 run
      exact ⟨items_isFinite read inside, by simp [integers]⟩
  | null | bool | int | float | str | obj | unreadable => cases run

theorem aggregateOfJson_bounded (run : aggregateOfJson t j = .ok v) : v.Bounded := by
  unfold aggregateOfJson at run
  cases single : j.asSingle? with
  | some x =>
    simp only [single] at run
    cases run
    have finite := Json.isFinite_asSingle? single fun d number => inside d (Json.mem_numbers number)
    exact bounded_floats fun y member => eq_of_mem_replicate member ▸ finite
  | none =>
    simp only [single] at run
    cases j with
    | arr js =>
      simp only at run
      split_ifs at run
      · obtain ⟨xs, read, rfl⟩ := map_ok.1 run
        exact bounded_floats (items_isFinite read inside)
      · cases run
    | null | bool | int | float | str | obj | unreadable => cases run

theorem ofJson_bounded (run : ofJson j t = .ok v) : v.Bounded := by
  unfold ofJson at run
  split at run
  · cases run
  · split at run
    · exact arrayOfJson_bounded inside run
    · cases base : t.base <;> simp only [base] at run
      case boolean =>
        cases truth : truthOfJson? j <;> simp only [truth] at run <;> cases run
        exact ⟨by simp [floatComponents], by simp [integers]⟩
      case integer =>
        cases read : j.asInt32? <;> simp only [read] at run <;> cases run
        exact bounded_integer (Json.asInt32?_range read)
      case string =>
        cases text : j.asString? <;> simp only [text] at run <;> cases run
        exact ⟨by simp [floatComponents], by simp [integers]⟩
      case float =>
        split_ifs at run
        · cases single : j.asSingle? <;> simp only [single] at run <;> cases run
          exact bounded_float
            (Json.isFinite_asSingle? single fun d number => inside d (Json.mem_numbers number))
        · exact aggregateOfJson_bounded inside run
      case none => cases run

end

theorem ofComponents_bounded (finite : ∀ x ∈ xs, x.isFinite)
    (run : ofComponents t xs = .ok v) : v.Bounded := by
  unfold ofComponents at run
  split_ifs at run
  · cases run
  · split at run
    · cases run
      exact bounded_float (finite _ mem_cons_self)
    · cases run
      exact bounded_floats finite

end Value

namespace Fold

variable {xs : List Single} {op : Operator}

theorem channel?_isFinite (finite : ∀ x ∈ xs, x.isFinite) {c : Char}
    (picked : channel? xs c = some x) : x.isFinite := by
  unfold channel? at picked
  split_ifs at picked
  · cases picked
    decide
  · cases picked
    decide
  all_goals exact finite x (mem_of_getElem? picked)

theorem channels_isFinite (finite : ∀ x ∈ xs, x.isFinite) {channels : List Char}
    {ys : List Single} (picked : channels.mapM (channel? xs) = some ys) :
    ∀ y ∈ ys, y.isFinite := by
  induction channels generalizing ys with
  | nil =>
    cases picked
    exact nofun
  | cons c rest ih =>
    rw [mapM_cons] at picked
    obtain ⟨y, here, picked⟩ := bind_eq_some_iff.1 picked
    obtain ⟨others, later, picked⟩ := bind_eq_some_iff.1 picked
    cases picked
    exact forall_mem_cons.2 ⟨channel?_isFinite finite here, ih later⟩

theorem convertValue?_bounded {v w : Value} {c : Conversion} {t : ShaderType} (bounded : v.Bounded)
    (computed : convertValue? v c t = some w) : w.Bounded := by
  obtain ⟨xs, components, computed⟩ := bind_eq_some_iff.1 computed
  have finite := bounded.components components
  have built : ∃ ys, (∀ y ∈ ys, y.isFinite) ∧
      (Value.ofComponents t ys).toOption = some w := by
    cases c with
    | splat =>
      obtain ⟨ys, spread, computed⟩ := bind_eq_some_iff.1 computed
      obtain ⟨x, head, rfl⟩ := map_eq_some_iff.1 spread
      refine ⟨_, fun y member => ?_, computed⟩
      rw [eq_of_mem_replicate member]
      exact finite x (mem_of_mem_head? head)
    | cast => exact ⟨xs, finite, computed⟩
    | reinterpret => exact ⟨xs, finite, computed⟩
    | swizzle channels =>
      obtain ⟨ys, picked, computed⟩ := bind_eq_some_iff.1 computed
      exact ⟨ys, channels_isFinite finite picked, computed⟩
  obtain ⟨ys, finite, built⟩ := built
  exact Value.ofComponents_bounded finite (toOption_eq_some.1 built)

def Operator.exact : Operator → ℚ → ℚ → ℚ
  | .add, p, q => p + q
  | .subtract, p, q => p - q
  | .multiply, p, q => p * q
  | .divide, p, q => p / q
  | .min, p, q => Min.min p q
  | .max, p, q => Max.max p q

theorem Operator.isFinite_result {y z : Single} {p q : ℚ} (left : x.reading.rational? = some p)
    (right : y.reading.rational? = some q) (run : op.apply? x y = some z) :
    z.isFinite ↔ |op.exact p q| < singleLimit := by
  have of_left := Single.rational_lt_limit left
  have of_right := Single.rational_lt_limit right
  have finite_left : x.isFinite := Single.isFinite_iff.2 ⟨p, left⟩
  have finite_right : y.isFinite := Single.isFinite_iff.2 ⟨q, right⟩
  cases op with
  | add =>
    cases run
    exact Single.isFinite_ofReading (Reading.rational?_add left right)
  | subtract =>
    cases run
    rw [exact, sub_eq_add_neg]
    exact Single.isFinite_ofReading (Reading.rational?_add left (Reading.rational?_negate right))
  | multiply =>
    cases run
    exact Single.isFinite_ofReading (Reading.rational?_mul left right)
  | divide =>
    unfold Operator.apply? at run
    split_ifs at run with zero
    cases run
    refine Single.isFinite_div left right fun none => zero ?_
    exact (Reading.eq_iff right Single.rational?_zero).2 none
  | min =>
    cases run
    refine iff_of_true ?_ ?_
    · rw [Single.min]
      split_ifs
      · exact finite_right
      · exact finite_left
    · rw [exact]
      exact min_rec' (fun r => |r| < singleLimit) of_left of_right
  | max =>
    cases run
    refine iff_of_true ?_ ?_
    · rw [Single.max]
      split_ifs
      · exact finite_right
      · exact finite_left
    · rw [exact]
      exact max_rec' (fun r => |r| < singleLimit) of_left of_right

def Operator.Overflows (op : Operator) (xs ys : List Single) : Prop :=
  ∃ as bs, broadcast? (Nat.max xs.length ys.length) xs = some as ∧
    broadcast? (Nat.max xs.length ys.length) ys = some bs ∧
    ∃ pair ∈ as.zip bs, ∃ p q, pair.1.reading.rational? = some p ∧
      pair.2.reading.rational? = some q ∧ singleLimit ≤ |op.exact p q|

theorem broadcast?_isFinite {n : Nat} {as : List Single} (finite : ∀ x ∈ xs, x.isFinite)
    (run : broadcast? n xs = some as) : ∀ a ∈ as, a.isFinite := by
  unfold broadcast? at run
  split_ifs at run
  · cases run
    exact finite
  · split at run
    · cases run
      intro a member
      rw [eq_of_mem_replicate member]
      exact finite _ mem_cons_self
    · cases run

theorem applyAll?_isFinite {as bs zs : List Single} (run : applyAll? op as bs = some zs)
    (each : ∀ pair ∈ as.zip bs, ∀ z, op.apply? pair.1 pair.2 = some z → z.isFinite) :
    ∀ z ∈ zs, z.isFinite := by
  induction as generalizing bs zs with
  | nil =>
    cases run
    exact nofun
  | cons a as ih =>
    cases bs with
    | nil =>
      cases run
      exact nofun
    | cons b bs =>
      rw [zip_cons_cons, forall_mem_cons] at each
      obtain ⟨z, here, run⟩ := bind_eq_some_iff.1 run
      obtain ⟨others, later, run⟩ := bind_eq_some_iff.1 run
      cases run
      exact forall_mem_cons.2 ⟨each.1 z here, ih later each.2⟩

theorem arithmetic?_bounded {ys : List Single} {t : ShaderType} {w : Value}
    (left : ∀ x ∈ xs, x.isFinite) (right : ∀ y ∈ ys, y.isFinite)
    (inside : ¬ op.Overflows xs ys) (computed : arithmetic? op xs ys t = some w) : w.Bounded := by
  simp only [arithmetic?] at computed
  split at computed
  · cases computed
  · obtain ⟨as, first, computed⟩ := bind_eq_some_iff.1 computed
    obtain ⟨bs, second, computed⟩ := bind_eq_some_iff.1 computed
    obtain ⟨zs, all, computed⟩ := bind_eq_some_iff.1 computed
    have built := toOption_eq_some.1 computed
    refine Value.ofComponents_bounded (applyAll?_isFinite all ?_) built
    intro pair member z run
    obtain ⟨in_left, in_right⟩ := of_mem_zip member
    obtain ⟨p, of_left⟩ := Single.isFinite_iff.1 (broadcast?_isFinite left first _ in_left)
    obtain ⟨q, of_right⟩ := Single.isFinite_iff.1 (broadcast?_isFinite right second _ in_right)
    refine (Operator.isFinite_result of_left of_right run).2 (not_le.1 fun beyond => inside ?_)
    exact ⟨as, bs, first, second, pair, member, p, q, of_left, of_right, beyond⟩

end Fold

end MaterialShader
