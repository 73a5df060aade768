import MaterialShader.Dialect.Expression
import MaterialShader.Dialect.Languages
import MaterialShader.Proofs.Graph.WellFormed
import MaterialShader.Proofs.Value.HasType

/-!
Literals that fit their type can be written.
-/

namespace MaterialShader

def LiteralForm.takes (t : ShaderType) : LiteralForm → Bool
  | .constructed _ | .nestedColor _ _ | .paddedMatrix => t.base == .float && decide (1 < t.size)
  | .items _ _ => t.size == 0
  | _ => true

namespace Dialect

theorem componentTexts_ok {t : ShaderType} {v : Value} (typed : v.HasType t)
    (float : t.base = .float) (several : 1 < t.size) : ∃ cs, componentTexts t v = .ok cs := by
  cases v with
  | floats xs => exact ⟨_, if_pos typed.2.2⟩
  | float => exact absurd typed.2 (by omega)
  | floatArray => exact absurd typed.2 (by omega)
  | boolean | integer | text | integerArray => simp [Value.HasType, float] at typed

theorem literal_ok {d : Dialect} {t : ShaderType} {f : TypeForm} (formed : d.form t = .ok f)
    (takes : f.literal.takes t) {v : Value} (typed : v.HasType t) (uniform : Bool) :
    ∃ text, d.literal t v uniform = .ok text := by
  have components (aggregate : (t.base == .float && decide (1 < t.size))) :
      ∃ cs, componentTexts t v = .ok cs := by
    rw [Bool.and_eq_true, beq_iff_eq, decide_eq_true_eq] at aggregate
    exact componentTexts_ok typed aggregate.1 aggregate.2
  have step (g : TypeForm → Result String) : Except.ok f >>= g = g f := rfl
  unfold literal
  rw [formed, step]
  cases form : f.literal with
  | scalar | quoted | fixed => exact ⟨_, rfl⟩
  | numericTruth => cases v <;> exact ⟨_, rfl⟩
  | resource opening closing =>
    cases v.text? with
    | none => exact ⟨_, rfl⟩
    | some path => cases empty : path.isEmpty <;> simp [empty, pure, Except.pure]
  | items opening closing =>
    simp only [form, LiteralForm.takes, beq_iff_eq] at takes
    cases v with
    | integerArray | floatArray => exact ⟨_, rfl⟩
    | boolean | integer | float | text => exact absurd typed.2 (by omega)
    | floats => exact absurd typed.2.1 (by omega)
  | constructed bracedUniform | nestedColor inner bracedUniform =>
    obtain ⟨cs, texts⟩ := components (by simpa only [form, LiteralForm.takes] using takes)
    simp only [Result.bind_ok, texts]
    cases uniform && bracedUniform <;> exact ⟨_, cs, rfl, rfl⟩
  | paddedMatrix =>
    obtain ⟨cs, texts⟩ := components (by simpa only [form, LiteralForm.takes] using takes)
    exact ⟨_, Result.bind_ok.2 ⟨cs, texts, rfl⟩⟩

theorem ofTarget_form (target : Target) {t : ShaderType} (known : Registry.standard.Knows t)
    (valued : t.base ≠ .none ∨ t.isClosure) :
    ∃ f, (Dialect.ofTarget target).form t = .ok f ∧ f.literal.takes t := by
  have all : (Registry.standard.types.all fun t =>
      (t.base == .none && !t.isClosure) ||
        (Assoc.get? t.name (Dialect.ofTarget target).forms).any fun f => f.literal.takes t) := by
    cases target <;> decide
  have here := List.all_eq_true.1 all t (List.mem_of_find?_eq_some known)
  have carries : (t.base == .none && !t.isClosure) = false := by
    obtain base | closure := valued
    · simp [base]
    · simp [closure]
  rw [carries, Bool.false_or, Option.any_eq_true] at here
  obtain ⟨f, found, takes⟩ := here
  exact ⟨f, Result.inside_ok.2 (orFail_ok.2 found), takes⟩

def padded : List String → List String
  | [a, b, c, d, e, f, g, h, i] =>
    [a, b, c, "0.0", d, e, f, "0.0", g, h, i, "0.0", "0.0", "0.0", "0.0", "1.0"]
  | components => components

def paired : List String → List String
  | [r, g, b, a] => [call "color" [r, g, b], a]
  | components => components

def arranged (target : Target) (typeName : String) (components : List String) : List String :=
  if target = .osl ∧ typeName = "matrix33" then padded components
  else if target = .osl ∧ typeName = "color4" then paired components
  else components

def isBraced (target : Target) (typeName : String) : Bool :=
  target == .osl && ["color4", "vector2", "vector4"].contains typeName

def aggregateText (target : Target) (f : TypeForm) (typeName : String) (uniform : Bool)
    (components : List String) : String :=
  if uniform && isBraced target typeName then
    braced (commaList (arranged target typeName components))
  else call f.constructorText (arranged target typeName components)

def aggregateForm (target : Target) (typeName : String) : LiteralForm :=
  if target = .osl ∧ typeName = "matrix33" then .paddedMatrix
  else if target = .osl ∧ typeName = "color4" then .nestedColor "color" true
  else .constructed (isBraced target typeName)

theorem ofTarget_aggregate (target : Target) {t : ShaderType} (known : Registry.standard.Knows t)
    (aggregate : t.isAggregate) : ∃ f, (ofTarget target).form t = .ok f ∧
      f.literal = aggregateForm target t.name ∧ (t.name = "matrix33" → t.size = 9) ∧
      (t.name = "color4" → t.size = 4) := by
  have all : Registry.standardTypes.all fun t => !t.isAggregate ||
      ((ofTarget target).form t).toOption.any fun f => f.literal = aggregateForm target t.name ∧
        (t.name = "matrix33" → t.size = 9) ∧ (t.name = "color4" → t.size = 4) := by
    cases target <;> decide
  have here := List.all_eq_true.1 all t (List.mem_of_find?_eq_some known)
  rw [aggregate, Bool.not_true, Bool.false_or] at here
  obtain ⟨f, form, facts⟩ := (Option.any_eq_true _ _).1 here
  exact ⟨f, Result.toOption_eq_some.1 form, of_decide_eq_true facts⟩

theorem literal_aggregate {target : Target} {t : ShaderType} (known : Registry.standard.Knows t)
    (aggregate : t.isAggregate) {xs : List Numeric.Single} (length : xs.length = t.size)
    (uniform : Bool) : ∃ f, (ofTarget target).form t = .ok f ∧
      (ofTarget target).literal t (.floats xs) uniform =
        .ok (aggregateText target f t.name uniform (xs.map Numeric.Single.literal)) := by
  obtain ⟨f, form, written, matrix, color⟩ := ofTarget_aggregate target known aggregate
  refine ⟨f, form, ?_⟩
  have components : componentTexts t (.floats xs) = .ok (xs.map Numeric.Single.literal) := by
    simp [componentTexts, Value.components?, length]
  have step (g : TypeForm → Result String) : Except.ok f >>= g = g f := rfl
  unfold literal aggregateText arranged
  unfold aggregateForm at written
  rw [form, step]
  by_cases matrix33 : target = .osl ∧ t.name = "matrix33"
  · rw [if_pos matrix33] at written ⊢
    simp only [written, components]
    match xs, length.trans (matrix matrix33.2) with
    | [a, b, c, d, e, f, g, h, i], _ => simp [isBraced, matrix33]; rfl
  rw [if_neg matrix33] at written ⊢
  by_cases color4 : target = .osl ∧ t.name = "color4"
  · rw [if_pos color4] at written ⊢
    simp only [written, components]
    match xs, length.trans (color color4.2) with
    | [r, g, b, a], _ => simp [isBraced, color4]; cases uniform <;> rfl
  · rw [if_neg color4] at written ⊢
    simp only [written, components]
    cases uniform && isBraced target t.name <;> rfl

end Dialect

/-- Every literal that a standard type accepts can be written in every dialect. An aggregate is
written with all its components in order. -/
theorem accepted_literals_render {t : ShaderType} (known : Registry.standard.Knows t) {v : Value}
    (accepted : (∃ j, Value.ofJson j t = .ok v) ∨ ∃ xs, Value.ofComponents t xs = .ok v)
    (target : Target) (uniform : Bool) :
    ∃ text, (Dialect.ofTarget target).literal t v uniform = .ok text ∧
      (t.isAggregate → ∃ xs f, v = .floats xs ∧ xs.length = t.size ∧
        (Dialect.ofTarget target).form t = .ok f ∧
        text = Dialect.aggregateText target f t.name uniform (xs.map Numeric.Single.literal)) := by
  have typed : v.HasType t := by
    obtain ⟨j, read⟩ | ⟨xs, built⟩ := accepted
    · exact Value.ofJson_hasType (Registry.find?_standard_regular known) read
    · exact Value.ofComponents_hasType built
  by_cases aggregate : t.isAggregate
  · have several : 1 < t.size := by simpa [ShaderType.isAggregate] using aggregate
    cases v with
    | floats xs =>
      obtain ⟨f, form, written⟩ := Dialect.literal_aggregate known aggregate typed.2.2 uniform
      exact ⟨_, written, fun _ => ⟨xs, f, rfl, typed.2.2, form, rfl⟩⟩
    | _ => exact absurd typed.2 (by omega)
  · have valued : t.base ≠ .none := by
      cases v <;> simp [typed.1]
    obtain ⟨f, form, takes⟩ := Dialect.ofTarget_form target known (.inl valued)
    obtain ⟨text, written⟩ := Dialect.literal_ok form takes typed uniform
    exact ⟨text, written, fun other => absurd other aggregate⟩

def Registry.matrix33 : ShaderType :=
  ⟨"matrix33", .float, .matrix, 9, true, identity 3⟩

theorem accepted_literals_render_matrix :
    ∃ text, (Dialect.ofTarget .osl).literal Registry.matrix33 (.floats (.replicate 9 .one)) true =
        .ok text ∧
      ∃ xs f, Value.floats (.replicate 9 .one) = .floats xs ∧ xs.length = 9 ∧
        (Dialect.ofTarget .osl).form Registry.matrix33 = .ok f ∧
        text = Dialect.aggregateText .osl f "matrix33" true (xs.map Numeric.Single.literal) := by
  obtain ⟨text, written, shape⟩ := accepted_literals_render (t := Registry.matrix33)
    (by decide) (v := .floats (.replicate 9 .one))
    (.inr ⟨.replicate 9 .one, by decide⟩) .osl true
  exact ⟨text, written, shape (by decide)⟩

end MaterialShader
