import MaterialShader.Proofs.Emission.Declaration
import MaterialShader.Proofs.Graph.WellFormed
import MaterialShader.Proofs.Text.Plain
import MaterialShader.Proofs.Value.HasType

/-!
Expressions of the hardware dialects are plain:
-/

namespace MaterialShader

open List Text
open Numeric

def LiteralForm.texts : LiteralForm → List String
  | .nestedColor inner _ => [inner]
  | .items opening closing | .resource opening closing => [opening, closing]
  | _ => []

def LiteralForm.quotes : LiteralForm → Bool
  | .quoted | .resource .. => true
  | _ => false

structure TypeForm.IsPlain (f : TypeForm) : Prop where
  name : Text.isPlain f.name = true
  constructorText : Text.isPlain f.constructorText = true
  initial : Text.isPlain f.initial = true
  uniformInitial : Text.isPlain f.uniformInitial = true
  members : ∀ text ∈ f.members, Text.isPlain text = true
  definitions : ∀ text ∈ f.definition.toList ++ f.aliasText.toList, Text.isPlain text = true
  literal : ∀ text ∈ f.literal.texts, Text.isPlain text = true
  quoteless : f.literal.quotes = false

def TypeForm.isPlain (f : TypeForm) : Bool :=
  (f.name :: f.constructorText :: f.initial :: f.uniformInitial ::
    (f.members ++ (f.definition.toList ++ f.aliasText.toList) ++ f.literal.texts)).all
      (hasOnlyBytes isPlainChar) && !f.literal.quotes

theorem TypeForm.isPlain_spec {f : TypeForm} (plain : f.isPlain) : f.IsPlain := by
  obtain ⟨texts, quoteless⟩ := Bool.and_eq_true_iff.1 plain
  have all := fun text member => hasOnly_of_bytes (all_eq_true.1 texts text member)
  simp only [forall_mem_cons, forall_mem_append] at all
  obtain ⟨name, constructorText, initial, uniformInitial, ⟨members, definitions⟩, literal⟩ := all
  exact ⟨name, constructorText, initial, uniformInitial, members, forall_mem_append.2 definitions,
    literal, by simpa using quoteless⟩

def Dialect.ignoresTexts (d : Dialect) : Bool :=
  Registry.standard.types.all fun t =>
    t.base != .string ||
      match d.form t with
      | .ok f => f.literal == .fixed
      | .error _ => true

structure Dialect.IsPlain (d : Dialect) : Prop where
  forms : ∀ entry ∈ d.forms, entry.2.IsPlain
  texts : d.ignoresTexts = true
  output : Text.isPlain d.outputQualifier = true

theorem Dialect.hardware_isPlain {target : Target} (hardware : target.isHardware) :
    (Dialect.ofTarget target).IsPlain := by
  have forms : ([Target.glsl, Target.msl].all fun target =>
      (Dialect.ofTarget target).forms.all fun entry => entry.2.isPlain) := by
    decide
  have texts : ([Target.glsl, Target.msl].all fun target =>
      (Dialect.ofTarget target).ignoresTexts && isPlain (Dialect.ofTarget target).outputQualifier) := by
    decide
  simp only [all_eq_true, Bool.and_eq_true] at forms texts
  have listed := Target.mem_hardware hardware
  exact ⟨fun entry member => TypeForm.isPlain_spec (forms _ listed entry member),
    (texts _ listed).1, (texts _ listed).2⟩

theorem Dialect.IsPlain.fixed_of_string {d : Dialect} (plain : d.IsPlain) {t : ShaderType}
    (known : Registry.standard.Knows t) (text : t.base = .string) {f : TypeForm}
    (formed : d.form t = .ok f) : f.literal = .fixed := by
  have all := plain.texts
  rw [Dialect.ignoresTexts, all_eq_true] at all
  simpa [text, formed] using all t (mem_of_find?_eq_some known)

theorem Value.isPlain_shown {v : Value} (other : ∀ text, v ≠ .text text) :
    isPlain v.shown := by
  have comma : isPlain ", " := by decide
  have number (x : Single) : isPlain x.literal := isPlain_of_isWord x.isWord_literal
  have integer (n : Int) : isPlain (intText n) := isPlain_of_isWord (isWord_intText n)
  cases v with
  | boolean b => cases b <;> decide
  | integer n => exact integer n
  | float x => exact number x
  | floats xs | floatArray xs => exact hasOnly_join comma (by simpa using fun x _ => number x)
  | text text => exact absurd rfl (other text)
  | integerArray ns => exact hasOnly_join comma (by simpa using fun n _ => integer n)

namespace Dialect

open Result.Ensures

variable {d : Dialect} {t result : ShaderType}

theorem commaList_plain {texts : List String} (all : ∀ text ∈ texts, isPlain text) :
    isPlain (commaList texts) :=
  hasOnly_join (by decide) all

theorem call_plain {name : String} {arguments : List String} (function : isPlain name)
    (all : ∀ text ∈ arguments, isPlain text) :
    isPlain (call name arguments) := by
  have inner := commaList_plain all
  simp +decide [call, function, inner]

theorem nestColor_plain {inner : String} {components : List String}
    (function : isPlain inner)
    (all : ∀ text ∈ components, isPlain text) :
    ∀ text ∈ nestColor inner components, isPlain text := by
  intro text member
  simp only [nestColor, mem_cons, not_mem_nil, or_false] at member
  obtain rfl | rfl := member
  · exact call_plain function fun text listed => all text (mem_of_mem_take listed)
  · rw [getD_eq_getElem?_getD]
    cases found : components[3]? with
    | some text => exact all text (mem_of_getElem? found)
    | none => rfl

theorem padRows_plain {rows : List String} (all : ∀ text ∈ rows, isPlain text) :
    ∀ text ∈ padRows rows, isPlain text := by
  fun_induction padRows rows with
  | case1 a b c rest ih =>
    simp only [mem_cons, forall_eq_or_imp] at all ⊢
    exact ⟨all.1, all.2.1, all.2.2.1, by decide, ih all.2.2.2⟩
  | case2 => decide

theorem form_plain (plain : d.IsPlain) : (d.form t).Ensures TypeForm.IsPlain := by
  intro f ok
  have found : Assoc.get? t.name d.forms = some f := orFail_ok.1 (Result.inside_ok.1 ok)
  have member : (t.name, f) ∈ d.forms := Assoc.mem_of_get? found
  exact plain.forms (t.name, f) member

theorem typeName_plain (plain : d.IsPlain) : (d.typeName t).Ensures (isPlain ·) :=
  bind fun f formed => pure (form_plain plain f formed).name

theorem outputTypeName_plain (plain : d.IsPlain) :
    (d.outputTypeName t).Ensures (isPlain ·) := by
  refine bind fun name named => ?_
  have type := typeName_plain plain name named
  split
  · exact pure (by simp +decide [plain.output, type])
  · split
    · exact pure type
    · exact pure (by simp +decide [plain.output, type])

theorem initialValue_plain (plain : d.IsPlain) (uniform : Bool) :
    (d.initialValue t uniform).Ensures (isPlain ·) := by
  refine bind fun f formed => pure ?_
  split
  · exact (form_plain plain f formed).uniformInitial
  · exact (form_plain plain f formed).initial

theorem componentTexts_plain (v : Value) :
    (componentTexts t v).Ensures fun texts => ∀ text ∈ texts, isPlain text := by
  unfold componentTexts
  split
  · exact of_fail _
  · split
    · refine pure ?_
      simpa using fun x _ => isPlain_of_isWord x.isWord_literal
    · exact of_fail _

theorem scalarText_plain {v : Value} (other : ∀ text, v ≠ .text text) :
    isPlain (scalarText t v) := by
  unfold scalarText
  split
  · exact isPlain_of_isWord (Single.isWord_literal _)
  · exact isPlain_of_isWord (Value.isWord_intText _)
  · exact Value.isPlain_shown other

theorem literal_plain (plain : d.IsPlain) (known : Registry.standard.Knows t) {v : Value}
    (typed : v.HasType t) (uniform : Bool) : (d.literal t v uniform).Ensures (isPlain ·) := by
  refine bind fun f formed => ?_
  have texts := form_plain plain f formed
  have other (loose : f.literal ≠ .fixed) (text : String) : v ≠ .text text := by
    rintro rfl
    exact loose (plain.fixed_of_string known typed.1 formed)
  have literal := texts.literal
  have quoteless := texts.quoteless
  cases form : f.literal with
  | fixed =>
    dsimp only
    split
    · exact pure texts.uniformInitial
    · exact pure texts.initial
  | quoted | resource => simp [form, LiteralForm.quotes] at quoteless
  | numericTruth =>
    have shown := Value.isPlain_shown (other (by simp [form]))
    cases v with
    | boolean b => cases b <;> exact pure (by decide)
    | _ => exact pure shown
  | scalar => exact pure (scalarText_plain (other (by simp [form])))
  | items opening closing =>
    simp only [form, LiteralForm.texts, forall_mem_cons] at literal
    cases v with
    | floatArray xs =>
      have items : isPlain (commaList (xs.map Single.literal)) :=
        commaList_plain (by simpa using fun x _ => isPlain_of_isWord x.isWord_literal)
      exact pure (by simp [literal, items])
    | integerArray ns =>
      have items : isPlain (commaList (ns.map Value.intText)) :=
        commaList_plain (by simpa using fun n _ => isPlain_of_isWord (Value.isWord_intText n))
      exact pure (by simp [literal, items])
    | _ => exact of_fail _
  | constructed bracedUniform =>
    refine bind fun components texts' => ?_
    have parts := componentTexts_plain v components texts'
    have list := commaList_plain parts
    split
    · exact pure (by simp +decide [braced, list])
    · exact pure (call_plain texts.constructorText parts)
  | nestedColor inner bracedUniform =>
    simp only [form, LiteralForm.texts, forall_mem_cons] at literal
    refine bind fun components texts' => ?_
    have parts := nestColor_plain literal.1 (componentTexts_plain v components texts')
    have list := commaList_plain parts
    split
    · exact pure (by simp +decide [braced, list])
    · exact pure (call_plain texts.constructorText parts)
  | paddedMatrix =>
    refine bind fun components texts' => pure ?_
    exact call_plain texts.constructorText (padRows_plain (componentTexts_plain v components texts'))

theorem construct_plain (plain : d.IsPlain) {components : List String}
    (all : ∀ text ∈ components, isPlain text) :
    (d.construct t components).Ensures (isPlain ·) := by
  refine bind fun f formed => ?_
  have texts := form_plain plain f formed
  have literal := texts.literal
  have first : isPlain (components.headD "") := by
    cases components with
    | nil => rfl
    | cons text _ => exact all text mem_cons_self
  split
  · exact of_fail _
  · cases form : f.literal with
    | scalar | numericTruth => exact pure first
    | nestedColor inner _ =>
      simp only [form, LiteralForm.texts, forall_mem_cons] at literal
      exact pure (call_plain texts.constructorText (nestColor_plain literal.1 all))
    | constructed _ => exact pure (call_plain texts.constructorText all)
    | _ => exact of_fail _

theorem member_plain (plain : d.IsPlain) {variableName : String}
    (source : isPlain variableName) (index : Nat) :
    (d.member variableName t index).Ensures (isPlain ·) := by
  unfold member
  split
  · exact pure source
  · refine bind fun f formed => ?_
    split
    · rename_i access found
      have own := (form_plain plain f formed).members access (mem_of_getElem? found)
      exact pure (hasOnly_replaceAll (by decide) own source)
    · exact of_fail _

theorem swizzle_plain (plain : d.IsPlain) {source : String} (text : isPlain source)
    (channels : String) : (d.swizzle source t channels result).Ensures (isPlain ·) := by
  have channel (c : Char) : (d.channelText source t channels c).Ensures (isPlain ·) := by
    unfold channelText
    split
    · exact of_fail _
    · rename_i constant letter
      refine pure ?_
      unfold channel? at letter
      split_ifs at letter <;> cases letter <;> decide
    · split
      · exact of_fail _
      · exact member_plain plain text _
  refine bind fun parts picked => ?_
  have all : ∀ part ∈ parts, isPlain part := by
    intro part member
    obtain ⟨c, _, ok⟩ := exists_of_mem_right (Result.mapM_ok picked) member
    exact channel c part ok
  split
  · split
    · exact pure (all _ mem_cons_self)
    · exact of_fail _
  · exact construct_plain plain all

theorem convert_plain (plain : d.IsPlain) {source : String} (text : isPlain source)
    (c : Conversion) : (d.convert c t result source).Ensures (isPlain ·) := by
  have single : ∀ part ∈ [source], isPlain part := by simpa using text
  cases c with
  | splat =>
    refine construct_plain plain fun part member => ?_
    rwa [eq_of_mem_replicate member]
  | cast =>
    exact bind fun name named => pure (call_plain (typeName_plain plain name named) single)
  | reinterpret =>
    refine bind fun name named => bind fun f formed => ?_
    have last (isConstructed : Bool) :
        (if isConstructed && t.isFloat3 then Pure.pure (call f.constructorText [source])
        else d.swizzle source t (String.ofList (channelLetters.toList.take result.size))
          result : Result String).Ensures (isPlain ·) := by
      split
      · exact pure (call_plain (form_plain plain f formed).constructorText single)
      · exact swizzle_plain plain text _
    split
    · exact pure text
    · exact last _
  | swizzle channels => exact swizzle_plain plain text channels

theorem typeDefinitions_plain (plain : d.IsPlain) :
    ∀ text ∈ d.typeDefinitions, isPlain text := by
  intro text member
  obtain ⟨entry, listed, own⟩ := mem_flatMap.1 member
  exact (plain.forms entry listed).definitions text own

end Dialect

end MaterialShader
