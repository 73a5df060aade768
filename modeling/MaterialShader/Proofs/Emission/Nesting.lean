import MaterialShader.Assembly.SingleStage
import MaterialShader.Proofs.Dialect.Plain
import MaterialShader.Proofs.Emission.Scoped

/-!
The code around that of the nodes closes the scopes it opens.
-/

namespace MaterialShader

open List Result
open Code (Nested)
open Result.Ensures
open Text (isPlain)

variable {run : Run} {stage : Stage}

theorem Code.nested_map {α : Type} {f : α → Code} (flat : ∀ a, (f a).isFlat = true)
    (items : List α) : Nested (items.map f) :=
  .of_flat (forall_mem_map.2 fun a _ => flat a)

namespace Code

/-- A property of code that lines have, and what is made of them. Where lines are checked, that holds
of plain ones. -/
structure Closed (checked : Prop) (P : List Code → Prop) : Prop where
  nil : P []
  append {a b : List Code} : P a → P b → P (a ++ b)
  blank : P [.blank]
  line {text : String} : (checked → Text.isPlain text = true) → P [.line text]
  statement {text : String} : (checked → Text.isPlain text = true) → P [.statement text]
  block {head : String} {body : List Code} : (checked → Text.isPlain head = true) → P body →
    P (Code.block head body true)

theorem nested_closed : Closed False Nested where
  nil := .nil
  append := .append
  blank := .of_line rfl
  line _ := .of_line rfl
  statement _ := .of_line rfl
  block _ inner := inner.block _ true

namespace Closed

variable {checked : Prop} {P : List Code → Prop} (closed : Closed checked P) {texts : List String}

include closed

theorem cons {c : Code} {rest : List Code} (first : P [c]) (others : P rest) : P (c :: rest) :=
  closed.append first others

theorem statements (all : checked → ∀ text ∈ texts, Text.isPlain text) :
    P (texts.map Code.statement) := by
  induction texts with
  | nil => exact closed.nil
  | cons text rest ih =>
    simp only [forall_mem_cons] at all
    exact closed.cons (closed.statement fun c => (all c).1) (ih fun c => (all c).2)

theorem numbered {line : Nat → String → String}
    (all : checked → ∀ text ∈ texts, ∀ k, Text.isPlain (line k text)) (first : Nat) :
    P (Hardware.numbered line first texts) := by
  induction texts generalizing first with
  | nil => exact closed.nil
  | cons text rest ih =>
    simp only [forall_mem_cons] at all
    exact closed.cons (closed.statement fun c => (all c).1 first)
      (ih (fun c => (all c).2) (first + 1))

end Closed

end Code

structure Stage.NamesPlainly (stage : Stage) (d : Dialect) : Prop where
  dialect : d.IsPlain
  name : Text.isPlain stage.name = true
  members : ∀ block, ∀ v ∈ stage.members block, Text.isPlain v.name = true

namespace Hardware

theorem header_nested (target : Target) : Nested (header target) := by
  cases target <;> exact fun _ => rfl

theorem memberText_plain (types : run.dialect.IsPlain) {v : StageVariable} (name : isPlain v.name) :
    (memberText run v).Ensures (isPlain ·) := by
  refine bind fun typeName named => pure ?_
  have type := Dialect.typeName_plain types typeName named
  simp +decide [type, name]

theorem memberTexts_plain (types : run.dialect.IsPlain) {vs : List StageVariable}
    (names : ∀ v ∈ vs, isPlain v.name) :
    (vs.mapM (memberText run)).Ensures fun texts => ∀ text ∈ texts, isPlain text := by
  intro texts ok text member
  obtain ⟨v, listed, made⟩ := exists_of_mem_right (mapM_ok ok) member
  exact memberText_plain types (names v listed) text made

theorem samplerLine_plain {name : String} (plain : isPlain name) (binding : Nat) :
    isPlain (samplerLine binding name) := by
  unfold samplerLine
  simp +decide [plain]

theorem locationLine_plain {direction member : String} (word : isPlain direction)
    (plain : isPlain member) (location : Nat) : isPlain (locationLine direction location member) := by
  unfold locationLine
  simp +decide [word, plain]

theorem indexedLine_plain {what member : String} (word : isPlain what) (plain : isPlain member)
    (index : Nat) : isPlain (indexedLine what index member) := by
  unfold indexedLine
  simp +decide [word, plain]

section Interface

variable {checked : Prop} {P : List Code → Prop} (closed : Code.Closed checked P)
  (own : checked → stage.NamesPlainly run.dialect)

include closed own

theorem uniformBlock_closed (binding : Nat) {block : String} (word : isPlain block) :
    (uniformBlock run stage binding block).Ensures fun out => P out.1 := by
  have members {head : String} (first : checked → isPlain head) :
      (memberScope run head (plainUniforms stage block)).Ensures P := by
    refine bind fun texts ok => pure (closed.block first (closed.statements fun c => ?_))
    exact memberTexts_plain (own c).dialect
      (fun v member => (own c).members block v (mem_filter.1 member).1) texts ok
  have samplers (next : Nat) : P (if (textureUniforms stage block).isEmpty then [] else
      numbered samplerLine next ((textureUniforms stage block).map StageVariable.name) ++
        [.blank]) := by
    split
    · exact closed.nil
    · refine closed.append (closed.numbered (fun c => forall_mem_map.2 fun v member => ?_) next)
        closed.blank
      exact samplerLine_plain ((own c).members block v (mem_filter.1 member).1)
  unfold uniformBlock
  dsimp only
  split
  · split
    · exact pure closed.nil
    · refine bind fun code ok => pure (members (fun c => ?_) code ok)
      simp +decide [word, (own c).name]
  · split
    · exact pure (samplers binding)
    · refine bind fun code ok => pure (closed.append (members (fun c => ?_) code ok) (samplers _))
      simp +decide [word, (own c).name]

theorem uniformBlocks_closed (binding : Nat) :
    (uniformBlocks run stage binding).Ensures fun out => P out.1 := by
  refine bind fun generated ok => bind fun published ok' => pure (closed.append ?_ ?_)
  · exact uniformBlock_closed closed own binding (by decide) generated ok
  · exact uniformBlock_closed closed own generated.2 (by decide) published ok'

omit own in
theorem vertexDataCode_closed {members : List String}
    (plain : checked → ∀ text ∈ members, isPlain text) : P (vertexDataCode members) := by
  refine closed.block (fun _ => by decide) (closed.statements fun c => ?_)
  exact forall_mem_cons.2 ⟨by decide, plain c⟩

theorem vertexInterface_closed : (vertexInterface run stage).Ensures P := by
  refine bind fun inputs ok => bind fun connectors ok' => ?_
  have first (c : checked) :=
    memberTexts_plain (own c).dialect ((own c).members vertexInputs) inputs ok
  have second (c : checked) :=
    memberTexts_plain (own c).dialect ((own c).members vertexData) connectors ok'
  split
  · refine pure (closed.append (closed.block (fun _ => by decide) (closed.numbered ?_ 0))
      (vertexDataCode_closed closed second))
    exact fun c text member => indexedLine_plain (by decide) (first c text member)
  · refine pure (closed.append (closed.append (closed.append (closed.numbered ?_ 0) closed.blank)
      (closed.numbered ?_ 0)) closed.blank)
    · exact fun c text member => locationLine_plain (by decide) (first c text member)
    · exact fun c text member => locationLine_plain (by decide) (second c text member)

theorem pixelInterface_closed : (pixelInterface run stage).Ensures P := by
  refine bind fun connectors ok => bind fun outputs ok' => ?_
  have first (c : checked) :=
    memberTexts_plain (own c).dialect ((own c).members vertexData) connectors ok
  have second (c : checked) :=
    memberTexts_plain (own c).dialect ((own c).members pixelOutputs) outputs ok'
  split
  · refine pure (closed.append (vertexDataCode_closed closed first)
      (closed.block (fun _ => by decide) (closed.numbered ?_ 0)))
    exact fun c text member => indexedLine_plain (by decide) (second c text member)
  · have between : P (if connectors.isEmpty then [] else [.blank]) := by
      split
      · exact closed.nil
      · exact closed.blank
    refine pure (closed.append (closed.append (closed.append (closed.numbered ?_ 0) between)
      (closed.numbered ?_ 0)) closed.blank)
    · exact fun c text member => locationLine_plain (by decide) (first c text member)
    · exact fun c text member => locationLine_plain (by decide) (second c text member)

end Interface

theorem uniformBlocks_nested (binding : Nat) :
    (uniformBlocks run stage binding).Ensures fun out => Nested out.1 :=
  uniformBlocks_closed Code.nested_closed nofun binding

theorem preamble_nested :
    (if isLit run then lightStructure run else Pure.pure [] : Result (List Code)).Ensures
      fun lights => Nested (header run.target ++ run.dialect.typeDefinitions.map Code.line ++
        [.blank] ++ lights) := by
  have types : Nested (header run.target ++ run.dialect.typeDefinitions.map Code.line ++ [.blank]) :=
    ((header_nested run.target).append (Code.nested_map (fun _ => rfl) _)).append (.of_line rfl)
  split
  · exact after fun _ => pure (types.append fun _ => rfl)
  · exact pure (types.append .nil)

theorem lightBranches_nested (entries : List ((Nat × String) × String × String)) :
    Nested (entries.mapIdx fun index entry => lightBranch index entry.1.1 entry.2.1).flatten := by
  refine .flatten fun part member => ?_
  obtain ⟨k, inside, rfl⟩ := mem_mapIdx.1 member
  exact fun _ => rfl

theorem lightFunctions_nested : (lightFunctions run).Ensures fun out => Nested out.1 := by
  refine after fun functions => after fun _ => after fun _ => after fun _ => pure ?_
  exact (Code.nested_map (fun _ => rfl) functions).append
    (Nested.block (.cons rfl (.cons rfl (lightBranches_nested _))) _ false)

theorem nodeFunctions_forall {P : Code → Prop}
    (each : ∀ id code, run.realization id = .source code → ∀ known,
      (code.function? run known).Ensures fun own => ∀ entry ∈ own, P entry.2)
    (known : List String) (ids : List NodeId) :
    (run.nodeFunctions known ids).Ensures fun code => ∀ c ∈ code, P c := by
  induction ids generalizing known with
  | nil => exact pure (by simp)
  | cons id rest ih =>
    unfold Run.nodeFunctions
    split
    · rename_i code realized
      refine bind fun own made => ?_
      have holds := each id code realized known own made
      obtain _ | ⟨key, definition⟩ := own
      · exact ih known
      · refine bind fun others ok => pure ?_
        exact forall_mem_cons.2 ⟨holds _ rfl, ih (key :: known) others ok⟩
    · refine bind fun own none => ?_
      cases pure_ok.1 none
      exact ih known

theorem functionDefinitions_nested (known : List String) :
    (run.functionDefinitions known).Ensures Nested := by
  intro code ok
  refine .of_flat (nodeFunctions_forall (fun _ code _ known => ?_) known _ code ok)
  unfold SourceCode.function?
  split
  · exact pure (by simp)
  · split
    · exact pure (by simp)
    · refine after fun key => ?_
      split
      · exact pure (by simp)
      · exact after fun text => pure (by simp [Code.isFlat])

theorem pixelFunctions_ensures {P : List Code → Prop} (nil : P [])
    (append : ∀ {a b}, P a → P b → P (a ++ b)) (transform : (transformFunction run).Ensures P)
    (lights : (lightFunctions run).Ensures (P ·.1)) (srgb : (srgbFunction run).Ensures P)
    (depth : (depthFunction run).Ensures P)
    (nodes : ∀ known, (run.functionDefinitions known).Ensures P) :
    (pixelFunctions run stage).Ensures P := by
  have rest (front : List Code × List String) (first : P front.1) :
      (do
        let lights ← if isLit run then lightFunctions run else Pure.pure ([], [])
        let srgb ← if run.options.srgbOutput then srgbFunction run else Pure.pure []
        let depth ← if run.options.depthMoments then depthFunction run else Pure.pure []
        let nodes ← run.functionDefinitions (front.2 ++ lights.2)
        return front.1 ++ lights.1 ++ srgb ++ depth ++ nodes : Result (List Code)).Ensures P := by
    refine optional lights nil fun _ second => optional srgb nil fun _ third => ?_
    refine optional depth nil fun _ fourth => bind fun defined ok => pure ?_
    exact append (append (append (append first second) third) fourth) (nodes _ defined ok)
  unfold pixelFunctions
  by_cases textured : hasTextures run && !stage.hasFunction transformKey
  · rw [if_pos textured]
    exact bind fun f ok => rest (f, [transformKey]) (transform f ok)
  · rw [if_neg textured]
    exact rest ([], []) nil

theorem transformBody_nested (run : Run) {declared scaled flipped last : Code}
    (flat : ∀ c ∈ [declared, scaled, flipped, last], c.isFlat) :
    Nested ([declared] ++ (if normalizesUdim run then [scaled] else []) ++
      (if run.options.verticalFlip then [flipped] else []) ++ [last]) := by
  simp only [forall_mem_cons] at flat
  obtain ⟨first, second, third, fourth, _⟩ := flat
  exact (((Nested.of_line first).append ((Nested.of_line second).ite .nil _)).append
    ((Nested.of_line third).ite .nil _)).append (.of_line fourth)

theorem transformFunction_nested : (transformFunction run).Ensures Nested :=
  after fun _ => pure (.cons rfl ((transformBody_nested run (by simp [Code.isFlat])).block _ false))

theorem pixelFunctions_nested : (pixelFunctions run stage).Ensures Nested :=
  pixelFunctions_ensures .nil .append transformFunction_nested lightFunctions_nested
    (after fun _ => pure fun _ => rfl) (after fun _ => pure fun _ => rfl)
    functionDefinitions_nested

theorem outputCode_nested (vector4 : String) (s : OutputSocket) (name : String) :
    (outputCode run vector4 s name).Ensures Nested := by
  unfold outputCode
  dsimp only
  split
  · exact pure fun _ => rfl
  · exact after fun _ => after fun _ => pure (.cons rfl ((Nested.of_line rfl).ite .nil _))

theorem outputsCode_nested : (outputsCode run).Ensures Nested := by
  refine after fun vector4 => bind fun outputs ok => pure (.flatten fun part member => ?_)
  obtain ⟨socket, _, made⟩ := exists_of_mem_right (mapM_ok ok) member
  exact outputCode_nested vector4 _ _ part made

end Hardware

theorem Osl.commaLines_flat (texts : List String) : ∀ c ∈ Osl.commaLines texts, c.isFlat := by
  fun_induction Osl.commaLines with
  | case1 => simp
  | case2 => simp [Code.isFlat]
  | case3 _ _ _ ih => exact forall_mem_cons.2 ⟨rfl, ih⟩

theorem Osl.commaLines_nested (texts : List String) : Nested (Osl.commaLines texts) :=
  .of_flat (commaLines_flat texts)

theorem Osl.emptyClosure_nested (run : Run) : Nested (Osl.emptyClosure run) :=
  (Nested.of_line rfl).ite .nil _

theorem Osl.outputCode_flat (color3 : ShaderType) (s : OutputSocket) (name : String) :
    (Osl.outputCode run color3 s name).Ensures (·.isFlat = true) := by
  refine after fun _ => ?_
  split
  all_goals exact after fun _ => pure rfl

end MaterialShader
