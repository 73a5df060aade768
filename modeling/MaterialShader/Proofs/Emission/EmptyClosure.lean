import MaterialShader.Proofs.Emission.Resolved

/-!
The empty closure of OSL, which has a name that the body of a shader has to declare.
-/

namespace MaterialShader

open List
open Emission (Yields)

namespace Classification

theorem has_ofList {flags : List ClassFlag} {f : ClassFlag} :
    (ofList flags).has f ↔ f ∈ flags := by
  have listed : f ∈ ClassFlag.all := by cases f <;> decide
  simp [has, ofList, listed]

theorem has_union {a b : Classification} {f : ClassFlag} :
    (a.union b).has f ↔ a.has f ∨ b.has f := by
  rw [union, has_ofList, mem_append]
  simp [has]

theorem has_foldl_union {nodes : List GraphNode} {start : Classification} {f : ClassFlag} :
    (nodes.foldl (fun acc n => acc.union n.classification) start).has f ↔
      start.has f ∨ ∃ n ∈ nodes, n.classification.has f := by
  induction nodes generalizing start with
  | nil => simp
  | cons n rest ih => rw [foldl_cons, ih, has_union, or_assoc, exists_mem_cons_iff]

end Classification

/-- Nodes of any type that look at components. -/
def componentCategories : List String := ["swizzle", "extract", "convert"]

def Registry.makesClosure (typeName : String) : Bool :=
  (standard.find? typeName).any ShaderType.isClosure

theorem Registry.Knows.makesClosure {t : ShaderType} (known : standard.Knows t) :
    makesClosure t.name = t.isClosure := by
  rw [Registry.makesClosure, known]
  rfl

def Definition.sortsClosures (d : Definition) : Bool :=
  d.outputs.all (fun p => (GraphNode.flagsOfType p.typeName).contains .closure ==
    Registry.makesClosure p.typeName) &&
  (d.outputs.any (Registry.makesClosure ·.typeName) || d.inputs.all fun p =>
    !Registry.makesClosure p.typeName &&
      (p.typeName != anyType || componentCategories.contains d.category))

theorem Library.bundled_sortsClosures {d : Definition} (member : d ∈ bundled.definitions) :
    d.sortsClosures := by
  have all : bundled.definitions.all Definition.sortsClosures := by
    rw [bundled_eq]
    decide
  exact all_eq_true.1 all d member

namespace GraphNode

def MakesClosure (n : GraphNode) : Prop := ∃ o ∈ n.outputs, o.type.isClosure

variable {n : GraphNode} (stems : n.Stems .bundled)
  (known : ∀ o ∈ n.outputs, Registry.standard.Knows o.type)

include stems known

theorem Stems.classify_closure : n.classify.has .closure ↔ n.MakesClosure := by
  obtain ⟨d, member, _, _, outputs, _⟩ := stems
  have sorts := Library.bundled_sortsClosures member
  simp only [Definition.sortsClosures, Bool.and_eq_true, all_eq_true, beq_iff_eq] at sorts
  have each : ∀ o ∈ n.outputs, .closure ∈ flagsOfType o.type.name ↔ o.type.isClosure := by
    intro o listed
    have port : o.type.name ∈ d.outputs.map Port.typeName := outputs ▸ mem_map_of_mem listed
    obtain ⟨p, given, same⟩ := mem_map.1 port
    rw [← contains_iff_mem, ← same, sorts.1 p given, same, (known o listed).makesClosure]
  have category : .closure ∉ flagsOfCategory n.category := by
    unfold flagsOfCategory
    split_ifs <;> decide
  rw [classify, Classification.has_ofList, mem_append, mem_flatMap]
  simp only [category, false_or]
  exact exists_congr fun o => and_congr_right (each o)

theorem Stems.takes_closure (plain : ¬ n.MakesClosure) {i : Input} (input : i ∈ n.inputs)
    (type : Registry.standard.Knows i.type) (closure : i.type.isClosure) :
    n.category ∈ componentCategories := by
  obtain ⟨d, member, _, category, outputs, takes⟩ := stems
  have sorts := Library.bundled_sortsClosures member
  simp only [Definition.sortsClosures, Bool.and_eq_true] at sorts
  have none : d.outputs.any (Registry.makesClosure ·.typeName) = false := by
    rw [Bool.eq_false_iff]
    intro some
    obtain ⟨p, given, makes⟩ := any_eq_true.1 some
    have port : p.typeName ∈ n.outputTypes := outputs ▸ mem_map_of_mem given
    obtain ⟨o, listed, same⟩ := mem_map.1 port
    rw [← same, (known o listed).makesClosure] at makes
    exact plain ⟨o, listed, makes⟩
  rw [none, Bool.false_or] at sorts
  have signed : i.signature ∈ n.inputs.map Input.signature := mem_map_of_mem input
  obtain all | ⟨t, _, single, open_, _⟩ := takes
  · obtain ⟨p, given, _, allows⟩ := exists_of_mem_right all signed
    have port := all_eq_true.1 sorts.2 p given
    simp only [Bool.and_eq_true, Bool.not_eq_true', Bool.or_eq_true, bne_iff_ne,
      contains_iff_mem, ← category] at port
    obtain any | same := allows
    · exact port.2.resolve_left (not_not.2 any)
    · rw [← same] at port
      exact absurd port.1 (by simp [Input.signature, type.makesClosure, closure])
  · rw [single, mem_singleton] at signed
    cases congrArg Prod.snd signed
    exact absurd closure open_

end GraphNode

/-- What is picked from a value of the type does not depend on its text, and none is converted. -/
def Dialect.Hides (d : Dialect) (types : Registry) (t : ShaderType) : Prop :=
  (∀ a b k, d.member a t k = d.member b t k) ∧
  (∀ a b channels result, d.swizzle a t channels result = d.swizzle b t channels result) ∧
  ∀ result, types.conversion? t result = none

namespace Dialect

variable {t : ShaderType} (known : Registry.standard.Knows t) (closure : t.isClosure)

include known closure

theorem osl_closure : osl.form t = .ok oslClosureForm ∧ t.isScalar = false ∧
    Osl.remappedChannels? t.name = none := by
  have all : Registry.standardTypes.all fun t => !t.isClosure ||
      (osl.form t).toOption == some oslClosureForm && (!t.isScalar &&
        (Osl.remappedChannels? t.name).isNone) := by
    decide
  have here := all_eq_true.1 all t (mem_of_find?_eq_some known)
  simpa [closure, Result.toOption_eq_some] using here

theorem osl_hides : osl.Hides .standard t := by
  obtain ⟨form, scalar, _⟩ := osl_closure known closure
  have member (a b : String) (k : Nat) : osl.member a t k = osl.member b t k := by
    simp only [Dialect.member, form, scalar]
    rfl
  refine ⟨member, fun a b channels result => ?_, fun result => ?_⟩
  · have channel : osl.channelText a t channels = osl.channelText b t channels := by
      funext c
      simp only [channelText, member a b]
    simp only [swizzle, channel]
  · have all : Registry.standard.conversions.all fun entry =>
        !Registry.makesClosure entry.1.1 := by
      decide
    refine Option.map_eq_none_iff.2 (List.find?_eq_none.2 fun entry listed same => ?_)
    have plain := all_eq_true.1 all entry listed
    rw [beq_iff_eq.1 same, known.makesClosure, closure] at plain
    cases plain

end Dialect

theorem Osl.outputCode_open {run : Run} (dialect : run.dialect = .osl) {s : OutputSocket}
    (known : Registry.standard.Knows s.type) (closure : s.type.isClosure) (free : s.source = none)
    {color3 : ShaderType} {name : String} {c : Code} (ok : outputCode run color3 s name = .ok c) :
    c = .statement (name ++ " = " ++ "null_closure") := by
  obtain ⟨form, _, channels⟩ := Dialect.osl_closure known closure
  have text : run.outputText s = .ok "null_closure" := by
    rw [Run.outputText, Run.sourceText.eq_def, free]
    cases s.value <;> simp only [dialect, Dialect.literal, Dialect.initialValue, form] <;> rfl
  rw [outputCode, text, channels] at ok
  exact (Except.ok.inj ok).symm

theorem Generator.buildGraph_closures {gen : Generator} {target : Target}
    (made : Generator.create target .bundled = .ok gen) {doc : Document} {s : Session} {g : Graph}
    {log : Log} (building : gen.buildGraph doc s = .ok (g, log)) :
    g.classification.has .closure ↔ ∃ n ∈ g.nodes, n.MakesClosure := by
  obtain ⟨built, settled⟩ := Generator.buildGraph_ready made building
  have classes :
      g.classification = g.nodes.foldl (fun acc n => acc.union n.classification) .empty := by
    obtain ⟨_, _, _, _, _, _, _, _, rfl⟩ := Graph.build_ok building
    rfl
  have empty : ¬ Classification.empty.has .closure := by decide
  rw [classes, Classification.has_foldl_union, or_iff_right empty]
  refine exists_congr fun n => and_congr_right fun member => ?_
  rw [(settled n member).classified]
  exact (built.stems n member).classify_closure (built.typed.outputs n member)

/-- The shader is a single stage with its body in braces: what is declared first, the code of the nodes
and what is written to the outputs. -/
def Shader.HasBody (shader : Shader) (d : Dialect) (run : Run) (declared written : List Code) : Prop :=
  ∃ (stage drafted : Stage) (finished : FinishedStage) (front nodes : List Code),
    Yields (run.emitEverywhere stage) nodes ∧
    (∀ part ∈ [front, declared, nodes, written], Code.Nested part) ∧
    stage.writeAll (front ++ .openScope .braces ::
      (declared ++ nodes ++ written ++ [.closeScope false])) = .ok drafted ∧
    drafted.finish d = .ok finished ∧ shader.stages = [finished]

/-- The body of a shader begins with the declaration of the empty closure if a node makes a closure.
If none does it is not declared, and nodes take closures only for components, which these hide.
Outputs for closures are written as the empty closure where nothing feeds them, declared or not. -/
theorem empty_closure_declared_with_closures {gen : Generator}
    (made : Generator.create .osl .bundled = .ok gen) {name : String} {doc : Document} {s : Session}
    {shader : Shader} (ok : (gen.generate name doc s).result = .ok shader) :
    ∃ g log run declared written, gen.buildGraph doc s = .ok (g, log) ∧
      gen.run g (s.begin .osl) = .ok run ∧ shader.HasBody gen.dialect run declared written ∧
      ((∃ n ∈ g.nodes, n.MakesClosure) → declared = [.statement "closure color null_closure = 0"]) ∧
      ((∀ n ∈ g.nodes, ¬ n.MakesClosure) → declared = [] ∧ ∀ n ∈ g.nodes, ∀ i ∈ n.inputs,
        i.type.isClosure → n.category ∈ componentCategories ∧ run.dialect.Hides run.types i.type) ∧
      ∀ output ∈ g.outputSockets.zip run.names.graphOutputs, output.1.source = none →
        output.1.type.isClosure → .statement (output.2 ++ " = " ++ "null_closure") ∈ written := by
  obtain ⟨g, log, run, stages, building, ran, assembled, finishing⟩ := Generator.generate_ok ok
  obtain ⟨built, _⟩ := Generator.buildGraph_ready made building
  have closures := Generator.buildGraph_closures made building
  obtain ⟨target, dialect, types, _, _, rfl⟩ := Generator.run_settings made ran
  have same := (Generator.create_ok made).1
  unfold Generator.assemble at assembled
  rw [target] at assembled
  obtain ⟨color3, _, stage, _, drafted, _, _, _, ⟨before, head, inputs, results, nodes, written, _,
    emitted, outputs, nested, rfl⟩, writes, rfl⟩ := Osl.stages_declared run name stages assembled
  obtain ⟨finished, _, finish, none, shape⟩ := List.forall₂_cons_left_iff.1 finishing
  cases List.forall₂_nil_left_iff.1 none
  have parts : ∀ part ∈ [Osl.headed before head (inputs ++ results), Osl.emptyClosure run, nodes,
      written], Code.Nested part := by
    simp only [forall_mem_cons] at nested ⊢
    exact ⟨Osl.headed_nested nested.1 head _, Osl.emptyClosure_nested run, nested.2⟩
  refine ⟨run.graph, log, run, _, written, building, same ▸ ran, ⟨stage, drafted, finished, _, nodes,
    emitted, parts, writes, finish, shape⟩, fun makes => ?_, fun plain => ⟨?_, ?_⟩, ?_⟩
  · rw [Osl.emptyClosure, if_pos (closures.2 makes)]
  · rw [Osl.emptyClosure, if_neg fun has => ?_]
    obtain ⟨n, member, makes⟩ := closures.1 has
    exact plain n member makes
  · intro n member i input closure
    have known := (built.typed.inputs n member i input).1
    rw [dialect, types]
    exact ⟨(built.stems n member).takes_closure (built.typed.outputs n member) (plain n member)
      input known closure, Dialect.osl_hides known closure⟩
  · intro output member free closure
    obtain ⟨c, listed, code⟩ := exists_of_mem_right (Result.mapM_ok outputs).flip member
    have known := (built.typed.outputSockets _ (List.of_mem_zip member).1).1
    rwa [← Osl.outputCode_open dialect known closure free code]

/-- A closure that is handed on from nowhere, as the output. -/
def looseClosureDocument : Document where
  version := "1"
  metadata := ⟨"", none, none⟩
  inputs := []
  nodes := [⟨"e", "dot", "BSDF", none, [], [], []⟩]
  connections := []
  outputs := [⟨"o", "BSDF", ⟨"e", "out"⟩⟩]
  nodegraphs := []

theorem empty_closure_declared_with_closures_loose : ∃ gen shader,
    Generator.create .osl .bundled = .ok gen ∧
    (gen.generate "a" looseClosureDocument {}).result = .ok shader ∧
    ∃ g log run written, gen.buildGraph looseClosureDocument {} = .ok (g, log) ∧
      gen.run g (Session.begin {} .osl) = .ok run ∧ shader.HasBody gen.dialect run [] written ∧
      (∀ n ∈ g.nodes, ¬ n.MakesClosure) ∧ .statement "o = null_closure" ∈ written := by
  have made := Generator.create_bundled .osl
  obtain ⟨shader, ok⟩ : ∃ shader,
      ((Generator.bundled .osl).generate "a" looseClosureDocument {}).result = .ok shader :=
    Generator.generate_works (by decide)
  have evaluated : ((Generator.bundled .osl).buildGraph looseClosureDocument {}).toOption.all
      fun built => built.1.nodes.isEmpty &&
        (built.1.outputSockets.zip (Names.ofGraph .osl built.1).graphOutputs).any fun output =>
          output.1.source.isNone && output.1.type.isClosure && output.2 == "o" := by
    rw [Generator.bundled, Library.bundled_eq]
    decide
  obtain ⟨g, log, run, declared, written, building, ran, body, _, plain, outputs⟩ :=
    empty_closure_declared_with_closures made ok
  rw [building] at evaluated
  obtain ⟨empty, open_⟩ := Bool.and_eq_true_iff.1 evaluated
  obtain ⟨output, member, loose⟩ := any_eq_true.1 open_
  simp only [Bool.and_eq_true, Option.isNone_iff_eq_none, beq_iff_eq] at loose
  obtain ⟨⟨free, closure⟩, named⟩ := loose
  have empty : g.nodes = [] := List.isEmpty_iff.1 empty
  have none : ∀ n ∈ g.nodes, ¬ n.MakesClosure := by simp [empty]
  obtain ⟨rfl, _⟩ := plain none
  rw [← Dialect.ofTarget, ← Generator.run_names made ran] at member
  have drawn := outputs output member free closure
  rw [named] at drawn
  exact ⟨_, shader, made, ok, g, log, run, written, building, ran, body, none, drawn⟩

/-- The output is the empty closure, and the body does not declare it. -/
theorem loose_closure_undeclared : ∃ shader,
    ((Generator.bundled .osl).generate "a" looseClosureDocument {}).result = .ok shader ∧
    ∃ stage ∈ shader.stages, Text.contains "o = null_closure;" stage.source = true ∧
      Text.contains "closure color null_closure" stage.source = false := by
  have written : ((Generator.bundled .osl).generate "a" looseClosureDocument {}).result.toOption.any
      fun shader => shader.stages.any fun stage => Text.contains "o = null_closure;" stage.source &&
        !Text.contains "closure color null_closure" stage.source := by
    rw [Generator.bundled, Library.bundled_eq]
    decide +kernel
  obtain ⟨shader, ok, some⟩ := (Option.any_eq_true _ _).1 written
  obtain ⟨stage, member, reads⟩ := List.any_eq_true.1 some
  exact ⟨shader, Result.toOption_eq_some.1 ok, stage, member, by simpa using reads⟩

end MaterialShader
