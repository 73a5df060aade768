import MaterialShader.Proofs.Emission.Names
import MaterialShader.Proofs.Emission.PixelStage
import MaterialShader.Proofs.Fault.Assembly
import MaterialShader.Proofs.Graph.Grounded

/-!
References of graphs and of runs to outputs.
-/

namespace MaterialShader

open List
open Result

namespace Run

variable {run : Run} {id : NodeId} {n : GraphNode}

theorem node_of_found (found : run.graph.nodes[id]? = some n) : run.node id = .ok n := by
  simp [Run.node, found, orFail]

section

variable (rooted : run.graph.Rooted) (names : run.names = .ofGraph run.dialect run.graph)

include rooted names

theorem outputName_inRange {k : Nat} (holds : run.graph.Holds (.node id k)) :
    (run.outputName id k).FailsBy Fault.InRange := by
  obtain ⟨n, found, inside⟩ := holds
  have bound := lt_of_getElem? found
  have listed : id ∈ run.graph.order := rooted.order.mem_iff.2 (mem_range.2 bound)
  have length : (run.names.outputs.getD id []).length = n.outputs.length := by
    rw [names]
    exact Names.length_reserveOutputs found (by simpa using bound) (.inl listed)
  refine failsBy_orFail.2 fun missing => ?_
  rw [List.getElem?_eq_none_iff] at missing
  omega

theorem sourceText_inRange {s : Option Source} (holds : ∀ source ∈ s, run.graph.Holds source)
    (v : Option Value) (t : ShaderType) : (run.sourceText s v t).FailsBy Fault.InRange := by
  unfold sourceText
  split
  · exact outputName_inRange rooted names (holds _ rfl)
  · rename_i index
    refine failsBy_orFail.2 fun missing => ?_
    have inside : index < run.graph.inputSockets.length := holds _ rfl
    rw [List.getElem?_eq_none_iff, names, Names.length_sockets] at missing
    omega
  · simp
  · simp

theorem refers_inRange : run.Refers Fault.InRange := by
  have listed : ∀ id ∈ run.graph.order, ∃ n, run.graph.nodes[id]? = some n := by
    intro id member
    have bound := mem_range.1 (rooted.order.mem_iff.1 member)
    exact ⟨_, List.getElem?_eq_getElem bound⟩
  constructor
  · intro id member
    obtain ⟨n, found⟩ := listed id member
    rw [node_of_found found]
    exact .ok
  · intro id member
    obtain ⟨n, found⟩ := listed id member
    have filled := rooted.filled n (mem_of_getElem? found)
    rw [firstOutput, node_of_found found]
    exact failsBy_orFail.2 fun missing => absurd (List.head?_eq_none_iff.1 missing) filled
  · intro id _ n node k inside
    exact outputName_inRange rooted names ⟨n, orFail_ok.1 node, inside⟩
  · intro id _ n node i input
    have member := mem_of_getElem? (orFail_ok.1 node)
    exact sourceText_inRange rooted names (rooted.grounded.inputs n member i input) _ _
  · intro o socket
    exact sourceText_inRange rooted names (rooted.grounded.outputSockets o socket) _ _

theorem allows_inRange : run.Allows Fault.InRange := by
  have refers := refers_inRange rooted names
  refine ⟨refers, fun id listed code _ => refers.sourceCode listed ?_ code⟩
  simp [Fault.InRange]

end

end Run

theorem Generator.run_names_ofGraph {gen : Generator} {g : Graph} {s : Session} {run : Run}
    (ran : gen.run g s = .ok run) : run.names = .ofGraph run.dialect run.graph := by
  obtain ⟨_, _, ran⟩ := bind_ok.1 ran
  cases pure_ok.1 ran
  rfl

theorem Generator.generateFromGraph_inRange (gen : Generator) (name : String) {g : Graph}
    (rooted : g.Rooted) (s : Session) :
    (gen.generateFromGraph name g s).result.FailsBy Fault.InRange := by
  refine generateFromGraph_failsBy (fun run ran => ?_) fun _ _ _ _ _ _ _ => ?_
  · have graph := (run_graph ran).1
    exact Run.allows_inRange (graph ▸ rooted) (run_names_ofGraph ran)
  · simp [Fault.InRange]

/-- If the definitions of the geometry have an output, the graph of a document is not given up for
an output that is not there. If the definitions that convert have an output, all that the graph
reads is there, and no generator gives up its shader for an output that is not there. -/
theorem references_in_range (lib : Library) (doc : Document) (options : Options) :
    (lib.AnswersGeometry → (Graph.build doc lib .standard options).FailsBy Fault.InRange) ∧
    (lib.AnswersConversions → ∀ g log, Graph.build doc lib .standard options = .ok (g, log) →
      (∀ s ∈ g.sources, g.Holds s) ∧ (∀ id ∈ g.order, g.Holds (.node id 0)) ∧
      ∀ (gen : Generator) (name : String) (session : Session),
        (gen.generateFromGraph name g session).result.FailsBy Fault.InRange) := by
  refine ⟨fun answers => Graph.build_inRange answers doc _ options, fun answers g log run => ?_⟩
  have rooted := Graph.build_rooted (fun _ known => Registry.find?_standard_regular known) answers
    run
  refine ⟨fun s read => rooted.grounded.holds read, fun id listed => ?_, fun gen name session =>
    gen.generateFromGraph_inRange name rooted session⟩
  have bound := List.mem_range.1 (rooted.order.mem_iff.1 listed)
  have filled := rooted.filled _ (List.getElem_mem bound)
  exact ⟨_, List.getElem?_eq_getElem bound, List.length_pos_iff.2 filled⟩

/-- A library of built-in nodes, with the outputs of its geometry and of its conversion open. -/
def coordinateLibrary (geometry conversion : List Port) : Library where
  definitions :=
    [⟨"texcoord_vector2", "texcoord", none, [⟨"index", "integer", some (.int 0), none, true⟩],
      geometry⟩,
     ⟨"extract_float", "extract", none,
      [⟨"in", "vector2", none, some "UV0", false⟩, ⟨"index", "integer", some (.int 0), none, true⟩],
      [⟨"out", "float", none, none, false⟩]⟩,
     ⟨"convert_color3", "convert", none, [⟨"in", anyType, none, none, false⟩], conversion⟩]
  implementations := []
  nodegraphs := []
  indexed := Library.indexes_zipIdx (by simp)

def coordinateDocument : Document where
  version := "1"
  metadata := ⟨"coordinate", none, none⟩
  inputs := []
  nodes := [⟨"u", "extract", "float", none, [], [], []⟩]
  connections := []
  outputs := [⟨"grey", "color3", ⟨"u", "out"⟩⟩]
  nodegraphs := []

def vectorOut : Port := ⟨"out", "vector2", none, none, false⟩

def colorOut : Port := ⟨"out", "color3", none, none, false⟩

theorem coordinateLibrary_outputs {name : String} {d : Definition}
    (found : (coordinateLibrary [vectorOut] [colorOut]).definition? name = some d) :
    d.outputs ≠ [] := by
  have member := Library.mem_of_definition? found
  simp only [coordinateLibrary, mem_cons, not_mem_nil, or_false] at member
  obtain rfl | rfl | rfl := member <;> simp

theorem references_in_range_coordinate :
    (coordinateLibrary [vectorOut] [colorOut]).AnswersGeometry ∧
    (coordinateLibrary [vectorOut] [colorOut]).AnswersConversions ∧
    (Graph.build coordinateDocument (coordinateLibrary [vectorOut] [colorOut]) .standard
      {}).FailsBy Fault.InRange ∧
    ∃ g log,
      Graph.build coordinateDocument (coordinateLibrary [vectorOut] [colorOut]) .standard {} =
        .ok (g, log) ∧
      g.sources = [.node 1 0, .node 0 0, .node 2 0] ∧ (∀ s ∈ g.sources, g.Holds s) ∧
      (∀ id ∈ g.order, g.Holds (.node id 0)) ∧
      ∀ (gen : Generator) (name : String) (session : Session),
        (gen.generateFromGraph name g session).result.FailsBy Fault.InRange := by
  have geometry : (coordinateLibrary [vectorOut] [colorOut]).AnswersGeometry :=
    fun _ _ _ _ found => coordinateLibrary_outputs found
  have conversions : (coordinateLibrary [vectorOut] [colorOut]).AnswersConversions :=
    fun _ _ found => coordinateLibrary_outputs found
  have works : (Graph.build coordinateDocument (coordinateLibrary [vectorOut] [colorOut]) .standard
      {}).toOption.any fun r => r.1.sources = [.node 1 0, .node 0 0, .node 2 0] := by
    decide
  obtain ⟨⟨g, log⟩, found, reads⟩ := (Option.any_eq_true _ _).1 works
  have run := toOption_eq_some.1 found
  obtain ⟨first, second⟩ := references_in_range (coordinateLibrary [vectorOut] [colorOut])
    coordinateDocument {}
  exact ⟨geometry, conversions, first geometry, g, log, run, of_decide_eq_true reads,
    second conversions g log run⟩

/-- Two valid libraries with which an output is read that is not there. Without an output of the
geometry a document has no graph; without one of the conversion it has a graph and no shader. -/
theorem valid_library_out_of_range :
    ((coordinateLibrary [] [colorOut]).validate .standard = .ok () ∧
      Graph.build coordinateDocument (coordinateLibrary [] [colorOut]) .standard {} =
        fail (.danglingReference 1 0)) ∧
    ∃ gen g log, Generator.create .glsl (coordinateLibrary [vectorOut] []) = .ok gen ∧
      Graph.build coordinateDocument (coordinateLibrary [vectorOut] []) .standard {} =
        .ok (g, log) ∧
      .node 2 0 ∈ g.sources ∧ ¬ g.Holds (.node 2 0) ∧
      (gen.generateFromGraph "grey" g {}).result =
        (fail (.danglingReference 2 0) : Result Shader).inside (.emitting "u_out_to_color3") := by
  refine ⟨⟨by decide, by decide⟩, ?_⟩
  have works : ((do
      let gen ← Generator.create .glsl (coordinateLibrary [vectorOut] [])
      let built ← Graph.build coordinateDocument (coordinateLibrary [vectorOut] []) .standard {}
      return (gen, built) : Result (Generator × Graph × Log)).toOption).any
      fun made => .node 2 0 ∈ made.2.1.sources ∧ ¬ made.2.1.Holds (.node 2 0) ∧
        (made.1.generateFromGraph "grey" made.2.1 {}).result =
          (fail (.danglingReference 2 0) : Result Shader).inside
            (.emitting "u_out_to_color3") := by
    decide +kernel
  obtain ⟨⟨gen, g, log⟩, found, shape⟩ := (Option.any_eq_true _ _).1 works
  obtain ⟨gen', made, rest⟩ := bind_ok.1 (toOption_eq_some.1 found)
  obtain ⟨⟨g', log'⟩, run, last⟩ := bind_ok.1 rest
  cases pure_ok.1 last
  exact ⟨gen, g, log, made, run, of_decide_eq_true shape⟩

end MaterialShader
