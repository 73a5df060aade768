import MaterialShader.Proofs.Emission.Assembled
import MaterialShader.Proofs.Graph.Build

/-!
The pixel stage of a shader.
-/

namespace MaterialShader

open List
open Emission (Yields)
open Emission.Ensures

def HoldsNodes (run : Run) (stages : List Stage) : Prop :=
  ∃ stage written code, stage.name = pixelStage ∧ written ∈ stages ∧
    Yields (run.emitEverywhere stage) code ∧ written.WrittenWith stage code

theorem Hardware.stages_ensures (run : Run) : (Hardware.stages run).Ensures (HoldsNodes run) := by
  intro stages yields
  obtain ⟨p, rfl⟩ := Hardware.stages_pieces run stages yields
  exact ⟨p.pixel, p.writtenPixel, p.pixelNodes, name_of_named p.isPixel, by simp, p.emitsPixel,
    p.pixelWith⟩

theorem Osl.stages_ensures (run : Run) (name : String) :
    (Osl.stages run name).Ensures (HoldsNodes run) := by
  intro stages yields
  obtain ⟨_, _, stage, code, whole, _, _, found, frames, writes, rfl⟩ :=
    Osl.stages_declared run name stages yields
  obtain ⟨nodes, emitted, body⟩ := frames.inBody
  exact ⟨stage, whole, nodes, name_of_named found, mem_singleton_self _, emitted, code, body, writes⟩

theorem Mdl.stages_ensures (run : Run) (name : String) :
    (Mdl.stages run name).Ensures (HoldsNodes run) := by
  intro stages yields
  obtain ⟨_, stage, code, whole, _, found, frames, writes, rfl⟩ :=
    Mdl.stages_declared run name stages yields
  obtain ⟨nodes, emitted, body⟩ := frames.inBody
  exact ⟨stage, whole, nodes, name_of_named found, mem_singleton_self _, emitted, code, body, writes⟩

section

variable {lib : Library} {target : Target} {gen : Generator} {g : Graph} {s : Session} {run : Run}

theorem Graph.Built.ordered {types : Registry} (built : g.Built types lib) : g.Ordered where
  perm := built.order_perm
  forward := built.order_forward
  feeders _ _ feeds := built.typed.feeder_lt feeds
  roots _ root := by
    obtain ⟨_, member, _, source⟩ := Graph.mem_roots.1 root
    exact (built.typed.closed.root_used member source).1

theorem Generator.run_realization (ok : gen.run g s = .ok run) {id : NodeId} {n : GraphNode}
    (found : g.nodes[id]? = some n) : gen.realize n = .ok (run.realization id) := by
  obtain ⟨realizations, all, ok⟩ := Result.bind_ok.1 ok
  cases Result.pure_ok.1 ok
  obtain ⟨length, each⟩ := forall₂_iff_get.1 (Result.mapM_ok all)
  obtain ⟨inside, rfl⟩ := List.getElem?_eq_some_iff.1 found
  have bound : id < realizations.length := length ▸ inside
  have realized := each id inside bound
  simp only [get_eq_getElem] at realized
  rw [realized, Run.realization, getD_eq_getElem?_getD, List.getElem?_eq_getElem bound]
  rfl

theorem Generator.run_sound (orderly : lib.Orderly) (made : Generator.create target lib = .ok gen)
    {types : Registry} (built : g.Built types lib) (ok : gen.run g s = .ok run) : run.Sound := by
  obtain ⟨graph, _, _⟩ := Generator.run_graph ok
  constructor
  · rw [graph]
    intro b n found i input a k source
    have carried := (built.typed.inputs n (mem_of_getElem? found) i input).2 _ source
    obtain ⟨m, o, at_a, at_k, _⟩ := Graph.sourceType?_node carried
    exact ⟨m, at_a, lt_of_getElem? at_k⟩
  · rw [graph]
    intro id n found
    exact outputs_of_realize orderly made (built.stems n (mem_of_getElem? found))
      (Generator.run_realization ok found)
  · rw [graph]
    intro id n found i input k feeds
    exact branch_lt_of_realize orderly made (built.stems n (mem_of_getElem? found))
      (Generator.run_realization ok found) input feeds

theorem Generator.run_scoping (ordered : g.Ordered) (ok : gen.run g s = .ok run) :
    run.graph.Scoping run.branchOf run.scopes := by
  obtain ⟨graph, target, scopes⟩ := Generator.run_graph ok
  rw [graph, scopes, Generator.scopes, Run.branchOf, target]
  split_ifs
  · exact ordered.scoping
  · exact ordered.scoping_everywhere

end

namespace Run

variable {run : Run} {stage : Stage}

theorem branchMembers_eq (run : Run) :
    run.branchMembers = branchLists run.graph run.scopes run.branchTotal := by
  funext id
  unfold branchLists branchTotal branchMembers
  split
  · split_ifs
    · simp [scopeMembers]
    · rfl
  · rfl

theorem layout_everywhere (run : Run) : run.layout run.everywhereNodes =
    scopeForest run.graph run.scopes run.branchTotal := by
  rw [Run.layout, branchMembers_eq]
  rfl

theorem Sound.covers (sound : run.Sound) : Covers run.graph run.branchOf run.branchTotal := by
  intro c n found i input j feeds
  unfold branchOf at feeds
  split_ifs at feeds with branching
  obtain ⟨op, kind, bound⟩ := sound.branches c n found i input j feeds
  simpa [branchTotal, branchMembers, kind, found, branching] using bound

theorem emitEverywhere_scoped (sound : run.Sound) (ordered : run.graph.Ordered)
    (scoping : run.graph.Scoping run.branchOf run.scopes) (pixel : stage.name = pixelStage)
    {code : List Code} (yields : Yields (run.emitEverywhere stage) code) :
    ∃ visible ids, Scoped run stage [] code visible ids ∧
      ids.Perm (List.range run.graph.nodes.length) ∧ run.DeclaresAll visible run.graph.roots := by
  rw [emitEverywhere, layout_everywhere] at yields
  obtain ⟨visible, block, _, all⟩ := emitAll_scoped sound pixel
    (scoping.visible ordered sound.covers) (by simp [DeclaresAll] : run.DeclaresAll [] []) yields
  refine ⟨visible, _, block, scoping.ids_perm ordered sound.covers, ?_⟩
  intro a root
  apply all a
  rw [(scoping.forest ordered run.branchTotal).1]
  exact mem_scopeMembers.2 ⟨ordered.mem_order.2 (ordered.roots a root), scoping.roots a root⟩

end Run

theorem Generator.assemble_ensures (run : Run) (name : String) :
    (Generator.assemble run name).Ensures (HoldsNodes run) := by
  unfold Generator.assemble
  split
  · exact Hardware.stages_ensures run
  · exact Hardware.stages_ensures run
  · exact Osl.stages_ensures run name
  · exact Mdl.stages_ensures run name

def Run.DeclaresBeforeUse (run : Run) (stage : Stage) (code : List Code) : Prop :=
  ∃ (visible : List Code) (ids : List NodeId), Scoped run stage [] code visible ids ∧
    ids.Perm (List.range run.graph.nodes.length) ∧
    ∀ o ∈ run.graph.outputSockets, ∀ a k, o.source = some (.node a k) → run.Declared visible a k

/-- The pixel stage of a shader is written with the code of all nodes in its body, and that code
declares before use. -/
theorem pixel_stage_scoped {target : Target} {gen : Generator}
    (made : Generator.create target .bundled = .ok gen) {name : String} {doc : Document}
    {s : Session} {shader : Shader} (ok : (gen.generate name doc s).result = .ok shader) :
    ∃ g log run, gen.buildGraph doc s = .ok (g, log) ∧ gen.run g (s.begin target) = .ok run ∧
      run.graph = g ∧ ∃ (stage written : Stage) (finished : FinishedStage) (code : List Code),
        stage.name = pixelStage ∧ Yields (run.emitEverywhere stage) code ∧
        written.WrittenWith stage code ∧ written.finish gen.dialect = .ok finished ∧
        finished ∈ shader.stages ∧ run.DeclaresBeforeUse stage code := by
  obtain ⟨g, log, run, stages, building, ran, assembled, finishing⟩ := Generator.generate_ok ok
  obtain ⟨stage, written, code, pixel, member, yields, body⟩ :=
    Generator.assemble_ensures run name stages assembled
  obtain ⟨finished, listed, finish⟩ := exists_of_mem_right finishing.flip member
  obtain ⟨same, library, types⟩ := Generator.create_ok made
  have built : g.Built .standard .bundled := by
    rw [Generator.buildGraph, library, types] at building
    exact Graph.build_built (fun _ known => Registry.find?_standard_regular known)
      Library.bundled_converts building
  have sound := Generator.run_sound Library.bundled_orderly made built ran
  have scoping := Generator.run_scoping built.ordered ran
  obtain ⟨graph, _, _⟩ := Generator.run_graph ran
  subst graph
  obtain ⟨visible, ids, block, perm, all⟩ :=
    Run.emitEverywhere_scoped sound built.ordered scoping pixel yields
  refine ⟨run.graph, log, run, building, same ▸ ran, rfl, stage, written, finished, code, pixel,
    yields, body, finish, listed, visible, ids, block, perm, ?_⟩
  intro o socket a k source
  have carried := (built.typed.outputSockets o socket).2 _ source
  obtain ⟨m, _, at_a, at_k, _⟩ := Graph.sourceType?_node carried
  exact all a (Graph.mem_roots.2 ⟨o, socket, k, source⟩) m at_a k
    (List.getElem?_eq_some_iff.1 at_k).1

/-- A sum that only one branch reads, and a constant that a branch and the selector read. -/
def branchedDocument : Document where
  version := "1"
  metadata := ⟨"branched", none, none⟩
  inputs := []
  nodes :=
    [⟨"pick", "ifgreater", "float", none, [], [], []⟩,
     ⟨"base", "constant", "float", none, [], [], []⟩, ⟨"sum", "add", "float", none, [], [], []⟩]
  connections :=
    [⟨"a", ⟨"base", "out"⟩, ⟨"pick", "value1"⟩⟩, ⟨"b", ⟨"sum", "out"⟩, ⟨"pick", "in1"⟩⟩,
     ⟨"c", ⟨"base", "out"⟩, ⟨"sum", "in1"⟩⟩]
  outputs := [⟨"out", "float", ⟨"pick", "out"⟩⟩]
  nodegraphs := []

theorem pixel_stage_scoped_branched :
    ∃ gen shader, Generator.create .glsl .bundled = .ok gen ∧
      (gen.generate "branched" branchedDocument
        { options := { constantFolding := false } }).result = .ok shader ∧
      ∃ g log run, gen.buildGraph branchedDocument
          { options := { constantFolding := false } } = .ok (g, log) ∧
        gen.run g (Session.begin { options := { constantFolding := false } } .glsl) = .ok run ∧
        run.graph = g ∧ ∃ (stage written : Stage) (finished : FinishedStage) (code : List Code),
          stage.name = pixelStage ∧ Yields (run.emitEverywhere stage) code ∧
          written.WrittenWith stage code ∧ written.finish gen.dialect = .ok finished ∧
          finished ∈ shader.stages ∧ run.DeclaresBeforeUse stage code := by
  have made := Generator.create_bundled .glsl
  have works : ((Generator.outline .glsl "branched" branchedDocument
      { options := { constantFolding := false } }).toOption.any fun stages =>
        stages.all (Stage.finishes · (.ofTarget .glsl))) = true := by
    decide +kernel
  obtain ⟨shader, ok⟩ := Generator.generate_works works
  exact ⟨_, shader, made, ok, pixel_stage_scoped made ok⟩

end MaterialShader
