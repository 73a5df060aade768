import MaterialShader.Proofs.Emission.VertexStage
import MaterialShader.Proofs.Layout.Confined

/-!
The code of nodes that only one branch needs stands inside the braces of that branch, unless one of
them is read from two scopes on the way there.
-/

namespace MaterialShader

open List Generator
open Emission (Yields)

namespace Placed

def Under (forest : List Placed) (c : NodeId) (k : Nat) (p : Placed) : Prop :=
  ∃ root ∈ forest, ∃ branches members q, Within (.node c branches) root ∧
    branches[k]? = some members ∧ q ∈ members ∧ Within p q

end Placed

section

open Placed Scope

variable {g : Graph} {branchOf : GraphNode → Input → Option Nat} {scopes : List Scope}
  {count : NodeId → Nat} {c a : NodeId} {k : Nat}

theorem mem_branch_iff {branches : List (List Placed)}
    (follows : (Placed.node c branches).Follows (branchLists g scopes count))
    {members : List Placed} (branch : branches[k]? = some members) :
    (∃ p ∈ members, p.id = a) ↔ a ∈ g.order ∧ scopes[a]? = some (.branch c k) := by
  cases follows with
  | node _ _ same _ =>
    have ids : (branchLists g scopes count c)[k]? = some (members.map Placed.id) := by
      rw [← same, List.getElem?_map, branch, Option.map_some]
    obtain ⟨_, at_k, listed⟩ := (List.getElem?_map ..).symm.trans ids |> Option.map_eq_some_iff.1
    obtain ⟨_, rfl⟩ := List.getElem?_eq_some_iff.1 at_k
    rw [← mem_map, ← listed, getElem_range, mem_scopeMembers]

theorem Graph.Scoping.under_of_lies (scoping : g.Scoping branchOf scopes) (ordered : g.Ordered)
    (covers : Covers g branchOf count) (lies : Lies scopes c k a) :
    ∃ p, p.id = a ∧ Under (scopeForest g scopes count) c k p := by
  obtain ⟨_, follows, _, _⟩ := scoping.forest ordered count
  -- A node in a branch is a member of that branch, wherever its conditional is placed.
  have placed {d m : NodeId} {j : Nat} (scope : scopes[m]? = some (.branch d j))
      {branches : List (List Placed)}
      (below : (Placed.node d branches).Follows (branchLists g scopes count)) :
      ∃ members, branches[j]? = some members ∧ ∃ p ∈ members, p.id = m := by
    obtain ⟨_, n, found, i, input, feeds⟩ := scoping.inner m d j scope
    have total : branches.length = count d := by
      cases below with
      | node _ _ same _ => simpa [branchLists] using congrArg List.length same
    have bound : j < branches.length := total ▸ covers d n found i input j feeds
    have known : m < g.nodes.length := scoping.length ▸ lt_of_getElem? scope
    have branch := List.getElem?_eq_getElem bound
    exact ⟨_, branch, (mem_branch_iff below branch).2 ⟨ordered.mem_order.2 known, scope⟩⟩
  induction lies with
  | direct scope =>
    obtain ⟨_, n, found, _⟩ := scoping.inner _ c k scope
    obtain ⟨root, member, below⟩ := mem_idsOfAll.1
      (scoping.mem_ids ordered covers (lt_of_getElem? found))
    obtain ⟨⟨d, branches⟩, within, rfl⟩ := (follows root member).exists_within below
    obtain ⟨members, branch, p, inside, same⟩ := placed scope ((follows root member).within within)
    exact ⟨p, same, root, member, branches, members, p, within, branch, inside, .self⟩
  | nested scope _ ih =>
    obtain ⟨⟨d, inner⟩, rfl, root, member, branches, members, q, within, branch, inside, below⟩ := ih
    have around := (below.inside (mem_of_getElem? branch) inside).trans within
    obtain ⟨others, nested, p, listed, same⟩ :=
      placed scope ((follows root member).within around)
    exact ⟨p, same, root, member, branches, members, q, within, branch, inside,
      (Within.inside (mem_of_getElem? nested) listed .self).trans below⟩

theorem Graph.Scoping.lies_of_under (scoping : g.Scoping branchOf scopes) (ordered : g.Ordered)
    {p : Placed} (under : Under (scopeForest g scopes count) c k p) : Lies scopes c k p.id := by
  obtain ⟨_, follows, _, _⟩ := scoping.forest ordered count
  obtain ⟨root, member, branches, members, q, around, branch, inside, within⟩ := under
  have below := (follows root member).within around
  have start : Lies scopes c k q.id :=
    .direct ((mem_branch_iff below branch).1 ⟨q, inside, rfl⟩).2
  replace below : q.Follows (branchLists g scopes count) :=
    below.within (.inside (mem_of_getElem? branch) inside .self)
  clear branch inside around
  induction within with
  | self => exact start
  | inside listed inner _ ih =>
    obtain ⟨j, at_j⟩ := mem_iff_getElem?.1 listed
    have scope := ((mem_branch_iff below at_j).1 ⟨_, inner, rfl⟩).2
    exact ih (.nested scope start) (below.within (.inside listed inner .self))

end

namespace Run

open Placed (Under)

variable {run : Run} {stage : Stage} {code : List Code}

/-- The code of node `a` stands inside the braces of branch `k` of the conditional `c`. -/
def EmitsInside (run : Run) (stage : Stage) (code : List Code) (c : NodeId) (k : Nat)
    (a : NodeId) : Prop :=
  ∃ p own body whole, p.id = a ∧ Under (run.layout run.everywhereNodes) c k p ∧
    Yields (run.emitPlaced stage p) own ∧ own <:+: body ∧ run.BranchCode c k body whole ∧
    whole <:+: code

theorem emitsInside_iff (sound : run.Sound) (ordered : run.graph.Ordered)
    (scoping : run.graph.Scoping run.branchOf run.scopes)
    (yields : Yields (run.emitEverywhere stage) code) {c a : NodeId} {k : Nat} :
    run.EmitsInside stage code c k a ↔ Scope.Lies run.scopes c k a := by
  constructor
  · rintro ⟨p, _, _, _, rfl, under, _⟩
    rw [layout_everywhere] at under
    exact scoping.lies_of_under ordered under
  · intro lies
    obtain ⟨p, same, under⟩ := scoping.under_of_lies ordered sound.covers lies
    obtain ⟨_, follows, _, _⟩ := scoping.forest ordered run.branchTotal
    rw [← branchMembers_eq] at follows
    obtain ⟨root, member, branches, members, q, within, branch, inside, below⟩ := under
    rw [emitEverywhere, layout_everywhere] at yields
    obtain ⟨outer, emitted, placed⟩ := emitAll_mem yields member
    obtain ⟨whole, conditional, held⟩ := emitPlaced_within within (follows root member) emitted
    have chained := (follows root member).within within
    obtain ⟨body, all, branched⟩ := emitPlaced_branch chained conditional branch
    obtain ⟨_, first, top⟩ := emitAll_mem all inside
    have listed := chained.within (.inside (mem_of_getElem? branch) inside .self)
    obtain ⟨own, here, inner⟩ := emitPlaced_within below listed first
    refine ⟨p, own, body, whole, same, ?_, here, inner.trans top, branched, held.trans placed⟩
    rw [layout_everywhere]
    exact ⟨root, member, branches, members, q, within, branch, inside, below⟩

end Run

/-- The pixel stage of a shader of the document holds the code of all nodes of the run. -/
def Generator.Draws (gen : Generator) (doc : Document) (s : Session) (shader : Shader) (run : Run)
    (stage : Stage) (code : List Code) : Prop :=
  (∃ log, gen.buildGraph doc s = .ok (run.graph, log)) ∧
    gen.run run.graph (s.begin gen.target) = .ok run ∧ stage.name = pixelStage ∧
    Yields (run.emitEverywhere stage) code ∧ ∃ written : Stage, written.WrittenWith stage code ∧
      ∃ finished ∈ shader.stages, written.finish gen.dialect = .ok finished

section

variable {target : Target} {gen : Generator} (made : Generator.create target .bundled = .ok gen)
  {name : String} {doc : Document} {s : Session} {shader : Shader}
  (ok : (gen.generate name doc s).result = .ok shader)

include ok in
theorem Generator.exists_draws : ∃ run stage code, gen.Draws doc s shader run stage code := by
  obtain ⟨g, log, run, stages, building, ran, assembled, finishing⟩ := generate_ok ok
  obtain ⟨stage, written, code, pixel, member, yields, body⟩ :=
    assemble_ensures run name stages assembled
  obtain ⟨finished, listed, finish⟩ := exists_of_mem_right finishing.flip member
  obtain ⟨rfl, _, _⟩ := run_graph ran
  exact ⟨run, stage, code, ⟨log, building⟩, ran, pixel, yields, written, body, finished, listed,
    finish⟩

include made

theorem Generator.Draws.emitsInside_iff (branching : target.hasBranches) {run : Run}
    {stage : Stage} {code : List Code} (draws : gen.Draws doc s shader run stage code)
    {c a : NodeId} {k : Nat} :
    run.EmitsInside stage code c k a ↔ Scope.Lies run.graph.scopes c k a := by
  obtain ⟨⟨_, building⟩, ran, _, yields, _⟩ := draws
  obtain ⟨built, _⟩ := buildGraph_ready made building
  have sound := run_sound Library.bundled_orderly made built ran
  obtain ⟨_, _, scopes⟩ := run_graph ran
  obtain ⟨rfl, _, _⟩ := create_ok made
  rw [Run.emitsInside_iff sound built.ordered (run_scoping built.ordered ran) yields,
    scopes, Generator.scopes, if_pos branching]

include ok in
/-- Where every path from a node to an output goes through one branch of a conditional, the pixel
stage has the code of the node inside the braces of that branch exactly if neither the node nor one
on the way from it to the branch is read from two scopes. -/
theorem branch_only_nodes_lazy (branching : target.hasBranches = true) :
    ∃ run stage code, gen.Draws doc s shader run stage code ∧
      ∀ a < run.graph.nodes.length, ∀ c k, run.graph.Confined c k a →
        (run.EmitsInside stage code c k a ↔
          ∀ m, Relation.ReflTransGen (run.graph.ReadsPast c k) a m → run.graph.ReadOnce m) := by
  obtain ⟨run, stage, code, draws⟩ := Generator.exists_draws ok
  obtain ⟨_, building⟩ := draws.1
  obtain ⟨built, _⟩ := Generator.buildGraph_ready made building
  refine ⟨run, stage, code, draws, fun a inside c k confined => ?_⟩
  rw [draws.emitsInside_iff made branching, built.ordered.inside_iff built.used inside confined]

end

def nestedDocument : Document where
  version := "1"
  metadata := ⟨"nested", none, none⟩
  inputs := []
  nodes :=
    [⟨"outer", "ifgreater", "float", none, [], [], []⟩, ⟨"sum", "add", "float", none, [], [], []⟩,
     ⟨"inner", "ifgreater", "float", none, [], [], []⟩,
     ⟨"shared", "constant", "float", none, [], [], []⟩,
     ⟨"own", "constant", "float", none, [], [], []⟩]
  connections :=
    [⟨"a", ⟨"sum", "out"⟩, ⟨"outer", "in1"⟩⟩, ⟨"b", ⟨"shared", "out"⟩, ⟨"sum", "in1"⟩⟩,
     ⟨"c", ⟨"inner", "out"⟩, ⟨"sum", "in2"⟩⟩, ⟨"d", ⟨"shared", "out"⟩, ⟨"inner", "in1"⟩⟩,
     ⟨"e", ⟨"own", "out"⟩, ⟨"inner", "in2"⟩⟩]
  outputs := [⟨"out", "float", ⟨"outer", "out"⟩⟩]
  nodegraphs := []

def unfolded : Session := { options := { constantFolding := false } }

def Graph.isClosedPast (g : Graph) (c : NodeId) (k : Nat) (ids : List NodeId) : Bool :=
  ids.all (fun a => !g.roots.contains a) &&
    (List.range g.nodes.length).all fun b => g.nodes[b]?.all fun n => n.inputs.all fun i =>
      match i.source with
      | some (.node a _) => !ids.contains a || ids.contains b ||
          (b == c && Scope.branchOf? n i == some k)
      | _ => true

theorem Graph.confined_of_closedPast {g : Graph} {c a : NodeId} {k : Nat} {ids : List NodeId}
    (closed : g.isClosedPast c k ids) (member : a ∈ ids) : g.Confined c k a := by
  simp only [isClosedPast, Bool.and_eq_true, all_eq_true] at closed
  obtain ⟨inner, reads⟩ := closed
  intro b path
  suffices b ∈ ids by simpa using inner b this
  induction path with
  | refl => exact member
  | tail _ past ih =>
    obtain ⟨n, found, i, input, ⟨o, source⟩, elsewhere⟩ := past
    have read := reads _ (mem_range.2 (lt_of_getElem? found))
    simp only [found, Option.all_some, all_eq_true] at read
    simpa [source, ih, elsewhere] using read i input

theorem nestedDocument_works : ∃ shader,
    ((Generator.bundled .glsl).generate "nested" nestedDocument unfolded).result = .ok shader := by
  apply generate_works
  decide +kernel

theorem nestedDocument_scopes {g : Graph} {log : Log}
    (building : (Generator.bundled .glsl).buildGraph nestedDocument unfolded = .ok (g, log)) :
    g.nodes.length = 5 ∧ g.isClosedPast 0 0 [1, 2, 3, 4] ∧
      g.scopes[2]? = some (.branch 0 0) ∧ g.scopes[3]? = some .everywhere ∧
      g.scopes[4]? = some (.branch 2 1) := by
  have all : (((Generator.bundled .glsl).buildGraph nestedDocument unfolded).toOption.all fun out =>
      decide (out.1.nodes.length = 5 ∧ out.1.isClosedPast 0 0 [1, 2, 3, 4] ∧
        out.1.scopes[2]? = some (.branch 0 0) ∧ out.1.scopes[3]? = some .everywhere ∧
        out.1.scopes[4]? = some (.branch 2 1))) := by
    rw [Generator.bundled, Library.bundled_eq]
    decide +kernel
  rw [building] at all
  exact of_decide_eq_true all

theorem branch_only_nodes_lazy_nested : ∃ gen shader run stage code,
    Generator.create .glsl .bundled = .ok gen ∧
    gen.Draws nestedDocument unfolded shader run stage code ∧
    run.EmitsInside stage code 0 0 4 := by
  have made := Generator.create_bundled .glsl
  obtain ⟨shader, ok⟩ := nestedDocument_works
  obtain ⟨run, stage, code, draws, lazy⟩ := branch_only_nodes_lazy made ok rfl
  obtain ⟨_, building⟩ := draws.1
  obtain ⟨length, closed, inner, _, own⟩ := nestedDocument_scopes building
  obtain ⟨built, _⟩ := Generator.buildGraph_ready made building
  have confined := Graph.confined_of_closedPast closed (by decide : 4 ∈ [1, 2, 3, 4])
  have inside : 4 < run.graph.nodes.length := by omega
  refine ⟨_, shader, run, stage, code, made, draws, (lazy 4 inside 0 0 confined).2 ?_⟩
  exact (built.ordered.inside_iff built.used inside confined).1 (.nested own (.direct inner))

/-- The other constant is needed for that branch alone as well, but its code stands outside. -/
theorem branch_only_node_eager : ∃ gen shader run stage code,
    Generator.create .glsl .bundled = .ok gen ∧
    (gen.generate "nested" nestedDocument unfolded).result = .ok shader ∧
    gen.Draws nestedDocument unfolded shader run stage code ∧
    run.graph.Confined 0 0 3 ∧ ¬ run.EmitsInside stage code 0 0 3 := by
  have made := Generator.create_bundled .glsl
  obtain ⟨shader, ok⟩ := nestedDocument_works
  obtain ⟨run, stage, code, draws⟩ := Generator.exists_draws ok
  obtain ⟨_, building⟩ := draws.1
  obtain ⟨_, closed, _, shared, _⟩ := nestedDocument_scopes building
  refine ⟨_, shader, run, stage, code, made, ok, draws,
    Graph.confined_of_closedPast closed (by decide : 3 ∈ [1, 2, 3, 4]), ?_⟩
  rw [draws.emitsInside_iff made rfl]
  intro lies
  obtain ⟨d, j, scope⟩ := lies.exists_branch
  rw [shared] at scope
  cases scope

end MaterialShader
