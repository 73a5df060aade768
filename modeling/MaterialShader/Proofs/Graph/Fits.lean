import MaterialShader.Library.Basic
import MaterialShader.Proofs.Graph.Fold
import MaterialShader.Proofs.Graph.Prune
import MaterialShader.Proofs.Value.HasType

/-!
Graphs whose literals fit their types and whose static inputs are not connected, and graphs whose
nodes have what definitions of a library give them.
-/

namespace MaterialShader

open List

variable {lib : Library} {w : Value} {t : ShaderType} {g : Graph}

/-- A literal fits its type if it is read, and a static input is not connected. -/
def Input.Fits (i : Input) : Prop :=
  (i.source = none → ∀ v ∈ i.value, v.HasType i.type) ∧ (i.isStatic → i.source = none)

structure Graph.Fits (g : Graph) : Prop where
  inputs : ∀ n ∈ g.nodes, ∀ i ∈ n.inputs, i.Fits
  inputSockets : ∀ s ∈ g.inputSockets, ∀ v ∈ s.value, v.HasType s.type
  outputSockets : ∀ s ∈ g.outputSockets, s.source = none → ∀ v ∈ s.value, v.HasType s.type

def GraphNode.outputTypes (n : GraphNode) : List String := n.outputs.map fun o => o.type.name

def Input.signature (i : Input) : String × ShaderType := (i.name, i.type)

def Port.Allows (p : Port) (s : String × ShaderType) : Prop :=
  s.1 = p.name ∧ (p.typeName = anyType ∨ s.2.name = p.typeName)

def Definition.Takes (d : Definition) (inputs : List Input) : Prop :=
  List.Forall₂ Port.Allows d.inputs (inputs.map Input.signature) ∨
    ∃ t name, inputs.map Input.signature = [("in", t)] ∧ ¬ t.isClosure ∧ d.name = "convert_" ++ name

theorem Definition.Takes.names {d : Definition} {inputs : List Input} (takes : d.Takes inputs) :
    inputs.map Input.name = d.inputs.map Port.name ∨
      inputs.map Input.name = ["in"] ∧ ∃ name, d.name = "convert_" ++ name := by
  have names : inputs.map Input.name = (inputs.map Input.signature).map Prod.fst := by
    rw [map_map]
    rfl
  rw [names]
  obtain all | ⟨t, name, single, _, converts⟩ := takes
  · left
    rw [← forall₂_eq_eq_eq, forall₂_map_left_iff, forall₂_map_right_iff]
    exact (all.imp fun _ _ allows => allows.1).flip
  · exact .inr ⟨by rw [single]; rfl, name, converts⟩

def GraphNode.Stems (lib : Library) (n : GraphNode) : Prop :=
  ∃ d ∈ lib.definitions, n.definition = d.name ∧ n.category = d.category ∧
    n.outputTypes = d.outputs.map Port.typeName ∧ d.Takes n.inputs

theorem GraphNode.Stems.of_same {n m : GraphNode} (stems : n.Stems lib)
    (definition : m.definition = n.definition) (category : m.category = n.category)
    (outputs : m.outputTypes = n.outputTypes)
    (inputs : m.inputs.map Input.signature = n.inputs.map Input.signature) : m.Stems lib := by
  obtain ⟨d, member, name, kind, typed, takes⟩ := stems
  exact ⟨d, member, definition.trans name, category.trans kind, outputs.trans typed,
    by rwa [Definition.Takes, inputs]⟩

namespace Fold

theorem convertValue?_hasType {v : Value} {c : Conversion} (computed : convertValue? v c t = some w) :
    w.HasType t := by
  obtain ⟨xs, _, computed⟩ := Option.bind_eq_some_iff.1 computed
  have built : ∃ ys, (Value.ofComponents t ys).toOption = some w := by
    cases c with
    | splat =>
      obtain ⟨ys, _, computed⟩ := Option.bind_eq_some_iff.1 computed
      exact ⟨ys, computed⟩
    | cast => exact ⟨xs, computed⟩
    | reinterpret => exact ⟨xs, computed⟩
    | swizzle channels =>
      obtain ⟨ys, _, computed⟩ := Option.bind_eq_some_iff.1 computed
      exact ⟨ys, computed⟩
  obtain ⟨ys, built⟩ := built
  exact Value.ofComponents_hasType (Result.toOption_eq_some.1 built)

theorem arithmetic?_hasType {op : Operator} {xs ys : List Numeric.Single}
    (computed : arithmetic? op xs ys t = some w) : w.HasType t := by
  simp only [arithmetic?] at computed
  split at computed
  · cases computed
  · obtain ⟨as, _, computed⟩ := Option.bind_eq_some_iff.1 computed
    obtain ⟨bs, _, computed⟩ := Option.bind_eq_some_iff.1 computed
    obtain ⟨zs, _, computed⟩ := Option.bind_eq_some_iff.1 computed
    exact Value.ofComponents_hasType (Result.toOption_eq_some.1 computed)

theorem Computes.hasType {types : Registry} {n : GraphNode} (computes : Computes types n t w) :
    w.HasType t := by
  cases computes with
  | convert i v c _ category input literal conversion computed =>
    exact convertValue?_hasType computed
  | arithmetic op xs ys _ category float notMatrix first second computed =>
    exact arithmetic?_hasType computed

section

variable {types : Registry} {literalMath : Bool} {id : NodeId} {n : GraphNode} {r : Replacement}
  (typed : g.WellTyped types) (fits : g.Fits) (found : g.nodes[id]? = some n)
  (folds : replacement? types literalMath n = some r)

include typed fits found folds

theorem replacement_fits (reads : g.Carries t (some (.node id 0))) (literal : r.source = none) :
    ∀ v ∈ r.value, v.HasType t := by
  obtain ⟨i, input, rfl, rfl⟩ | ⟨w, computes, rfl⟩ := replacement_typed found folds typed reads
  · exact (fits.inputs n (mem_of_getElem? found) i input).1 literal
  · rintro _ ⟨⟩
    exact computes.hasType

theorem bypass_fits : (bypass g id r).Fits := by
  refine ⟨forall_inputs_bypass (fun m member i input _ => fits.inputs m member i input) ?_,
    fits.inputSockets,
    forall_sockets_bypass (fun s member _ => fits.outputSockets s member) ?_⟩
  · intro m member i input reads
    have carries := (typed.inputs m member i input).2
    rw [reads] at carries
    refine ⟨replacement_fits typed fits found folds carries, fun static => ?_⟩
    rw [(fits.inputs m member i input).2 static] at reads
    cases reads
  · intro s member reads
    have carries := (typed.outputSockets s member).2
    rw [reads] at carries
    exact replacement_fits typed fits found folds carries

end

theorem bypass_stems (stems : ∀ n ∈ g.nodes, n.Stems lib) (id : NodeId) (r : Replacement) :
    ∀ n ∈ (bypass g id r).nodes, n.Stems lib := by
  intro m' member
  simp only [bypass_nodes, mem_map] at member
  obtain ⟨m, member, rfl⟩ := member
  refine (stems m member).of_same rfl rfl rfl ?_
  simp only [rewireNode, map_map]
  apply map_congr_left
  intro i _
  simp only [Function.comp_apply, rewireInput]
  split <;> rfl

theorem stable_fits (types : Registry) (literalMath : Bool) (lib : Library) :
    Stable types literalMath fun g =>
      g.WellTyped types ∧ g.Fits ∧ ∀ n ∈ g.nodes, n.Stems lib := by
  rintro g id n r ⟨typed, fits, stems⟩ found folds
  exact ⟨bypass_wellTyped found folds typed, bypass_fits typed fits found folds,
    bypass_stems stems id r⟩

end Fold

namespace Graph

theorem renumberSource_eq_none {kept : List Bool} {s : Option Source} :
    renumberSource kept s = none ↔ s = none := by
  match s with
  | none => rfl
  | some (.socket k) => simp [renumberSource]
  | some (.node id k) => simp [renumberSource]

theorem prune_fits (fits : g.Fits) : g.prune.1.Fits := by
  refine ⟨forall_inputs_prune fun _ n _ found i input => ?_, by simpa using fits.inputSockets,
    forall_sockets_prune fun s member => ?_⟩
  · simp only [Input.Fits, renumberSource_eq_none]
    exact fits.inputs n (mem_of_getElem? found) i input
  · simp only [renumberSource_eq_none]
    exact fits.outputSockets s member

theorem prune_stems (stems : ∀ n ∈ g.nodes, n.Stems lib) : ∀ n ∈ g.prune.1.nodes, n.Stems lib := by
  refine forall_nodes_prune fun _ n _ found => ?_
  refine (stems n (mem_of_getElem? found)).of_same rfl rfl rfl ?_
  simp only [renumberNode, map_map]
  rfl

theorem prune_used {types : Registry} (typed : g.WellTyped types) {id : NodeId}
    (inside : id < g.prune.1.nodes.length) : g.prune.1.Used id := by
  refine ⟨inside, ?_⟩
  rw [prune_eq_restrict] at inside ⊢
  obtain ⟨old, n, marked, rfl, found, _⟩ :=
    node_of_restrict g.keptFlags_length (List.getElem?_eq_getElem inside)
  obtain ⟨_, r, root, path⟩ := keptFlags_iff.1 marked
  obtain ⟨s, member, k, source⟩ := mem_roots.1 root
  refine ⟨renumber g.keptFlags r, mem_roots.2 ?_, ?_⟩
  · refine ⟨{ s with source := renumberSource g.keptFlags s.source }, ?_, k, ?_⟩
    · simp only [restrict, mem_map]
      exact ⟨s, member, rfl⟩
    · simp only [source, renumberSource]
  · have used : g.Used r := typed.closed.root_used member source
    have lifted : ∀ b, Dependency.DependsOn g.edges r b → g.Used b ∧
        Dependency.DependsOn (g.restrict g.keptFlags).edges (renumber g.keptFlags r)
          (renumber g.keptFlags b) := by
      intro b path
      induction path with
      | refl => exact ⟨used, .refl⟩
      | @tail b c _ step ih =>
        have feeds := mem_edges.1 step
        refine ⟨typed.closed.used_of_feeds ih.1 feeds, ih.2.tail (mem_edges.2 ?_)⟩
        obtain ⟨m, at_b, i, input, k, source⟩ := feeds
        refine ⟨_, restrict_node g.keptFlags_length (keptFlags_iff.2 ih.1) at_b,
          { i with source := renumberSource g.keptFlags i.source }, ?_, k, ?_⟩
        · simp only [renumberNode, mem_map]
          exact ⟨i, input, rfl⟩
        · simp only [source, renumberSource]
    exact (lifted old path).2

end Graph

end MaterialShader
