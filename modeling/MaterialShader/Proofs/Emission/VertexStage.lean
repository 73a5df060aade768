import MaterialShader.Proofs.Emission.PortNames

/-!
The vertex stage of a hardware shader:
-/

namespace MaterialShader

open List
open Emission (Yields)
open Result (bind_ok pure_ok)

namespace Layout

theorem placeList_flat {branches : NodeId → List (List NodeId)} (depth : Nat)
    {roots seen : List NodeId} (free : ∀ id ∈ roots, branches id = []) (distinct : roots.Nodup)
    (fresh : ∀ id ∈ roots, id ∉ seen) :
    (placeList (placeNode branches (depth + 1)) seen roots).1 =
      roots.map fun id => .node id [] := by
  induction roots generalizing seen with
  | nil => rfl
  | cons id rest ih =>
    obtain ⟨first, others⟩ := nodup_cons.1 distinct
    have new : id ∉ seen := fresh id mem_cons_self
    have placed : placeNode branches (depth + 1) seen id = (some (.node id []), id :: seen) := by
      simp [placeNode, new, free id mem_cons_self, placeBranches]
    have unseen : ∀ m ∈ rest, m ∉ id :: seen := by grind
    have later := ih (fun m member => free m (.tail _ member)) others unseen
    simp only [placeList, placed, later, Option.toList_some, singleton_append, map_cons]

theorem forest_flat (count : Nat) {branches : NodeId → List (List NodeId)} {roots : List NodeId}
    (free : ∀ id ∈ roots, branches id = []) (distinct : roots.Nodup) :
    forest count branches roots = roots.map fun id => .node id [] :=
  placeList_flat count free distinct (by simp)

end Layout

namespace Run

variable {run : Run} {stage : Stage}

theorem emitAll_flat {ids : List NodeId}
    (plain : ∀ id ∈ ids, ∀ op, run.realization id ≠ .conditional op) {code : List Code}
    (yields : Yields (emitAll run stage (ids.map fun id => .node id [])) code) :
    ∃ parts, List.Forall₂ (fun id own => run.simpleCode stage id = .ok own) ids parts ∧
      code = parts.flatten := by
  induction ids generalizing code with
  | nil =>
    exact ⟨[], .nil, yields.pure⟩
  | cons id rest ih =>
    obtain ⟨own, others, first, second, rfl⟩ := emitAll_cons yields
    obtain ⟨parts, each, rfl⟩ := ih (fun m member => plain m (.tail _ member)) second
    obtain ⟨_, simple⟩ | ⟨op, _, _, _, _, _, conditional, _⟩ := emitPlaced_cases first
    · exact ⟨own :: parts, .cons simple each, by simp⟩
    · exact absurd conditional (plain id mem_cons_self op)

theorem emitClass_flat {c : Classification} (ordered : run.graph.order.Nodup)
    (plain : ∀ id ∈ run.classNodes c, ∀ op, run.realization id ≠ .conditional op)
    {code : List Code} (yields : Yields (run.emitClass stage c) code) :
    ∃ parts, List.Forall₂ (fun id own => run.simpleCode stage id = .ok own) (run.classNodes c)
      parts ∧ code = parts.flatten := by
  have free : ∀ id ∈ run.classNodes c, run.branchMembers id = [] := by
    intro id member
    unfold branchMembers
    split
    · rename_i op _ realized _
      exact absurd realized (plain id member op)
    · rfl
  have distinct : (run.classNodes c).Nodup := ordered.filter _
  rw [emitClass, layout, Layout.forest_flat _ free distinct] at yields
  exact emitAll_flat plain yields

end Run

def lightDefinitions : List String := ["point_light", "directional_light"]

def Definition.classes (d : Definition) : Classification :=
  .ofList (GraphNode.flagsOfCategory d.category ++
    (d.outputs.map Port.typeName).flatMap GraphNode.flagsOfType)

namespace Realization

def isGeometry : Realization → Bool
  | .geometric _ | .light => true
  | _ => false

def isCall : Realization → Bool
  | .source code =>
    match code.source with
    | .function .. => true
    | .inline _ => false
  | _ => false

end Realization

def Definition.fitsVertexStage (lib : Library) (target : Target) (d : Definition) : Bool :=
  match d.realization? lib target with
  | some r =>
    d.classes.intersects Hardware.vertexClasses ==
        (r.isGeometry || lightDefinitions.contains d.name) &&
      (!lightDefinitions.contains d.name || r.isCall)
  | none => true

variable {target : Target}

theorem Library.bundled_fitsVertexStage (hardware : target.isHardware) {d : Definition}
    (member : d ∈ bundled.definitions) : d.fitsVertexStage bundled target := by
  have all : ([Target.glsl, Target.msl].all fun target =>
      bundled.definitions.all (Definition.fitsVertexStage bundled target)) := by
    rw [bundled_eq]
    decide +kernel
  simp only [all_eq_true] at all
  exact all target (Target.mem_hardware hardware) d member

structure Run.Classed (run : Run) : Prop where
  ordered : run.graph.order.Perm (List.range run.graph.nodes.length)
  classes : ∀ (id : NodeId) n, run.graph.nodes[id]? = some n →
    (n.classification.intersects Hardware.vertexClasses = true ↔
      (run.realization id).isGeometry = true ∨ n.definition ∈ lightDefinitions)
  calls : ∀ (id : NodeId) n, run.graph.nodes[id]? = some n → n.definition ∈ lightDefinitions →
    (run.realization id).isCall = true

theorem Generator.buildGraph_ready {gen : Generator}
    (made : Generator.create target .bundled = .ok gen) {doc : Document} {s : Session} {g : Graph}
    {log : Log} (building : gen.buildGraph doc s = .ok (g, log)) :
    g.Built .standard .bundled ∧ ∀ n ∈ g.nodes, n.Settled := by
  obtain ⟨_, library, types⟩ := Generator.create_ok made
  rw [Generator.buildGraph, library, types] at building
  have regular : ∀ t, Registry.standard.Knows t → t.Regular :=
    fun _ known => Registry.find?_standard_regular known
  exact ⟨Graph.build_built regular Library.bundled_converts building,
    Graph.build_settled regular Library.bundled_converts building⟩

theorem Generator.run_classed (hardware : target.isHardware) {gen : Generator}
    (made : Generator.create target .bundled = .ok gen) {g : Graph} {s : Session} {run : Run}
    (built : g.Built .standard .bundled) (settled : ∀ n ∈ g.nodes, n.Settled)
    (ran : gen.run g s = .ok run) : run.Classed := by
  obtain ⟨graph, _, _⟩ := Generator.run_graph ran
  subst graph
  have fits (id : NodeId) (n : GraphNode) (found : run.graph.nodes[id]? = some n) :
      (n.classification.intersects Hardware.vertexClasses ==
          ((run.realization id).isGeometry || lightDefinitions.contains n.definition) &&
        (!lightDefinitions.contains n.definition || (run.realization id).isCall)) := by
    have member := mem_of_getElem? found
    obtain ⟨d, listed, realized, name, category, outputs, _⟩ := Generator.realize_ok
      made (built.stems n member) (Generator.run_realization ran found)
    have fits := Library.bundled_fitsVertexStage hardware listed
    have classes : n.classification = d.classes := by
      rw [(settled n member).classified, GraphNode.classify_eq, category, outputs]
      rfl
    simpa only [Definition.fitsVertexStage, realized, ← name, ← classes] using fits
  refine ⟨built.order_perm, fun id n found => ?_, fun id n found light => ?_⟩
  · have := fits id n found
    simp only [Bool.and_eq_true, beq_iff_eq] at this
    simp [this.1]
  · simpa [light] using (Bool.and_eq_true_iff.1 (fits id n found)).2

namespace Run

variable {run : Run} {stage : Stage} {id : NodeId} {own : List Code}

theorem mem_classNodes {c : Classification} :
    id ∈ run.classNodes c ↔ id ∈ run.graph.order ∧
      ∃ n, run.graph.nodes[id]? = some n ∧ n.classification.intersects c := by
  rw [classNodes, mem_filter]
  cases run.graph.nodes[id]? <;> simp

theorem Classed.mem_vertex (classed : run.Classed) {n : GraphNode}
    (found : run.graph.nodes[id]? = some n) :
    id ∈ run.classNodes Hardware.vertexClasses ↔
      (run.realization id).isGeometry ∨ n.definition ∈ lightDefinitions := by
  have inside : id ∈ run.graph.order :=
    classed.ordered.mem_iff.2 (mem_range.2 (lt_of_getElem? found))
  rw [mem_classNodes, ← classed.classes id n found]
  simp [inside, found]

inductive Writes (run : Run) (id : NodeId) : String → Code → Prop
  | geometric {kind : GeometricKind} {n : GraphNode} {o : Output} {c text : String}
      (realized : run.realization id = .geometric kind) (node : run.node id = .ok n)
      (output : run.firstOutput id = .ok o) (named : kind.connector? n o.type.name = .ok (some c))
      (value : kind.connectorText run n o.type.name = .ok text) :
      Writes run id c (.assignment vertexData c s!"${c} = {text}")
  | light (realized : run.realization id = .light) :
      Writes run id "positionWorld"
        (.assignment vertexData "positionWorld" "$positionWorld = hPositionWorld.xyz")

theorem assignConnector_ok {name text : String} {x : Code}
    (ok : stage.assignConnector name text = .ok x) : x = .assignment vertexData name text := by
  unfold Stage.assignConnector at ok
  split at ok
  · cases ok
  · split_ifs at ok
    · cases ok
      rfl
    · cases ok

theorem geometry_writes (hardware : run.target.isHardware)
    (vertex : stage.name = vertexStage) (geometry : (run.realization id).isGeometry)
    (ok : run.simpleCode stage id = .ok own) :
    (∀ x ∈ own, ∃ c, run.Writes id c x) ∧
      ∀ c, run.Connects id c → ∃ x ∈ own, run.Writes id c x := by
  cases realized : run.realization id with
  | geometric kind =>
    simp only [simpleCode, realized, GeometricKind.code] at ok
    obtain ⟨n, node, ok⟩ := bind_ok.1 ok
    obtain ⟨o, output, ok⟩ := bind_ok.1 ok
    have code : kind.vertexCode run stage n o.type.name = .ok own := by
      cases target : run.target <;> simp only [target, Target.isHardware] at ok hardware
      · simpa [vertex] using ok
      · cases hardware
      · cases hardware
      · simpa [vertex] using ok
    obtain ⟨connector, named, code⟩ := bind_ok.1 code
    have exactly := connects_geometric realized node output named
    cases connector with
    | none =>
      cases pure_ok.1 code
      exact ⟨by simp, fun c connects => by simpa using (exactly c).2 connects⟩
    | some c =>
      obtain ⟨text, value, code⟩ := bind_ok.1 code
      obtain ⟨x, assigned, code⟩ := bind_ok.1 code
      cases pure_ok.1 code
      have writes := Writes.geometric realized node output named value
      rw [← assignConnector_ok assigned] at writes
      refine ⟨by simpa using ⟨c, writes⟩, fun c' connects => ?_⟩
      obtain rfl : c' = c := by simpa using (exactly c').2 connects
      exact ⟨x, mem_singleton_self x, writes⟩
  | light =>
    simp only [simpleCode, realized, lightCode, if_pos vertex] at ok
    obtain ⟨x, assigned, ok⟩ := bind_ok.1 ok
    cases pure_ok.1 ok
    have writes := Writes.light realized
    rw [← assignConnector_ok assigned] at writes
    refine ⟨by simpa using ⟨_, writes⟩, fun c connects => ?_⟩
    cases connects with
    | geometric realized' => cases realized.symm.trans realized'
    | light => exact ⟨x, mem_singleton_self x, writes⟩
  | _ => simp [realized, Realization.isGeometry] at geometry

theorem declare_statement {k : Nat} {value : Option String} {x : Code}
    (ok : run.declare id k value = .ok x) : ∃ t, ∃ type name text : String,
      run.dialect.typeName t = .ok type ∧ run.outputName id k = .ok name ∧
        x = .statement s!"{type} {name} = {text}" := by
  obtain ⟨_, _, ok⟩ := bind_ok.1 ok
  obtain ⟨o, _, ok⟩ := bind_ok.1 ok
  obtain ⟨name, named, ok⟩ := bind_ok.1 ok
  cases value
  all_goals
    obtain ⟨text, _, ok⟩ := bind_ok.1 ok
    obtain ⟨type, typed, ok⟩ := bind_ok.1 ok
    cases pure_ok.1 ok
    exact ⟨o.type, type, name, text, typed, named, rfl⟩

section

variable (hardware : run.target.isHardware) (call : (run.realization id).isCall)
  (ok : run.simpleCode stage id = .ok own)

include hardware call ok

theorem call_shape :
    ∃ code name text function arguments declared, run.realization id = .source code ∧
      code.source = .function name text ∧ code.substitute run name = .ok function ∧
      (∀ x ∈ declared, ∃ k, run.declare id k none = .ok x) ∧
      own = declared ++ [.statement (Dialect.call function arguments)] := by
  cases realized : run.realization id with
  | source code =>
    simp only [realized, Realization.isCall] at call
    split at call
    · rename_i name text source
      simp only [simpleCode, realized, SourceCode.code, source] at ok
      obtain ⟨n, _, ok⟩ := bind_ok.1 ok
      obtain ⟨function, called, ok⟩ := bind_ok.1 ok
      obtain ⟨inputs, _, ok⟩ := bind_ok.1 ok
      obtain ⟨extra, _, ok⟩ := bind_ok.1 ok
      have other : run.target ≠ .mdl := by
        intro mdl
        simp [mdl, Target.isHardware] at hardware
      simp only [if_neg other] at ok
      obtain ⟨declared, each, ok⟩ := bind_ok.1 ok
      obtain ⟨outputs, _, ok⟩ := bind_ok.1 ok
      cases pure_ok.1 ok
      refine ⟨code, name, text, function, _, declared, rfl, source, called, fun x member => ?_, rfl⟩
      obtain ⟨k, _, declares⟩ := exists_of_mem_right (Result.mapM_ok each) member
      exact ⟨k, declares⟩
    · cases call
  | _ => simp [realized, Realization.isCall] at call

theorem call_statements :
    own ≠ [] ∧ ∀ x ∈ own, ∃ text, x = .statement text := by
  obtain ⟨_, _, _, function, arguments, declared, _, _, _, each, rfl⟩ := call_shape hardware call ok
  refine ⟨by simp, fun x member => ?_⟩
  obtain member | last := mem_append.1 member
  · obtain ⟨k, declares⟩ := each x member
    obtain ⟨_, _, _, _, _, _, shape⟩ := declare_statement declares
    exact ⟨_, shape⟩
  · exact ⟨_, mem_singleton.1 last⟩

end

theorem simpleCode_call (call : (run.realization id).isCall) (stage' : Stage) :
    run.simpleCode stage' id = run.simpleCode stage id := by
  cases realized : run.realization id with
  | source code => simp only [simpleCode, realized]
  | _ => simp [realized, Realization.isCall] at call

end Run

namespace Hardware.Pieces

variable {run : Run} (p : Pieces run)

theorem vertexNodes_flat (classed : run.Classed) :
    ∃ parts, List.Forall₂ (fun id own => run.simpleCode p.vertex id = .ok own)
      (run.classNodes vertexClasses) parts ∧ p.vertexNodes = parts.flatten := by
  refine Run.emitClass_flat (classed.ordered.nodup_iff.2 nodup_range) ?_ p.emitsVertex
  intro id member op conditional
  obtain ⟨_, n, found, _⟩ := Run.mem_classNodes.1 member
  obtain geometry | light := (classed.mem_vertex found).1 member
  · simp [conditional, Realization.isGeometry] at geometry
  · simpa [conditional, Realization.isCall] using classed.calls id n found light

section

variable (hardware : run.target.isHardware) (classed : run.Classed)

include hardware classed

theorem vertexNodes_cases {x : Code} (member : x ∈ p.vertexNodes) :
    (∃ id ∈ run.graph.order, ∃ c, run.Writes id c x) ∨
      (∃ text, x = .statement text) ∧ ∃ n ∈ run.graph.nodes, n.definition ∈ lightDefinitions := by
  obtain ⟨parts, each, shape⟩ := p.vertexNodes_flat classed
  rw [shape] at member
  obtain ⟨own, part, member⟩ := mem_flatten.1 member
  obtain ⟨id, listed, code⟩ := exists_of_mem_right each part
  obtain ⟨ordered, n, found, _⟩ := Run.mem_classNodes.1 listed
  obtain geometry | light := (classed.mem_vertex found).1 listed
  · have writes := (Run.geometry_writes hardware (name_of_named p.isVertex) geometry code).1
    exact .inl ⟨id, ordered, writes x member⟩
  · have statements := (Run.call_statements hardware (classed.calls id n found light) code).2
    exact .inr ⟨statements x member, n, mem_of_getElem? found, light⟩

theorem writes_vertexNodes {id : NodeId} {c : String} (ordered : id ∈ run.graph.order)
    (connects : run.Connects id c) :
    ∃ x ∈ p.vertexNodes, run.Writes id c x := by
  obtain ⟨parts, each, shape⟩ := p.vertexNodes_flat classed
  have inside := mem_range.1 (classed.ordered.mem_iff.1 ordered)
  have geometry : (run.realization id).isGeometry := by
    cases connects with
    | geometric realized => rw [realized]; rfl
    | light realized => rw [realized]; rfl
  have listed := (classed.mem_vertex (List.getElem?_eq_getElem inside)).2 (.inl geometry)
  obtain ⟨own, part, code⟩ := exists_of_mem_right each.flip listed
  obtain ⟨x, member, writes⟩ :=
    (Run.geometry_writes hardware (name_of_named p.isVertex) geometry code).2 c connects
  exact ⟨x, shape ▸ mem_flatten.2 ⟨own, part, member⟩, writes⟩

theorem statement_mem_vertexNodes {n : GraphNode} (member : n ∈ run.graph.nodes)
    (light : n.definition ∈ lightDefinitions) : ∃ text, .statement text ∈ p.vertexNodes := by
  obtain ⟨parts, each, shape⟩ := p.vertexNodes_flat classed
  obtain ⟨id, found⟩ := mem_iff_getElem?.1 member
  have listed := (classed.mem_vertex found).2 (.inr light)
  obtain ⟨own, part, code⟩ := exists_of_mem_right each.flip listed
  obtain ⟨some_, statements⟩ := Run.call_statements hardware (classed.calls id n found light) code
  obtain ⟨x, first⟩ := exists_mem_of_ne_nil own some_
  obtain ⟨text, rfl⟩ := statements x first
  exact ⟨text, shape ▸ mem_flatten.2 ⟨own, part, first⟩⟩

end

end Hardware.Pieces

end MaterialShader
