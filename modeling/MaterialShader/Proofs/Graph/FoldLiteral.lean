import MaterialShader.Proofs.Graph.FoldNormal

/-!
Graphs of literals.
-/

namespace MaterialShader

open List

namespace Fold

open MaterialShader.Graph (mem_sources)

/-- The value of a node in place of a connection to it. -/
def resolve (values : NodeId → Option Value) (r : Replacement) : Replacement :=
  match r.source with
  | some (.node id _) => ⟨none, values id⟩
  | _ => r

def resolveInput (values : NodeId → Option Value) (i : Input) : Input :=
  let r := resolve values ⟨i.source, i.value⟩
  { i with source := r.source, value := r.value }

def resolveNode (values : NodeId → Option Value) (n : GraphNode) : GraphNode :=
  { n with inputs := n.inputs.map (resolveInput values) }

def resolveSocket (values : NodeId → Option Value) (s : OutputSocket) : OutputSocket :=
  let r := resolve values ⟨s.source, s.value⟩
  { s with source := r.source, value := r.value }

def FoldsTo (types : Registry) (n : GraphNode) (v : Option Value) : Prop :=
  ∃ out, n.outputs = [out] ∧
    ((∃ name i, Picks n name ∧ n.input? name = some i ∧ i.type.same out.type ∧ i.value = v) ∨
      ∃ w, Computes types n out.type w ∧ v = some w)

structure Reduces (types : Registry) (g : Graph) (values : NodeId → Option Value) : Prop where
  folds : ∀ id n, g.nodes[id]? = some n → FoldsTo types (resolveNode values n) (values id)
  socket : ∀ k, Source.socket k ∉ g.sources
  inputs : ∀ n ∈ g.nodes, ∀ i ∈ n.inputs, i.source = none → i.type.isFloatBased → i.value.isSome
  outputSockets : ∀ s ∈ g.outputSockets, s.source = none → s.type.isFloatBased → s.value.isSome

section

variable {values : NodeId → Option Value} {r : Replacement} {n : GraphNode}

theorem resolve_of_none (source : r.source = none) : resolve values r = r := by
  rw [resolve, source]

theorem resolve_of_node {id k : Nat} (source : r.source = some (.node id k)) :
    resolve values r = ⟨none, values id⟩ := by
  rw [resolve, source]

theorem resolve_source (plain : ∀ k, r.source ≠ some (.socket k)) :
    (resolve values r).source = none := by
  obtain ⟨source, value⟩ := r
  match source with
  | none => rfl
  | some (.node id k) => rfl
  | some (.socket k) => exact absurd rfl (plain k)

theorem resolveInput_of_none {i : Input} (source : i.source = none) :
    resolveInput values i = i := by
  rw [resolveInput, resolve_of_none source]

theorem resolveSocket_of_none {s : OutputSocket} (source : s.source = none) :
    resolveSocket values s = s := by
  rw [resolveSocket, resolve_of_none source]

theorem resolveInput_sharper (i : Input) : Sharper i (resolveInput values i) := by
  refine ⟨rfl, rfl, fun source => ?_⟩
  rw [resolveInput_of_none source]
  exact ⟨source, rfl⟩

theorem resolveNode_along (n : GraphNode) :
    Along (fun i j => j = resolveInput values i) n (resolveNode values n) := by
  refine ⟨rfl, rfl, ?_⟩
  simp [resolveNode, forall₂_map_right_iff, forall₂_same]

theorem FoldsTo.replacement? {types : Registry} {v : Option Value} (folds : FoldsTo types n v)
    (plain : ∀ i ∈ n.inputs, i.source = none) : replacement? types true n = some ⟨none, v⟩ := by
  obtain ⟨out, outputs, ⟨name, i, picks, input, same, rfl⟩ | ⟨w, computes, rfl⟩⟩ := folds
  · rw [picks.replaces outputs]
    refine pass_eq_some.2 ⟨i, input, same, ?_⟩
    rw [plain i (GraphNode.mem_of_input? input)]
  · exact computes.replaces outputs

theorem FoldsTo.of_replacement? {types : Registry} {v : Option Value}
    (folds : Fold.replacement? types true n = some ⟨none, v⟩) : FoldsTo types n v := by
  obtain ⟨out, outputs, ⟨name, picks, passed⟩ | ⟨w, computes, same⟩⟩ := replacement?_cases folds
  · obtain ⟨i, input, same, replaced⟩ := pass_eq_some.1 passed
    have value : i.value = v := (congrArg Replacement.value replaced).symm
    exact ⟨out, outputs, .inl ⟨name, i, picks, input, same, value⟩⟩
  · cases same
    exact ⟨out, outputs, .inr ⟨w, computes, rfl⟩⟩

structure Resolves (values : NodeId → Option Value) (g h : Graph) : Prop where
  nodes : h.nodes.map (resolveNode values) = g.nodes.map (resolveNode values)
  outputSockets : h.outputSockets.map (resolveSocket values) =
    g.outputSockets.map (resolveSocket values)
  socket : ∀ k, Source.socket k ∉ h.sources

theorem Resolves.node {g h : Graph} (resolves : Resolves values g h) {id : NodeId}
    (found : h.nodes[id]? = some n) :
    ∃ n₀, g.nodes[id]? = some n₀ ∧ resolveNode values n₀ = resolveNode values n := by
  have same := congrArg (fun nodes => nodes[id]?) resolves.nodes
  simp only [List.getElem?_map, found, Option.map_some] at same
  exact Option.map_eq_some_iff.1 same.symm

theorem Resolves.plain {g h : Graph} (resolves : Resolves values g h) (member : n ∈ h.nodes) :
    ∀ i ∈ (resolveNode values n).inputs, i.source = none := by
  intro i' resolved
  obtain ⟨i, input, rfl⟩ := mem_map.1 resolved
  refine resolve_source fun k source => resolves.socket k ?_
  exact mem_sources.2 (.inl ⟨n, member, i, input, source⟩)

variable {types : Registry} {g h : Graph}

section

variable (reduces : Reduces types g values) (resolves : Resolves values g h) {id : NodeId}
  (found : h.nodes[id]? = some n) (folds : replacement? types true n = some r)

include reduces resolves found folds

theorem Resolves.replacement :
    resolve values r = ⟨none, values id⟩ := by
  obtain ⟨n₀, found₀, same⟩ := resolves.node found
  have folded := reduces.folds id n₀ found₀
  rw [same] at folded
  have value := folded.replacement? (resolves.plain (mem_of_getElem? found))
  obtain ⟨i, _, rfl, rfl, along⟩ | ⟨w, rfl, along⟩ :=
    replacement?_along (R := fun i j => j = resolveInput values i)
      (fun i _ related => related ▸ resolveInput_sharper i) (resolveNode_along n) folds
  · exact Option.some.inj (along.symm.trans value)
  · exact Option.some.inj (along.symm.trans value)

theorem bypass_resolves :
    Resolves values g (bypass h id r) := by
  have value := resolves.replacement reduces found folds
  have input : ∀ i, resolveInput values (rewireInput id r i) = resolveInput values i := by
    intro i
    unfold rewireInput
    split
    · rename_i reads
      simp only [resolveInput]
      rw [value, resolve_of_node (beq_iff_eq.1 reads)]
    · rfl
  have socket : ∀ s, resolveSocket values (rewireSocket id r s) = resolveSocket values s := by
    intro s
    unfold rewireSocket
    split
    · rename_i reads
      simp only [resolveSocket]
      rw [value, resolve_of_node (beq_iff_eq.1 reads)]
    · rfl
  refine ⟨?_, ?_, fun k read => ?_⟩
  · rw [← resolves.nodes, bypass_nodes, map_map]
    refine map_congr_left fun m _ => ?_
    simp only [Function.comp_apply, resolveNode, rewireNode, map_map, GraphNode.mk.injEq,
      true_and, and_true]
    exact map_congr_left fun i _ => input i
  · rw [← resolves.outputSockets, bypass_outputSockets, map_map]
    exact map_congr_left fun s _ => socket s
  · obtain ⟨old, _⟩ | replaced := mem_bypass_sources read
    · exact resolves.socket k old
    · exact resolves.socket k (replacement_mem_sources found folds replaced)

end

theorem stable_resolves (reduces : Reduces types g values) :
    Stable types true (Resolves values g) :=
  fun _ _ _ _ resolves found folds => bypass_resolves reduces resolves found folds

section

variable {bypassed : List NodeId} (reduces : Reduces types g values)
  (resolves : Resolves values g h) (exhausted : Exhausted types true h bypassed)

include reduces resolves exhausted

theorem Exhausted.all_bypassed :
    ∀ id n, h.nodes[id]? = some n → id ∈ bypassed := by
  obtain ⟨rank, climbs⟩ := exhausted.acyclic.exists_rank fun _ _ => exhausted.typed.feeder_lt
  intro id
  induction measure : rank id using Nat.strong_induction_on generalizing id with
  | _ k ih =>
    subst measure
    intro n found
    have member := mem_of_getElem? found
    have plain : ∀ i ∈ n.inputs, i.source = none := by
      intro i input
      match source : i.source with
      | none => rfl
      | some (.socket k) =>
        exact absurd (mem_sources.2 (.inl ⟨n, member, i, input, source⟩)) (resolves.socket k)
      | some (.node a k) =>
        have read := mem_sources.2 (.inl ⟨n, member, i, input, source⟩)
        obtain ⟨m, at_a, _⟩ := exhausted.typed.holds read
        have earlier := ih (rank a) (climbs a id ⟨n, found, i, input, k, source⟩) a rfl m at_a
        exact absurd read (exhausted.cut a earlier k)
    have same : resolveNode values n = n := by
      have inputs : n.inputs.map (resolveInput values) = n.inputs :=
        (map_congr_left fun i input => resolveInput_of_none (plain i input)).trans
          (map_id _)
      rw [resolveNode, inputs]
    obtain ⟨n₀, found₀, resolved⟩ := resolves.node found
    have folds := reduces.folds id n₀ found₀
    rw [resolved, same] at folds
    by_contra fresh
    exact nomatch (exhausted.rest id n found fresh).symm.trans (folds.replacement? plain)

theorem Exhausted.sources_eq_nil :
    h.sources = [] := by
  refine eq_nil_iff_forall_not_mem.2 fun s read => ?_
  cases s with
  | socket k => exact resolves.socket k read
  | node id k =>
    obtain ⟨n, found, _⟩ := exhausted.typed.holds read
    exact exhausted.cut id (exhausted.all_bypassed reduces resolves id n found) k read

end

theorem socket_source_eq_none (unread : h.sources = []) :
    ∀ s ∈ h.outputSockets, s.source = none := by
  intro s member
  refine Option.eq_none_iff_forall_ne_some.2 fun source found => ?_
  have read := mem_sources.2 (.inr ⟨s, member, found⟩)
  exact not_mem_nil (unread ▸ read)

theorem Resolves.outputSockets_eq (resolves : Resolves values g h) (unread : h.sources = []) :
    h.outputSockets = g.outputSockets.map (resolveSocket values) := by
  rw [← resolves.outputSockets]
  have kept : ∀ s ∈ h.outputSockets, resolveSocket values s = s :=
    fun s member => resolveSocket_of_none (socket_source_eq_none unread s member)
  exact ((map_congr_left kept).trans (map_id _)).symm

theorem prune_of_unread (unread : h.sources = []) :
    h.prune.1.nodes = [] ∧ h.prune.1.outputSockets = h.outputSockets := by
  have plain := socket_source_eq_none unread
  constructor
  · refine eq_nil_iff_forall_not_mem.2 (Graph.forall_nodes_prune fun id _ marked _ => ?_)
    obtain ⟨_, r, root, _⟩ := Graph.keptFlags_iff.1 marked
    obtain ⟨s, socket, k, source⟩ := Graph.mem_roots.1 root
    exact nomatch (plain s socket).symm.trans source
  · have kept : ∀ s ∈ h.outputSockets,
        { s with source := Graph.renumberSource h.keptFlags s.source } = s := by
      intro s member
      rw [Graph.renumberSource_eq_none.2 (plain s member), ← plain s member]
    rw [Graph.prune_eq_restrict]
    exact (map_congr_left kept).trans (map_id _)

theorem Reduces.isSome (reduces : Reduces types g values) (typed : g.WellTyped types)
    (acyclic : g.Acyclic) : ∀ id k t, g.sourceType? (.node id k) = some t → t.isFloatBased →
      (values id).isSome := by
  obtain ⟨rank, climbs⟩ := acyclic.exists_rank fun _ _ => typed.feeder_lt
  intro id
  induction measure : rank id using Nat.strong_induction_on generalizing id with
  | _ _ ih =>
    subst measure
    intro k t carried float
    obtain ⟨n, o, found, at_k, rfl⟩ := Graph.sourceType?_node carried
    have member := mem_of_getElem? found
    obtain ⟨out, outputs, ⟨name, i', _, picked, same, value⟩ | ⟨w, _, value⟩⟩ :=
      reduces.folds id n found
    · have only : n.outputs = [out] := outputs
      obtain rfl : o = out := by simpa [only] using mem_of_getElem? at_k
      obtain ⟨i, input, rfl⟩ := mem_map.1 (GraphNode.mem_of_input? picked)
      obtain ⟨known, carries⟩ := typed.inputs n member i input
      have type : i.type = o.type := known.eq_of_same
        (typed.outputs n member o (mem_of_getElem? at_k)) same
      rw [← value]
      match source : i.source with
      | none =>
        rw [resolveInput_of_none source]
        exact reduces.inputs n member i input source (type ▸ float)
      | some (.socket k) =>
        exact absurd (mem_sources.2 (.inl ⟨n, member, i, input, source⟩)) (reduces.socket k)
      | some (.node a k) =>
        have earlier := climbs a id ⟨n, found, i, input, k, source⟩
        rw [resolveInput, resolve_of_node source]
        exact ih (rank a) earlier a rfl k i.type (carries _ source) (type ▸ float)
    · rw [value]
      rfl

theorem Reduces.resolveSocket_isSome (reduces : Reduces types g values)
    (typed : g.WellTyped types) (acyclic : g.Acyclic) {s : OutputSocket}
    (member : s ∈ g.outputSockets) (float : s.type.isFloatBased) :
    (resolveSocket values s).value.isSome := by
  match source : s.source with
  | none =>
    rw [resolveSocket_of_none source]
    exact reduces.outputSockets s member source float
  | some (.socket k) =>
    exact absurd (mem_sources.2 (.inr ⟨s, member, source⟩)) (reduces.socket k)
  | some (.node a k) =>
    rw [resolveSocket, resolve_of_node source]
    exact reduces.isSome typed acyclic a k s.type
      ((typed.outputSockets s member).2 _ source) float

end

end Fold

/-- A graph that was folded, pruned and sorted has nothing left to fold. A graph of literals has no
nodes left, and its output sockets hold the values of what they read. -/
theorem fold_exhausts {types : Registry} {g : Graph} (typed : g.WellTyped types)
    (acyclic : g.Acyclic) (complete : ∀ id < g.nodes.length, id ∈ g.order) :
    (∀ literalMath, ∃ final, (Fold.run types literalMath g).1.prune.1.sort = .ok final ∧
      Fold.run types literalMath final = (final, 0)) ∧
    ∀ values, Fold.Reduces types g values →
      ∃ final, (Fold.run types true g).1.prune.1.sort = .ok final ∧ final.nodes = [] ∧
        final.outputSockets = g.outputSockets.map (Fold.resolveSocket values) ∧
        ∀ s ∈ final.outputSockets, s.source = none ∧ (s.type.isFloatBased → s.value.isSome) := by
  have folded : ∀ literalMath, ∃ bypassed order,
      Fold.Exhausted types literalMath (Fold.run types literalMath g).1 bypassed ∧
      (Fold.run types literalMath g).1.prune.1.sort =
        .ok { (Fold.run types literalMath g).1.prune.1 with order } := by
    intro literalMath
    obtain ⟨bypassed, exhausted⟩ := Fold.run_exhausted literalMath typed acyclic complete
    obtain ⟨final, sorted⟩ := Graph.exists_sort (Graph.prune_wellTyped exhausted.typed)
      (Graph.prune_acyclic exhausted.typed exhausted.acyclic)
    obtain ⟨order, _, rfl⟩ := Graph.sort_eq sorted
    exact ⟨bypassed, order, exhausted, sorted⟩
  constructor
  · intro literalMath
    obtain ⟨bypassed, order, exhausted, sorted⟩ := folded literalMath
    have idle : (Fold.run types literalMath
        { (Fold.run types literalMath g).1.prune.1 with order }).2 = 0 :=
      Fold.run_eq_zero_of_not_folds exhausted.prune_not_folds
    exact ⟨_, sorted, Prod.ext (Fold.run_eq_of_count_eq_zero idle) idle⟩
  · intro values reduces
    obtain ⟨bypassed, order, exhausted, sorted⟩ := folded true
    have resolves := (Fold.stable_resolves reduces).run ⟨rfl, rfl, reduces.socket⟩
    have unread := exhausted.sources_eq_nil reduces resolves
    obtain ⟨nodes, kept⟩ := Fold.prune_of_unread unread
    have sockets := resolves.outputSockets_eq unread
    refine ⟨_, sorted, nodes, kept.trans sockets, fun s member => ?_⟩
    replace member : s ∈ (Fold.run types true g).1.outputSockets := kept ▸ member
    refine ⟨Fold.socket_source_eq_none unread s member, fun float => ?_⟩
    rw [sockets] at member
    obtain ⟨s₀, original, rfl⟩ := List.mem_map.1 member
    exact reduces.resolveSocket_isSome typed acyclic original float

/-- The color of one, blended with nothing by a weight that is a difference. Every node stands
before those that it reads. -/
def plainColor : Graph :=
  let float : ShaderType := ⟨"float", .float, .none, 1, true, .float .zero⟩
  let color : ShaderType := ⟨"color3", .float, .color, 3, true, Registry.zeros 3⟩
  let reads (name : String) (type : ShaderType) (id : NodeId) : Input :=
    ⟨name, type, none, some (.node id 0), false, name⟩
  let holds (name : String) (value : Numeric.Single) : Input :=
    ⟨name, float, some (.float value), none, false, name⟩
  { nodes :=
      [⟨"through", "through", "dot", "dot_color3", .ofList [], [reads "in" color 1],
        [⟨"out", color, "through_out"⟩]⟩,
       ⟨"spread", "spread", "convert", "convert_color3", .ofList [], [reads "in" float 2],
        [⟨"out", color, "spread_out"⟩]⟩,
       ⟨"blend", "blend", "mix", "mix_float", .ofList [],
        [holds "fg" .zero, reads "bg" float 4, reads "mix" float 3],
        [⟨"out", float, "blend_out"⟩]⟩,
       ⟨"weight", "weight", "subtract", "subtract_float", .ofList [],
        [reads "in1" float 4, holds "in2" .one], [⟨"out", float, "weight_out"⟩]⟩,
       ⟨"unit", "unit", "constant", "constant_float", .ofList [], [holds "value" .one],
        [⟨"out", float, "unit_out"⟩]⟩]
    inputSockets := []
    outputSockets := [⟨"out", color, some (.node 0 0), none⟩]
    order := [0, 1, 2, 3, 4]
    classification := .ofList [] }

def plainColorValues (id : NodeId) : Option Value :=
  let white : Value := .floats [.one, .one, .one]
  [white, white, .float .one, .float .zero, .float .one][id]?

theorem plainColor_reduces : Fold.Reduces .standard plainColor plainColorValues where
  folds id n found := by
    apply Fold.FoldsTo.of_replacement?
    have each : ∀ id < plainColor.nodes.length,
        plainColor.nodes[id]?.map (fun n => Fold.replacement? .standard true
          (Fold.resolveNode plainColorValues n)) = some (some ⟨none, plainColorValues id⟩) := by
      decide
    have one := each id (lt_of_getElem? found)
    rw [found] at one
    exact Option.some.inj one
  socket k read := by
    have sources : plainColor.sources =
        [1, 2, 4, 3, 4, 0].map fun id => Source.node id 0 := by decide
    simp [sources] at read
  inputs := by decide
  outputSockets := by decide

theorem fold_exhausts_plainColor :
    plainColor.WellTyped .standard ∧ plainColor.Acyclic ∧
      (∀ id < plainColor.nodes.length, id ∈ plainColor.order) ∧
      Fold.Reduces .standard plainColor plainColorValues ∧
      (∀ literalMath, ∃ final,
        (Fold.run .standard literalMath plainColor).1.prune.1.sort = .ok final ∧
        Fold.run .standard literalMath final = (final, 0)) ∧
      ∃ final, (Fold.run .standard true plainColor).1.prune.1.sort = .ok final ∧
        final.nodes = [] ∧
        final.outputSockets = [⟨"out", ⟨"color3", .float, .color, 3, true, Registry.zeros 3⟩, none,
          some (.floats [.one, .one, .one])⟩] := by
  have typed : plainColor.WellTyped .standard :=
    ⟨by decide, by decide, by decide, by decide⟩
  have acyclic : plainColor.Acyclic := Graph.acyclic_of_rank (fun id => 4 - id) (by decide)
  have complete : ∀ id < plainColor.nodes.length, id ∈ plainColor.order := by decide
  obtain ⟨settles, literal⟩ := fold_exhausts typed acyclic complete
  obtain ⟨final, sorted, nodes, sockets, _⟩ := literal plainColorValues plainColor_reduces
  exact ⟨typed, acyclic, complete, plainColor_reduces, settles, final, sorted, nodes, sockets⟩

/-- A constant whose value is a color and whose output is a vector. -/
def recastConstant : Graph where
  nodes :=
    [⟨"k", "k", "constant", "constant_vector3", .ofList [],
      [⟨"value", ⟨"color3", .float, .color, 3, true, Registry.zeros 3⟩,
        some (.floats [.one, .zero, .one]), none, false, "k/value"⟩],
      [⟨"out", ⟨"vector3", .float, .vector, 3, true, Registry.zeros 3⟩, "k_out"⟩]⟩]
  inputSockets := []
  outputSockets :=
    [⟨"o", ⟨"vector3", .float, .vector, 3, true, Registry.zeros 3⟩, some (.node 0 0), none⟩]
  order := [0]
  classification := .ofList []

/-- A constant with a literal stays where the types of its value and its output differ. -/
theorem recastConstant_stays :
    recastConstant.WellTyped .standard ∧ recastConstant.Acyclic ∧
      (∀ id < recastConstant.nodes.length, id ∈ recastConstant.order) ∧
      (∀ n ∈ recastConstant.nodes, n.category = "constant" ∧ n.outputs.length = 1 ∧
        ∀ i ∈ n.inputs, i.source = none ∧ i.value.isSome) ∧
      ∃ final, (Fold.run .standard true recastConstant).1.prune.1.sort = .ok final ∧
        final.nodes ≠ [] ∧
        ∀ s ∈ final.outputSockets, s.type.isFloatBased ∧ s.source ≠ none ∧ s.value = none := by
  refine ⟨⟨by decide, by decide, by decide, by decide⟩,
    Graph.acyclic_of_rank (fun id => id) (by decide), by decide, by decide, recastConstant, ?_⟩
  decide

end MaterialShader
