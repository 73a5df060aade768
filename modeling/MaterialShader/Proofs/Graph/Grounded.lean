import MaterialShader.Proofs.Graph.Build

/-!
Graphs in which every connection leads to an output or a socket that is there.
-/

namespace MaterialShader

open List

variable {lib : Library} {id : NodeId}

/-- The definitions that convert to a type have an output. -/
def Library.AnswersConversions (lib : Library) : Prop :=
  ∀ name d, lib.definition? ("convert_" ++ name) = some d → d.outputs ≠ []

theorem Builder.Reads.holds {types : Registry} {js : List Json} {waiting : List NodeId}
    {b : Builder} {t : ShaderType} {s : Option Source} (reads : b.Reads t s)
    (sound : b.Sound lib types js waiting) (answers : lib.AnswersConversions) :
    ∀ source ∈ s, b.draft.Holds source := by
  intro source read
  obtain typed | ⟨origin, id, rfl, listed⟩ := reads source read
  · exact Graph.holds_of_sourceType? typed
  · obtain ⟨n, found, ⟨d, defined, outputs⟩, _⟩ := sound.conversions origin t.name id listed
    refine ⟨n, found, ?_⟩
    rw [← List.Forall₂.length_eq outputs]
    exact length_pos_iff.2 (answers t.name d defined)

namespace Graph

instance (g : Graph) : (s : Source) → Decidable (g.Holds s)
  | .node id k =>
    match found : g.nodes[id]? with
    | some n => decidable_of_iff (k < n.outputs.length) (by simp [Holds, found])
    | none => isFalse (by simp [Holds, found])
  | .socket k => inferInstanceAs (Decidable (k < g.inputSockets.length))

structure Grounded (g : Graph) : Prop where
  inputs : ∀ n ∈ g.nodes, ∀ i ∈ n.inputs, ∀ s ∈ i.source, g.Holds s
  outputSockets : ∀ o ∈ g.outputSockets, ∀ s ∈ o.source, g.Holds s

section

variable {g g' : Graph} {s : Source}

theorem Holds.inside (holds : g.Holds s) : g.Inside s := by
  cases s with
  | node id k =>
    obtain ⟨n, found, _⟩ := holds
    exact lt_of_getElem? found
  | socket k => exact holds

theorem Grounded.closed (grounded : g.Grounded) : g.Closed where
  inputs n member i input s read := (grounded.inputs n member i input s read).inside
  outputSockets o socket s read := (grounded.outputSockets o socket s read).inside

theorem Grounded.holds (grounded : g.Grounded) (read : s ∈ g.sources) : g.Holds s := by
  obtain read | read := mem_append.1 read
  · obtain ⟨i, input, source⟩ := mem_filterMap.1 read
    obtain ⟨n, member, input⟩ := mem_flatMap.1 input
    exact grounded.inputs n member i input s source
  · obtain ⟨o, socket, source⟩ := mem_filterMap.1 read
    exact grounded.outputSockets o socket s source

theorem bind_grounded {doc : Document} {types : Registry} (regular : ∀ t, types.Knows t → t.Regular)
    (answers : lib.AnswersConversions) (run : bind doc lib types = .ok g) : g.Grounded := by
  obtain ⟨b, ⟨sound, admits, _⟩, shape⟩ := bind_ends regular run
  generalize g.outputSockets = outputs at admits shape
  subst shape
  constructor
  · exact fun n member i input => (sound.inputs n member i input).reads.holds sound answers
  · exact fun o member => (admits o member).reads.holds sound answers

theorem Used.read (used : g.Used id) : ∃ k, Source.node id k ∈ g.sources := by
  obtain ⟨_, r, root, path⟩ := used
  cases path with
  | refl =>
    obtain ⟨o, socket, k, source⟩ := mem_roots.1 root
    exact ⟨k, mem_append_right _ (mem_filterMap.2 ⟨o, socket, source⟩)⟩
  | tail _ step =>
    obtain ⟨n, found, i, input, k, source⟩ := mem_edges.1 step
    refine ⟨k, mem_append_left _ (mem_filterMap.2 ⟨i, ?_, source⟩)⟩
    exact mem_flatMap.2 ⟨n, mem_of_getElem? found, input⟩

theorem Grounded.outputs_ne_nil (grounded : g.Grounded) (used : g.Used id) {n : GraphNode}
    (found : g.nodes[id]? = some n) : n.outputs ≠ [] := by
  obtain ⟨k, read⟩ := used.read
  obtain ⟨m, at_id, inside⟩ := grounded.holds read
  cases at_id.symm.trans found
  exact ne_nil_of_length_pos (Nat.zero_lt_of_lt inside)

theorem restrict_holds {kept : List Bool} (length : kept.length = g.nodes.length)
    {s : Option Source} (survives : Survives kept s) (holds : ∀ source ∈ s, g.Holds source) :
    ∀ source ∈ renumberSource kept s, (g.restrict kept).Holds source := by
  match s with
  | none => exact nofun
  | some (.socket k) =>
    rintro _ ⟨⟩
    exact holds (.socket k) rfl
  | some (.node id k) =>
    rintro _ ⟨⟩
    obtain ⟨n, found, inside⟩ := holds (.node id k) rfl
    exact ⟨renumberNode kept n, restrict_node length (survives id k rfl) found, inside⟩

theorem Grounded.prune (grounded : g.Grounded) : g.prune.1.Grounded := by
  obtain ⟨inputs, sockets⟩ := grounded.closed.prune_sources
    (fun _ survives => restrict_holds g.keptFlags_length survives) grounded.inputs
    grounded.outputSockets
  rw [← prune_eq_restrict] at inputs sockets
  exact ⟨inputs, sockets⟩

theorem Grounded.prune_filled (grounded : g.Grounded) :
    ∀ n ∈ g.prune.1.nodes, n.outputs ≠ [] := by
  refine forall_nodes_prune fun id n marked found => ?_
  have filled := grounded.outputs_ne_nil (keptFlags_iff.1 marked) found
  exact filled

structure Rooted (g : Graph) : Prop where
  order : g.order.Perm (List.range g.nodes.length)
  grounded : g.Grounded
  filled : ∀ n ∈ g.nodes, n.outputs ≠ []

theorem Grounded.retag (grounded : g.Grounded) (order : List NodeId)
    (classification : Classification) : Grounded { g with order, classification } :=
  ⟨grounded.inputs, grounded.outputSockets⟩

theorem Grounded.prune_sort (grounded : g.Grounded) (ok : g.prune.1.sort = .ok g') :
    g'.Rooted := by
  obtain ⟨order, found, rfl⟩ := sort_eq ok
  exact ⟨Dependency.sort_perm found, grounded.prune.retag _ _, grounded.prune_filled⟩

theorem Rooted.classifyNodes (rooted : g.Rooted) : g.classifyNodes.Rooted := by
  have holds : ∀ s, g.Holds s → g.classifyNodes.Holds s := by
    intro s held
    cases s with
    | socket k => exact held
    | node id k =>
      obtain ⟨n, found, inside⟩ := held
      refine ⟨{ n with classification := n.classify }, ?_, inside⟩
      simp only [Graph.classifyNodes, List.getElem?_map, found, Option.map_some]
  refine ⟨by simpa [Graph.classifyNodes] using rooted.order, ⟨?_, ?_⟩, ?_⟩
  · intro n member i input s read
    obtain ⟨m, old, rfl⟩ := mem_map.1 member
    exact holds s (rooted.grounded.inputs m old i input s read)
  · exact fun o socket s read => holds s (rooted.grounded.outputSockets o socket s read)
  · intro n member
    obtain ⟨m, old, rfl⟩ := mem_map.1 member
    exact rooted.filled m old

end

end Graph

namespace Fold

theorem bypass_holds {g : Graph} {r : Replacement} {s : Source} (holds : g.Holds s) :
    (bypass g id r).Holds s := by
  cases s with
  | socket k => exact holds
  | node a k =>
    obtain ⟨n, found, inside⟩ := holds
    exact ⟨rewireNode id r n, by rw [bypass_nodes, List.getElem?_map, found]; rfl, inside⟩

theorem stable_grounded (types : Registry) (literalMath : Bool) :
    Stable types literalMath Graph.Grounded := by
  intro g id n r grounded found folds
  obtain ⟨inputs, sockets⟩ := bypass_sources found folds grounded.inputs grounded.outputSockets
  constructor
  · exact fun m member i input s read => bypass_holds (inputs m member i input s read)
  · exact fun o member s read => bypass_holds (sockets o member s read)

end Fold

namespace Graph

section

variable {g g' : Graph} {types : Registry} {n : GraphNode}

theorem Rooted.foldConstants {options : Options} {log : Log} (rooted : g.Rooted)
    (run : foldConstants types options g = .ok (g', log)) : g'.Rooted := by
  obtain rfl | ok := foldConstants_ok run
  · exact rooted
  · have kept := (Fold.stable_grounded types (options.interfaceKind == .reduced)).run
      rooted.grounded
    exact kept.prune_sort ok

theorem replaced_holds {n' : GraphNode} (found : g.nodes[id]? = some n)
    (outputs : n'.outputs.length = n.outputs.length) (added : List InputSocket) {s : Source}
    (holds : g.Holds s) : (g.replaced id n' added).Holds s := by
  cases s with
  | socket k =>
    refine Nat.lt_of_lt_of_le holds ?_
    simp [replaced]
  | node a k =>
    obtain ⟨m, at_a, inside⟩ := holds
    by_cases same : id = a
    · subst same
      cases at_a.symm.trans found
      have here := lt_of_getElem? found
      exact ⟨n', List.getElem?_set_self here, outputs ▸ inside⟩
    · exact ⟨m, (List.getElem?_set_ne same).trans at_a, inside⟩

theorem Rooted.replace (rooted : g.Rooted) {n' : GraphNode} (found : g.nodes[id]? = some n)
    (outputs : n'.outputs.length = n.outputs.length) (added : List InputSocket)
    (inputs : ∀ i ∈ n'.inputs, ∀ s ∈ i.source, (g.replaced id n' added).Holds s) :
    (g.replaced id n' added).Rooted := by
  refine ⟨by simpa [replaced] using rooted.order, ⟨?_, ?_⟩, ?_⟩
  · intro m member
    obtain old | rfl := mem_replaced member
    · intro i input s read
      exact replaced_holds found outputs added (rooted.grounded.inputs m old i input s read)
    · exact inputs
  · intro o socket s read
    exact replaced_holds found outputs added (rooted.grounded.outputSockets o socket s read)
  · intro m member
    obtain old | rfl := mem_replaced member
    · exact rooted.filled m old
    · have filled := rooted.filled n (mem_of_getElem? found)
      rw [← length_pos_iff] at filled ⊢
      rwa [outputs]

theorem Rooted.nameNode (rooted : g.Rooted) (found : g.nodes[id]? = some n) (table : NameTable) :
    (g.replaced id (nameNode table n).2 []).Rooted := by
  have types : (Graph.nameNode table n).2.outputs.map Output.type = n.outputs.map Output.type :=
    nameOutputs_types _ _ n.outputs
  have outputs : (Graph.nameNode table n).2.outputs.length = n.outputs.length := by
    simpa only [length_map] using congrArg List.length types
  refine rooted.replace found outputs [] fun i input s read => ?_
  have held := rooted.grounded.inputs n (mem_of_getElem? found) i input s read
  exact replaced_holds found outputs [] held

theorem Rooted.publishNode (rooted : g.Rooted) (found : g.nodes[id]? = some n)
    {kind : InterfaceKind} {inputs : List Input} {added : List InputSocket}
    (published : Published kind g.inputSockets n.inputs (g.inputSockets ++ added) inputs) :
    (g.replaced id { n with inputs } added).Rooted := by
  have outputs : ({ n with inputs } : GraphNode).outputs.length = n.outputs.length := rfl
  refine rooted.replace found outputs added fun i' input' s read => ?_
  obtain input | ⟨i, _, _, k, socket, at_k, _, rfl⟩ := published.mem input'
  · have held := rooted.grounded.inputs n (mem_of_getElem? found) i' input s read
    exact replaced_holds found outputs added held
  · cases read
    exact lt_of_getElem? at_k

theorem Rooted.assignNames (rooted : g.Rooted) (kind : InterfaceKind) :
    (g.assignNames kind).Rooted :=
  assignNames_induct (fun _ _ _ table rooted found => rooted.nameNode found table)
    (fun _ _ _ _ _ rooted found published => rooted.publishNode found published) rooted

theorem build_rooted {doc : Document} {options : Options} {log : Log}
    (regular : ∀ t, types.Knows t → t.Regular) (answers : lib.AnswersConversions)
    (run : build doc lib types options = .ok (g, log)) : g.Rooted := by
  obtain ⟨bound, order, ordered, folded, _, binding, second, third, rfl⟩ := build_ok run
  have grounded := (bind_grounded regular answers binding).retag order bound.classification
  have sorted := grounded.prune_sort second
  have named := (sorted.classifyNodes.foldConstants third).assignNames options.interfaceKind
  exact ⟨named.order, named.grounded.retag _ _, named.filled⟩

end

end Graph

end MaterialShader
