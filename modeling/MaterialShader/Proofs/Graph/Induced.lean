import MaterialShader.Proofs.Dependency.Restrict
import MaterialShader.Proofs.Graph.Prune

/-!
The pruned graph as the part of the graph that is in use:
-/

namespace MaterialShader

open List

variable {kept : List Bool} {id : NodeId}

def Source.relabel (number : NodeId → NodeId) : Source → Source
  | .node id k => .node (number id) k
  | .socket k => .socket k

def GraphNode.relabel (number : NodeId → NodeId) (n : GraphNode) : GraphNode :=
  { n with
    inputs := n.inputs.map fun i => { i with source := i.source.map (Source.relabel number) } }

namespace Graph

/-- The listed nodes with the sockets of the graph; a node is numbered by its place in the list. -/
def induced (g : Graph) (ids : List NodeId) : Graph :=
  { g with
    nodes := ids.filterMap fun id => g.nodes[id]?.map (GraphNode.relabel ids.idxOf)
    outputSockets := g.outputSockets.map fun s =>
      { s with source := s.source.map (Source.relabel ids.idxOf) } }

section

variable {α β : Type}

theorem keepMarked_map (kept : List Bool) (f : α → β) (items : List α) :
    keepMarked kept (items.map f) = (keepMarked kept items).map f := by
  induction kept generalizing items with
  | nil => rfl
  | cons flag kept ih =>
    cases items with
    | nil => rfl
    | cons a items => cases flag <;> simp [ih]

theorem keepMarked_sublist (kept : List Bool) (items : List α) :
    (keepMarked kept items).Sublist items := by
  induction kept generalizing items with
  | nil => exact nil_sublist items
  | cons flag kept ih =>
    cases items with
    | nil => exact List.Sublist.refl []
    | cons a items =>
      cases flag with
      | false => exact (ih items).cons a
      | true => exact (ih items).cons_cons a

theorem map_survivors {items : List α} (length : kept.length = items.length) :
    (survivors kept).map (fun id => items[id]?) = (keepMarked kept items).map some := by
  have listed : (List.range items.length).map (fun id => items[id]?) = items.map some := by
    apply ext_getElem (by simp)
    intro i _ _
    simp
  rw [survivors, ← keepMarked_map, ← keepMarked_map, length, listed]

theorem filterMap_survivors {items : List α} (length : kept.length = items.length) (f : α → β) :
    (survivors kept).filterMap (fun id => items[id]?.map f) = (keepMarked kept items).map f := by
  calc (survivors kept).filterMap (fun id => items[id]?.map f)
      = ((survivors kept).map fun id => items[id]?).filterMap (Option.map f) := by
        rw [filterMap_map]
        rfl
    _ = ((keepMarked kept items).map some).filterMap (Option.map f) := by
        rw [map_survivors length]
    _ = (keepMarked kept items).map f := by
        rw [filterMap_map, ← filterMap_eq_map]
        rfl

end

theorem survivors_increasing (kept : List Bool) : (survivors kept).Pairwise (· < ·) :=
  pairwise_lt_range.sublist (keepMarked_sublist kept _)

theorem survivors_nodup (kept : List Bool) : (survivors kept).Nodup :=
  (survivors_increasing kept).imp Nat.ne_of_lt

theorem mem_survivors : id ∈ survivors kept ↔ kept[id]? = some true := by
  constructor
  · intro member
    obtain ⟨j, found⟩ := mem_iff_getElem?.1 member
    have bound := lt_of_getElem? found
    obtain ⟨other, marked, count⟩ := exists_mark_of_lt (by simp) bound
    have same := survivors_renumber marked
    rw [renumber_of_marked marked, count, found] at same
    cases same
    exact marked
  · exact fun marked => mem_of_getElem? (survivors_renumber marked)

theorem renumber_eq_idxOf (marked : kept[id]? = some true) :
    renumber kept id = (survivors kept).idxOf id := by
  obtain ⟨bound, found⟩ := List.getElem?_eq_some_iff.1 (survivors_renumber marked)
  have place := (survivors_nodup kept).idxOf_getElem _ bound
  rw [found] at place
  exact place.symm

theorem renumberSource_eq_relabel {s : Option Source} (survives : Survives kept s) :
    renumberSource kept s = s.map (Source.relabel (survivors kept).idxOf) := by
  match s with
  | none => rfl
  | some (.socket k) => rfl
  | some (.node id k) =>
    rw [renumberSource, renumber_eq_idxOf (survives id k rfl)]
    rfl

section

variable {g : Graph}

theorem mem_survivors_iff_used : id ∈ survivors g.keptFlags ↔ g.Used id :=
  mem_survivors.trans keptFlags_iff

theorem Closed.prune_eq_induced (closed : g.Closed) :
    g.prune.1 = g.induced (survivors g.keptFlags) := by
  have nodes : (keepMarked g.keptFlags g.nodes).map (renumberNode g.keptFlags) =
      (survivors g.keptFlags).filterMap fun id =>
        g.nodes[id]?.map (GraphNode.relabel (survivors g.keptFlags).idxOf) := by
    rw [← filterMap_survivors g.keptFlags_length]
    apply filterMap_congr
    intro id member
    cases found : g.nodes[id]? with
    | none => rfl
    | some n =>
      simp only [Option.map_some, renumberNode, GraphNode.relabel, Option.some.injEq,
        GraphNode.mk.injEq, true_and, and_true]
      apply map_congr_left
      intro i input
      rw [renumberSource_eq_relabel (closed.input_survives (mem_survivors.1 member) found input)]
  have sockets : (g.outputSockets.map fun s =>
      { s with source := renumberSource g.keptFlags s.source }) =
      g.outputSockets.map fun s =>
        { s with source := s.source.map (Source.relabel (survivors g.keptFlags).idxOf) } := by
    apply map_congr_left
    intro s member
    rw [renumberSource_eq_relabel (closed.socket_survives member)]
  rw [prune_eq_restrict, restrict, induced, nodes, sockets]

theorem survivors_not (kept : List Bool) :
    survivors (kept.map (!·)) =
      (List.range kept.length).filter fun id => id ∉ survivors kept := by
  apply (survivors_increasing _).eq_of_mem_iff (pairwise_lt_range.filter _)
  intro id
  simp only [mem_survivors, List.getElem?_map, mem_filter, mem_range,
    decide_eq_true_eq]
  cases found : kept[id]? with
  | none =>
    have outside := List.getElem?_eq_none_iff.1 found
    simpa using outside
  | some flag =>
    have inside := lt_of_getElem? found
    cases flag <;> simp [inside]

theorem prune_removed (g : Graph) :
    g.prune.2 = ((List.range g.nodes.length).filter fun id =>
      id ∉ survivors g.keptFlags).filterMap fun id => g.nodes[id]?.map GraphNode.path := by
  have length : (g.keptFlags.map (!·)).length = g.nodes.length := by simp
  rw [← g.keptFlags_length, ← survivors_not, filterMap_survivors length]
  simp only [prune]
  split
  · rename_i all
    -- If every node is kept, the paths of the others are none in either branch.
    have none_marked : survivors (g.keptFlags.map (!·)) = [] := by
      rw [eq_nil_iff_forall_not_mem]
      intro id member
      rw [mem_survivors, List.getElem?_map, Option.map_eq_some_iff] at member
      obtain ⟨flag, found, dropped⟩ := member
      have kept := all_eq_true.1 all flag (mem_of_getElem? found)
      simp_all
    have nothing := map_survivors length
    rw [none_marked, map_nil] at nothing
    rw [map_eq_nil_iff.1 nothing.symm, map_nil]
  · rfl

theorem Closed.prune_restricts (closed : g.Closed) :
    Dependency.Restricts (fun id => id ∈ survivors g.keptFlags) (survivors g.keptFlags).idxOf
      g.edges g.prune.1.edges := by
  rintro ⟨x, y⟩
  rw [mem_edges]
  constructor
  · intro feeds
    obtain ⟨a, b, ha, hb, rfl, rfl, fed⟩ := closed.prune_feeds feeds
    refine ⟨(a, b), mem_edges.2 fed, decide_eq_true (mem_survivors_iff_used.2 hb), ?_⟩
    rw [renumber_eq_idxOf (keptFlags_iff.2 ha), renumber_eq_idxOf (keptFlags_iff.2 hb)]
  · rintro ⟨⟨a, b⟩, edge, kept, same⟩
    cases same
    have marked := mem_survivors.1 (of_decide_eq_true kept)
    obtain ⟨n, found, i, input, k, source⟩ := mem_edges.1 edge
    have survives := closed.input_survives marked found input
    have new := restrict_node g.keptFlags_length marked found
    rw [renumber_eq_idxOf marked, ← prune_eq_restrict] at new
    refine ⟨_, new, _, mem_map_of_mem input, k, ?_⟩
    rw [renumberSource_eq_relabel survives, source]
    rfl

theorem Closed.sort_prune (closed : g.Closed) {order : List NodeId}
    (sorted : Dependency.sort g.nodes.length g.edges = .ok order) :
    g.prune.1.sort = .ok { g.prune.1 with
      order := (order.filter fun id => id ∈ survivors g.keptFlags).map
        (survivors g.keptFlags).idxOf } := by
  have length : g.prune.1.nodes.length = (survivors g.keptFlags).length := by
    have same := congrArg List.length (map_survivors g.keptFlags_length)
    rw [prune_eq_restrict]
    simpa [restrict] using same.symm
  have restricted := Dependency.sort_restrict sorted (survivors_increasing g.keptFlags)
    (fun id member => (mem_survivors_iff_used.1 member).1)
    (fun e edge kept => mem_survivors_iff_used.2
      (closed.used_of_feeds (mem_survivors_iff_used.1 kept) (mem_edges.1 edge)))
    closed.prune_restricts
  rw [sort, length, restricted]

end

end Graph

/-- Pruning removes the nodes that no output depends on and nothing else. The others stay in their
sequence and unchanged but for the numbers of the nodes that they read, all of which are kept, and
sorting brings them into the order that they had among all. -/
theorem prune_exact {g : Graph} (closed : g.Closed) (acyclic : g.Acyclic) :
    ∃ ids : List NodeId, ids.Pairwise (· < ·) ∧ (∀ id, id ∈ ids ↔ g.Used id) ∧
      g.prune.1 = g.induced ids ∧ g.prune.1.Closed ∧
      g.prune.2 = ((List.range g.nodes.length).filter fun id => id ∉ ids).filterMap
        (fun id => g.nodes[id]?.map GraphNode.path) ∧
      ∃ order, g.sort = .ok { g with order } ∧
        g.prune.1.sort =
          .ok { g.prune.1 with order := (order.filter fun id => id ∈ ids).map ids.idxOf } := by
  obtain ⟨order, sorted⟩ := Graph.exists_order closed acyclic
  exact ⟨Graph.survivors g.keptFlags, Graph.survivors_increasing _,
    fun _ => Graph.mem_survivors_iff_used, closed.prune_eq_induced, closed.prune, g.prune_removed,
    order, by rw [Graph.sort, sorted], closed.sort_prune sorted⟩

/-- Two nodes read a third one that comes behind them, and no output depends on the second. -/
def strayReader : Graph :=
  let float : ShaderType := ⟨"float", .float, .none, 1, true, .float .zero⟩
  let node (name : String) (source : Option Source) : GraphNode :=
    ⟨name, name, "dot", "dot_float", .ofList [], [⟨"in", float, none, source, false, name⟩],
      [⟨"out", float, name⟩]⟩
  { nodes := [node "first" (some (.node 2 0)), node "stray" (some (.node 2 0)),
      node "last" (some (.socket 0))]
    inputSockets := [⟨"tint", float, none, "tint"⟩]
    outputSockets := [⟨"out", float, some (.node 0 0), none⟩]
    order := []
    classification := .ofList [] }

theorem prune_exact_strayReader :
    strayReader.Closed ∧ strayReader.Acyclic ∧ strayReader.prune.2 = ["stray"] ∧
      ∃ ids : List NodeId, ids.Pairwise (· < ·) ∧ (∀ id, id ∈ ids ↔ strayReader.Used id) ∧
        strayReader.prune.1 = strayReader.induced ids ∧ strayReader.prune.1.Closed ∧
        strayReader.prune.2 =
          ((List.range strayReader.nodes.length).filter fun id => id ∉ ids).filterMap
            (fun id => strayReader.nodes[id]?.map GraphNode.path) ∧
        ∃ order, strayReader.sort = .ok { strayReader with order } ∧
          strayReader.prune.1.sort = .ok { strayReader.prune.1 with
            order := (order.filter fun id => id ∈ ids).map ids.idxOf } := by
  have typed : strayReader.WellTyped .standard := ⟨by decide, by decide, by decide, by decide⟩
  have acyclic : strayReader.Acyclic := Graph.acyclic_of_rank (fun id => 2 - id) (by decide)
  exact ⟨typed.closed, acyclic, by decide, prune_exact typed.closed acyclic⟩

end MaterialShader
