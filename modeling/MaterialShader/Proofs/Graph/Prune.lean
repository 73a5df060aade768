import MaterialShader.Proofs.Dependency.Reach
import MaterialShader.Proofs.Graph.WellFormed

/-!
Pruning keeps the nodes that some output socket depends on, with new numbers and nothing else
changed.
-/

namespace MaterialShader.Graph

open List

section

variable {α : Type} {kept : List Bool} {items : List α}

@[simp] theorem keepMarked_nil (items : List α) : keepMarked [] items = [] := rfl

@[simp] theorem keepMarked_true (kept : List Bool) (a : α) (items : List α) :
    keepMarked (true :: kept) (a :: items) = a :: keepMarked kept items := rfl

@[simp] theorem keepMarked_false (kept : List Bool) (a : α) (items : List α) :
    keepMarked (false :: kept) (a :: items) = keepMarked kept items := rfl

theorem keepMarked_getElem? {id : Nat} (marked : kept[id]? = some true)
    (length : kept.length = items.length) :
    (keepMarked kept items)[(kept.take id).count true]? = items[id]? := by
  induction kept generalizing items id with
  | nil => simp at marked
  | cons flag kept ih =>
    obtain ⟨a, items, rfl⟩ := exists_cons_of_length_eq_add_one length.symm
    cases id with
    | zero =>
      simp only [List.getElem?_cons_zero, Option.some.injEq] at marked
      simp [marked]
    | succ id =>
      have rest := @ih items id marked (by simpa using length)
      cases flag <;> simpa using rest

theorem exists_mark_of_lt {j : Nat} (length : kept.length = items.length)
    (bound : j < (keepMarked kept items).length) :
    ∃ id, kept[id]? = some true ∧ (kept.take id).count true = j := by
  induction kept generalizing items j with
  | nil => simp at bound
  | cons flag kept ih =>
    obtain ⟨a, items, rfl⟩ := exists_cons_of_length_eq_add_one length.symm
    have shorter : kept.length = items.length := by simpa using length
    cases flag with
    | false =>
      obtain ⟨id, marked, count⟩ := ih shorter (by simpa using bound)
      exact ⟨id + 1, by simpa using marked, by simpa using count⟩
    | true =>
      cases j with
      | zero => exact ⟨0, rfl, rfl⟩
      | succ j =>
        obtain ⟨id, marked, count⟩ := @ih items j shorter (by simpa using bound)
        exact ⟨id + 1, by simpa using marked, by simpa using count⟩

theorem keepMarked_of_all (all : kept.all id) (length : kept.length = items.length) :
    keepMarked kept items = items := by
  induction kept generalizing items with
  | nil => exact (eq_nil_of_length_eq_zero length.symm).symm
  | cons flag kept ih =>
    obtain ⟨a, items, rfl⟩ := exists_cons_of_length_eq_add_one length.symm
    simp only [all_cons, id_eq, Bool.and_eq_true] at all
    rw [all.1, keepMarked_true, ih all.2 (by simpa using length)]

end

variable {kept : List Bool} {g : Graph}

theorem renumber_of_marked {id : NodeId} (marked : kept[id]? = some true) :
    renumber kept id = (kept.take id).count true := if_pos marked

def survivors (kept : List Bool) : List NodeId := keepMarked kept (List.range kept.length)

theorem survivors_renumber {id : NodeId} (marked : kept[id]? = some true) :
    (survivors kept)[renumber kept id]? = some id := by
  have bound := lt_of_getElem? marked
  rw [renumber_of_marked marked, survivors, keepMarked_getElem? marked (by simp)]
  simp [bound]

theorem renumber_inj {a b : NodeId} (ha : kept[a]? = some true) (hb : kept[b]? = some true)
    (same : renumber kept a = renumber kept b) : a = b := by
  have first := survivors_renumber ha
  rw [same, survivors_renumber hb] at first
  exact (Option.some.inj first).symm

theorem renumber_of_all (all : kept.all id) (i : NodeId) : renumber kept i = i := by
  unfold renumber
  split
  · rename_i marked
    have bound := lt_of_getElem? marked
    have full : (kept.take i).count true = (kept.take i).length := by
      apply count_eq_length.2
      intro flag member
      have holds := all_eq_true.1 all flag (mem_of_mem_take member)
      exact holds.symm
    rw [full, length_take]
    exact Nat.min_eq_left (Nat.le_of_lt bound)
  · rfl

theorem renumberSource_of_all (all : kept.all id) (s : Option Source) :
    renumberSource kept s = s := by
  match s with
  | some (.node i k) => rw [renumberSource, renumber_of_all all]
  | some (.socket k) => rfl
  | none => rfl

def restrict (kept : List Bool) (g : Graph) : Graph :=
  { g with
    nodes := (keepMarked kept g.nodes).map (renumberNode kept)
    outputSockets := g.outputSockets.map fun s =>
      { s with source := renumberSource kept s.source } }

@[simp] theorem keptFlags_length (g : Graph) : g.keptFlags.length = g.nodes.length := by
  simp [keptFlags]

theorem prune_eq_restrict (g : Graph) : g.prune.1 = g.restrict g.keptFlags := by
  simp only [prune]
  split
  · rename_i all
    have nodes : (keepMarked g.keptFlags g.nodes).map (renumberNode g.keptFlags) = g.nodes := by
      rw [keepMarked_of_all all (by simp)]
      apply map_id''
      intro n
      simp [renumberNode, renumberSource_of_all all]
    simp [restrict, nodes, renumberSource_of_all all]
  · rfl

/-- Some output socket depends on the node. -/
def Used (g : Graph) (id : NodeId) : Prop :=
  id < g.nodes.length ∧ ∃ r ∈ g.roots, Dependency.DependsOn g.edges r id

theorem keptFlags_iff {id : NodeId} : g.keptFlags[id]? = some true ↔ g.Used id := by
  rw [keptFlags, Dependency.reachable_getElem?, Dependency.mem_reached_iff, Used]

theorem mem_roots {id : NodeId} :
    id ∈ g.roots ↔ ∃ s ∈ g.outputSockets, ∃ k, s.source = some (.node id k) :=
  mem_filterMap_node

theorem Closed.root_used (closed : g.Closed) {s : OutputSocket} (member : s ∈ g.outputSockets)
    {id k : Nat} (source : s.source = some (.node id k)) : g.Used id :=
  ⟨closed.outputSockets s member _ source, id, mem_roots.2 ⟨s, member, k, source⟩, .refl⟩

theorem Closed.used_of_feeds (closed : g.Closed) {a b : NodeId} (used : g.Used b)
    (feeds : g.Feeds a b) : g.Used a := by
  obtain ⟨_, r, root, path⟩ := used
  exact ⟨closed.feeder_lt feeds, r, root, path.tail (mem_edges.2 feeds)⟩

theorem restrict_node (length : kept.length = g.nodes.length) {id : NodeId} {n : GraphNode}
    (marked : kept[id]? = some true) (found : g.nodes[id]? = some n) :
    (g.restrict kept).nodes[renumber kept id]? = some (renumberNode kept n) := by
  simp only [restrict, List.getElem?_map]
  rw [renumber_of_marked marked, keepMarked_getElem? marked length, found, Option.map_some]

theorem node_of_restrict (length : kept.length = g.nodes.length) {j : NodeId} {m : GraphNode}
    (found : (g.restrict kept).nodes[j]? = some m) :
    ∃ id n, kept[id]? = some true ∧ renumber kept id = j ∧ g.nodes[id]? = some n ∧
      m = renumberNode kept n := by
  have bound := lt_of_getElem? found
  simp only [restrict, length_map] at bound
  obtain ⟨id, marked, count⟩ := exists_mark_of_lt length bound
  have same := renumber_of_marked marked
  have inside : id < g.nodes.length := length ▸ lt_of_getElem? marked
  have old := List.getElem?_eq_getElem inside
  have new := restrict_node length marked old
  rw [same, count, found] at new
  exact ⟨id, _, marked, by rw [same, count], old, Option.some.inj new⟩

def Survives (kept : List Bool) (s : Option Source) : Prop :=
  ∀ id k, s = some (.node id k) → kept[id]? = some true

theorem restrict_carries (length : kept.length = g.nodes.length) {t : ShaderType}
    {s : Option Source} (survives : Survives kept s) (carries : g.Carries t s) :
    (g.restrict kept).Carries t (renumberSource kept s) := by
  match s with
  | none => exact carries_none _ t
  | some (.socket k) =>
    intro source same
    cases same
    exact carries (.socket k) rfl
  | some (.node id k) =>
    intro source same
    cases same
    obtain ⟨n, o, found, at_k, typed⟩ := sourceType?_node (carries _ rfl)
    simp only [sourceType?, output?, restrict_node length (survives id k rfl) found, renumberNode,
      at_k, Option.map_some, typed]

theorem Closed.input_survives (closed : g.Closed) {id : NodeId} {n : GraphNode}
    (marked : g.keptFlags[id]? = some true) (found : g.nodes[id]? = some n) {i : Input}
    (member : i ∈ n.inputs) : Survives g.keptFlags i.source := by
  intro a k source
  have feeds : g.Feeds a id := ⟨n, found, i, member, k, source⟩
  exact keptFlags_iff.2 (closed.used_of_feeds (keptFlags_iff.1 marked) feeds)

theorem Closed.socket_survives (closed : g.Closed) {s : OutputSocket}
    (member : s ∈ g.outputSockets) : Survives g.keptFlags s.source := by
  intro a k source
  exact keptFlags_iff.2 (closed.root_used member source)

theorem restrict_inside (length : kept.length = g.nodes.length) {s : Option Source}
    (survives : Survives kept s) (inside : ∀ source ∈ s, g.Inside source) :
    ∀ source ∈ renumberSource kept s, (g.restrict kept).Inside source := by
  match s with
  | none => exact nofun
  | some (.socket k) =>
    rintro _ ⟨⟩
    exact inside (.socket k) rfl
  | some (.node id k) =>
    rintro _ ⟨⟩
    have found := List.getElem?_eq_getElem (inside (.node id k) rfl)
    exact lt_of_getElem? (restrict_node length (survives id k rfl) found)

theorem forall_nodes_prune {P : GraphNode → Prop}
    (each : ∀ (id : NodeId) n, g.keptFlags[id]? = some true → g.nodes[id]? = some n →
      P (renumberNode g.keptFlags n)) : ∀ m ∈ g.prune.1.nodes, P m := by
  rw [prune_eq_restrict]
  intro m member
  obtain ⟨j, at_j⟩ := mem_iff_getElem?.1 member
  obtain ⟨id, n, marked, _, found, rfl⟩ := node_of_restrict g.keptFlags_length at_j
  exact each id n marked found

theorem forall_inputs_prune {P : Input → Prop}
    (each : ∀ (id : NodeId) n, g.keptFlags[id]? = some true → g.nodes[id]? = some n →
      ∀ i ∈ n.inputs, P { i with source := renumberSource g.keptFlags i.source }) :
    ∀ m ∈ g.prune.1.nodes, ∀ i ∈ m.inputs, P i :=
  forall_nodes_prune fun id n marked found => forall_mem_map.2 (each id n marked found)

theorem forall_sockets_prune {P : OutputSocket → Prop}
    (each : ∀ s ∈ g.outputSockets, P { s with source := renumberSource g.keptFlags s.source }) :
    ∀ s ∈ g.prune.1.outputSockets, P s := by
  rw [prune_eq_restrict]
  exact forall_mem_map.2 each

@[simp] theorem prune_inputSockets (g : Graph) : g.prune.1.inputSockets = g.inputSockets := by
  rw [prune_eq_restrict]
  rfl

theorem Closed.prune_sources (closed : g.Closed) {P Q : Source → Prop}
    (renumbers : ∀ s, Survives g.keptFlags s → (∀ source ∈ s, P source) →
      ∀ source ∈ renumberSource g.keptFlags s, Q source)
    (inputs : ∀ n ∈ g.nodes, ∀ i ∈ n.inputs, ∀ s ∈ i.source, P s)
    (sockets : ∀ o ∈ g.outputSockets, ∀ s ∈ o.source, P s) :
    (∀ n ∈ g.prune.1.nodes, ∀ i ∈ n.inputs, ∀ s ∈ i.source, Q s) ∧
      ∀ o ∈ g.prune.1.outputSockets, ∀ s ∈ o.source, Q s := by
  refine ⟨forall_inputs_prune fun id n marked found i input => ?_,
    forall_sockets_prune fun o member => ?_⟩
  · exact renumbers i.source (closed.input_survives marked found input)
      (inputs n (mem_of_getElem? found) i input)
  · exact renumbers o.source (closed.socket_survives member) (sockets o member)

theorem Closed.prune (closed : g.Closed) : g.prune.1.Closed := by
  obtain ⟨inputs, sockets⟩ := closed.prune_sources
    (fun _ survives => restrict_inside g.keptFlags_length survives) closed.inputs
    closed.outputSockets
  rw [← prune_eq_restrict] at inputs sockets
  exact ⟨inputs, sockets⟩

theorem prune_wellTyped {types : Registry} (typed : g.WellTyped types) :
    g.prune.1.WellTyped types := by
  have carried {t : ShaderType} {s : Option Source} (survives : Survives g.keptFlags s)
      (carries : g.Carries t s) : g.prune.1.Carries t (renumberSource g.keptFlags s) := by
    rw [prune_eq_restrict]
    exact restrict_carries g.keptFlags_length survives carries
  refine ⟨forall_inputs_prune fun id n marked found i input => ?_,
    forall_nodes_prune fun id n _ found => typed.outputs n (mem_of_getElem? found),
    by simpa using typed.inputSockets, forall_sockets_prune fun s member => ?_⟩
  · obtain ⟨known, carries⟩ := typed.inputs n (mem_of_getElem? found) i input
    exact ⟨known, carried (typed.closed.input_survives marked found input) carries⟩
  · obtain ⟨known, carries⟩ := typed.outputSockets s member
    exact ⟨known, carried (typed.closed.socket_survives member) carries⟩

theorem Closed.prune_feeds (closed : g.Closed) {x y : NodeId} (feeds : g.prune.1.Feeds x y) :
    ∃ a b, g.Used a ∧ g.Used b ∧ renumber g.keptFlags a = x ∧ renumber g.keptFlags b = y ∧
      g.Feeds a b := by
  rw [prune_eq_restrict] at feeds
  obtain ⟨m, at_y, i', input, k, source⟩ := feeds
  obtain ⟨b, n, marked, rfl, found, rfl⟩ := node_of_restrict g.keptFlags_length at_y
  simp only [renumberNode, mem_map] at input
  obtain ⟨i, input, rfl⟩ := input
  have survives := closed.input_survives marked found input
  match read : i.source with
  | none => simp [read, renumberSource] at source
  | some (.socket l) => simp [read, renumberSource] at source
  | some (.node a l) =>
    simp only [read, renumberSource, Option.some.injEq, Source.node.injEq] at source
    exact ⟨a, b, keptFlags_iff.1 (survives a l read), keptFlags_iff.1 marked, source.1, rfl,
      n, found, i, input, l, read⟩

theorem Closed.prune_acyclic (closed : g.Closed) (acyclic : g.Acyclic) : g.prune.1.Acyclic := by
  have lifted : ∀ x y, Relation.TransGen g.prune.1.Feeds x y → ∃ a b, g.Used a ∧ g.Used b ∧
      renumber g.keptFlags a = x ∧ renumber g.keptFlags b = y ∧
        Relation.TransGen g.Feeds a b := by
    intro x y path
    induction path with
    | single feeds =>
      obtain ⟨a, b, ha, hb, at_a, at_b, feeds⟩ := closed.prune_feeds feeds
      exact ⟨a, b, ha, hb, at_a, at_b, .single feeds⟩
    | tail _ feeds ih =>
      obtain ⟨a, b, ha, hb, at_a, at_b, path⟩ := ih
      obtain ⟨b', c, hb', hc, at_b', at_c, feeds⟩ := closed.prune_feeds feeds
      have same : b = b' :=
        renumber_inj (keptFlags_iff.2 hb) (keptFlags_iff.2 hb') (at_b.trans at_b'.symm)
      subst same
      exact ⟨a, c, ha, hc, at_a, at_c, path.tail feeds⟩
  intro x cycle
  obtain ⟨a, b, ha, hb, at_a, at_b, path⟩ := lifted x x cycle
  have same : a = b := renumber_inj (keptFlags_iff.2 ha) (keptFlags_iff.2 hb) (at_a.trans at_b.symm)
  exact acyclic a (same ▸ path)

theorem prune_acyclic {types : Registry} (typed : g.WellTyped types) (acyclic : g.Acyclic) :
    g.prune.1.Acyclic := typed.closed.prune_acyclic acyclic

end MaterialShader.Graph
