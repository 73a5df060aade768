import MaterialShader.Proofs.Graph.Options

/-!
Names within a graph are all different, and every published socket has one reader.
-/

namespace MaterialShader

open List
open NameTable (Drawn)

variable {id : NodeId} {n : GraphNode} {g : Graph}

/-- The names of a node and of its output variables. -/
def GraphNode.names (n : GraphNode) : List String := n.name :: n.outputs.map Output.variableName

namespace Graph

theorem nameOutputs_drawn (name : String) (table : NameTable) (outputs : List Output) :
    Drawn table ((nameOutputs name table outputs).2.map Output.variableName)
      (nameOutputs name table outputs).1 := by
  induction outputs generalizing table with
  | nil => exact .nil table
  | cons o rest ih => exact (table.reserve_drawn _).append (ih _)

theorem nameNode_drawn (table : NameTable) (n : GraphNode) :
    Drawn table (nameNode table n).2.names (nameNode table n).1 :=
  (table.reserve_drawn _).append (nameOutputs_drawn _ _ n.outputs)

structure Labelled (base : NameTable) (count : Nat) (ids : List NodeId) (table : NameTable)
    (nodes : List GraphNode) (names : List (List String)) : Prop where
  drawn : Drawn base names.flatten table
  size : nodes.length = count
  length : names.length = count
  own : ∀ id ∈ ids, names[id]? = (nodes.map GraphNode.names)[id]?

section

variable {base table : NameTable} {count : Nat} {ids : List NodeId} {nodes : List GraphNode}
  {names : List (List String)} (labelled : Labelled base count ids table nodes names)

include labelled

theorem Labelled.name :
    Labelled base count (id :: ids) (nameNode table n).1 (nodes.set id (nameNode table n).2)
      (names.set id (nameNode table n).2.names) := by
  refine ⟨?_, by simp [labelled.size], by simp [labelled.length], ?_⟩
  · have all := labelled.drawn.append (nameNode_drawn table n)
    exact all.subperm (NameTable.flatten_set_subperm ..)
  · intro k member
    rw [map_set, List.getElem?_set, List.getElem?_set, length_map, labelled.size,
      labelled.length]
    split_ifs with here
    · rfl
    · rfl
    · exact labelled.own k ((mem_cons.1 member).resolve_left (Ne.symm here))

theorem Labelled.skip (missing : nodes[id]? = none) :
    Labelled base count (id :: ids) table nodes names := by
  refine ⟨labelled.drawn, labelled.size, labelled.length, forall_mem_cons.2 ⟨?_, ?_⟩⟩
  · have outside := List.getElem?_eq_none_iff.1 missing
    rw [List.getElem?_map, missing, Option.map_none, List.getElem?_eq_none_iff, labelled.length,
      ← labelled.size]
    exact outside
  · exact labelled.own

theorem Labelled.eq_map (listed : ∀ id < count, id ∈ ids) : names = nodes.map GraphNode.names := by
  apply ext_getElem?
  intro id
  by_cases inside : id < count
  · exact labelled.own id (listed id inside)
  · rw [List.getElem?_eq_none (by rw [labelled.length]; omega),
      List.getElem?_eq_none (by rw [length_map, labelled.size]; omega)]

end

theorem nameNodes_drawn {order : List NodeId} {nodes : List GraphNode}
    (listed : ∀ id < nodes.length, id ∈ order) (table : NameTable) :
    Drawn table ((order.foldl (updateNode nameNode) (table, nodes)).2.flatMap GraphNode.names)
      (order.foldl (updateNode nameNode) (table, nodes)).1 := by
  have blank : Labelled table nodes.length [] table nodes (List.replicate nodes.length []) :=
    ⟨by simpa using Drawn.nil table, rfl, by simp, nofun⟩
  obtain ⟨names, labelled⟩ := updateNodes_induct
    (P := fun ids table' nodes' => ∃ names, Labelled table nodes.length ids table' nodes' names)
    (fun _ _ _ _ _ ⟨_, labelled⟩ _ => ⟨_, labelled.name⟩)
    (fun _ _ _ _ ⟨_, labelled⟩ missing => ⟨_, labelled.skip missing⟩) order [] ⟨_, blank⟩
  have all := labelled.eq_map fun id inside => by simpa using listed id inside
  rw [flatMap_def, ← all]
  exact labelled.drawn

abbrev Link := Nat × ShaderType × Option Value × String

def link? (i : Input) : Option Link :=
  match i.source with
  | some (.socket k) => some (k, i.type, i.value, i.path)
  | _ => none

def numbered (first : Nat) (sockets : List InputSocket) : List Link :=
  (sockets.zipIdx first).map fun (s, k) => (k, s.type, s.value, s.path)

def inputs (g : Graph) : List Input := g.nodes.flatMap GraphNode.inputs

theorem filter_links (k : Nat) (inputs : List Input) :
    (inputs.filterMap link?).filter (·.1 == k) =
      (inputs.filter (·.source == some (.socket k))).map fun i => (k, i.type, i.value, i.path) := by
  induction inputs with
  | nil => rfl
  | cons i rest ih =>
    cases source : i.source with
    | none => simpa [filterMap_cons, link?, source] using ih
    | some s =>
      cases s with
      | node id l => simpa [filterMap_cons, link?, source] using ih
      | socket l =>
        by_cases same : l = k
        · simpa [filterMap_cons, link?, source, same] using ih
        · simpa [filterMap_cons, link?, source, same] using ih

theorem filter_numbered (first : Nat) {k : Nat} {sockets : List InputSocket} {s : InputSocket}
    (found : sockets[k]? = some s) :
    (numbered first sockets).filter (·.1 == first + k) =
      [(first + k, s.type, s.value, s.path)] := by
  induction sockets generalizing first k with
  | nil => cases found
  | cons head rest ih =>
    have parts : numbered first (head :: rest) =
        (first, head.type, head.value, head.path) :: numbered (first + 1) rest := rfl
    rw [parts]
    cases k with
    | zero =>
      cases found
      have later : (numbered (first + 1) rest).filter (·.1 == first) = [] := by
        refine filter_eq_nil_iff.2 (forall_mem_map.2 fun x member => ?_)
        have above := le_snd_of_mem_zipIdx member
        simp only [beq_iff_eq]
        omega
      rw [filter_cons_of_pos (by simp), Nat.add_zero, later]
    | succ k =>
      have others := ih (first + 1) found
      rw [Nat.add_right_comm, Nat.add_assoc] at others
      rw [filter_cons_of_neg (by simp), others]

theorem Published.links {kind : InterfaceKind} {sockets sockets' : List InputSocket}
    {inputs inputs' : List Input} (published : Published kind sockets inputs sockets' inputs') :
    ∃ added, sockets' = sockets ++ added ∧ (∀ s ∈ added, s.value.isSome) ∧
      (inputs'.filterMap link?).Perm
        (inputs.filterMap link? ++ numbered sockets.length added) := by
  induction published with
  | nil sockets => exact ⟨[], by simp, by simp, by simp [numbered]⟩
  | socket sockets i name rest sockets' rest' open_ _ ih =>
    obtain ⟨free, _, valued⟩ := unconnected_of_isPublished open_
    obtain ⟨added, rfl, values, perm⟩ := ih
    refine ⟨⟨name, i.type, i.value, i.path⟩ :: added, by simp,
      forall_mem_cons.2 ⟨valued, values⟩, ?_⟩
    have all := (perm.cons (sockets.length, i.type, i.value, i.path)).trans perm_middle.symm
    simpa [filterMap_cons, link?, free, numbered] using all
  | keep sockets i rest sockets' rest' _ ih =>
    obtain ⟨added, rfl, values, perm⟩ := ih
    refine ⟨added, rfl, values, ?_⟩
    rw [filterMap_cons, filterMap_cons]
    split
    · exact perm
    · exact perm.cons _

theorem numbered_append (first : Nat) (sockets added : List InputSocket) :
    numbered first (sockets ++ added) =
      numbered first sockets ++ numbered (first + sockets.length) added := by
  rw [numbered, zipIdx_append, map_append]
  rfl

theorem links_replaced (found : g.nodes[id]? = some n) {inputs : List Input}
    {added : List InputSocket} {new : List Link}
    (links : (inputs.filterMap link?).Perm (n.inputs.filterMap link? ++ new)) :
    ((g.replaced id { n with inputs } added).inputs.filterMap link?).Perm
      (g.inputs.filterMap link? ++ new) := by
  have all (nodes : List GraphNode) : (nodes.flatMap GraphNode.inputs).filterMap link? =
      (nodes.map fun n => n.inputs.filterMap link?).flatten := by
    rw [filterMap_flatMap, flatMap_def]
  have old : (g.nodes.map fun n => n.inputs.filterMap link?)[id]? =
      some (n.inputs.filterMap link?) := by
    rw [List.getElem?_map, found]
    rfl
  have set := NameTable.flatten_set_perm old (inputs.filterMap link?)
  rw [Graph.inputs, Graph.inputs, all, all, replaced, map_set]
  refine (perm_append_right_iff (n.inputs.filterMap link?)).1 (set.trans ?_)
  rw [append_assoc]
  exact (links.trans perm_append_comm).append_left _

structure Grows (base : NameTable) (chosen : List String) (g : Graph) (added : List InputSocket)
    (table : NameTable) (h : Graph) : Prop where
  sockets : h.inputSockets = g.inputSockets ++ added
  drawn : Drawn base (chosen ++ added.map InputSocket.name) table
  names : h.nodes.map GraphNode.names = g.nodes.map GraphNode.names
  values : ∀ s ∈ added, s.value.isSome
  links : (h.inputs.filterMap link?).Perm
    (g.inputs.filterMap link? ++ numbered g.inputSockets.length added)

theorem Grows.publish {base table table' : NameTable} {chosen : List String} {h : Graph}
    {before added : List InputSocket} (grows : Grows base chosen g before table h)
    {kind : InterfaceKind} {inputs : List Input} (found : h.nodes[id]? = some n)
    (published : Published kind h.inputSockets n.inputs (h.inputSockets ++ added) inputs)
    (drawn : Drawn table (added.map InputSocket.name) table') :
    Grows base chosen g (before ++ added) table' (h.replaced id { n with inputs } added) := by
  obtain ⟨added', same, values, links⟩ := published.links
  obtain rfl := append_cancel_left same
  refine ⟨?_, ?_, (map_replaced found { n with inputs } added rfl).trans grows.names,
    forall_mem_append.2 ⟨grows.values, values⟩, ?_⟩
  · rw [replaced, grows.sockets, append_assoc]
  · rw [map_append, ← append_assoc]
    exact grows.drawn.append drawn
  · rw [numbered_append, ← append_assoc, ← length_append, ← grows.sockets]
    exact (links_replaced found links).trans (grows.links.append_right _)

structure WellNamed (g named : Graph) (published : List InputSocket) : Prop where
  sockets : named.inputSockets = g.inputSockets ++ published
  distinct : (named.nodes.flatMap GraphNode.names ++ published.map InputSocket.name).Nodup
  fresh : ∀ c ∈ named.nodes.flatMap GraphNode.names ++ published.map InputSocket.name,
    ∀ s ∈ g.inputSockets, c ≠ Text.sanitize s.name
  readers : ∀ k s, published[k]? = some s → s.value.isSome ∧ ∃ i : Input,
    named.inputs.filter (·.source == some (.socket (g.inputSockets.length + k))) = [i] ∧
      i.type = s.type ∧ i.value = s.value ∧ i.path = s.path

theorem nameNodes_inputs (order : List NodeId) (table : NameTable) (g : Graph) :
    inputs { g with nodes := (order.foldl (updateNode nameNode) (table, g.nodes)).2 } =
      g.inputs := by
  have same := nameNodes_induct
    (P := fun h => h.nodes.map GraphNode.inputs = g.nodes.map GraphNode.inputs)
    (fun _ _ n table old found => (map_replaced found (nameNode table n).2 [] rfl).trans old)
    order table rfl
  rw [inputs, inputs, flatMap_def, flatMap_def, same]

theorem assignNames_wellNamed (kind : InterfaceKind) (listed : ∀ id < g.nodes.length, id ∈ g.order)
    (below : SocketsBelow g.inputSockets.length g.inputs) :
    ∃ published, WellNamed g (g.assignNames kind) published := by
  let state := g.order.foldl (updateNode nameNode) (reservedNames g.inputSockets, g.nodes)
  let named : Graph := { g with nodes := state.2 }
  have start : Grows (reservedNames g.inputSockets) (state.2.flatMap GraphNode.names) named []
      state.1 named :=
    ⟨by simp, by simpa using nameNodes_drawn listed _, rfl, by simp, by simp [numbered]⟩
  obtain ⟨published, grows⟩ := publishNodes_induct kind
    (P := fun table h => ∃ added, Grows _ _ named added table h)
    (fun _ _ _ _ _ _ _ ⟨_, grows⟩ found published drawn => ⟨_, grows.publish found published drawn⟩)
    g.order ⟨[], start⟩
  have drawn := grows.drawn
  rw [flatMap_def, ← grows.names, ← flatMap_def] at drawn
  refine ⟨published, grows.sockets, drawn.distinct, ?_, ?_⟩
  · intro c member s given same
    have taken : Assoc.has c (reservedNames g.inputSockets) := by
      rw [reservedNames, Assoc.has_putAll]
      exact .inl (by simpa using ⟨s, given, same.symm⟩)
    simp [drawn.free c member] at taken
  · intro k s found
    have earlier : (named.inputs.filterMap link?).filter (·.1 == g.inputSockets.length + k) = [] := by
      rw [filter_links, map_eq_nil_iff, filter_eq_nil_iff, nameNodes_inputs]
      intro i input read
      have inside := below i input _ (by simpa using read)
      omega
    have one := grows.links.filter (·.1 == g.inputSockets.length + k)
    rw [filter_append, earlier, nil_append, filter_numbered _ found, filter_links] at one
    obtain ⟨i, reader, same⟩ := map_eq_singleton_iff.1 (perm_singleton.1 one)
    simp only [Prod.mk.injEq, true_and] at same
    exact ⟨grows.values s (mem_of_getElem? found), i, reader, same⟩

/-- Names of a graph never collide if all its nodes are in the order and its inputs read sockets that
are there, and the graph of a document is the naming of such a graph. The search for a free name
ends, with the first free number from where it starts. -/
theorem graph_names_distinct :
    (∀ (kind : InterfaceKind) (g : Graph), (∀ id < g.nodes.length, id ∈ g.order) →
      SocketsBelow g.inputSockets.length g.inputs →
        ∃ published, WellNamed g (g.assignNames kind) published) ∧
    (∀ doc lib options named log, build doc lib .standard options = .ok (named, log) → ∃ g : Graph,
      (∀ id < g.nodes.length, id ∈ g.order) ∧ SocketsBelow g.inputSockets.length g.inputs ∧
        List.Forall₂ (GraphInput.Declares .standard) doc.inputs g.inputSockets ∧
        named = (g.assignNames options.interfaceKind).withClassification) ∧
    ∀ (table : NameTable) name, table.Finds name (table.reserve name).1 := by
  refine ⟨fun kind g => assignNames_wellNamed kind, ?_, NameTable.reserve_finds⟩
  intro doc lib options named log run
  obtain ⟨g, closed, declared, perm, same⟩ :=
    build_named (fun _ known => Registry.find?_standard_regular known) run
  refine ⟨g, ?_, ?_, declared, same⟩
  · exact fun id inside => perm.mem_iff.2 (List.mem_range.2 inside)
  · intro i input k source
    obtain ⟨n, member, input⟩ := List.mem_flatMap.1 input
    exact closed.inputs n member i input _ source

/-- The paths of two nodes and the name of the input have one clean form, and the third node has the
name that the first gets. -/
def crowded : Graph :=
  let float : ShaderType := ⟨"float", .float, .none, 1, true, .float .zero⟩
  let node (path : String) (source : Option Source) : GraphNode :=
    ⟨"", path, "dot", "dot_float", .ofList [],
      [⟨"out", float, some (.float .zero), source, false, path ++ "/out"⟩], [⟨"out", float, ""⟩]⟩
  { nodes := [node "a/b" none, node "a_b" (some (.node 0 0)), node "a_b1" (some (.socket 0))]
    inputSockets := [⟨"a b", float, none, "a b"⟩]
    outputSockets := []
    order := [2, 0, 1]
    classification := .ofList [] }

theorem graph_names_distinct_crowded :
    ((∀ id < crowded.nodes.length, id ∈ crowded.order) ∧
      SocketsBelow crowded.inputSockets.length crowded.inputs) ∧
    (crowded.assignNames .complete).nodes.flatMap GraphNode.names =
      ["a_b2", "a_b2_out", "a_b3", "a_b3_out", "a_b1", "a_b1_out"] ∧
    (crowded.assignNames .complete).inputSockets.map InputSocket.name = ["a b", "a_b2_out1"] ∧
    ∃ published, WellNamed crowded (crowded.assignNames .complete) published := by
  have listed : ∀ id < crowded.nodes.length, id ∈ crowded.order := by decide
  have below : SocketsBelow crowded.inputSockets.length crowded.inputs := by
    have sources : ∀ i ∈ crowded.inputs, i.source ∈ [none, some (.node 0 0), some (.socket 0)] := by
      decide
    intro i input k source
    have listed := sources i input
    rw [source] at listed
    simpa [crowded] using listed
  exact ⟨⟨listed, below⟩, by decide, by decide +kernel,
    graph_names_distinct.1 .complete crowded listed below⟩

end Graph

end MaterialShader
