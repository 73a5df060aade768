import MaterialShader.Proofs.Dialect.Naming
import MaterialShader.Proofs.Graph.Fits

/-!
Naming and publishing change names of nodes and outputs, and connect literals to new sockets that
carry them.
-/

namespace MaterialShader

open List

variable {lib : Library} {g₀ g : Graph}

namespace NameTable

/-- The name that a search for a free number comes to, with no bound on the numbers. -/
def Finds (table : NameTable) (name chosen : String) : Prop :=
  match Assoc.get? name table with
  | none => chosen = name
  | some start => ∃ k, start ≤ k ∧
    (∀ j, start ≤ j → j < k → Assoc.has (name ++ Nat.repr j) table = true) ∧
    Assoc.has (name ++ Nat.repr k) table = false ∧ chosen = name ++ Nat.repr k

theorem reserve_finds (table : NameTable) (name : String) :
    table.Finds name (table.reserve name).1 := by
  rw [Finds, reserve]
  cases found : Assoc.get? name table with
  | none => rfl
  | some start =>
    have free : Assoc.has (name ++ Nat.repr (firstFree (fun c => Assoc.has c table) name
        (table.length + 1) start)) table = false :=
      firstFree_free (fun c => Assoc.mem_keys_of_has) (by simp) start
    exact ⟨_, le_firstFree _ _, fun _ => taken_of_lt_firstFree, free, rfl⟩

theorem reserve_drawn (table : NameTable) (name : String) :
    Drawn table [(table.reserve name).1] (table.reserve name).2 := by
  have free : Assoc.has (table.reserve name).1 table = false := by
    have finds := table.reserve_finds name
    unfold Finds at finds
    split at finds
    · rename_i absent
      rw [finds, Assoc.has, absent]
      rfl
    · obtain ⟨k, _, _, free, same⟩ := finds
      rwa [same]
  have noted : ∀ c, (table.reserve name).1 = c ∨ Assoc.has c table →
      Assoc.has c (table.reserve name).2 := by
    rw [reserve]
    split
    · exact fun c old => (Assoc.has_put _ _ _ _).2 old
    · intro c old
      rw [Assoc.has_put, Assoc.has_put]
      exact old.imp_right .inr
  exact ⟨by simpa using free, nodup_singleton _, fun c old => noted c (.inr old),
    by simpa using noted _ (.inl rfl)⟩

end NameTable

namespace Graph

open NameTable (Drawn)

theorem edgesFrom_congr {nodes nodes' : List GraphNode} (start : NodeId)
    (reads : nodes'.map GraphNode.readNodes = nodes.map GraphNode.readNodes) :
    edgesFrom start nodes' = edgesFrom start nodes := by
  induction nodes generalizing nodes' start with
  | nil => rw [map_eq_nil_iff.1 reads]
  | cons n rest ih =>
    obtain ⟨n', rest', rfl⟩ :=
      exists_cons_of_ne_nil (l := nodes') (by rintro rfl; simp at reads)
    simp only [map_cons, List.cons.injEq] at reads
    simp only [edgesFrom, reads.1, ih (start + 1) reads.2]

structure Keeps (types : Registry) (lib : Library) (g g' : Graph) : Prop where
  typed : g'.WellTyped types
  fits : g'.Fits
  stems : ∀ n ∈ g'.nodes, n.Stems lib
  reads : g'.nodes.map GraphNode.readNodes = g.nodes.map GraphNode.readNodes
  outputSockets : g'.outputSockets = g.outputSockets

def replaced (g : Graph) (id : NodeId) (n' : GraphNode) (added : List InputSocket) : Graph :=
  { g with nodes := g.nodes.set id n', inputSockets := g.inputSockets ++ added }

variable {id : NodeId} {n n' : GraphNode} {types : Registry}

theorem replaced_sourceType? (found : g.nodes[id]? = some n)
    (outputs : n'.outputs.map Output.type = n.outputs.map Output.type) (added : List InputSocket)
    {s : Source} {t : ShaderType} (typed : g.sourceType? s = some t) :
    (g.replaced id n' added).sourceType? s = some t := by
  cases s with
  | socket k =>
    obtain ⟨socket, at_k, rfl⟩ := Option.map_eq_some_iff.1 typed
    have inside := lt_of_getElem? at_k
    simp only [sourceType?, replaced, List.getElem?_append_left inside, at_k, Option.map_some]
  | node a k =>
    obtain ⟨m, o, at_a, at_k, rfl⟩ := sourceType?_node typed
    by_cases same : id = a
    · subst same
      rw [found] at at_a
      cases at_a
      have inside := lt_of_getElem? found
      have type := congrArg (·[k]?) outputs
      simp only [List.getElem?_map, at_k, Option.map_some] at type
      simp only [sourceType?, output?, replaced, List.getElem?_set_self inside, type]
    · simp only [sourceType?, output?, replaced, List.getElem?_set_ne same, at_a, at_k,
        Option.map_some]

theorem mem_replaced {m : GraphNode} {added : List InputSocket}
    (member : m ∈ (g.replaced id n' added).nodes) : m ∈ g.nodes ∨ m = n' :=
  mem_or_eq_of_mem_set member

theorem WellTyped.replace (typed : g.WellTyped types) (found : g.nodes[id]? = some n)
    (n' : GraphNode) (added : List InputSocket)
    (outputs : n'.outputs.map Output.type = n.outputs.map Output.type)
    (sockets : ∀ s ∈ added, types.Knows s.type)
    (inputs : ∀ i ∈ n'.inputs,
      types.Knows i.type ∧ (g.replaced id n' added).Carries i.type i.source) :
    (g.replaced id n' added).WellTyped types := by
  have carries : ∀ t s, g.Carries t s → (g.replaced id n' added).Carries t s :=
    fun t s carried source read => replaced_sourceType? found outputs added (carried source read)
  have known : ∀ o ∈ n'.outputs, types.Knows o.type := by
    intro o output
    have type : o.type ∈ n.outputs.map Output.type := outputs ▸ mem_map_of_mem output
    obtain ⟨o', output', same⟩ := mem_map.1 type
    exact same ▸ typed.outputs n (mem_of_getElem? found) o' output'
  refine ⟨?_, ?_, ?_, ?_⟩
  · intro m at_m i input
    obtain old | rfl := mem_replaced at_m
    · obtain ⟨known, carried⟩ := typed.inputs m old i input
      exact ⟨known, carries _ _ carried⟩
    · exact inputs i input
  · intro m at_m
    obtain old | rfl := mem_replaced at_m
    · exact typed.outputs m old
    · exact known
  · intro s at_s
    obtain old | new := mem_append.1 at_s
    · exact typed.inputSockets s old
    · exact sockets s new
  · intro s at_s
    obtain ⟨known, carried⟩ := typed.outputSockets s at_s
    exact ⟨known, carries _ _ carried⟩

theorem Fits.replace (fits : g.Fits) (id : NodeId) (n' : GraphNode) (added : List InputSocket)
    (sockets : ∀ s ∈ added, ∀ v ∈ s.value, v.HasType s.type) (inputs : ∀ i ∈ n'.inputs, i.Fits) :
    (g.replaced id n' added).Fits := by
  refine ⟨?_, ?_, fits.outputSockets⟩
  · intro m at_m i input
    obtain old | rfl := mem_replaced at_m
    · exact fits.inputs m old i input
    · exact inputs i input
  · intro s at_s
    obtain old | new := mem_append.1 at_s
    · exact fits.inputSockets s old
    · exact sockets s new

theorem map_replaced {α : Type} {f : GraphNode → α} (found : g.nodes[id]? = some n)
    (n' : GraphNode) (added : List InputSocket) (same : f n' = f n) :
    (g.replaced id n' added).nodes.map f = g.nodes.map f := by
  obtain ⟨inside, rfl⟩ := List.getElem?_eq_some_iff.1 found
  rw [replaced, map_set, same, ← getElem_map f (h := by simpa using inside),
    set_getElem_self]

theorem Keeps.replace (keeps : Keeps types lib g₀ g) (found : g.nodes[id]? = some n)
    (n' : GraphNode) (added : List InputSocket) (definition : n'.definition = n.definition)
    (category : n'.category = n.category)
    (outputs : n'.outputs.map Output.type = n.outputs.map Output.type)
    (signatures : n'.inputs.map Input.signature = n.inputs.map Input.signature)
    (reads : n'.readNodes = n.readNodes)
    (sockets : ∀ s ∈ added, types.Knows s.type ∧ ∀ v ∈ s.value, v.HasType s.type)
    (inputs : ∀ i ∈ n'.inputs, types.Knows i.type ∧
      (g.replaced id n' added).Carries i.type i.source ∧ i.Fits) :
    Keeps types lib g₀ (g.replaced id n' added) where
  typed := keeps.typed.replace found n' added outputs (fun s new => (sockets s new).1)
    fun i input => ⟨(inputs i input).1, (inputs i input).2.1⟩
  fits := keeps.fits.replace id n' added (fun s new => (sockets s new).2)
    fun i input => (inputs i input).2.2
  stems := by
    intro m at_m
    obtain old | rfl := mem_replaced at_m
    · exact keeps.stems m old
    · have typed : m.outputTypes = n.outputTypes := by
        have names := congrArg (List.map ShaderType.name) outputs
        rwa [map_map, map_map] at names
      exact (keeps.stems n (mem_of_getElem? found)).of_same definition category typed
        signatures
  reads := (map_replaced found n' added reads).trans keeps.reads
  outputSockets := keeps.outputSockets

theorem nameOutputs_types (name : String) (table : NameTable) (outputs : List Output) :
    (nameOutputs name table outputs).2.map Output.type = outputs.map Output.type := by
  induction outputs generalizing table with
  | nil => rfl
  | cons o rest ih => simp only [nameOutputs, map_cons, ih]

theorem keeps_nameNode (keeps : Keeps types lib g₀ g) (found : g.nodes[id]? = some n)
    (table : NameTable) : Keeps types lib g₀ (g.replaced id (nameNode table n).2 []) := by
  refine keeps.replace found (nameNode table n).2 [] rfl rfl (nameOutputs_types _ _ n.outputs) rfl
    rfl (by simp) ?_
  intro i input
  have member := mem_of_getElem? found
  obtain ⟨known, carries⟩ := keeps.typed.inputs n member i input
  refine ⟨known, ?_, keeps.fits.inputs n member i input⟩
  intro source read
  exact replaced_sourceType? found (nameOutputs_types _ _ n.outputs) [] (carries source read)

inductive Published (kind : InterfaceKind) : List InputSocket → List Input → List InputSocket →
    List Input → Prop where
  | nil (sockets : List InputSocket) : Published kind sockets [] sockets []
  | socket (sockets : List InputSocket) (i : Input) (name : String) (rest : List Input)
      (sockets' : List InputSocket) (rest' : List Input) : isPublished kind i →
      Published kind (sockets ++ [⟨name, i.type, i.value, i.path⟩]) rest sockets' rest' →
      Published kind sockets (i :: rest) sockets'
        ({ i with source := some (.socket sockets.length) } :: rest')
  | keep (sockets : List InputSocket) (i : Input) (rest : List Input)
      (sockets' : List InputSocket) (rest' : List Input) :
      Published kind sockets rest sockets' rest' →
      Published kind sockets (i :: rest) sockets' (i :: rest')

theorem publishInputs_published (kind : InterfaceKind) (name : String) (table : NameTable)
    (sockets : List InputSocket) (inputs : List Input) :
    Published kind sockets inputs (publishInputs kind name (table, sockets) inputs).1.2
      (publishInputs kind name (table, sockets) inputs).2 := by
  induction inputs generalizing table sockets with
  | nil => exact .nil sockets
  | cons i rest ih =>
    unfold publishInputs
    split_ifs with published
    · exact .socket sockets i _ rest _ _ published (ih _ _)
    · exact .keep sockets i rest _ _ (ih _ _)

section

variable {kind : InterfaceKind} {sockets sockets' : List InputSocket} {inputs inputs' : List Input}

theorem unconnected_of_isPublished {i : Input} (published : isPublished kind i) :
    i.source = none ∧ i.isStatic = false ∧ i.value.isSome := by
  simp only [isPublished, Bool.and_eq_true, Option.isNone_iff_eq_none,
    Bool.not_eq_true'] at published
  tauto

theorem Published.signatures (published : Published kind sockets inputs sockets' inputs') :
    inputs'.map Input.signature = inputs.map Input.signature := by
  induction published with
  | nil => rfl
  | socket _ _ _ _ _ _ _ _ ih => simp only [map_cons, ih, Input.signature]
  | keep _ _ _ _ _ _ ih => simp only [map_cons, ih]

theorem Published.reads (published : Published kind sockets inputs sockets' inputs')
    (n : GraphNode) :
    GraphNode.readNodes { n with inputs := inputs' } = GraphNode.readNodes { n with inputs } := by
  unfold GraphNode.readNodes
  induction published with
  | nil => rfl
  | socket _ i _ _ _ _ open_ _ ih =>
    have source := (unconnected_of_isPublished open_).1
    simp only [filterMap_cons, source] at ih ⊢
    exact ih
  | keep _ i _ _ _ _ ih => simp only [filterMap_cons, ih]

theorem Published.sockets_ok (types : Registry)
    (published : Published kind sockets inputs sockets' inputs')
    (ok : ∀ i ∈ inputs, types.Knows i.type ∧ i.Fits) :
    ∃ added, sockets' = sockets ++ added ∧
      ∀ s ∈ added, types.Knows s.type ∧ ∀ v ∈ s.value, v.HasType s.type := by
  induction published with
  | nil sockets => exact ⟨[], by simp, by simp⟩
  | socket sockets i name rest sockets' rest' open_ _ ih =>
    obtain ⟨here, others⟩ := forall_mem_cons.1 ok
    obtain ⟨added, rfl, all⟩ := ih others
    refine ⟨⟨name, i.type, i.value, i.path⟩ :: added, by simp, ?_⟩
    have source := (unconnected_of_isPublished open_).1
    exact forall_mem_cons.2 ⟨⟨here.1, here.2.1 source⟩, all⟩
  | keep sockets i rest sockets' rest' _ ih => exact ih (forall_mem_cons.1 ok).2

theorem Published.appends (published : Published kind sockets inputs sockets' inputs') :
    ∃ added, sockets' = sockets ++ added := by
  induction published with
  | nil sockets => exact ⟨[], by simp⟩
  | socket sockets i name rest sockets' rest' _ _ ih =>
    obtain ⟨added, rfl⟩ := ih
    exact ⟨⟨name, i.type, i.value, i.path⟩ :: added, by simp⟩
  | keep _ _ _ _ _ _ ih => exact ih

theorem Published.mem (published : Published kind sockets inputs sockets' inputs') {i' : Input}
    (member : i' ∈ inputs') :
    i' ∈ inputs ∨ ∃ i ∈ inputs, i.isStatic = false ∧ ∃ k s, sockets'[k]? = some s ∧
      s.type = i.type ∧ i' = { i with source := some (.socket k) } := by
  induction published with
  | nil => cases member
  | socket sockets i name rest sockets' rest' open_ later ih =>
    obtain rfl | member := mem_cons.1 member
    · obtain ⟨added, rfl⟩ := later.appends
      refine .inr ⟨i, .head _, (unconnected_of_isPublished open_).2.1,
        sockets.length, ⟨name, i.type, i.value, i.path⟩, ?_, rfl, rfl⟩
      simp
    · obtain same | ⟨j, old, rest⟩ := ih member
      · exact .inl (.tail _ same)
      · exact .inr ⟨j, .tail _ old, rest⟩
  | keep sockets i rest sockets' rest' _ ih =>
    obtain rfl | member := mem_cons.1 member
    · exact .inl mem_cons_self
    · obtain same | ⟨j, old, rest⟩ := ih member
      · exact .inl (.tail _ same)
      · exact .inr ⟨j, .tail _ old, rest⟩

end

theorem keeps_publishNode {types : Registry} (keeps : Keeps types lib g₀ g) {id : NodeId}
    {n : GraphNode} (found : g.nodes[id]? = some n) {kind : InterfaceKind} {inputs : List Input}
    {added : List InputSocket}
    (published : Published kind g.inputSockets n.inputs (g.inputSockets ++ added) inputs) :
    Keeps types lib g₀ (g.replaced id { n with inputs } added) := by
  have member := mem_of_getElem? found
  obtain ⟨added', same, new⟩ := published.sockets_ok types fun i input =>
    ⟨(keeps.typed.inputs n member i input).1, keeps.fits.inputs n member i input⟩
  obtain rfl := append_cancel_left same
  refine keeps.replace found _ added rfl rfl rfl published.signatures (published.reads n) new ?_
  intro i' input'
  obtain input | ⟨i, input, free, k, s, at_k, type, rfl⟩ := published.mem input'
  · obtain ⟨known, carries⟩ := keeps.typed.inputs n member i' input
    refine ⟨known, ?_, keeps.fits.inputs n member i' input⟩
    intro source read
    apply replaced_sourceType? found _ added (carries source read)
    rfl
  · refine ⟨(keeps.typed.inputs n member i input).1, ?_, ?_, ?_⟩
    · rintro _ ⟨⟩
      simp only [sourceType?, replaced, at_k, Option.map_some, type]
    · rintro ⟨⟩
    · intro static
      rw [show _ = i.isStatic from rfl, free] at static
      cases static

theorem updateNodes_induct {σ : Type} {f : σ → GraphNode → σ × GraphNode}
    {P : List NodeId → σ → List GraphNode → Prop}
    (update : ∀ ids s nodes id n, P ids s nodes → nodes[id]? = some n →
      P (id :: ids) (f s n).1 (nodes.set id (f s n).2))
    (skip : ∀ ids s nodes id, P ids s nodes → nodes[id]? = none → P (id :: ids) s nodes)
    (order ids : List NodeId) {s : σ} {nodes : List GraphNode} (start : P ids s nodes) :
    P (order.reverse ++ ids) (order.foldl (updateNode f) (s, nodes)).1
      (order.foldl (updateNode f) (s, nodes)).2 := by
  induction order generalizing ids s nodes with
  | nil => exact start
  | cons id rest ih =>
    rw [foldl_cons, reverse_cons, append_assoc]
    cases found : nodes[id]? with
    | none =>
      have same : updateNode f (s, nodes) id = (s, nodes) := by simp only [updateNode, found]
      rw [same]
      exact ih _ (skip ids s nodes id start found)
    | some n =>
      have set : updateNode f (s, nodes) id = ((f s n).1, nodes.set id (f s n).2) := by
        simp only [updateNode, found]
      rw [set]
      exact ih _ (update ids s nodes id n start found)

section

variable {kind : InterfaceKind}

theorem nameNodes_induct {P : Graph → Prop} (names : ∀ g id n table, P g → g.nodes[id]? = some n →
      P (g.replaced id (nameNode table n).2 [])) (order : List NodeId) (table : NameTable)
    (start : P g) :
    P { g with nodes := (order.foldl (updateNode nameNode) (table, g.nodes)).2 } := by
  refine updateNodes_induct (P := fun _ _ nodes => P { g with nodes }) ?_ (fun _ _ _ _ old _ => old)
    order [] start
  intro _ table nodes id n old found
  have named := names { g with nodes } id n table old found
  rwa [replaced, append_nil] at named

theorem publishInputs_drawn (kind : InterfaceKind) (name : String) (table : NameTable)
    (sockets : List InputSocket) (inputs : List Input) :
    ∃ added, (publishInputs kind name (table, sockets) inputs).1.2 = sockets ++ added ∧
      Drawn table (added.map InputSocket.name)
        (publishInputs kind name (table, sockets) inputs).1.1 := by
  induction inputs generalizing table sockets with
  | nil => exact ⟨[], by simp [publishInputs], .nil table⟩
  | cons i rest ih =>
    unfold publishInputs
    split_ifs
    · let socket : InputSocket :=
        ⟨(table.reserve (name ++ "_" ++ i.name)).1, i.type, i.value, i.path⟩
      obtain ⟨added, grown, drawn⟩ := ih (table.reserve (name ++ "_" ++ i.name)).2
        (sockets ++ [socket])
      refine ⟨socket :: added, ?_, (table.reserve_drawn _).append drawn⟩
      exact grown.trans (append_assoc ..)
    · exact ih table sockets

theorem publishNodes_induct (kind : InterfaceKind) {P : NameTable → Graph → Prop}
    (publishes : ∀ g id n inputs added table table', P table g → g.nodes[id]? = some n →
      Published kind g.inputSockets n.inputs (g.inputSockets ++ added) inputs →
      Drawn table (added.map InputSocket.name) table' →
      P table' (g.replaced id { n with inputs } added)) (order : List NodeId) {table : NameTable}
    (start : P table g) :
    let state := order.foldl (updateNode (publishNode kind)) ((table, g.inputSockets), g.nodes)
    P state.1.1 { g with nodes := state.2, inputSockets := state.1.2 } := by
  refine updateNodes_induct
    (P := fun _ (state : NameTable × List InputSocket) nodes =>
      P state.1 { g with nodes, inputSockets := state.2 }) ?_
    (fun _ _ _ _ old _ => old) order [] (s := (table, g.inputSockets)) start
  rintro _ ⟨table, sockets⟩ nodes id n old found
  have published := publishInputs_published kind n.name table sockets n.inputs
  obtain ⟨added, grown, drawn⟩ := publishInputs_drawn kind n.name table sockets n.inputs
  rw [grown] at published
  have whole := publishes { g with nodes, inputSockets := sockets } id n _ added _ _ old found
    published drawn
  rwa [replaced, ← grown] at whole

theorem assignNames_induct {P : Graph → Prop} (names : ∀ g id n table, P g → g.nodes[id]? = some n →
      P (g.replaced id (nameNode table n).2 []))
    (publishes : ∀ g id n inputs added, P g → g.nodes[id]? = some n →
      Published kind g.inputSockets n.inputs (g.inputSockets ++ added) inputs →
      P (g.replaced id { n with inputs } added)) (start : P g) : P (g.assignNames kind) :=
  publishNodes_induct kind (P := fun _ => P)
    (fun g id n inputs added _ _ old found new _ => publishes g id n inputs added old found new)
    g.order (nameNodes_induct names g.order (reservedNames g.inputSockets) start)

end

theorem assignNames_keeps {types : Registry} (typed : g.WellTyped types) (fits : g.Fits)
    (stems : ∀ n ∈ g.nodes, n.Stems lib) (kind : InterfaceKind) :
    Keeps types lib g (g.assignNames kind) :=
  assignNames_induct (fun _ _ _ table keeps found => keeps_nameNode keeps found table)
    (fun _ _ _ _ _ keeps found published => keeps_publishNode keeps found published)
    ⟨typed, fits, stems, rfl, rfl⟩

end Graph

end MaterialShader
