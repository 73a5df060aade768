import MaterialShader.Proofs.Graph.Meaning
import MaterialShader.Proofs.Graph.Naming

/-!
Naming and publishing keep the meaning of a graph.
-/

namespace MaterialShader

open List

variable (added : List InputSocket)

variable {D : Type}

/-- Values of input sockets: the first `given` as assigned, every other its own default. -/
def Interpretation.socketValues (I : Interpretation D) (given : Nat) (assigned : Nat → D)
    (sockets : List InputSocket) (k : Nat) : D :=
  if k < given then assigned k
  else
    match sockets[k]? with
    | some s => I.literal s.type (s.value.getD s.type.initial)
    | none => assigned k

def SocketsBelow (count : Nat) (inputs : List Input) : Prop :=
  ∀ i ∈ inputs, ∀ k, i.source = some (.socket k) → k < count

theorem SocketsBelow.mono {count count' : Nat} {inputs : List Input}
    (below : SocketsBelow count inputs) (le : count ≤ count') : SocketsBelow count' inputs :=
  fun i input k source => (below i input k source).trans_le le

section

variable {I : Interpretation D} {given : Nat} {assigned : Nat → D}
  {sockets sockets' : List InputSocket} {inputs inputs' : List Input}

theorem socketValues_append {k : Nat} (inside : k < sockets.length) :
    I.socketValues given assigned (sockets ++ added) k =
      I.socketValues given assigned sockets k := by
  simp only [Interpretation.socketValues, List.getElem?_append_left inside]

theorem socketValues_length (s : InputSocket) (added : List InputSocket)
    (late : given ≤ sockets.length) :
    I.socketValues given assigned (sockets ++ s :: added) sockets.length =
      I.literal s.type (s.value.getD s.type.initial) := by
  simp [Interpretation.socketValues, Nat.not_lt.2 late]

theorem read_append (v : Valuation D) (t : ShaderType) {source : Option Source}
    (value : Option Value) (inside : ∀ k, source = some (.socket k) → k < sockets.length) :
    I.read (I.socketValues given assigned (sockets ++ added)) v t source value =
      I.read (I.socketValues given assigned sockets) v t source value := by
  match source, value with
  | some (.node id k), _ => rfl
  | some (.socket k), _ => exact socketValues_append added (inside k rfl)
  | none, some x => rfl
  | none, none => rfl

theorem arguments_append (v : Valuation D) (below : SocketsBelow sockets.length inputs) :
    inputs.map (I.argumentOf (I.socketValues given assigned (sockets ++ added)) v) =
      inputs.map (I.argumentOf (I.socketValues given assigned sockets) v) := by
  apply map_congr_left
  intro i input
  simp only [Interpretation.argumentOf, Argument.mk.injEq, true_and]
  exact read_append added v i.type i.value (below i input)

namespace Graph

theorem Published.socketsBelow {kind : InterfaceKind}
    (published : Published kind sockets inputs sockets' inputs')
    (below : SocketsBelow sockets.length inputs) : SocketsBelow sockets'.length inputs' := by
  obtain ⟨added, appended⟩ := published.appends
  intro i' input' k source
  obtain input | ⟨i, input, _, l, s, at_l, _, rfl⟩ := published.mem input'
  · have inside := below i' input k source
    rw [appended, length_append]
    omega
  · cases source
    exact lt_of_getElem? at_l

theorem Published.arguments {kind : InterfaceKind}
    (published : Published kind sockets inputs sockets' inputs') (late : given ≤ sockets.length)
    (below : SocketsBelow sockets.length inputs) (v : Valuation D) :
    inputs'.map (I.argumentOf (I.socketValues given assigned sockets') v) =
      inputs.map (I.argumentOf (I.socketValues given assigned sockets) v) := by
  induction published with
  | nil => rfl
  | socket sockets i name rest sockets' rest' open_ later ih =>
    obtain ⟨source, _, valued⟩ := unconnected_of_isPublished open_
    obtain ⟨x, value⟩ := Option.isSome_iff_exists.1 valued
    obtain ⟨_, below⟩ := forall_mem_cons.1 below
    have longer : sockets.length ≤
        (sockets ++ [(⟨name, i.type, i.value, i.path⟩ : InputSocket)]).length := by simp
    have others := ih (late.trans longer) (SocketsBelow.mono below longer)
    rw [arguments_append _ v below] at others
    obtain ⟨added, rfl⟩ := later.appends
    rw [map_cons, map_cons, others, append_assoc, singleton_append]
    simp only [Interpretation.argumentOf, Interpretation.read, source, value,
      socketValues_length _ _ late, Option.getD_some]
  | keep sockets i rest sockets' rest' later ih =>
    obtain ⟨added, rfl⟩ := later.appends
    obtain ⟨here, others⟩ := forall_mem_cons.1 below
    rw [map_cons, map_cons, ih late others]
    simp only [Interpretation.argumentOf, read_append added v i.type i.value here]

end Graph

end

structure GraphNode.Restates (I : Interpretation D) (given : Nat) (assigned : Nat → D)
    (sockets sockets' : List InputSocket) (n n' : GraphNode) : Prop where
  signature : n'.signature = n.signature
  reads : n'.readNodes = n.readNodes
  below : SocketsBelow sockets'.length n'.inputs
  arguments : ∀ v, I.arguments (I.socketValues given assigned sockets') v n' =
    I.arguments (I.socketValues given assigned sockets) v n

section

variable {I : Interpretation D} {given : Nat} {assigned : Nat → D}
  {sockets sockets' sockets'' : List InputSocket} {n n' n'' : GraphNode}

theorem GraphNode.Restates.trans (first : n.Restates I given assigned sockets sockets' n')
    (second : n'.Restates I given assigned sockets' sockets'' n'') :
    n.Restates I given assigned sockets sockets'' n'' where
  signature := second.signature.trans first.signature
  reads := second.reads.trans first.reads
  below := second.below
  arguments v := (second.arguments v).trans (first.arguments v)

theorem GraphNode.restates_append (below : SocketsBelow sockets.length n.inputs) :
    n.Restates I given assigned sockets (sockets ++ added) n where
  signature := rfl
  reads := rfl
  below := below.mono (by simp)
  arguments v := arguments_append added v below

theorem Graph.nameNode_restates (table : NameTable) (below : SocketsBelow sockets.length n.inputs) :
    n.Restates I given assigned sockets sockets (nameNode table n).2 where
  signature := by
    simp only [GraphNode.signature, nameNode, nameOutputs_types]
  reads := rfl
  below := below
  arguments _ := rfl

theorem Graph.Published.restates {kind : InterfaceKind} {inputs : List Input}
    (published : Published kind sockets n.inputs sockets' inputs) (late : given ≤ sockets.length)
    (below : SocketsBelow sockets.length n.inputs) :
    n.Restates I given assigned sockets sockets' { n with inputs } :=
  ⟨rfl, published.reads n, published.socketsBelow below, published.arguments late below⟩

end

namespace Graph

structure Restated (I : Interpretation D) (given : Nat) (assigned : Nat → D) (g : Graph)
    (sockets : List InputSocket) (nodes : List GraphNode) : Prop where
  grown : ∃ added, sockets = g.inputSockets ++ added
  length : nodes.length = g.nodes.length
  nodes : ∀ (id : NodeId) (n : GraphNode), g.nodes[id]? = some n → ∃ n' : GraphNode,
    nodes[id]? = some n' ∧ n.Restates I given assigned g.inputSockets sockets n'

section

variable {I : Interpretation D} {given : Nat} {assigned : Nat → D} {g : Graph}
  {sockets : List InputSocket} {nodes : List GraphNode}

theorem Closed.below (closed : g.Closed) {n : GraphNode} (member : n ∈ g.nodes) :
    SocketsBelow g.inputSockets.length n.inputs :=
  fun i input _ source => closed.inputs n member i input _ source

theorem Closed.restated (closed : g.Closed) :
    g.Restated I given assigned g.inputSockets g.nodes := by
  refine ⟨⟨[], by simp⟩, rfl, ?_⟩
  intro id n found
  have below := closed.below (mem_of_getElem? found)
  exact ⟨n, found, rfl, rfl, below, fun _ => rfl⟩

theorem Restated.set (restated : g.Restated I given assigned sockets nodes) {id : NodeId}
    {n' n'' : GraphNode} (found' : nodes[id]? = some n') {sockets' : List InputSocket}
    (grown : ∃ added, sockets' = sockets ++ added)
    (step : SocketsBelow sockets.length n'.inputs →
      n'.Restates I given assigned sockets sockets' n'') :
    g.Restated I given assigned sockets' (nodes.set id n'') := by
  obtain ⟨added, rfl⟩ := grown
  obtain ⟨before, same⟩ := restated.grown
  refine ⟨⟨before ++ added, by rw [same, append_assoc]⟩, by simp [restated.length], ?_⟩
  intro k n found
  obtain ⟨m, at_k, restates⟩ := restated.nodes k n found
  by_cases here : id = k
  · subst here
    rw [found'] at at_k
    cases at_k
    have inside := lt_of_getElem? found'
    exact ⟨n'', List.getElem?_set_self inside, restates.trans (step restates.below)⟩
  · refine ⟨m, (List.getElem?_set_ne here).trans at_k, ?_⟩
    exact restates.trans (GraphNode.restates_append added restates.below)

theorem Closed.assignNames_restated (closed : g.Closed) (late : given ≤ g.inputSockets.length)
    (kind : InterfaceKind) :
    g.Restated I given assigned (g.assignNames kind).inputSockets (g.assignNames kind).nodes := by
  refine assignNames_induct
    (P := fun h => g.Restated I given assigned h.inputSockets h.nodes) ?_ ?_ closed.restated
  · intro h id n table restated found
    rw [replaced, append_nil]
    exact restated.set found ⟨[], by simp⟩ (nameNode_restates table)
  · intro h id n inputs added restated found published
    have enough : given ≤ h.inputSockets.length := by
      obtain ⟨before, same⟩ := restated.grown
      rw [same, length_append]
      omega
    exact restated.set found ⟨added, rfl⟩ (published.restates enough)

theorem Restated.readNodes (restated : g.Restated I given assigned sockets nodes) :
    nodes.map GraphNode.readNodes = g.nodes.map GraphNode.readNodes := by
  apply ext_getElem (by simp [restated.length])
  intro id inside inside'
  rw [length_map] at inside inside'
  obtain ⟨n', found, restates⟩ := restated.nodes id _ (List.getElem?_eq_getElem inside')
  obtain ⟨_, same⟩ := List.getElem?_eq_some_iff.1 found
  simp only [getElem_map, same, restates.reads]

theorem Restated.assign (restated : g.Restated I given assigned sockets nodes) (v : Valuation D)
    (id : NodeId) :
    I.assign (I.socketValues given assigned sockets) nodes v id =
      I.assign (I.socketValues given assigned g.inputSockets) g.nodes v id := by
  cases found : g.nodes[id]? with
  | none =>
    have outside : nodes[id]? = none := by
      rw [List.getElem?_eq_none_iff, restated.length]
      exact List.getElem?_eq_none_iff.1 found
    simp only [Interpretation.assign, found, outside]
  | some n =>
    obtain ⟨n', found', restates⟩ := restated.nodes id n found
    simp only [Interpretation.assign, found, found', Interpretation.results, restates.signature,
      restates.arguments v]

end

end Graph

theorem Interpretation.evaluateFrom_congr (I : Interpretation D) {σ σ' : Nat → D}
    {nodes nodes' : List GraphNode}
    (same : ∀ v id, I.assign σ' nodes' v id = I.assign σ nodes v id) (order : List NodeId)
    (v : Valuation D) : I.evaluateFrom σ' nodes' order v = I.evaluateFrom σ nodes order v := by
  induction order generalizing v with
  | nil => rfl
  | cons id rest ih => rw [evaluateFrom, evaluateFrom, same, ih]

namespace Graph

theorem evaluate_congr [Inhabited D] {g h : Graph} {I : Interpretation D} {σ σ' : Nat → D}
    (reads : h.nodes.map GraphNode.readNodes = g.nodes.map GraphNode.readNodes)
    (same : ∀ v id, I.assign σ' h.nodes v id = I.assign σ g.nodes v id) :
    h.evaluate I σ' = g.evaluate I σ := by
  have length : h.nodes.length = g.nodes.length := by simpa using congrArg List.length reads
  have edges : h.edges = g.edges := edgesFrom_congr 0 reads
  simp only [evaluate, length, edges]
  cases Dependency.sort g.nodes.length g.edges with
  | ok order => exact I.evaluateFrom_congr same order _
  | error _ => rfl

theorem Closed.assignNames_outputValues [Inhabited D] {g : Graph} (closed : g.Closed)
    {given : Nat} (late : given ≤ g.inputSockets.length) (kind : InterfaceKind)
    (I : Interpretation D) (assigned : Nat → D) :
    (g.assignNames kind).outputValues I
        (I.socketValues given assigned (g.assignNames kind).inputSockets) =
      g.outputValues I (I.socketValues given assigned g.inputSockets) := by
  have restated : g.Restated I given assigned _ (g.assignNames kind).nodes :=
    closed.assignNames_restated late kind
  have values := evaluate_congr restated.readNodes restated.assign
  obtain ⟨added, grown⟩ := restated.grown
  rw [outputValues, outputValues, values]
  rw [outputsUnder, outputsUnder, grown]
  apply map_congr_left
  intro s member
  rw [read_append]
  exact fun _ source => closed.outputSockets s member _ source

end Graph

end MaterialShader
