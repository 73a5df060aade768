import MaterialShader.Proofs.Builder.Guarded
import MaterialShader.Proofs.Network.Ignored

/-!
Types across node graphs.
-/

namespace MaterialShader

open List Option

section

variable {α : Type} (key : α → String)

theorem get?_numbered_mem {items : List α} {start id : Nat} {k : String}
    (found : Assoc.get? k ((items.map key).zip (List.range' start items.length)).reverse = some id) :
    start ≤ id ∧ id < start + items.length := by
  have member := mem_reverse.1 (Assoc.mem_of_get? found)
  exact mem_range'_1.1 (of_mem_zip member).2

theorem find?_numbered (items : List α) (start : Nat) (k : String) :
    items.reverse.find? (fun a => key a == k) =
      (Assoc.get? k ((items.map key).zip (List.range' start items.length)).reverse).bind
        fun id => items[id - start]? := by
  induction items generalizing start with
  | nil => rfl
  | cons a rest ih =>
    rw [reverse_cons, List.find?_append, ih (start + 1), map_cons, length_cons,
      List.range'_succ, zip_cons_cons, reverse_cons, Assoc.get?_append]
    cases later : Assoc.get? k
        ((rest.map key).zip (List.range' (start + 1) rest.length)).reverse with
    | some id =>
      obtain ⟨after, before⟩ := get?_numbered_mem key later
      obtain ⟨j, rfl⟩ := Nat.exists_eq_add_of_le after
      have inside : j < rest.length := by omega
      have first : start + 1 + j - start = j + 1 := by omega
      simp [first, inside]
    | none => by_cases here : key a = k <;> simp [Assoc.get?, here]

end

namespace Network

def typeOf? (doc : Document) (lib : Library) (types : Registry) (net : Network) :
    Binding → Option ShaderType
  | .port path output =>
    (net.nodes.reverse.find? fun n => n.path == path).bind fun n =>
      (lib.resolve n.path n.node).toOption.bind fun d =>
        (d.outputs.find? fun o => o.name == output).bind fun o => types.find? o.typeName
  | .socket name =>
    (doc.inputs.reverse.find? fun i => i.name == name).bind fun i => types.find? i.typeName
  | .literal _ => none

end Network

namespace Builder

theorem Shows.find? {types : Registry} {d : Definition} {outputs : List Output}
    (shows_ : Shows types d outputs) (name : String) :
    (outputs.find? fun o => o.name == name).map Output.type =
      (d.outputs.find? fun o => o.name == name).bind fun o => types.find? o.typeName := by
  unfold Shows at shows_
  generalize d.outputs = ports at shows_
  induction shows_ with
  | nil => rfl
  | @cons p o _ _ here _ ih =>
    by_cases same : p.name = name
    · simp [here.1, same, here.2]
    · simpa [here.1, same] using ih

section

variable {doc : Document} {lib : Library} {types : Registry} {net : Network} {b : Builder}

theorem Holds.typeOf? (holds : b.Holds doc lib types net) {binding : Binding} {t : ShaderType}
    (typed : b.bindingType? binding = some t) : net.typeOf? doc lib types binding = some t := by
  cases binding with
  | literal json => exact typed
  | port path output =>
    obtain ⟨id, place, typed⟩ := bind_eq_some_iff.1 typed
    obtain ⟨m, at_id, typed⟩ := bind_eq_some_iff.1 typed
    rw [holds.index, Assoc.get?_putAll] at place
    simp only [Assoc.get?, or_none] at place
    have last := find?_numbered BoundNode.path net.nodes 0 path
    rw [place, bind_some, Nat.sub_zero] at last
    have inside : id < net.nodes.length := by
      simpa using (get?_numbered_mem BoundNode.path place).2
    have found := List.getElem?_eq_getElem inside
    obtain ⟨d, m', resolved, at_id', _, outputs⟩ := holds.nodes id _ found
    cases at_id.symm.trans at_id'
    rw [outputs.find?] at typed
    rw [Network.typeOf?, last, found, bind_some, resolved]
    exact typed
  | socket name =>
    obtain ⟨k, place, typed⟩ := bind_eq_some_iff.1 typed
    obtain ⟨s, at_k, rfl⟩ := map_eq_some_iff.1 typed
    rw [holds.socketIndex, Assoc.get?_putAll] at place
    simp only [Assoc.get?, or_none] at place
    have last := find?_numbered GraphInput.name doc.inputs 0 name
    rw [place, bind_some, Nat.sub_zero] at last
    obtain ⟨i, at_k', declares⟩ := forall₂_getElem? holds.sockets.flip at_k
    rw [Network.typeOf?, last, at_k', bind_some]
    exact declares.type

end

end Builder

namespace Graph

section

variable {doc : Document} {lib : Library} {types : Registry}

theorem bind_retyped (input : NodeGraph → GraphInput → String)
    (output : NodeGraph → GraphOutput → String) :
    bind (doc.retyped input output) (lib.retyped input output) types = bind doc lib types := by
  rw [bind_eq, bind_eq, Network.ofDocument_retyped]
  refine congrArg (Network.ofDocument doc lib >>= ·) (funext fun net => ?_)
  have moves := Builder.graph_moves doc net (.start lib types)
    (lib.nodegraphs.map (NodeGraph.retyped input output))
  change (Builder.graph doc net (Builder.withGraphs _ (.start lib types))).map _ = _
  rw [moves]
  cases Builder.graph doc net (.start lib types) <;> rfl

theorem bind_suits {g : Graph} (run : bind doc lib types = .ok g) :
    ∃ net, Network.ofDocument doc lib = .ok net ∧
      (∀ (k : NodeId) n, net.nodes[k]? = some n → ∃ (d : Definition) (m : GraphNode),
        lib.resolve n.path n.node = .ok d ∧ g.nodes[k]? = some m ∧ m.path = n.path ∧
        List.Forall₂ (Input.Suits types (net.typeOf? doc lib types) n.bindings n.node.inputTypes)
          d.inputs m.inputs) ∧
      List.Forall₂ (Builder.SuitsOutput types (net.typeOf? doc lib types)) net.outputs
        g.outputSockets := by
  obtain ⟨b, net, _, _, shape, expanded, holds, nodes, outputs⟩ := bind_reads run
  refine ⟨net, expanded, fun k n found => ?_, ?_⟩
  · obtain ⟨d, m, resolved, at_k, path, suited⟩ := nodes k n found
    rw [shape]
    exact ⟨d, m, resolved, at_k, path,
      suited.imp fun _ _ suit => suit.mono fun _ _ => holds.typeOf?⟩
  · exact outputs.imp fun _ _ suit => suit.mono fun _ _ => holds.typeOf?

end

end Graph

instance (types : Registry) (s t : ShaderType) : Decidable (types.Connects s t) :=
  inferInstanceAs (Decidable (_ ∨ _))

/-- The types that node graphs declare for their inputs and outputs change nothing. What counts is
the network with the graphs inlined: an input with a type of its own reads something that connects to
it, any other input has the type of what it reads, and so it is with the outputs of the document. -/
theorem build_types_inlined {doc : Document} {lib : Library} {types : Registry} {options : Options}
    {built : Graph × Log} (run : Graph.build doc lib types options = .ok built) :
    (∀ input output, Graph.build (doc.retyped input output) (lib.retyped input output) types
      options = .ok built) ∧
    ∃ net g, Network.ofDocument doc lib = .ok net ∧ Graph.bind doc lib types = .ok g ∧
      (∀ (k : NodeId) n, net.nodes[k]? = some n → ∃ (d : Definition) (m : GraphNode),
        lib.resolve n.path n.node = .ok d ∧ g.nodes[k]? = some m ∧ m.path = n.path ∧
        List.Forall₂ (Input.Suits types (net.typeOf? doc lib types) n.bindings n.node.inputTypes)
          d.inputs m.inputs) ∧
      List.Forall₂ (Builder.SuitsOutput types (net.typeOf? doc lib types)) net.outputs
        g.outputSockets := by
  obtain ⟨g, bound, _⟩ := Result.bind_ok.1 run
  obtain ⟨net, expanded, suits⟩ := Graph.bind_suits bound
  refine ⟨fun input output => ?_, net, g, expanded, bound, suits⟩
  rw [Graph.build, Graph.bind_retyped]
  exact run

/-- A library with a source of one type and a node that takes any. -/
def relayLibrary : Library where
  definitions :=
    [⟨"texcoord_vector2", "texcoord", none, [⟨"index", "integer", some (.int 0), none, true⟩],
      [⟨"out", "vector2", none, none, false⟩]⟩,
     ⟨"mirror_any", "mirror", none, [⟨"in", "any", none, none, false⟩],
      [⟨"out", "vector2", none, none, false⟩]⟩]
  implementations := []
  nodegraphs := []

/-- The node graph declares numbers for what comes in and goes out. -/
def relayGraph : NodeGraph :=
  ⟨"NG_relay", "relay", "float", [⟨"x", "float", none⟩], [⟨"out", "float", ⟨"inner", "out"⟩⟩],
    [⟨"inner", "mirror", "vector2", none, [], [("in", "x")], []⟩], []⟩

/-- An instance of the graph is given a pair, and an output reads a pair from it. -/
def relayDocument : Document where
  version := "1"
  metadata := ⟨"relay", none, none⟩
  inputs := []
  nodes :=
    [⟨"uv", "texcoord", "vector2", none, [], [], []⟩, ⟨"g", "relay", "float", none, [], [], []⟩]
  connections := [⟨"c", ⟨"uv", "out"⟩, ⟨"g", "x"⟩⟩]
  outputs := [⟨"o", "vector2", ⟨"g", "out"⟩⟩]
  nodegraphs := [relayGraph]

theorem build_types_inlined_relay :
    ∃ built, Graph.build relayDocument relayLibrary .standard {} = .ok built ∧
      (∀ input output, Graph.build (relayDocument.retyped input output)
        (relayLibrary.retyped input output) .standard {} = .ok built) ∧
      ∃ net g, Network.ofDocument relayDocument relayLibrary = .ok net ∧
        Graph.bind relayDocument relayLibrary .standard = .ok g ∧
        (∀ (k : NodeId) n, net.nodes[k]? = some n → ∃ (d : Definition) (m : GraphNode),
          relayLibrary.resolve n.path n.node = .ok d ∧ g.nodes[k]? = some m ∧ m.path = n.path ∧
          List.Forall₂ (Input.Suits .standard (net.typeOf? relayDocument relayLibrary .standard)
            n.bindings n.node.inputTypes) d.inputs m.inputs) ∧
        List.Forall₂ (Builder.SuitsOutput .standard
          (net.typeOf? relayDocument relayLibrary .standard)) net.outputs g.outputSockets := by
  have builds : (Graph.build relayDocument relayLibrary .standard {}).toOption.isSome := by
    decide
  obtain ⟨built, found⟩ := Option.isSome_iff_exists.1 builds
  have run := Result.toOption_eq_some.1 found
  exact ⟨built, run, build_types_inlined run⟩

/-- A pair goes through a node graph that declares numbers, although no pair converts to a number,
and the input of any type inside sees the pair. -/
theorem interface_types_ignored :
    (∃ g log, Graph.build relayDocument relayLibrary .standard {} = .ok (g, log) ∧
      (g.nodes.map fun n => (n.path, n.inputs.map fun i => (i.name, i.type.name))) =
        [("uv", [("index", "integer")]), ("g/inner", [("in", "vector2")])]) ∧
    (∃ n ∈ relayDocument.nodes, n.id = "g" ∧
      Network.graphOf? relayDocument relayLibrary n = some relayGraph) ∧
    (∃ s t, Registry.standard.find? "vector2" = some s ∧ Registry.standard.find? "float" = some t ∧
      ¬ Registry.standard.Connects s t) := by
  refine ⟨?_, ?_, ?_⟩
  · have nodes : (Graph.build relayDocument relayLibrary .standard {}).toOption.map (fun built =>
        built.1.nodes.map fun n => (n.path, n.inputs.map fun i => (i.name, i.type.name))) =
        some [("uv", [("index", "integer")]), ("g/inner", [("in", "vector2")])] := by
      decide
    obtain ⟨⟨g, log⟩, found, nodes⟩ := Option.map_eq_some_iff.1 nodes
    exact ⟨g, log, Result.toOption_eq_some.1 found, nodes⟩
  · exact ⟨⟨"g", "relay", "float", none, [], [], []⟩,
      List.mem_cons_of_mem _ (List.mem_singleton.2 rfl), rfl, rfl⟩
  · exact ⟨_, _, rfl, rfl, by decide⟩

end MaterialShader
