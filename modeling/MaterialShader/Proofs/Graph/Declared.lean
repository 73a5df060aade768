import MaterialShader.Proofs.Builder.Placed
import MaterialShader.Proofs.Network.Ignored

/-!
What a document gives to inputs that nobody declares.
-/

namespace MaterialShader

open List Result

variable {port : String} {g : Graph} {n : Node}

namespace Document

/-- The document gives something to the input: a literal, a link or a connection. -/
def Gives (doc : Document) (n : Node) (port : String) : Prop :=
  port ∈ n.params.map Prod.fst ∨ port ∈ n.links.map Prod.fst ∨
    ∃ c ∈ doc.connections, c.destination = ⟨n.id, port⟩

/-- The input is one of the graph that stands for the node, or else of its definition. -/
def Declares (doc : Document) (lib : Library) (n : Node) (port : String) : Prop :=
  match Network.graphOf? doc lib n with
  | some graph => ∃ i ∈ graph.inputs, i.name = port
  | none => ∃ d, lib.resolve n.id n = .ok d ∧ (d.input? port).isSome

structure Declared (doc : Document) (lib : Library) : Prop where
  connections : ∀ c ∈ doc.connections,
    ∃ n ∈ doc.nodes, n.id = c.destination.node ∧ doc.Declares lib n c.destination.port
  params : ∀ n ∈ doc.nodes, ∀ entry ∈ n.params, doc.Declares lib n entry.1
  links : ∀ n ∈ doc.nodes, ∀ link ∈ n.links, doc.Declares lib n link.1

end Document

namespace Network

theorem keys_linkBindings {path : String} {around : Surroundings}
    (bound : ∀ name entry, Assoc.get? name around = some entry → entry.isSome)
    {links : List (String × String)} {entries : List (String × Binding)}
    (run : linkBindings path around links = .ok entries) :
    entries.map Prod.fst = links.map Prod.fst := by
  induction links generalizing entries with
  | nil =>
    cases run
    rfl
  | cons link rest ih =>
    obtain ⟨port, name⟩ := link
    rw [linkBindings] at run
    cases found : Assoc.get? name around with
    | none =>
      rw [found] at run
      cases run
    | some entry =>
      obtain ⟨b, rfl⟩ := Option.isSome_iff_exists.1 (bound name entry found)
      rw [found] at run
      obtain ⟨others, later, rfl⟩ := map_ok.1 run
      rw [map_cons, map_cons, ih later]

theorem linkBindings_known {path : String} {around : Surroundings}
    {links : List (String × String)} {entries : List (String × Binding)}
    (run : linkBindings path around links = .ok entries) :
    ∀ link ∈ links, Assoc.has link.2 around := by
  induction links generalizing entries with
  | nil => exact fun _ member => nomatch member
  | cons link rest ih =>
    obtain ⟨port, name⟩ := link
    rw [linkBindings] at run
    rw [forall_mem_cons]
    split at run
    · cases run
    · rename_i found
      exact ⟨by simp [Assoc.has, found], ih run⟩
    · rename_i found
      obtain ⟨others, later, rfl⟩ := map_ok.1 run
      exact ⟨by simp [Assoc.has, found], ih later⟩

theorem documentSurroundings_bound {doc : Document} (name : String) (entry : Option Binding)
    (found : Assoc.get? name (documentSurroundings doc) = some entry) : entry.isSome := by
  rw [documentSurroundings, Assoc.get?_putAll, ← map_reverse, Assoc.get?_map] at found
  cases here : doc.inputs.reverse.find? fun i => i.name == name with
  | none => simp [here, Assoc.get?] at found
  | some i =>
    simp only [here, Option.map_some, Option.some_or, Option.some.injEq] at found
    rw [← found]
    rfl

section

variable {doc : Document} {lib : Library}

theorem bindingsOf_gives {bindings : List (String × Binding)}
    (bound : bindingsOf n doc.connections "" (documentSurroundings doc) = .ok bindings)
    (gives : doc.Gives n port) : port ∈ bindings.map Prod.fst := by
  obtain ⟨links, linked, bound⟩ := bind_ok.1 bound
  cases pure_ok.1 bound
  refine Assoc.mem_keys_of_has ?_
  rw [Assoc.has_putAll, Assoc.has_putAll, Assoc.has_putAll]
  obtain literal | link | ⟨c, member, ends⟩ := gives
  · refine .inr (.inl ?_)
    rwa [map_map]
  · refine .inr (.inr (.inl ?_))
    rwa [keys_linkBindings documentSurroundings_bound linked]
  · refine .inl ?_
    rw [map_map, mem_map]
    exact ⟨c, by simp [member, ends], by simp [ends]⟩

theorem settleNode_keys {redirects : List Redirect} {m settled : BoundNode}
    (run : settleNode redirects m = .ok settled) :
    settled.path = m.path ∧ settled.node = m.node ∧
      settled.bindings.map Prod.fst = m.bindings.map Prod.fst := by
  obtain ⟨path, node, each⟩ := settleNode_ok run
  exact ⟨path, node, map_eq_of_forall₂ (fun _ _ same => same.1) each⟩

theorem ofDocument_node {net : Network} (run : ofDocument doc lib = .ok net)
    (member : n ∈ doc.nodes) (plain : graphOf? doc lib n = none) :
    ∃ m ∈ net.nodes, m.path = n.id ∧ m.node = n ∧
      ∀ port, doc.Gives n port → port ∈ m.bindings.map Prod.fst := by
  obtain ⟨whole, expanded, settled, _⟩ := ofDocument_ok run
  obtain ⟨parts, made, rfl⟩ := expand_parts expanded
  obtain ⟨part, listed, of_node⟩ := exists_of_mem_right made.flip member
  cases of_node with
  | inside _ stands _ => cases plain.symm.trans stands
  | node bound _ =>
    have drafted : BoundNode.mk ("" ++ n.id) n _ ∈ parts.flatMap Expansion.nodes :=
      mem_flatMap.2 ⟨_, listed, mem_singleton.2 rfl⟩
    obtain ⟨m, after, settles⟩ := exists_of_mem_right settled.flip drafted
    obtain ⟨path, node, keys⟩ := settleNode_keys settles
    refine ⟨m, after, ?_, node, fun port gives => ?_⟩
    · simpa using path
    · rw [keys]
      exact bindingsOf_gives bound gives

theorem ofDocument_linked {net : Network} (run : ofDocument doc lib = .ok net)
    (member : n ∈ doc.nodes) :
    ∀ link ∈ n.links, doc.inputs.any fun i => i.name == link.2 := by
  obtain ⟨whole, expanded, _⟩ := bind_ok.1 run
  obtain ⟨parts, made, rfl⟩ := expand_parts expanded
  obtain ⟨part, _, of_node⟩ := exists_of_mem_right made.flip member
  have bound : ∃ bindings, bindingsOf n doc.connections "" (documentSurroundings doc) =
      .ok bindings := by
    cases of_node with
    | node bound _ => exact ⟨_, bound⟩
    | inside bound _ _ => exact ⟨_, bound⟩
  obtain ⟨bindings, bound⟩ := bound
  obtain ⟨links, linked, _⟩ := bind_ok.1 bound
  intro link listed
  rw [← has_documentSurroundings]
  exact linkBindings_known linked link listed

end

end Network

namespace Graph

section

variable {doc : Document} {lib : Library} {types : Registry} {options : Options}

theorem bind_declares (run : bind doc lib types = .ok g) (member : n ∈ doc.nodes)
    (plain : Network.graphOf? doc lib n = none) (gives : doc.Gives n port) :
    doc.Declares lib n port := by
  obtain ⟨net, expanded, run⟩ := bind_ok.1 run
  obtain ⟨⟨_, b⟩, made, _⟩ := bind_ok.1 run
  obtain ⟨m, listed, path, node, bound⟩ := Network.ofDocument_node expanded member plain
  obtain ⟨d, resolved, declared⟩ := Builder.graph_declared made m listed
  rw [path, node] at resolved
  obtain ⟨entry, of_node, rfl⟩ := mem_map.1 (bound port gives)
  rw [Document.Declares, plain]
  exact ⟨d, resolved, declared entry of_node⟩

theorem bind_declares_taken (run : bind doc lib types = .ok g) (member : n ∈ doc.nodes)
    (taken : Network.takes doc lib n port) (gives : doc.Gives n port) :
    doc.Declares lib n port := by
  cases stands : Network.graphOf? doc lib n with
  | none => exact bind_declares run member stands gives
  | some graph =>
    rw [Document.Declares, stands]
    simpa [Network.takes, stands] using taken

theorem declares_trimmed (declares : doc.Declares lib n port) :
    (doc.trimmed lib).Declares lib (Network.trimNode doc lib n) port := by
  rw [Document.Declares, Network.graphOf?_trimmed, Network.graphOf?_trimNode]
  rw [Document.Declares] at declares
  cases stands : Network.graphOf? doc lib n with
  | none =>
    rwa [stands] at declares
  | some graph => rwa [stands] at declares

theorem trimmed_declared (run : bind doc lib types = .ok g) : (doc.trimmed lib).Declared lib := by
  obtain ⟨net, expanded, _⟩ := bind_ok.1 run
  constructor
  · intro c member
    obtain ⟨listed, ends⟩ := mem_filter.1 member
    simp only [any_eq_true, Bool.and_eq_true, beq_iff_eq] at ends
    obtain ⟨n, here, id, taken⟩ := ends
    have gives : doc.Gives n c.destination.port := .inr (.inr ⟨c, listed, by rw [id]⟩)
    exact ⟨_, mem_map_of_mem here, id,
      declares_trimmed (bind_declares_taken run here taken gives)⟩
  · intro m member entry given
    obtain ⟨n, here, rfl⟩ := mem_map.1 member
    obtain ⟨listed, taken⟩ := mem_filter.1 given
    have gives : doc.Gives n entry.1 := .inl (mem_map_of_mem listed)
    exact declares_trimmed (bind_declares_taken run here taken gives)
  · intro m member link given
    obtain ⟨n, here, rfl⟩ := mem_map.1 member
    obtain ⟨listed, taken⟩ := mem_filter.1 given
    rw [Network.ofDocument_linked expanded here link listed, Bool.not_true, Bool.or_false] at taken
    have gives : doc.Gives n link.1 := .inr (.inl (mem_map_of_mem listed))
    exact declares_trimmed (bind_declares_taken run here taken gives)

theorem bind_trimmed : bind (doc.trimmed lib) lib types = bind doc lib types := by
  rw [bind, Network.ofDocument_trimmed]
  rfl

end

end Graph

/-- A document that has a graph gives nothing undeclared to nodes that are no instances. Without
what it gives beside that it has the same graph, and all that is left is declared. -/
theorem build_declares {doc : Document} {lib : Library} {types : Registry} {options : Options}
    {built : Graph × Log} (run : Graph.build doc lib types options = .ok built) :
    (∀ n ∈ doc.nodes, Network.graphOf? doc lib n = none →
      ∀ port, doc.Gives n port → doc.Declares lib n port) ∧
    (doc.trimmed lib).Declared lib ∧
    Graph.build (doc.trimmed lib) lib types options = .ok built := by
  obtain ⟨g, bound, _⟩ := Result.bind_ok.1 run
  refine ⟨fun n member plain port => Graph.bind_declares bound member plain,
    Graph.trimmed_declared bound, ?_⟩
  rw [Graph.build, Graph.bind_trimmed]
  exact run

def dimLibrary : Library where
  definitions :=
    [⟨"constant_float", "constant", none, [⟨"value", "float", some (.int 1), none, false⟩],
      [⟨"out", "float", none, none, false⟩]⟩]
  implementations := []
  nodegraphs :=
    [⟨"NG_dim", "dim", "float", [], [⟨"out", "float", ⟨"base", "out"⟩⟩],
      [⟨"base", "constant", "float", none, [], [], []⟩], []⟩]

/-- The instance is given an input that its graph does not have, and a connection ends at a node that
is not there. -/
def strayDocument : Document where
  version := "1"
  metadata := ⟨"stray", none, none⟩
  inputs := []
  nodes :=
    [⟨"level", "constant", "float", none, [("value", .int 2)], [], []⟩,
     ⟨"lamp", "dim", "float", none, [("glow", .int 1)], [], []⟩]
  connections := [⟨"c", ⟨"level", "out"⟩, ⟨"ghost", "in"⟩⟩]
  outputs := [⟨"out", "float", ⟨"lamp", "out"⟩⟩, ⟨"raw", "float", ⟨"level", "out"⟩⟩]
  nodegraphs := []

theorem build_declares_stray :
    ∃ built, Graph.build strayDocument dimLibrary .standard {} = .ok built ∧
      (∀ n ∈ strayDocument.nodes, Network.graphOf? strayDocument dimLibrary n = none →
        ∀ port, strayDocument.Gives n port → strayDocument.Declares dimLibrary n port) ∧
      (strayDocument.trimmed dimLibrary).Declared dimLibrary ∧
      Graph.build (strayDocument.trimmed dimLibrary) dimLibrary .standard {} = .ok built := by
  have builds : (Graph.build strayDocument dimLibrary .standard {}).toOption.isSome := by
    decide
  obtain ⟨built, found⟩ := Option.isSome_iff_exists.1 builds
  have run := Result.toOption_eq_some.1 found
  exact ⟨built, run, build_declares run⟩

/-- A document has a graph although a connection ends nowhere, and although an instance is given an
input that its graph does not declare. -/
theorem build_drops_undeclared :
    (∃ built, Graph.build strayDocument dimLibrary .standard {} = .ok built) ∧
    (∃ c ∈ strayDocument.connections, strayDocument.hasNode c.destination.node = false) ∧
    ∃ n ∈ strayDocument.nodes, strayDocument.Gives n "glow" ∧
      ¬ strayDocument.Declares dimLibrary n "glow" := by
  have builds : (Graph.build strayDocument dimLibrary .standard {}).toOption.isSome := by
    decide
  obtain ⟨built, found⟩ := Option.isSome_iff_exists.1 builds
  refine ⟨⟨built, Result.toOption_eq_some.1 found⟩,
    ⟨⟨"c", ⟨"level", "out"⟩, ⟨"ghost", "in"⟩⟩, List.mem_singleton.2 rfl, by decide⟩, ?_⟩
  refine ⟨⟨"lamp", "dim", "float", none, [("glow", .int 1)], [], []⟩,
    List.mem_cons_of_mem _ (List.mem_singleton.2 rfl), .inl (List.mem_singleton.2 rfl), ?_⟩
  rintro ⟨i, impossible, _⟩
  cases impossible

end MaterialShader
