import MaterialShader.Network
import MaterialShader.Proofs.Assoc
import MaterialShader.Proofs.Result

/-!
What of a document its network does not depend on.
-/

namespace MaterialShader

open List
open Assoc (get? has)

namespace Network

def boundPart (doc : Document) (lib : Library) (levels : Nat) (at_ : String) (node : Node)
    (bindings : List (String × Binding)) : Result Expansion :=
  match graphOf? doc lib node with
  | none => return ⟨[⟨at_ ++ node.id, node, bindings⟩], []⟩
  | some graph => do
    let inner ←
      (expand doc lib levels graph.nodes graph.connections (at_ ++ node.id ++ "/")
        (innerSurroundings graph bindings)).inside (.inlining graph.name (at_ ++ node.id))
    return ⟨inner.nodes, inner.redirects ++ outputRedirects graph (at_ ++ node.id)⟩

def partOf (doc : Document) (lib : Library) (levels : Nat) (connections : List Connection)
    (at_ : String) (around : Surroundings) (node : Node) : Result Expansion := do
  let bindings ← bindingsOf node connections at_ around
  boundPart doc lib levels at_ node bindings

/-- An expansion sees the same of both graphs. -/
structure Alike (g h : NodeGraph) : Prop where
  name : h.name = g.name
  nodes : h.nodes = g.nodes
  connections : h.connections = g.connections
  inputs : ∀ bindings, innerSurroundings h bindings = innerSurroundings g bindings
  outputs : ∀ path, outputRedirects h path = outputRedirects g path

theorem Alike.refl (g : NodeGraph) : Alike g g := ⟨rfl, rfl, rfl, fun _ => rfl, fun _ => rfl⟩

def StandAlike (doc : Document) (lib : Library) (doc' : Document) (lib' : Library) : Prop :=
  ∀ n, Option.Rel Alike (graphOf? doc lib n) (graphOf? doc' lib' n)

section

variable {doc doc' : Document} {lib lib' : Library}

theorem expand_succ (levels : Nat) (nodes : List Node) (connections : List Connection)
    (at_ : String) (around : Surroundings) :
    expand doc lib (levels + 1) nodes connections at_ around =
      nodes.mapM (partOf doc lib levels connections at_ around) >>= fun parts =>
        pure ⟨parts.flatMap Expansion.nodes, parts.flatMap Expansion.redirects⟩ :=
  rfl

theorem expand_congr (alike : StandAlike doc lib doc' lib') (levels : Nat) (nodes : List Node)
    (connections : List Connection) (at_ : String) (around : Surroundings) :
    expand doc' lib' levels nodes connections at_ around =
      expand doc lib levels nodes connections at_ around := by
  induction levels generalizing nodes connections at_ around with
  | zero => rfl
  | succ levels ih =>
    have parts : boundPart doc' lib' levels at_ = boundPart doc lib levels at_ := by
      funext node bindings
      have stands := alike node
      unfold boundPart
      generalize graphOf? doc lib node = graph at stands
      generalize graphOf? doc' lib' node = graph' at stands
      cases stands with
      | none => rfl
      | some same =>
        simp only [same.name, same.nodes, same.connections, same.inputs, same.outputs, ih]
    have same : partOf doc' lib' levels connections at_ around =
        partOf doc lib levels connections at_ around := by
      funext node
      rw [partOf, partOf, parts]
    rw [expand_succ, expand_succ, same]

end

def takes (doc : Document) (lib : Library) (n : Node) (port : String) : Bool :=
  match graphOf? doc lib n with
  | some graph => graph.inputs.any fun i => i.name == port
  | none => true

def trimNode (doc : Document) (lib : Library) (n : Node) : Node :=
  { n with
    params := n.params.filter fun entry => takes doc lib n entry.1
    links := n.links.filter fun link =>
      takes doc lib n link.1 || !(doc.inputs.any fun i => i.name == link.2) }

end Network

/-- The document without connections that end at no node, and without what is given to inputs that
the graph of an instance does not declare. -/
def Document.trimmed (doc : Document) (lib : Library) : Document :=
  { doc with
    nodes := doc.nodes.map (Network.trimNode doc lib)
    connections := doc.connections.filter fun c =>
      doc.nodes.any fun n =>
        n.id == c.destination.node && Network.takes doc lib n c.destination.port }

namespace Network

theorem get?_filter {α : Type} {keep : String → Bool} {port : String} (kept : keep port)
    (entries : List (String × α)) :
    get? port (entries.filter fun entry => keep entry.1) = get? port entries := by
  induction entries with
  | nil => rfl
  | cons entry rest ih =>
    obtain ⟨name, a⟩ := entry
    by_cases here : name = port
    · subst here
      simp [kept, get?]
    · by_cases other : keep name <;> simp [other, get?, here, ih]

theorem linkBindings_filter (path : String) (around : Surroundings) (keep : String → Bool)
    (links : List (String × String)) :
    linkBindings path around
        (links.filter fun link => keep link.1 || !Assoc.has link.2 around) =
      (linkBindings path around links).map (List.filter fun entry => keep entry.1) := by
  induction links with
  | nil => rfl
  | cons link rest ih =>
    obtain ⟨port, name⟩ := link
    cases found : get? name around with
    | none =>
      simp [has, found, linkBindings, fail, Except.map]
    | some entry =>
      have known : has name around := by simp [has, found]
      cases entry with
      | none => by_cases kept : keep port <;> simp [kept, known, linkBindings, found, ih]
      | some b =>
        cases others : linkBindings path around rest <;>
          by_cases kept : keep port <;>
            simp [kept, known, linkBindings, found, ih, others, Except.map]

def documentSurroundings (doc : Document) : Surroundings :=
  Assoc.putAll [] (doc.inputs.map fun i => (i.name, some (.socket i.name)))

theorem has_documentSurroundings (doc : Document) (name : String) :
    has name (documentSurroundings doc) = doc.inputs.any fun i => i.name == name := by
  rw [Bool.eq_iff_iff, documentSurroundings, Assoc.has_putAll]
  simp [has, get?]

section

variable {doc : Document} {lib : Library} {n : Node}

theorem graphOf?_trimmed (n : Node) :
    graphOf? (doc.trimmed lib) lib n = graphOf? doc lib n := rfl

theorem graphOf?_trimNode (n : Node) :
    graphOf? doc lib (trimNode doc lib n) = graphOf? doc lib n := rfl

theorem connections_trimmed (member : n ∈ doc.nodes) {port : String}
    (taken : takes doc lib n port) :
    (fun c : Connection =>
      decide ((doc.nodes.any fun m =>
          m.id == c.destination.node && takes doc lib m c.destination.port) ∧
        decide ((c.destination.node == n.id) ∧ (c.destination.port == port)) =
          true)) =
      fun c => decide ((c.destination.node == n.id) ∧ (c.destination.port == port)) := by
  funext c
  rw [Bool.eq_iff_iff]
  simp only [beq_iff_eq, decide_eq_true_eq, and_iff_right_iff_imp, any_eq_true,
    Bool.and_eq_true]
  rintro ⟨node, rfl⟩
  exact ⟨n, member, node.symm, taken⟩

theorem bindingsOf_trimNode (lib : Library) (member : n ∈ doc.nodes) :
    (∃ f, bindingsOf n doc.connections "" (documentSurroundings doc) = .error f ∧
      bindingsOf (trimNode doc lib n) (doc.trimmed lib).connections ""
        (documentSurroundings doc) = .error f) ∨
    ∃ bindings trimmed, bindingsOf n doc.connections "" (documentSurroundings doc) = .ok bindings ∧
      bindingsOf (trimNode doc lib n) (doc.trimmed lib).connections ""
        (documentSurroundings doc) = .ok trimmed ∧
      ∀ port, takes doc lib n port → get? port trimmed = get? port bindings := by
  have links := linkBindings_filter ("" ++ n.id) (documentSurroundings doc) (takes doc lib n)
    n.links
  simp only [has_documentSurroundings] at links
  cases linked : linkBindings ("" ++ n.id) (documentSurroundings doc) n.links with
  | error f =>
    rw [linked] at links
    refine .inl ⟨f, ?_, ?_⟩
    · rw [bindingsOf, linked]
      rfl
    · rw [bindingsOf, trimNode, links]
      rfl
  | ok entries =>
    rw [linked] at links
    refine .inr ⟨_, _, by rw [bindingsOf, linked]; rfl, by rw [bindingsOf, trimNode, links]; rfl, ?_⟩
    intro port taken
    simp only [Assoc.get?_putAll, ← map_reverse, ← filter_reverse, Assoc.get?_map_value,
      get?_filter taken]
    simp only [Document.trimmed, Assoc.get?_map, ← filter_reverse, List.find?_filter,
      connections_trimmed member taken]

theorem trimNode_of_plain (plain : graphOf? doc lib n = none) : trimNode doc lib n = n := by
  simp [trimNode, takes, plain]

theorem bindingsOf_of_plain (member : n ∈ doc.nodes) (plain : graphOf? doc lib n = none) :
    bindingsOf n (doc.trimmed lib).connections "" (documentSurroundings doc) =
      bindingsOf n doc.connections "" (documentSurroundings doc) := by
  have kept : (doc.trimmed lib).connections.filter (fun c => c.destination.node == n.id) =
      doc.connections.filter fun c => c.destination.node == n.id := by
    rw [Document.trimmed, filter_filter]
    refine filter_congr fun c _ => ?_
    rw [Bool.eq_iff_iff]
    simp only [beq_iff_eq, Bool.and_eq_true, any_eq_true, and_iff_left_iff_imp]
    exact fun node => ⟨n, member, node.symm, by simp [takes, plain]⟩
  rw [bindingsOf, bindingsOf, kept]

theorem innerSurroundings_congr {graph : NodeGraph} {bindings bindings' : List (String × Binding)}
    (same : ∀ i ∈ graph.inputs, get? i.name bindings' = get? i.name bindings) :
    innerSurroundings graph bindings' = innerSurroundings graph bindings := by
  unfold innerSurroundings
  refine congrArg _ (map_congr_left fun i member => ?_)
  rw [same i member]

theorem partOf_trimNode (member : n ∈ doc.nodes) (levels : Nat) :
    partOf (doc.trimmed lib) lib levels (doc.trimmed lib).connections ""
        (documentSurroundings doc) (trimNode doc lib n) =
      partOf doc lib levels doc.connections "" (documentSurroundings doc) n := by
  have alike : StandAlike doc lib (doc.trimmed lib) lib := by
    intro m
    rw [graphOf?_trimmed]
    cases graphOf? doc lib m with
    | none => exact .none
    | some graph => exact .some (.refl graph)
  obtain ⟨f, before, after⟩ | ⟨bindings, bindings', before, after, same⟩ :=
    bindingsOf_trimNode lib member
  · rw [partOf, partOf, before, after]
    rfl
  · rw [partOf, partOf, before, after]
    change boundPart _ _ _ _ _ bindings' = boundPart _ _ _ _ _ bindings
    simp only [boundPart, graphOf?_trimmed, graphOf?_trimNode, expand_congr alike]
    cases stands : graphOf? doc lib n with
    | none =>
      rw [trimNode_of_plain stands, bindingsOf_of_plain member stands, before] at after
      cases after
      rw [trimNode_of_plain stands]
    | some graph =>
      have seen : innerSurroundings graph bindings' = innerSurroundings graph bindings := by
        refine innerSurroundings_congr fun i input => same i.name ?_
        simp only [takes, stands, any_eq_true, beq_iff_eq]
        exact ⟨i, input, rfl⟩
      simp only [seen]
      rfl

theorem mapM_map_congr {α β γ : Type} {f : α → Result β} {g : γ → Result β} {change : α → γ}
    {items : List α} (same : ∀ a ∈ items, g (change a) = f a) :
    (items.map change).mapM g = items.mapM f := by
  induction items with
  | nil => rfl
  | cons a rest ih =>
    rw [forall_mem_cons] at same
    rw [map_cons, mapM_cons, mapM_cons, same.1, ih same.2]

theorem ofDocument_trimmed (doc : Document) (lib : Library) :
    ofDocument (doc.trimmed lib) lib = ofDocument doc lib := by
  have expanded : expand (doc.trimmed lib) lib (maxNesting + 1) (doc.trimmed lib).nodes
      (doc.trimmed lib).connections "" (documentSurroundings doc) =
      expand doc lib (maxNesting + 1) doc.nodes doc.connections "" (documentSurroundings doc) := by
    rw [expand_succ, expand_succ]
    congr 1
    exact mapM_map_congr fun n member => partOf_trimNode member maxNesting
  change (expand _ _ _ _ _ _ (documentSurroundings doc) >>= _) = _
  rw [expanded]
  rfl

end

end Network

/-- The graph with other types declared for its inputs and outputs. -/
def NodeGraph.retyped (input : NodeGraph → GraphInput → String)
    (output : NodeGraph → GraphOutput → String) (g : NodeGraph) : NodeGraph :=
  { g with
    inputs := g.inputs.map fun i => { i with typeName := input g i }
    outputs := g.outputs.map fun o => { o with typeName := output g o } }

section

variable (input : NodeGraph → GraphInput → String) (output : NodeGraph → GraphOutput → String)

def Document.retyped (doc : Document) : Document :=
  { doc with nodegraphs := doc.nodegraphs.map (NodeGraph.retyped input output) }

def Library.retyped (lib : Library) : Library :=
  { lib with nodegraphs := lib.nodegraphs.map (NodeGraph.retyped input output) }

namespace Network

theorem alike_retyped (g : NodeGraph) : Alike g (g.retyped input output) := by
  refine ⟨rfl, rfl, rfl, fun bindings => ?_, fun path => ?_⟩
  · simp only [innerSurroundings, NodeGraph.retyped, map_map]
    rfl
  · simp only [outputRedirects, NodeGraph.retyped, map_map]
    rfl

theorem graphOf?_retyped (doc : Document) (lib : Library) (n : Node) :
    graphOf? (doc.retyped input output) (lib.retyped input output) n =
      (graphOf? doc lib n).map (NodeGraph.retyped input output) := by
  have search (graphs : List NodeGraph) (category typeName : String) :
      (graphs.map (NodeGraph.retyped input output)).find?
          (fun g => g.implements category typeName) =
        (graphs.find? fun g => g.implements category typeName).map
          (NodeGraph.retyped input output) := by
    rw [List.find?_map]
    rfl
  unfold graphOf? Document.graphFor? Library.nodegraph?
  simp only [Document.retyped, Library.retyped, search]
  cases n.definition with
  | some name => rfl
  | none => cases doc.nodegraphs.find? fun g => g.implements n.category n.typeName <;> rfl

theorem ofDocument_retyped (doc : Document) (lib : Library) :
    ofDocument (doc.retyped input output) (lib.retyped input output) = ofDocument doc lib := by
  have alike : StandAlike doc lib (doc.retyped input output) (lib.retyped input output) := by
    intro n
    rw [graphOf?_retyped]
    cases graphOf? doc lib n with
    | none => exact .none
    | some g => exact .some (alike_retyped input output g)
  unfold ofDocument
  simp only [expand_congr alike]
  rfl

end Network

end

end MaterialShader
