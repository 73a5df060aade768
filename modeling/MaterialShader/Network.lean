import MaterialShader.Assoc
import MaterialShader.Library.Basic
import MaterialShader.Text.Quoted

/-!
The network of a document: its nodes with every node graph instance replaced by the nodes of the
graph.

A node inside an instance has the path of the instance in front of its own. An input is bound to the
last connection into it, else to its literal, else to what the enclosing graph's input of the linked
name is bound to. Outputs of an instance lead to the outputs of inner nodes.
-/

namespace MaterialShader

inductive Binding where
  | literal (value : Json)
  | port (node output : String)
  | socket (name : String)
  deriving Repr

structure BoundNode where
  path : String
  node : Node
  bindings : List (String × Binding)
  deriving Repr

structure BoundOutput where
  name : String
  typeName : String
  binding : Binding
  deriving Repr

structure Network where
  nodes : List BoundNode
  outputs : List BoundOutput
  deriving Repr

namespace Network

def maxNesting : Nat := 64

/-- What the inputs of a graph are bound to; an input may be bound to nothing. -/
abbrev Surroundings := List (String × Option Binding)

/-- The output of an instance and the inner output that it leads to. -/
abbrev Redirect := (String × String) × Binding

structure Expansion where
  nodes : List BoundNode
  redirects : List Redirect
  deriving Repr

/-- An order in which the bindings of nodes are looked at. -/
structure Walk where
  order : BoundNode → List (String × Binding)
  perm : ∀ n, (order n).Perm n.bindings

def Walk.listed : Walk := ⟨BoundNode.bindings, fun _ => .refl _⟩

def linkBindings (path : String) (around : Surroundings) :
    List (String × String) → Result (List (String × Binding))
  | [] => .ok []
  | (port, name) :: rest =>
    match Assoc.get? name around with
    | none => fail (.unknownPort path s!"interface input '{name}'")
    | some none => linkBindings path around rest
    | some (some b) => (linkBindings path around rest).map ((port, b) :: ·)

/-- What the inputs of a node are bound to, in the graph whose nodes have paths that start with
`at_`. -/
def bindingsOf (node : Node) (connections : List Connection) (at_ : String)
    (around : Surroundings) : Result (List (String × Binding)) := do
  let links ← linkBindings (at_ ++ node.id) around node.links
  let literals := node.params.map fun (port, value) => (port, Binding.literal value)
  let connected :=
    (connections.filter fun c => c.destination.node == node.id).map fun c =>
      (c.destination.port, Binding.port (at_ ++ c.origin.node) c.origin.port)
  return Assoc.putAll (Assoc.putAll (Assoc.putAll [] links) literals) connected

/-- The graph that a node is an instance of. A node that names its definition is none. -/
def graphOf? (doc : Document) (lib : Library) (node : Node) : Option NodeGraph :=
  match node.definition with
  | some _ => none
  | none => doc.graphFor? lib node.category node.typeName

/-- What the inputs of a graph are bound to in an instance: the instance's own binding, else the
default of the graph. -/
def innerSurroundings (graph : NodeGraph) (bindings : List (String × Binding)) : Surroundings :=
  Assoc.putAll [] <| graph.inputs.map fun i =>
    (i.name,
      match Assoc.get? i.name bindings with
      | some b => some b
      | none => i.value.map Binding.literal)

def outputRedirects (graph : NodeGraph) (path : String) : List Redirect :=
  graph.outputs.map fun o =>
    ((path, o.name), .port (path ++ "/" ++ o.origin.node) o.origin.port)

/-- Replace instances by their nodes; the first argument is how many levels may still be opened. -/
def expand (doc : Document) (lib : Library) : Nat → List Node → List Connection → String →
    Surroundings → Result Expansion
  | 0, _, _, at_, _ => fail (.nestingTooDeep maxNesting at_)
  | levels + 1, nodes, connections, at_, around => do
    let parts ← nodes.mapM fun node => do
      let path := at_ ++ node.id
      let bindings ← bindingsOf node connections at_ around
      match graphOf? doc lib node with
      | none => return ({ nodes := [⟨path, node, bindings⟩], redirects := [] } : Expansion)
      | some graph =>
        let inner ←
          (expand doc lib levels graph.nodes graph.connections (path ++ "/")
            (innerSurroundings graph bindings)).inside (.inlining graph.name path)
        return { inner with redirects := inner.redirects ++ outputRedirects graph path }
    return ⟨parts.flatMap Expansion.nodes, parts.flatMap Expansion.redirects⟩

def redirect? (redirects : List Redirect) (node output : String) : Option Binding :=
  Assoc.get? (node, output) redirects.reverse

def follow? (redirects : List Redirect) : Nat → Binding → Option Binding
  | 0, _ => none
  | steps + 1, .port node output =>
    match redirect? redirects node output with
    | some next => follow? redirects steps next
    | none => some (.port node output)
  | _ + 1, b => some b

def Binding.shown : Binding → String
  | .port node output =>
    "Node \x7b node: " ++ Text.quoted node ++ ", port: " ++ Text.quoted output ++ " \x7d"
  | .socket name => "Interface(" ++ Text.quoted name ++ ")"
  | .literal _ => "Literal"

/-- The output of a node that is no instance, or a literal or socket, behind a binding. -/
def settle (redirects : List Redirect) (b : Binding) : Result Binding :=
  orFail (.chainTooDeep (Binding.shown b)) (follow? redirects (maxNesting + 1) b)

/-- The node with its bindings settled. Of those that lead too deep, the first on the walk is
named. -/
def settleNode (redirects : List Redirect) (n : BoundNode) (walk : Walk := .listed) :
    Result BoundNode := do
  let _ ← (walk.order n).mapM fun (_, b) => settle redirects b
  let bindings ← n.bindings.mapM fun (port, b) => do
    let settled ← settle redirects b
    return (port, settled)
  return { n with bindings }

def settleOutput (redirects : List Redirect) (o : GraphOutput) : Result BoundOutput := do
  let binding ← settle redirects (.port o.origin.node o.origin.port)
  return ⟨o.name, o.typeName, binding⟩

def ofDocument (doc : Document) (lib : Library) (walk : Walk := .listed) : Result Network := do
  let around : Surroundings :=
    Assoc.putAll [] (doc.inputs.map fun i => (i.name, some (.socket i.name)))
  let whole ← expand doc lib (maxNesting + 1) doc.nodes doc.connections "" around
  let nodes ← whole.nodes.mapM fun n => settleNode whole.redirects n walk
  let outputs ← doc.outputs.mapM (settleOutput whole.redirects)
  return ⟨nodes, outputs⟩

end Network

end MaterialShader
