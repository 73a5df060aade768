import MaterialShader.Dependency
import MaterialShader.ShaderType

/-!
The shader graph: typed nodes in an order in which each comes after all that it reads, sockets for
the published inputs, and sockets for the outputs. Nodes that no output
depends on are pruned; the others keep their order and are numbered anew.
-/

namespace MaterialShader

inductive ClassFlag where
  | constant
  | closure
  | shader
  | surface
  | bsdf
  | edf
  | vdf
  | conditional
  | texture
  | geometric
  | light
  deriving DecidableEq, Repr

def ClassFlag.all : List ClassFlag :=
  [.constant, .closure, .shader, .surface, .bsdf, .edf, .vdf, .conditional, .texture, .geometric,
   .light]

def ClassFlag.name : ClassFlag → String
  | .constant => "constant"
  | .closure => "closure"
  | .shader => "shader"
  | .surface => "surface"
  | .bsdf => "bsdf"
  | .edf => "edf"
  | .vdf => "vdf"
  | .conditional => "conditional"
  | .texture => "texture"
  | .geometric => "geometric"
  | .light => "light"

structure Classification where
  flags : List ClassFlag
  deriving DecidableEq, Repr

namespace Classification

def empty : Classification := ⟨[]⟩

def ofList (flags : List ClassFlag) : Classification := ⟨ClassFlag.all.filter flags.contains⟩

def union (a b : Classification) : Classification := ofList (a.flags ++ b.flags)

def contains (a b : Classification) : Bool := b.flags.all a.flags.contains

def intersects (a b : Classification) : Bool := b.flags.any a.flags.contains

def has (a : Classification) (f : ClassFlag) : Bool := a.flags.contains f

def isEmpty (a : Classification) : Bool := a.flags.isEmpty

end Classification

abbrev NodeId := Nat

inductive Source where
  | node (id : NodeId) (output : Nat)
  | socket (index : Nat)
  deriving DecidableEq, Repr

structure Input where
  name : String
  type : ShaderType
  value : Option Value
  source : Option Source
  isStatic : Bool
  path : String
  deriving DecidableEq, Repr

structure Output where
  name : String
  type : ShaderType
  /-- The name of its variable before a target makes it its own. -/
  variableName : String
  deriving DecidableEq, Repr

structure GraphNode where
  name : String
  path : String
  category : String
  definition : String
  classification : Classification
  inputs : List Input
  outputs : List Output
  deriving DecidableEq, Repr

structure InputSocket where
  name : String
  type : ShaderType
  value : Option Value
  path : String
  deriving DecidableEq, Repr

structure OutputSocket where
  name : String
  type : ShaderType
  source : Option Source
  /-- The literal to which folding reduced the output. -/
  value : Option Value
  deriving DecidableEq, Repr

structure Graph where
  nodes : List GraphNode
  inputSockets : List InputSocket
  outputSockets : List OutputSocket
  order : List NodeId
  classification : Classification
  deriving DecidableEq, Repr

def conditionalCategories : List String := ["switch", "compare", "ifgreater"]

def geometricCategories : List String :=
  ["position", "normal", "tangent", "bitangent", "texcoord", "geomcolor", "geompropvalue", "time",
   "frame", "viewdirection"]

namespace GraphNode

def input? (n : GraphNode) (name : String) : Option Input :=
  n.inputs.find? fun i => i.name == name

def output? (n : GraphNode) (name : String) : Option Output :=
  n.outputs.find? fun o => o.name == name

def literal? (n : GraphNode) (name : String) : Option Value :=
  match n.input? name with
  | some i => if i.source.isNone then i.value else none
  | none => none

def flagsOfType (typeName : String) : List ClassFlag :=
  if typeName = "BSDF" then [.closure, .bsdf]
  else if typeName = "EDF" then [.closure, .edf]
  else if typeName = "VDF" then [.closure, .vdf]
  else if typeName = "surfaceshader" || typeName = "material" then [.closure, .shader, .surface]
  else if typeName = "lightshader" then [.closure, .shader, .light]
  else if typeName = "volumeshader" then [.closure, .shader]
  else if typeName = "displacementshader" then [.shader]
  else []

def flagsOfCategory (category : String) : List ClassFlag :=
  (if category = "constant" then [.constant] else []) ++
    (if conditionalCategories.contains category then [.conditional] else []) ++
    (if category = "image" then [.texture] else []) ++
    (if geometricCategories.contains category then [.geometric] else [])

def classify (n : GraphNode) : Classification :=
  .ofList (flagsOfCategory n.category ++ n.outputs.flatMap fun o => flagsOfType o.type.name)

def readNodes (n : GraphNode) : List NodeId :=
  n.inputs.filterMap fun i =>
    match i.source with
    | some (.node id _) => some id
    | _ => none

end GraphNode

namespace Graph

def output? (g : Graph) (id : NodeId) (index : Nat) : Option Output :=
  match g.nodes[id]? with
  | some n => n.outputs[index]?
  | none => none

def sourceType? (g : Graph) : Source → Option ShaderType
  | .node id index => (g.output? id index).map Output.type
  | .socket index => g.inputSockets[index]?.map InputSocket.type

/-- Edges of a node list: from each node read to the node that reads it. -/
def edgesFrom : NodeId → List GraphNode → List Dependency.Edge
  | _, [] => []
  | id, n :: rest => (n.readNodes.map fun source => (source, id)) ++ edgesFrom (id + 1) rest

def edges (g : Graph) : List Dependency.Edge := edgesFrom 0 g.nodes

def readsNode (id : NodeId) : Option Source → Bool
  | some (.node n _) => n == id
  | _ => false

def consumerCount (g : Graph) (id : NodeId) : Nat :=
  (g.nodes.flatMap GraphNode.inputs).countP (fun i => readsNode id i.source) +
    g.outputSockets.countP fun s => readsNode id s.source

def sort (g : Graph) : Result Graph :=
  match Dependency.sort g.nodes.length g.edges with
  | .ok order => .ok { g with order }
  | .error cyclic =>
    fail (.cycle (cyclic.filterMap fun id => g.nodes[id]?.map GraphNode.path))

end Graph

end MaterialShader

namespace MaterialShader.Graph

def roots (g : Graph) : List NodeId :=
  g.outputSockets.filterMap fun s =>
    match s.source with
    | some (.node id _) => some id
    | _ => none

def keptFlags (g : Graph) : List Bool :=
  Dependency.reachable g.nodes.length g.edges g.roots

def renumber (kept : List Bool) (id : NodeId) : NodeId :=
  if kept[id]? = some true then (kept.take id).count true else id

def renumberSource (kept : List Bool) : Option Source → Option Source
  | some (.node id output) => some (.node (renumber kept id) output)
  | other => other

def renumberNode (kept : List Bool) (n : GraphNode) : GraphNode :=
  { n with
    inputs := n.inputs.map fun i => { i with source := renumberSource kept i.source } }

def keepMarked {α : Type} (kept : List Bool) (items : List α) : List α :=
  (kept.zip items).filterMap fun (flag, a) => if flag then some a else none

def prune (g : Graph) : Graph × List String :=
  let kept := g.keptFlags
  if kept.all id then (g, [])
  else
    ({ g with
        nodes := (keepMarked kept g.nodes).map (renumberNode kept)
        outputSockets := g.outputSockets.map fun s =>
          { s with source := renumberSource kept s.source } },
      (keepMarked (kept.map (!·)) g.nodes).map GraphNode.path)

end MaterialShader.Graph
