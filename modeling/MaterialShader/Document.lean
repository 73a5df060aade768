import MaterialShader.Failure
import MaterialShader.Json

/-!
The material document: nodes, the connections between them, published inputs and named outputs, and
node graphs of its own; and its JSON form. The argument `room` is the number of containers that may
be nested here, the container of the value itself included.
-/

namespace MaterialShader

structure Endpoint where
  node : String
  port : String
  deriving DecidableEq, Repr

structure GraphInput where
  name : String
  typeName : String
  value : Option Json
  deriving Repr

structure GraphOutput where
  name : String
  typeName : String
  origin : Endpoint
  deriving Repr

structure Node where
  id : String
  category : String
  /-- The type of the output, or `multioutput`. -/
  typeName : String
  /-- The definition to use, instead of a search by category and types. -/
  definition : Option String
  params : List (String × Json)
  /-- Inputs bound to an input of the enclosing graph, which is named second. -/
  links : List (String × String)
  /-- Input types, which tell definitions apart and give a type to inputs of any type. -/
  inputTypes : List (String × String)
  deriving Repr

structure Connection where
  id : String
  origin : Endpoint
  destination : Endpoint
  deriving Repr

/-- A category and type of node that is made of other nodes. -/
structure NodeGraph where
  name : String
  category : String
  typeName : String
  inputs : List GraphInput
  outputs : List GraphOutput
  nodes : List Node
  connections : List Connection
  deriving Repr

structure Metadata where
  name : String
  created : Option String
  modified : Option String
  deriving Repr

structure Document where
  version : String
  metadata : Metadata
  inputs : List GraphInput
  nodes : List Node
  connections : List Connection
  outputs : List GraphOutput
  nodegraphs : List NodeGraph
  deriving Repr

def NodeGraph.implements (g : NodeGraph) (category typeName : String) : Bool :=
  g.category == category && g.typeName == typeName

open Json

def Endpoint.ofJson? (j : Json) : Option Endpoint := do
  let r ← record? ["nodeId", "portId"] j
  let node ← r.required? "nodeId" asString?
  let port ← r.withDefault? "portId" "out" asString?
  return ⟨node, port⟩

def GraphInput.ofJson? (room : Nat) (j : Json) : Option GraphInput := do
  let r ← record? ["name", "type", "value"] j
  let name ← r.required? "name" asString?
  let typeName ← r.required? "type" asString?
  let value ← r.optional? "value" (settle? (room - 1))
  return ⟨name, typeName, value⟩

def GraphOutput.ofJson? (j : Json) : Option GraphOutput := do
  let r ← record? ["name", "type", "from"] j
  let name ← r.required? "name" asString?
  let typeName ← r.required? "type" asString?
  let origin ← r.required? "from" Endpoint.ofJson?
  return ⟨name, typeName, origin⟩

def Node.ofJson? (room : Nat) (j : Json) : Option Node := do
  let r ← record? ["id", "category", "type", "nodedef", "params", "interface", "inputTypes"] j
  let id ← r.required? "id" asString?
  let category ← r.required? "category" asString?
  let typeName ← r.required? "type" asString?
  let definition ← r.optional? "nodedef" asString?
  let params ← r.withDefault? "params" [] (mapOf? (settle? (room - 2)))
  let links ← r.withDefault? "interface" [] (mapOf? asString?)
  let inputTypes ← r.withDefault? "inputTypes" [] (mapOf? asString?)
  return ⟨id, category, typeName, definition, params, links, inputTypes⟩

def Connection.ofJson? (j : Json) : Option Connection := do
  let r ← record? ["id", "from", "to"] j
  let id ← r.withDefault? "id" "" asString?
  let origin ← r.required? "from" Endpoint.ofJson?
  let destination ← r.required? "to" Endpoint.ofJson?
  return ⟨id, origin, destination⟩

def NodeGraph.ofJson? (room : Nat) (j : Json) : Option NodeGraph := do
  let r ← record? ["name", "node", "type", "inputs", "outputs", "nodes", "connections"] j
  let name ← r.required? "name" asString?
  let category ← r.required? "node" asString?
  let typeName ← r.required? "type" asString?
  let inputs ← r.withDefault? "inputs" [] (listOf? (GraphInput.ofJson? (room - 2)))
  let outputs ← r.required? "outputs" (listOf? GraphOutput.ofJson?)
  let nodes ← r.required? "nodes" (listOf? (Node.ofJson? (room - 2)))
  let connections ← r.withDefault? "connections" [] (listOf? Connection.ofJson?)
  return ⟨name, category, typeName, inputs, outputs, nodes, connections⟩

def Metadata.empty : Metadata := ⟨"", none, none⟩

def Metadata.ofJson? (j : Json) : Option Metadata := do
  let r ← record? ["name", "created", "modified"] j
  let name ← r.withDefault? "name" "" asString?
  let created ← r.optional? "created" asString?
  let modified ← r.optional? "modified" asString?
  return ⟨name, created, modified⟩

def Document.ofJson? (j : Json) : Option Document := do
  let room := maxDepth
  let r ←
    record? ["version", "metadata", "inputs", "nodes", "connections", "outputs", "nodegraphs"] j
  let version ← r.withDefault? "version" "1.0" asString?
  let metadata ← r.withDefault? "metadata" Metadata.empty Metadata.ofJson?
  let inputs ← r.withDefault? "inputs" [] (listOf? (GraphInput.ofJson? (room - 2)))
  let nodes ← r.required? "nodes" (listOf? (Node.ofJson? (room - 2)))
  let connections ← r.withDefault? "connections" [] (listOf? Connection.ofJson?)
  let outputs ← r.required? "outputs" (listOf? GraphOutput.ofJson?)
  let nodegraphs ← r.withDefault? "nodegraphs" [] (listOf? (NodeGraph.ofJson? (room - 2)))
  return ⟨version, metadata, inputs, nodes, connections, outputs, nodegraphs⟩

def Document.parse (text : String) : Result Document :=
  orFail .malformedDocument (Json.parse? text >>= Document.ofJson?)

def optionJson {α : Type} (encode : α → Json) : Option α → Json
  | some a => encode a
  | none => .null

def Endpoint.toJson (e : Endpoint) : Json :=
  .obj [("nodeId", .str e.node), ("portId", .str e.port)]

def GraphInput.toJson (i : GraphInput) : Json :=
  .obj [("name", .str i.name), ("type", .str i.typeName), ("value", optionJson id i.value)]

def GraphOutput.toJson (o : GraphOutput) : Json :=
  .obj [("name", .str o.name), ("type", .str o.typeName), ("from", o.origin.toJson)]

def textFields (fields : List (String × String)) : Json :=
  .obj (fields.map fun (name, s) => (name, .str s))

def Node.toJson (n : Node) : Json :=
  .obj [("id", .str n.id), ("category", .str n.category), ("type", .str n.typeName),
    ("nodedef", optionJson .str n.definition), ("params", .obj n.params),
    ("interface", textFields n.links), ("inputTypes", textFields n.inputTypes)]

def Connection.toJson (c : Connection) : Json :=
  .obj [("id", .str c.id), ("from", c.origin.toJson), ("to", c.destination.toJson)]

def NodeGraph.toJson (g : NodeGraph) : Json :=
  .obj [("name", .str g.name), ("node", .str g.category), ("type", .str g.typeName),
    ("inputs", .arr (g.inputs.map GraphInput.toJson)),
    ("outputs", .arr (g.outputs.map GraphOutput.toJson)),
    ("nodes", .arr (g.nodes.map Node.toJson)),
    ("connections", .arr (g.connections.map Connection.toJson))]

def Metadata.toJson (m : Metadata) : Json :=
  .obj [("name", .str m.name), ("created", optionJson .str m.created),
    ("modified", optionJson .str m.modified)]

def Document.toJson (d : Document) : Json :=
  .obj [("version", .str d.version), ("metadata", d.metadata.toJson),
    ("inputs", .arr (d.inputs.map GraphInput.toJson)),
    ("nodes", .arr (d.nodes.map Node.toJson)),
    ("connections", .arr (d.connections.map Connection.toJson)),
    ("outputs", .arr (d.outputs.map GraphOutput.toJson)),
    ("nodegraphs", .arr (d.nodegraphs.map NodeGraph.toJson))]

end MaterialShader
