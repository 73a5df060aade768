import MaterialShader.Assoc
import MaterialShader.Document
import MaterialShader.ShaderType

/-!
Node libraries: what inputs and outputs a node has, the code that stands for it on each target, and
graphs that stand for nodes.

A library grows by absorbing library documents. A definition replaces one of the same name where
that one stands. Newer implementations come first. Newer node graphs come first, those of one
document in its order.
-/

namespace MaterialShader

def anyType : String := "any"

def multiOutput : String := "multioutput"

/-- Stands for the type in a definition that is written once for several types. -/
def typePlaceholder : String := "T"

structure Port where
  name : String
  typeName : String
  value : Option Json
  /-- What of the geometry is read when the input is not bound. -/
  geometry : Option String
  /-- The input picks the code and has to be a literal. -/
  isStatic : Bool
  deriving Repr

structure Definition where
  name : String
  category : String
  /-- The definition for several types that this one comes from, and its type. -/
  template : Option (String × String)
  inputs : List Port
  outputs : List Port
  deriving Repr

inductive CodeSource where
  | inline (template : String)
  | function (name source : String)
  deriving DecidableEq, Repr

structure Implementation where
  definition : String
  targets : List Target
  source : CodeSource
  extraArguments : List String
  deriving Repr

namespace Library

/-- The index gives the place of every name, and nothing for other names. -/
def Indexes (index : List (String × Nat)) (names : List String) : Prop :=
  ∀ name k, Assoc.get? name index = some k ↔ names[k]? = some name

theorem get?_zipIdx (names : List String) (name : String) (start : Nat) :
    Assoc.get? name (names.zipIdx start) = (names.idxOf? name).map (· + start) := by
  induction names generalizing start with
  | nil => rfl
  | cons first rest ih =>
    rw [List.zipIdx_cons, Assoc.get?, List.idxOf?_cons, ih]
    cases first == name <;> simp [Function.comp_def, Nat.add_comm, Nat.add_left_comm]

theorem indexes_zipIdx {names : List String} (distinct : names.Nodup) :
    Indexes names.zipIdx names := by
  intro name k
  have zero : (fun i : Nat => i + 0) = id := rfl
  rw [get?_zipIdx, zero, Option.map_id_fun, id, List.idxOf?, List.findIdx?_eq_some_iff_getElem]
  constructor
  · rintro ⟨inside, here, _⟩
    simpa [inside] using here
  · intro found
    obtain ⟨inside, here⟩ := List.getElem?_eq_some_iff.1 found
    refine ⟨inside, by simpa using here, fun j before same => ?_⟩
    have twice : names[j]? = names[k]? := by
      rw [found, List.getElem?_eq_getElem (Nat.lt_trans before inside)]
      exact congrArg some (by simpa using same)
    exact absurd ((List.getElem?_inj (Nat.lt_trans before inside) distinct).1 twice)
      (Nat.ne_of_lt before)

theorem Indexes.append {index : List (String × Nat)} {names : List String}
    (indexes : Indexes index names) {name : String} (fresh : Assoc.get? name index = none) :
    Indexes (Assoc.put name names.length index) (names ++ [name]) := by
  have absent : name ∉ names := by
    intro member
    obtain ⟨k, found⟩ := List.mem_iff_getElem?.1 member
    simp [(indexes name k).2 found] at fresh
  intro other k
  rw [Assoc.get?_put]
  by_cases here : name = other
  · grind
  · grind [indexes other k]

theorem names_set {definitions : List Definition} {d : Definition} {k : Nat}
    (there : (definitions.map Definition.name)[k]? = some d.name) :
    (definitions.set k d).map Definition.name = definitions.map Definition.name := by
  obtain ⟨inside, here⟩ := List.getElem?_eq_some_iff.1 there
  rw [List.map_set, ← here, List.set_getElem_self]

end Library

@[ext]
structure Library where
  definitions : List Definition
  implementations : List Implementation
  nodegraphs : List NodeGraph
  /-- Where the definitions stand, by their names. -/
  index : List (String × Nat) := (definitions.map Definition.name).zipIdx
  indexed : Library.Indexes index (definitions.map Definition.name) := by
    exact Library.indexes_zipIdx (by decide)
  deriving Repr

/-- A definition as a library document writes it, for each of `types` if there are any. -/
structure DefinitionEntry where
  name : String
  category : String
  types : List String
  inputs : List Port
  outputs : List Port
  deriving Repr

structure ImplementationEntry where
  definition : String
  targets : List Target
  inline : Option String
  function : Option String
  source : Option String
  extraArguments : List String
  deriving Repr

structure LibraryDocument where
  definitions : List DefinitionEntry
  implementations : List ImplementationEntry
  nodegraphs : List NodeGraph
  deriving Repr

namespace Definition

def input? (d : Definition) (name : String) : Option Port :=
  d.inputs.find? fun p => p.name == name

def output? (d : Definition) (name : String) : Option Port :=
  d.outputs.find? fun p => p.name == name

/-- The type of the node: that of its only output, or `multioutput`. -/
def typeName (d : Definition) : String :=
  match d.outputs with
  | [o] => o.typeName
  | _ => multiOutput

end Definition

def Port.withType (typeName : String) (p : Port) : Port :=
  if p.typeName = typePlaceholder then { p with typeName } else p

def DefinitionEntry.expand (e : DefinitionEntry) : List Definition :=
  if e.types.isEmpty then [⟨e.name, e.category, none, e.inputs, e.outputs⟩]
  else
    e.types.map fun t =>
      ⟨e.name ++ "_" ++ t, e.category, some (e.name, t), e.inputs.map (Port.withType t),
        e.outputs.map (Port.withType t)⟩

/-- An implementation is an inline expression, or else a function with its source. -/
def ImplementationEntry.resolve (e : ImplementationEntry) : Result Implementation :=
  match e.inline, e.function, e.source with
  | some template, none, _ => .ok ⟨e.definition, e.targets, .inline template, e.extraArguments⟩
  | none, some name, some source =>
    .ok ⟨e.definition, e.targets, .function name source, e.extraArguments⟩
  | _, _, _ => fail (.implementationForm e.definition)

namespace Library

def empty : Library where
  definitions := []
  implementations := []
  nodegraphs := []

def addDefinition (lib : Library) (d : Definition) : Library :=
  match placed : Assoc.get? d.name lib.index with
  | some k =>
    { lib with
      definitions := lib.definitions.set k d
      indexed := names_set ((lib.indexed d.name k).1 placed) ▸ lib.indexed }
  | none =>
    { lib with
      definitions := lib.definitions ++ [d]
      index := Assoc.put d.name lib.definitions.length lib.index
      indexed := by simpa using lib.indexed.append placed }

def addImplementation (lib : Library) (i : Implementation) : Library :=
  { lib with implementations := i :: lib.implementations }

/-- Add implementations up to the first that has no valid form. -/
def addImplementations (lib : Library) : List ImplementationEntry → Library × Result Unit
  | [] => (lib, .ok ())
  | e :: rest =>
    match e.resolve with
    | .error f => (lib, .error f)
    | .ok i => (lib.addImplementation i).addImplementations rest

/-- The library with a document on top. After a fault the definitions and the implementations
before it stay. -/
def absorb (lib : Library) (doc : LibraryDocument) : Library × Result Unit :=
  let defined := (doc.definitions.flatMap DefinitionEntry.expand).foldl addDefinition lib
  match defined.addImplementations doc.implementations with
  | (partly, .error f) => (partly, .error f)
  | (whole, .ok ()) => ({ whole with nodegraphs := doc.nodegraphs ++ whole.nodegraphs }, .ok ())

def definition? (lib : Library) (name : String) : Option Definition :=
  (Assoc.get? name lib.index).bind fun k => lib.definitions[k]?

theorem definition?_eq_some {lib : Library} {name : String} {d : Definition} :
    lib.definition? name = some d ↔ d ∈ lib.definitions ∧ d.name = name := by
  have place (k : Nat) : Assoc.get? name lib.index = some k ↔
      lib.definitions[k]?.map Definition.name = some name := by
    rw [lib.indexed, List.getElem?_map]
  rw [definition?, Option.bind_eq_some_iff]
  constructor
  · rintro ⟨k, placed, found⟩
    have named := (place k).1 placed
    rw [found] at named
    exact ⟨List.mem_of_getElem? found, Option.some.inj named⟩
  · rintro ⟨member, rfl⟩
    obtain ⟨k, found⟩ := List.mem_iff_getElem?.1 member
    exact ⟨k, (place k).2 (by rw [found]; rfl), found⟩

def accepts (d : Definition) (node : Node) : Bool :=
  node.inputTypes.all fun (port, t) =>
    match d.input? port with
    | some p => p.typeName == t || p.typeName == anyType
    | none => false

/-- The definition of a node: the one it names, or the first of its category and type that fits its
input types. -/
def resolve (lib : Library) (path : String) (node : Node) : Result Definition :=
  match node.definition with
  | some name =>
    (orFail (.unknownCategory path node.category) (lib.definition? name)).inside
      (.namedDefinition name)
  | none =>
    orFail (.unknownCategory path s!"{node.category}<{node.typeName}>")
      (lib.definitions.find? fun d =>
        d.category == node.category && d.typeName == node.typeName && accepts d node)

def implementationNamed? (lib : Library) (name : String) (target : Target) :
    Option Implementation :=
  lib.implementations.find? fun i => i.definition == name && i.targets.contains target

def implementation? (lib : Library) (d : Definition) (target : Target) :
    Option Implementation :=
  match lib.implementationNamed? d.name target, d.template with
  | some i, _ => some i
  | none, some (template, _) => lib.implementationNamed? template target
  | none, none => none

def nodegraph? (lib : Library) (category typeName : String) : Option NodeGraph :=
  lib.nodegraphs.find? fun g => g.implements category typeName

end Library

open Json

def Target.ofJson? (j : Json) : Option Target := j.word? >>= Target.ofName?

def Port.ofJson? (room : Nat) (j : Json) : Option Port := do
  let r ← record? ["name", "type", "value", "defaultgeomprop", "static"] j
  let name ← r.required? "name" asString?
  let typeName ← r.required? "type" asString?
  let value ← r.optional? "value" (settle? (room - 1))
  let geometry ← r.optional? "defaultgeomprop" asString?
  let isStatic ← r.withDefault? "static" false asBool?
  return ⟨name, typeName, value, geometry, isStatic⟩

def DefinitionEntry.ofJson? (room : Nat) (j : Json) : Option DefinitionEntry := do
  let r ← record? ["name", "node", "types", "inputs", "outputs"] j
  let name ← r.required? "name" asString?
  let category ← r.required? "node" asString?
  let types ← r.withDefault? "types" [] (listOf? asString?)
  let inputs ← r.withDefault? "inputs" [] (listOf? (Port.ofJson? (room - 2)))
  let outputs ← r.required? "outputs" (listOf? (Port.ofJson? (room - 2)))
  return ⟨name, category, types, inputs, outputs⟩

def ImplementationEntry.ofJson? (j : Json) : Option ImplementationEntry := do
  let r ← record? ["nodedef", "targets", "inline", "function", "source", "extraArgs"] j
  let definition ← r.required? "nodedef" asString?
  let targets ← r.required? "targets" (listOf? Target.ofJson?)
  let inline ← r.optional? "inline" asString?
  let function ← r.optional? "function" asString?
  let source ← r.optional? "source" asString?
  let extraArguments ← r.withDefault? "extraArgs" [] (listOf? asString?)
  return ⟨definition, targets, inline, function, source, extraArguments⟩

def LibraryDocument.ofJson? (j : Json) : Option LibraryDocument := do
  let room := maxDepth
  let r ← record? ["version", "nodedefs", "implementations", "nodegraphs"] j
  let _ ← r.optional? "version" asString?
  let definitions ← r.withDefault? "nodedefs" [] (listOf? (DefinitionEntry.ofJson? (room - 2)))
  let implementations ←
    r.withDefault? "implementations" [] (listOf? ImplementationEntry.ofJson?)
  let nodegraphs ← r.withDefault? "nodegraphs" [] (listOf? (NodeGraph.ofJson? (room - 2)))
  return ⟨definitions, implementations, nodegraphs⟩

namespace Library

/-- Absorb the document of a text; a text that cannot be read changes nothing. -/
def merge (lib : Library) (text : String) : Library × Result Unit :=
  match Json.parse? text >>= LibraryDocument.ofJson? with
  | some doc => lib.absorb doc
  | none => (lib, fail .malformedLibrary)

end Library

namespace Library

def portProblems (types : Registry) (d : Definition) : List String :=
  (d.inputs ++ d.outputs).filterMap fun p =>
    if p.typeName = anyType || types.contains p.typeName then none
    else some s!"nodedef '{d.name}' port '{p.name}' has unknown type '{p.typeName}'"

def knows (lib : Library) (name : String) : Bool :=
  (lib.definition? name).isSome ||
    lib.definitions.any fun d =>
      match d.template with
      | some (template, _) => template == name
      | none => false

def problems (lib : Library) (types : Registry) : List String :=
  lib.definitions.flatMap (portProblems types) ++
    lib.implementations.filterMap fun i =>
      if lib.knows i.definition then none
      else some s!"implementation refers to unknown nodedef '{i.definition}'"

def validate (lib : Library) (types : Registry) : Result Unit :=
  match lib.problems types with
  | [] => .ok ()
  | ps => fail (.invalidLibrary ps)

end Library

namespace Document

/-- The node graph that stands for a node, one of the document before one of the library. -/
def graphFor? (doc : Document) (lib : Library) (category typeName : String) : Option NodeGraph :=
  match doc.nodegraphs.find? fun g => g.implements category typeName with
  | some g => some g
  | none => lib.nodegraph? category typeName

def hasNode (doc : Document) (id : String) : Bool :=
  doc.nodes.any fun n => n.id == id

def nodeProblems (doc : Document) (lib : Library) : List String :=
  doc.nodes.filterMap fun n =>
    if (doc.graphFor? lib n.category n.typeName).isSome then none
    else
      match lib.resolve n.id n with
      | .ok _ => none
      | .error f => some f.headline

def connectionProblems (doc : Document) : List String :=
  doc.connections.flatMap fun c =>
    [c.origin, c.destination].filterMap fun e =>
      if doc.hasNode e.node then none
      else some s!"connection '{c.id}' references missing node '{e.node}'"

def outputProblems (doc : Document) : List String :=
  doc.outputs.filterMap fun o =>
    if doc.hasNode o.origin.node then none
    else some s!"output '{o.name}' references missing node '{o.origin.node}'"

def problems (doc : Document) (lib : Library) : List String :=
  doc.nodeProblems lib ++ doc.connectionProblems ++ doc.outputProblems

/-- Every node has a definition or a graph, and every reference leads to a node. -/
def validate (doc : Document) (lib : Library) : Result Unit :=
  match doc.problems lib with
  | [] => .ok ()
  | ps => fail (.invalidDocument ps)

end Document

end MaterialShader
