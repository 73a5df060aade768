import MaterialShader.Graph.Basic
import MaterialShader.Network
import MaterialShader.Value.Literal

/-!
Binding of the nodes of a network: every input gets a type and a source or a literal.

A source of another type goes through a conversion node, one for each source and type. An input that
reads the geometry when it is not bound shares one node for each geometric property.
-/

namespace MaterialShader

structure Builder where
  library : Library
  types : Registry
  nodes : List GraphNode
  index : List (String × NodeId)
  sockets : List InputSocket
  socketIndex : List (String × Nat)
  geometry : List (String × NodeId)
  conversions : List ((Source × String) × NodeId)

abbrev Build := StateT Builder (Except Failure)

namespace Builder

def lift {α : Type} (r : Result α) : Build α := fun b =>
  match r with
  | .ok a => .ok (a, b)
  | .error f => .error f

def raise {α : Type} (f : Fault) : Build α := lift (fail f)

def addShell (path : String) (d : Definition) : Build NodeId := do
  let b ← get
  let outputs ← d.outputs.mapM fun o => do
    let type ← lift ((b.types.get o.typeName).inside (.definitionOutput o.name d.name))
    return ({ name := o.name, type, variableName := "" } : Output)
  let node : GraphNode :=
    { name := "", path, category := d.category, definition := d.name, classification := .empty,
      inputs := [], outputs }
  set { b with nodes := b.nodes ++ [node] }
  return b.nodes.length

def nodeOutput (path port : String) : Build Source := do
  let b ← get
  match Assoc.get? path b.index with
  | none => raise (.unknownNode path)
  | some id =>
    match (b.nodes[id]?.map GraphNode.outputs).getD [] |>.findIdx? fun o => o.name == port with
    | some output => return .node id output
    | none => raise (.unknownPort path port)

def socketNamed (consumer name : String) : Build Nat := do
  let b ← get
  lift (orFail (.unknownPort consumer s!"interface input '{name}'") (Assoc.get? name b.socketIndex))

structure SourceInfo where
  type : ShaderType
  node : String
  output : String

def sourceInfo (s : Source) : Build SourceInfo := do
  let b ← get
  match s with
  | .node id index =>
    match b.nodes[id]? with
    | none => raise (.danglingReference id index)
    | some n =>
      match n.outputs[index]? with
      | none => raise (.danglingReference id index)
      | some o => return ⟨o.type, n.path, o.name⟩
  | .socket index =>
    match b.sockets[index]? with
    | none => raise (.danglingReference index 0)
    | some s => return ⟨s.type, s!"<input {s.name}>", "value"⟩

def convertNode (s : Source) (info : SourceInfo) (result : ShaderType) : Build NodeId := do
  let b ← get
  match Assoc.get? (s, result.name) b.conversions with
  | some id => return id
  | none =>
    match b.library.definition? ("convert_" ++ result.name) with
    | none => raise (.noConversionNode result.name)
    | some d =>
      let path := s!"{info.node}_{info.output}_to_{result.name}"
      let id ← addShell path d
      let input : Input :=
        { name := "in", type := info.type, value := none, source := some s, isStatic := false,
          path := path ++ "/in" }
      modify fun b =>
        { b with
          nodes := b.nodes.modify id fun n => { n with inputs := [input] }
          conversions := Assoc.put (s, result.name) id b.conversions }
      return id

/-- The source that an input of type `result` reads: the given one, or its conversion. -/
def connect (s : Source) (result : ShaderType) (consumer input : String) : Build Source := do
  let info ← sourceInfo s
  let b ← get
  if info.type.same result then return s
  else if !info.type.isClosure && !result.isClosure && (b.types.conversion? info.type result).isSome
  then
    let id ← convertNode s info result
    return .node id 0
  else
    raise (.typeMismatch info.node info.output info.type.name consumer input result.name)

/-- The definition, input and literal that stand for a geometric property. -/
def geometryNode? (name : String) : Option (String × String × Json) :=
  if name = "UV0" then some ("texcoord_vector2", "index", .int 0)
  else if name = "Pworld" then some ("position_vector3", "space", .str "world")
  else if name = "Pobject" then some ("position_vector3", "space", .str "object")
  else if name = "Nworld" then some ("normal_vector3", "space", .str "world")
  else if name = "Nobject" then some ("normal_vector3", "space", .str "object")
  else if name = "Tworld" then some ("tangent_vector3", "space", .str "world")
  else if name = "Bworld" then some ("bitangent_vector3", "space", .str "world")
  else none

def geometryCount : Nat := 7

structure Binder where
  id : NodeId
  definition : Definition
  bindings : List (String × Binding)
  inputTypes : List (String × String)

/-- The shared node of a geometric property, made and bound on first use. -/
def sharedGeometry (bind : Binder → Build Unit) (name : String) : Build NodeId := do
  let b ← get
  match Assoc.get? name b.geometry with
  | some id => return id
  | none =>
    match geometryNode? name with
    | none => raise (.unknownGeometry name)
    | some (definition, port, value) =>
      match b.library.definition? definition with
      | none => raise (.noGeometryNode definition name)
      | some d =>
        let id ← addShell ("geomprop_" ++ name) d
        modify fun b => { b with geometry := Assoc.put name id b.geometry }
        bind ⟨id, d, [(port, .literal value)], []⟩
        return id

/-- The type that an input of any type takes from its source. A closure only goes into a node that
makes closures. -/
def inferType (s : Source) (d : Definition) (consumer input : String) : Build ShaderType := do
  let info ← sourceInfo s
  let b ← get
  let closureOut := d.outputs.any fun o =>
    match b.types.find? o.typeName with
    | some t => t.isClosure
    | none => false
  if info.type.isClosure && !closureOut then
    raise (.typeMismatch info.node info.output info.type.name consumer input anyType)
  else return info.type

/-- The declared type of an input; none for an input of any type that the document leaves open. -/
def declaredType? (path : String) (inputTypes : List (String × String)) (port : Port) :
    Build (Option ShaderType) := do
  let b ← get
  if port.typeName = anyType then
    match Assoc.get? port.name inputTypes with
    | some t => some <$> lift (b.types.get t)
    | none => return none
  else
    some <$> lift ((b.types.get port.typeName).inside (.nodeInput port.name path))

structure Bound where
  type : ShaderType
  value : Option Value
  source : Option Source

def bindSource (d : Definition) (path : String) (port : Port) (declared : Option ShaderType)
    (s : Source) : Build Bound := do
  let type ←
    match declared with
    | some t => pure t
    | none => inferType s d path port.name
  let source ← connect s type path port.name
  return ⟨type, none, some source⟩

def bindDefault (bind : Binder → Build Unit) (d : Definition) (path : String) (port : Port)
    (type : ShaderType) : Build Bound := do
  if type.isClosure then return ⟨type, none, none⟩
  else
    match port.value, port.geometry with
    | some json, _ =>
      let v ← lift ((Value.ofJson json type).inside (.definitionDefault port.name d.name))
      return ⟨type, some v, none⟩
    | none, some name =>
      let id ← sharedGeometry bind name
      let source ← connect (.node id 0) type path port.name
      return ⟨type, none, some source⟩
    | none, none => raise (.missingInput path d.category port.name)

def bindPort (bind : Binder → Build Unit) (w : Binder) (path : String) (port : Port) :
    Build Input := do
  let declared ← declaredType? path w.inputTypes port
  let missing : Fault := .missingInput path w.definition.category port.name
  let bound ←
    match Assoc.get? port.name w.bindings with
    | some (.port node output) => do
      let s ← nodeOutput node output
      bindSource w.definition path port declared s
    | some (.socket name) => do
      let index ← socketNamed path name
      bindSource w.definition path port declared (.socket index)
    | some (.literal json) => do
      let type ← lift (orFail missing declared)
      let v ← lift ((Value.ofJson json type).inside (.nodeInput port.name path))
      pure ⟨type, some v, none⟩
    | none => do
      let type ← lift (orFail missing declared)
      bindDefault bind w.definition path port type
  if port.isStatic && bound.source.isSome then
    raise (.invalidValue bound.type.name
      s!"static input '{port.name}' of node '{path}' must be a literal")
  else
    return { name := port.name, type := bound.type, value := bound.value, source := bound.source,
             isStatic := port.isStatic, path := path ++ "/" ++ port.name }

/-- The least of the bound names that is no input of the definition. -/
def strayBinding? (d : Definition) (bindings : List (String × Binding)) : Option String :=
  bindings.foldl
    (fun least (name, _) =>
      if (d.input? name).isSome then least
      else
        match least with
        | some other => some (if name < other then name else other)
        | none => some name)
    none

/-- Bind every input of a node. Only the first use of a geometric property binds another node, so
the depth of nested bindings is limited. -/
def bindInputs : Nat → Binder → Build Unit
  | 0, _ => raise (.unknownGeometry "")
  | depth + 1, w => do
    let b ← get
    let path := (b.nodes[w.id]?.map GraphNode.path).getD ""
    match strayBinding? w.definition w.bindings with
    | some port => raise (.unknownPort path port)
    | none =>
      let inputs ← w.definition.inputs.mapM (bindPort (bindInputs depth) w path)
      modify fun b => { b with nodes := b.nodes.modify w.id fun n => { n with inputs } }

def addSocket (i : GraphInput) : Build Unit := do
  let b ← get
  let type ← lift ((b.types.get i.typeName).inside (.graphInput i.name))
  let value ←
    match i.value with
    | some json => some <$> lift ((Value.ofJson json type).inside (.graphInput i.name))
    | none => pure none
  let socket : InputSocket := ⟨i.name, type, value, i.name⟩
  set { b with
    socketIndex := Assoc.put i.name b.sockets.length b.socketIndex
    sockets := b.sockets ++ [socket] }

def addNode (n : BoundNode) : Build Binder := do
  let b ← get
  let d ← lift (b.library.resolve n.path n.node)
  let id ← addShell n.path d
  modify fun b => { b with index := Assoc.put n.path id b.index }
  return ⟨id, d, n.bindings, n.node.inputTypes⟩

def outputSocket (o : BoundOutput) : Build OutputSocket := do
  let b ← get
  let type ← lift ((b.types.get o.typeName).inside (.graphOutput o.name))
  let consumer := s!"<output {o.name}>"
  match o.binding with
  | .port node output => do
    let s ← nodeOutput node output
    let source ← connect s type consumer "in"
    return ⟨o.name, type, some source, none⟩
  | .socket name => do
    let index ← socketNamed consumer name
    let source ← connect (.socket index) type consumer "in"
    return ⟨o.name, type, some source, none⟩
  | .literal json => do
    let v ← lift ((Value.ofJson json type).inside (.graphOutput o.name))
    return ⟨o.name, type, none, some v⟩

def graph (doc : Document) (net : Network) : Build Graph := do
  doc.inputs.forM addSocket
  let binders ← net.nodes.mapM addNode
  binders.forM (bindInputs (geometryCount + 2))
  let outputSockets ← net.outputs.mapM outputSocket
  let b ← get
  return { nodes := b.nodes, inputSockets := b.sockets, outputSockets, order := [],
           classification := .empty }

end Builder

end MaterialShader
