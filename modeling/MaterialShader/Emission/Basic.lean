import MaterialShader.Dialect.Expression
import MaterialShader.Dialect.Languages
import MaterialShader.Dialect.Naming
import MaterialShader.Layout
import MaterialShader.Realization
import MaterialShader.Stage

/-!
What the code of a node is written with: the graph, the names that its variables have on the target,
and the realization of every node.
-/

namespace MaterialShader

def vertexStage : String := "vertex"

def pixelStage : String := "pixel"

def reservedWords : List String :=
  ["main", "VertexMain", "FragmentMain", "hPositionWorld", "i_position", "i_normal", "i_tangent",
   "i_bitangent", "vd", "i_vs", "u_prv", "u_pub", "po", "outAlpha", "finalOutput__", "LightData",
   "sampleLightSource", "mx_transform_uv", "mk_color4", "MAX_LIGHT_SOURCES", "positionWorld",
   "positionObject", "normalWorld", "normalObject", "tangentWorld", "tangentObject",
   "bitangentWorld", "bitangentObject", "u_worldMatrix", "u_worldInverseTransposeMatrix",
   "u_viewProjectionMatrix", "u_viewPosition", "u_time", "u_frame", "u_numActiveLightSources",
   "u_lightData", "u_udimScaleAndOffset", "u_envMatrix", "u_envRadiance", "u_envRadianceMips",
   "u_envRadianceSamples", "u_envIrradiance", "u_shadowMap", "u_shadowMatrix", "u_ambOcclMap",
   "u_ambOcclGain"]

structure Names where
  sockets : List String
  outputs : List (List String)
  graphOutputs : List String
  deriving DecidableEq, Repr

namespace Names

def reserveOutputs (d : Dialect) (g : Graph) :
    NameTable × List (List String) → List NodeId → NameTable × List (List String)
  | state, [] => state
  | (table, names), id :: rest =>
    match g.nodes[id]? with
    | some n =>
      let (chosen, table') := d.reserveAll table (n.outputs.map Output.variableName)
      reserveOutputs d g (table', names.set id chosen) rest
    | none => reserveOutputs d g (table, names) rest

/-- Sockets come first, then node outputs in the order of the graph, then graph outputs. -/
def ofGraph (d : Dialect) (g : Graph) : Names :=
  let reserved : NameTable := Assoc.putAll [] (reservedWords.map fun word => (word, 1))
  let (sockets, table) := d.reserveAll reserved (g.inputSockets.map InputSocket.name)
  let (table', outputs) := reserveOutputs d g (table, List.replicate g.nodes.length []) g.order
  let (graphOutputs, _) := d.reserveAll table' (g.outputSockets.map OutputSocket.name)
  ⟨sockets, outputs, graphOutputs⟩

end Names

structure Run where
  target : Target
  dialect : Dialect
  types : Registry
  library : Library
  options : Options
  lights : List (Nat × String)
  graph : Graph
  names : Names
  scopes : List Scope
  realizations : List Realization
  deriving Repr

/-- What a run leaves behind even if it fails. -/
structure Progress where
  emitted : List (String × NodeId)
  log : Log
  deriving DecidableEq, Repr

abbrev Emission := ExceptT Failure (StateM Progress)

namespace Emission

def note (entry : LogEntry) : Emission Unit :=
  modify fun p => { p with log := p.log ++ [entry] }

def mark (stage : String) (id : NodeId) : Emission Unit :=
  modify fun p =>
    if p.emitted.contains (stage, id) then p else { p with emitted := p.emitted ++ [(stage, id)] }

def inside {α : Type} (place : Place) (act : Emission α) : Emission α :=
  ExceptT.mk do
    let r ← act.run
    return Result.inside place r

end Emission

namespace Run

def node (run : Run) (id : NodeId) : Result GraphNode :=
  orFail (.danglingReference id 0) run.graph.nodes[id]?

def outputName (run : Run) (id : NodeId) (index : Nat) : Result String :=
  orFail (.danglingReference id index) ((run.names.outputs.getD id [])[index]?)

def socketName (run : Run) (index : Nat) : Result String :=
  orFail (.danglingReference index 0) run.names.sockets[index]?

def firstOutput (run : Run) (id : NodeId) : Result Output := do
  let n ← run.node id
  orFail (.danglingReference id 0) n.outputs.head?

def typeText (run : Run) (name : String) : Result String := do
  let t ← run.types.get name
  run.dialect.typeName t

/-- The expression of a source, or else of a literal or the initial value of the type. -/
def sourceText (run : Run) (source : Option Source) (value : Option Value) (t : ShaderType) :
    Result String :=
  match source, value with
  | some (.node id index), _ => run.outputName id index
  | some (.socket index), _ => run.socketName index
  | none, some v => run.dialect.literal t v false
  | none, none => run.dialect.initialValue t false

def argument (run : Run) (i : Input) : Result String := run.sourceText i.source i.value i.type

def input (run : Run) (id : NodeId) (name : String) : Result Input := do
  let n ← run.node id
  orFail (.unknownPort n.path name) (n.input? name)

def inputText (run : Run) (id : NodeId) (name : String) : Result String := do
  let i ← run.input id name
  run.argument i

def outputText (run : Run) (s : OutputSocket) : Result String :=
  run.sourceText s.source s.value s.type

def declare (run : Run) (id : NodeId) (index : Nat) (value : Option String) : Result Code := do
  let n ← run.node id
  let o ← orFail (.danglingReference id index) n.outputs[index]?
  let name ← run.outputName id index
  let text ←
    match value with
    | some v => pure v
    | none => run.dialect.initialValue o.type false
  let typeName ← run.dialect.typeName o.type
  return .statement s!"{typeName} {name} = {text}"

def structureText (run : Run) (t : ShaderType) (fields : List String) : Result String := do
  let name ← run.dialect.typeName t
  match run.target with
  | .msl => return Dialect.bracedStructure name fields
  | _ => return Dialect.calledStructure name fields

end Run

end MaterialShader
