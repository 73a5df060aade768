import MaterialShader.Emission.Geometry
import MaterialShader.Graph.Fold

/-!
The variables, functions and code of the nodes of a graph.

Hardware targets keep closures in structures (a BSDF has a response and a throughput, a VDF an
absorption and a scattering, a surface a color and a transparency), so operators work member by
member. An EDF is a bare radiance. OSL has closure arithmetic. MDL closures are materials.

Where the target has statements, the output of a conditional is declared first and every branch
assigns it; MDL takes a chain of conditional expressions.
-/

namespace MaterialShader

namespace ClosureOperator

def inputs : ClosureOperator → String × String
  | .add => ("in1", "in2")
  | .multiply => ("in1", "in2")
  | .mix => ("fg", "bg")
  | .layer => ("top", "base")

structure Operands where
  first : String
  second : String
  secondType : String
  weight : String

def structureMembers? (typeName : String) : Option (String × String) :=
  if typeName = "BSDF" then some ("response", "throughput")
  else if typeName = "VDF" then some ("absorption", "scattering")
  else if typeName = "surfaceshader" then some ("color", "transparency")
  else none

def bareText (op : ClosureOperator) (x : Operands) : String :=
  match op with
  | .add => s!"{x.first} + {x.second}"
  | .multiply => s!"{x.first} * {x.second}"
  | .mix => s!"mix({x.second}, {x.first}, {x.weight})"
  | .layer => x.first

/-- The two members of the result. A weight scales what is reflected, not what passes through. -/
def memberTexts (op : ClosureOperator) (typeName vector3 : String) (x : Operands)
    (m0 m1 : String) : List String :=
  let a := x.first
  let b := x.second
  match op with
  | .add =>
    if typeName = "BSDF" then [s!"{a}.{m0} + {b}.{m0}", s!"{a}.{m1} * {b}.{m1}"]
    else [s!"{a}.{m0} + {b}.{m0}", s!"{a}.{m1} + {b}.{m1}"]
  | .multiply =>
    if typeName = "VDF" then [s!"{a}.{m0} * {b}", s!"{a}.{m1} * {b}"]
    else [s!"{a}.{m0} * {b}", s!"{a}.{m1}"]
  | .mix =>
    [s!"mix({b}.{m0}, {a}.{m0}, {x.weight})", s!"mix({b}.{m1}, {a}.{m1}, {x.weight})"]
  | .layer =>
    if x.secondType = "VDF" then
      [s!"{a}.response", s!"{a}.throughput * ({vector3}(1.0) - {b}.absorption)"]
    else
      [s!"{a}.response + {b}.response * {a}.throughput", s!"{a}.throughput * {b}.throughput"]

def hardwareText (run : Run) (op : ClosureOperator) (t : ShaderType) (x : Operands) :
    Result String :=
  match structureMembers? t.name with
  | none => .ok (op.bareText x)
  | some (m0, m1) => do
    let vector3 ← run.typeText "vector3"
    run.structureText t (op.memberTexts t.name vector3 x m0 m1)

def oslText (op : ClosureOperator) (x : Operands) : String :=
  match op with
  | .add => s!"{x.first} + {x.second}"
  | .multiply => s!"{x.first} * {x.second}"
  | .mix => s!"({x.second} * (1.0 - {x.weight})) + ({x.first} * {x.weight})"
  | .layer => s!"layer({x.first}, {x.second})"

def mdlSurface (scattering : String) : String :=
  s!"material(surface: material_surface(scattering: {scattering}))"

def mdlEmission (op : ClosureOperator) (x : Operands) : String :=
  let a := x.first
  let b := x.second
  match op with
  | .multiply =>
    "material(surface: material_surface(emission: material_emission(emission: " ++
      s!"{a}.surface.emission.emission, intensity: {a}.surface.emission.intensity * {b})))"
  | _ =>
    let (wa, wb) :=
      match op with
      | .mix => (x.weight, s!"1.0 - {x.weight}")
      | _ => ("1.0", "1.0")
    "material(surface: material_surface(emission: material_emission(" ++
      "emission: df::clamped_mix(df::edf_component[](" ++
      s!"df::edf_component({wb}, {b}.surface.emission.emission), " ++
      s!"df::edf_component({wa}, {a}.surface.emission.emission))), " ++
      s!"intensity: {b}.surface.emission.intensity * ({wb}) + " ++
      s!"{a}.surface.emission.intensity * ({wa}))))"

def mdlVolume (op : ClosureOperator) (x : Operands) : String :=
  let a := x.first
  let b := x.second
  let coefficient (f : String) : String :=
    match op with
    | .add => s!"{a}.volume.{f} + {b}.volume.{f}"
    | .multiply => s!"{a}.volume.{f} * {b}"
    | _ => s!"math::lerp({b}.volume.{f}, {a}.volume.{f}, {x.weight})"
  "material(volume: material_volume(absorption_coefficient: " ++
    coefficient "absorption_coefficient" ++ ", scattering_coefficient: " ++
    coefficient "scattering_coefficient" ++ "))"

def mdlScattering (op : ClosureOperator) (x : Operands) : String :=
  let a := x.first
  let b := x.second
  match op with
  | .mix =>
    mdlSurface <| s!"df::weighted_layer(weight: {x.weight}, layer: {a}.surface.scattering, " ++
      s!"base: {b}.surface.scattering)"
  | .multiply =>
    let tint := if x.secondType = "float" then s!"color({b})" else b
    mdlSurface s!"df::tint({tint}, {a}.surface.scattering)"
  | _ =>
    mdlSurface <| "df::clamped_mix(df::bsdf_component[](" ++
      s!"df::bsdf_component(1.0, {a}.surface.scattering), " ++
      s!"df::bsdf_component(1.0, {b}.surface.scattering)))"

def mdlLayer (x : Operands) : String :=
  let a := x.first
  let b := x.second
  if x.secondType = "VDF" then s!"material(surface: {a}.surface, volume: {b}.volume)"
  else
    mdlSurface <| s!"df::weighted_layer(weight: 1.0, layer: {a}.surface.scattering, " ++
      s!"base: {b}.surface.scattering)"

def mdlText (op : ClosureOperator) (typeName : String) (x : Operands) : String :=
  if op = .layer then mdlLayer x
  else if typeName = "EDF" then op.mdlEmission x
  else if typeName = "VDF" then op.mdlVolume x
  else op.mdlScattering x

def isEmptyLayer (op : ClosureOperator) (n : GraphNode) : Bool :=
  match op, n.input? "top" with
  | .layer, some top => top.source.isNone
  | _, _ => false

/-- Declare the combined closure. A layer without a top is the empty closure. -/
def code (run : Run) (id : NodeId) (op : ClosureOperator) : Result (List Code) := do
  let n ← run.node id
  let o ← run.firstOutput id
  if op.isEmptyLayer n then
    let empty ← run.declare id 0 none
    return [empty]
  else
    let (firstName, secondName) := op.inputs
    let first ← run.inputText id firstName
    let second ← run.inputText id secondName
    let secondInput ← run.input id secondName
    let weight ←
      match op with
      | .mix => run.inputText id "mix"
      | _ => pure "1.0"
    let x : Operands := ⟨first, second, secondInput.type.name, weight⟩
    let text ←
      match run.target with
      | .glsl | .msl => op.hardwareText run o.type x
      | .osl => pure (op.oslText x)
      | .mdl => pure (op.mdlText o.type.name x)
    let declared ← run.declare id 0 (some text)
    return [declared]

end ClosureOperator

end MaterialShader

namespace MaterialShader.Run

def declareOnly (run : Run) (id : NodeId) (text : String) : Result (List Code) := do
  let declared ← run.declare id 0 (some text)
  return [declared]

def swizzleCode (run : Run) (id : NodeId) : Result (List Code) := do
  let i ← run.input id "in"
  let text ← run.argument i
  let n ← run.node id
  let channels ←
    orFail (.literalTextNeeded n.path "channels") (n.literal? "channels" >>= Value.text?)
  let o ← run.firstOutput id
  let picked ←
    if channels.isEmpty && i.type.same o.type then pure text
    else run.dialect.swizzle text i.type channels o.type
  run.declareOnly id picked

def extractIndex (n : GraphNode) (t : ShaderType) : Result Nat := do
  let index ← orFail (.literalIndexNeeded n.path) (n.literal? "index" >>= Value.int?)
  if 0 ≤ index ∧ index < Nat.max t.size 1 then return index.toNat
  else fail (.indexOutOfRange index t.name)

def extractCode (run : Run) (id : NodeId) : Result (List Code) := do
  let n ← run.node id
  let i ← run.input id "in"
  let text ← run.argument i
  let index ← extractIndex n i.type
  let component ← run.dialect.member text i.type index
  run.declareOnly id component

def convertCode (run : Run) (id : NodeId) : Result (List Code) := do
  let i ← run.input id "in"
  let text ← run.argument i
  let o ← run.firstOutput id
  let converted ←
    if i.type.same o.type then pure text
    else do
      let c ← orFail (.invalidConversion i.type.name o.type.name)
        (run.types.conversion? i.type o.type)
      run.dialect.convert c i.type o.type text
  run.declareOnly id converted

def combineCode (run : Run) (id : NodeId) : Result (List Code) := do
  let n ← run.node id
  let parts ← n.inputs.mapM run.argument
  let o ← run.firstOutput id
  let whole ← run.dialect.construct o.type parts
  run.declareOnly id whole

def separateCode (run : Run) (id : NodeId) : Result (List Code) := do
  let n ← run.node id
  let i ← run.input id "in"
  let text ← run.argument i
  (List.range n.outputs.length).mapM fun k => do
    let component ← run.dialect.member text i.type k
    run.declare id k (some component)

end MaterialShader.Run

namespace MaterialShader

def ConditionalOperator.branchCount (op : ConditionalOperator) (n : GraphNode) : Nat :=
  match op with
  | .switch => Fold.branchCount n
  | .compare | .ifGreater => 2

namespace Run

/-- The conditions of the branches in order; the last branch has none. -/
def conditions (run : Run) (id : NodeId) (op : ConditionalOperator) : Result (List String) := do
  match op with
  | .switch =>
    let which ← run.inputText id "which"
    let n ← run.node id
    return (List.range (op.branchCount n - 1)).map fun k => s!"{which} < {k + 1}.0"
  | .compare =>
    let intest ← run.inputText id "intest"
    let cutoff ← run.inputText id "cutoff"
    return [s!"{intest} <= {cutoff}"]
  | .ifGreater =>
    let value1 ← run.inputText id "value1"
    let value2 ← run.inputText id "value2"
    return [s!"{value1} > {value2}"]

def branchText (run : Run) (id : NodeId) (k : Nat) : Result String :=
  run.inputText id (Fold.branchName k)

/-- Conditional expressions around `otherwise`, from branch `k - 1` down to the first. -/
def conditionalChain (run : Run) (id : NodeId) (conditions : List String) :
    Nat → String → Result String
  | 0, otherwise => .ok otherwise
  | k + 1, otherwise => do
    let value ← run.branchText id k
    let condition := conditions.getD k ""
    conditionalChain run id conditions k s!"({condition}) ? {value} : {otherwise}"

def conditionalExpression (run : Run) (id : NodeId) (op : ConditionalOperator) :
    Result (List Code) := do
  let conditions ← run.conditions id op
  let n ← run.node id
  let last := op.branchCount n - 1
  let otherwise ← run.branchText id last
  let text ← run.conditionalChain id conditions last otherwise
  let declared ← run.declare id 0 (some text)
  return [declared]

def branchHead (conditions : List String) (k : Nat) : String :=
  match k, conditions[k]? with
  | 0, some c => s!"if ({c})"
  | _, some c => s!"else if ({c})"
  | _, none => "else"

end Run

end MaterialShader

namespace MaterialShader.Run

def lightCode (run : Run) (stage : Stage) (id : NodeId) : Result (List Code) := do
  if stage.name = vertexStage then
    let assigned ←
      stage.assignConnector "positionWorld" "$positionWorld = hPositionWorld.xyz"
    return [assigned]
  else
    let edf ← run.inputText id "edf"
    let intensity ← run.inputText id "intensity"
    let exposure ← run.inputText id "exposure"
    let o ← run.firstOutput id
    let value ← run.structureText o.type
      [s!"{edf} * {intensity} * exp2({exposure})", "normalize($positionWorld - $viewPosition)"]
    let declared ← run.declare id 0 (some value)
    return [declared]

end MaterialShader.Run

namespace MaterialShader.SourceCode

def colorLetters : String := "rgba"

def substitute (code : SourceCode) (run : Run) (text : String) : Result String :=
  match code.templateType with
  | none => .ok text
  | some typeName =>
    if Text.contains "$" text then do
      let t ← run.types.get typeName
      let name ← run.dialect.typeName t
      let count := Nat.max 1 (Nat.min t.size 4)
      let channels := String.ofList (colorLetters.toList.take count)
      return Text.replaceAll "$channels" channels
        (Text.replaceAll "$suffix" typeName (Text.replaceAll "$type" name text))
    else .ok text

/-- A function with its key, if it has a text and its key is new. -/
def function? (code : SourceCode) (run : Run) (known : List String) :
    Result (Option (String × Code)) :=
  match code.source with
  | .inline _ => .ok none
  | .function name source =>
    if Text.isAllBlank source then .ok none
    else do
      let key ← code.substitute run name
      if known.contains key then return none
      else
        let text ← code.substitute run source
        return some (key, .definition key text)

def inlineCode (code : SourceCode) (run : Run) (id : NodeId) (template : String) :
    Result (List Code) := do
  let n ← run.node id
  if n.outputs.length ≠ 1 then
    fail (.template n.path
      s!"inline implementations need a single output, node has {n.outputs.length}")
  else
    let text ← code.substitute run template
    match Template.expand (fun name => (run.inputText id name).toOption) text with
    | .error flaw => fail (.template n.path (flaw.reason text))
    | .ok expression =>
      let declared ← run.declare id 0 (some expression)
      return [declared]

/-- The call of a function. MDL functions return their only result; others take outputs as
arguments. -/
def callCode (code : SourceCode) (run : Run) (id : NodeId) (name : String) :
    Result (List Code) := do
  let n ← run.node id
  let function ← code.substitute run name
  let inputs ← n.inputs.mapM run.argument
  let extra ← code.extraArguments.mapM (code.substitute run)
  let arguments := inputs ++ extra
  if run.target = .mdl then
    if n.outputs.length ≠ 1 then
      fail (.template n.path
        s!"MDL function '{function}' must have a single output, node has {n.outputs.length}")
    else
      let declared ← run.declare id 0 (some (Dialect.call function arguments))
      return [declared]
  else
    let declared ← (List.range n.outputs.length).mapM fun k => run.declare id k none
    let outputs ← (List.range n.outputs.length).mapM fun k => run.outputName id k
    return declared ++ [.statement (Dialect.call function (arguments ++ outputs))]

def code (code : SourceCode) (run : Run) (id : NodeId) : Result (List Code) :=
  match code.source with
  | .inline template => code.inlineCode run id template
  | .function name _ => code.callCode run id name

end MaterialShader.SourceCode

namespace MaterialShader.Run

def realization (run : Run) (id : NodeId) : Realization := run.realizations.getD id .unsupported

/-- The variables of a node in the stages of a hardware shader. -/
def nodeVariables (run : Run) (id : NodeId) : Result (List HardwareVariable) :=
  match run.realization id with
  | .geometric kind =>
    if run.target.isHardware then do
      let n ← run.node id
      let o ← run.firstOutput id
      let inputs ← kind.inputVariables run.options n o.type.name
      let connector ← kind.connector? n o.type.name
      return inputs ++ connector.toList.map (.connector · (kind.connectorType o.type.name))
    else return []
  | .light =>
    return [.connector "positionWorld" "vector3",
      .pixelUniform "$viewPosition" "u_viewPosition" "vector3"]
  | _ => return []

def declareNodes (run : Run) : List NodeId → List Stage → Result (List Stage)
  | [], stages => .ok stages
  | id :: rest, stages => do
    let n ← run.node id
    let declared ← Result.inside (.declaring n.path) do
      let vs ← run.nodeVariables id
      vs.foldlM run.enter stages
    run.declareNodes rest declared

def declareVariables (run : Run) (stages : List Stage) : Result (List Stage) :=
  run.declareNodes run.graph.order stages

def nodeFunctions (run : Run) : List String → List NodeId → Result (List Code)
  | _, [] => .ok []
  | known, id :: rest => do
    let own ←
      match run.realization id with
      | .source code => code.function? run known
      | _ => pure none
    match own with
    | some (key, definition) =>
      let others ← run.nodeFunctions (key :: known) rest
      return definition :: others
    | none => run.nodeFunctions known rest

def functionDefinitions (run : Run) (known : List String) : Result (List Code) :=
  run.nodeFunctions known run.graph.order

/-- The branches that a node writes on this target, each with its members in order. -/
def branchMembers (run : Run) (id : NodeId) : List (List NodeId) :=
  match run.realization id, run.graph.nodes[id]? with
  | .conditional op, some n =>
    if run.target.hasBranches then
      (List.range (op.branchCount n)).map fun k =>
        run.graph.order.filter fun m => run.scopes[m]? == some (.branch id k)
    else []
  | _, _ => []

def layout (run : Run) (roots : List NodeId) : List Placed :=
  Layout.forest run.graph.nodes.length run.branchMembers roots

def everywhereNodes (run : Run) : List NodeId :=
  run.graph.order.filter fun id => run.scopes[id]? == some .everywhere

def classNodes (run : Run) (c : Classification) : List NodeId :=
  run.graph.order.filter fun id =>
    match run.graph.nodes[id]? with
    | some n => n.classification.intersects c
    | none => false

def simpleCode (run : Run) (stage : Stage) (id : NodeId) : Result (List Code) :=
  match run.realization id with
  | .source code => code.code run id
  | .closure op => op.code run id
  | .conditional op => run.conditionalExpression id op
  | .swizzle => run.swizzleCode id
  | .extract => run.extractCode id
  | .convert => run.convertCode id
  | .combine => run.combineCode id
  | .separate => run.separateCode id
  | .geometric kind => kind.code run stage id
  | .light => run.lightCode stage id
  | .unsupported => do
    let n ← run.node id
    fail (.unsupported n.path n.category run.target)

mutual

def emitPlaced (run : Run) (stage : Stage) : Placed → Emission (List Code)
  | .node id branches => do
    Emission.mark stage.name id
    let n ← run.node id
    Emission.inside (.emitting n.path) do
      match run.realization id with
      | .conditional op =>
        if run.target.hasBranches then
          let conditions ← run.conditions id op
          let declared ← run.declare id 0 none
          let out ← run.outputName id 0
          let chain ← emitBranches run stage id conditions out 0 branches
          return declared :: chain
        else run.simpleCode stage id
      | _ => run.simpleCode stage id

def emitBranches (run : Run) (stage : Stage) (id : NodeId) (conditions : List String)
    (out : String) : Nat → List (List Placed) → Emission (List Code)
  | _, [] => return []
  | k, members :: rest => do
    let body ← emitAll run stage members
    let value ← run.branchText id k
    let others ← emitBranches run stage id conditions out (k + 1) rest
    return Code.branch (branchHead conditions k) (body ++ [.statement s!"{out} = {value}"]) ++ others

def emitAll (run : Run) (stage : Stage) : List Placed → Emission (List Code)
  | [] => return []
  | p :: rest => do
    let first ← emitPlaced run stage p
    let others ← emitAll run stage rest
    return first ++ others

end

def emitEverywhere (run : Run) (stage : Stage) : Emission (List Code) :=
  emitAll run stage (run.layout run.everywhereNodes)

def emitClass (run : Run) (stage : Stage) (c : Classification) : Emission (List Code) :=
  emitAll run stage (run.layout (run.classNodes c))

end MaterialShader.Run
