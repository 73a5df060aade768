import MaterialShader.Emission.Basic

/-!
Nodes that read the geometry, and the variables that nodes need in the stages of a hardware shader.

There the vertex stage writes a connector and the pixel stage reads it; code reaches vertex inputs,
connectors and uniforms through tokens. OSL and MDL read the state of the renderer.
-/

namespace MaterialShader

def vertexInputs : String := "VertexInputs"

def vertexData : String := "VertexData"

def privateUniforms : String := "PrivateUniforms"

def publicUniforms : String := "PublicUniforms"

def lightData : String := "LightData"

def pixelOutputs : String := "PixelOutputs"

inductive VariableKind where
  | vertexInput
  | connector
  | uniform
  deriving DecidableEq, Repr

def VariableKind.reach (target : Target) (name : String) : VariableKind → String
  | .vertexInput => if target = .msl then "i_vs." ++ name else name
  | .connector => if target = .msl then "vd." ++ name else name
  | .uniform => name

namespace Stage

def declareVariable (s : Stage) (target : Target) (kind : VariableKind)
    (block token name : String) (t : ShaderType) : Result Stage := do
  let declared ← s.updateBlock block fun b => b.add (.plain t name)
  return declared.addToken token (kind.reach target name)

def updateNamed (stages : List Stage) (name : String) (f : Stage → Result Stage) :
    Result (List Stage) :=
  match stages with
  | [] => fail (.unknownStage name)
  | s :: rest =>
    if s.name = name then do
      let changed ← f s
      return changed :: rest
    else do
      let others ← updateNamed rest name f
      return s :: others

end Stage

/-- A variable of the generator in the stages of a hardware shader. A connector is in all of them. -/
inductive HardwareVariable where
  | vertexInput (token name typeName : String)
  | vertexUniform (token name typeName : String)
  | pixelUniform (token name typeName : String)
  | connector (name typeName : String)

namespace HardwareVariable

def kind : HardwareVariable → VariableKind
  | .vertexInput .. => .vertexInput
  | .vertexUniform .. | .pixelUniform .. => .uniform
  | .connector .. => .connector

def block : HardwareVariable → String
  | .vertexInput .. => vertexInputs
  | .vertexUniform .. | .pixelUniform .. => privateUniforms
  | .connector .. => vertexData

def token : HardwareVariable → String
  | .vertexInput token _ _ | .vertexUniform token _ _ | .pixelUniform token _ _ => token
  | .connector name _ => "$" ++ name

def name : HardwareVariable → String
  | .vertexInput _ name _ | .vertexUniform _ name _ | .pixelUniform _ name _ => name
  | .connector name _ => name

def typeName : HardwareVariable → String
  | .vertexInput _ _ t | .vertexUniform _ _ t | .pixelUniform _ _ t | .connector _ t => t

end HardwareVariable

/-- The stages with the variable declared. -/
def Run.enter (run : Run) (stages : List Stage) (x : HardwareVariable) : Result (List Stage) := do
  let t ← run.types.get x.typeName
  let declare (s : Stage) := s.declareVariable run.target x.kind x.block x.token x.name t
  match x with
  | .vertexInput .. | .vertexUniform .. => Stage.updateNamed stages vertexStage declare
  | .pixelUniform .. => Stage.updateNamed stages pixelStage declare
  | .connector .. => stages.mapM declare

/-- The statement that gives a connector its value, of which a stage keeps one. -/
def Stage.assignConnector (s : Stage) (name text : String) : Result Code :=
  match s.block? vertexData with
  | none => fail (.unknownBlock s.name vertexData)
  | some b =>
    if b.contains name then .ok (.assignment vertexData name text)
    else fail (.undeclaredConnector name)

namespace GeometricKind

def isWorldSpace (n : GraphNode) : Bool :=
  match n.literal? "space" >>= Value.text? with
  | some space => !(space == "object" || space == "model")
  | none => true

def indexText (n : GraphNode) : String :=
  Value.intText ((n.literal? "index" >>= Value.int?).getD 0)

def property (n : GraphNode) : Result String :=
  match n.literal? "geomprop" >>= Value.text? with
  | some name => if name.isEmpty then fail (.geometryNameNeeded n.path) else .ok name
  | none => fail (.geometryNameNeeded n.path)

/-- Keeps attributes of different types apart; texture coordinates of two components go without. -/
def typeSuffix (kind : GeometricKind) (typeName : String) : String :=
  match kind with
  | .texcoord => if typeName = "vector2" then "" else "_" ++ typeName
  | .geomPropValue => "_" ++ typeName
  | _ => ""

def attributeText (kind : GeometricKind) (n : GraphNode) (typeName : String) : Result String :=
  match kind with
  | .geomPropValue => do
    let name ← property n
    return Text.sanitize name ++ kind.typeSuffix typeName
  | _ => .ok (indexText n ++ kind.typeSuffix typeName)

def connector? (kind : GeometricKind) (n : GraphNode) (typeName : String) :
    Result (Option String) := do
  let space := if isWorldSpace n then "World" else "Object"
  match kind with
  | .position => return some ("position" ++ space)
  | .normal => return some ("normal" ++ space)
  | .tangent => return some ("tangent" ++ space)
  | .bitangent => return some ("bitangent" ++ space)
  | .texcoord =>
    let attr ← kind.attributeText n typeName
    return some ("texcoord_" ++ attr)
  | .geomColor =>
    let attr ← kind.attributeText n typeName
    return some ("color_" ++ attr)
  | .geomPropValue =>
    let attr ← kind.attributeText n typeName
    return some ("geomprop_" ++ attr)
  | .viewDirection => return some "positionWorld"
  | .time | .frame => return none

def connectorType (kind : GeometricKind) (typeName : String) : String :=
  match kind with
  | .texcoord | .geomPropValue => typeName
  | .geomColor => "color4"
  | _ => "vector3"

/-- The variables that a node reads, apart from its connector. -/
def inputVariables (options : Options) (kind : GeometricKind) (n : GraphNode)
    (typeName : String) : Result (List HardwareVariable) :=
  let normal : HardwareVariable := .vertexInput "$inNormal" "i_normal" "vector3"
  let tangent : HardwareVariable := .vertexInput "$inTangent" "i_tangent" "vector3"
  let world : List HardwareVariable :=
    if isWorldSpace n then
      [.vertexUniform "$worldInverseTransposeMatrix" "u_worldInverseTransposeMatrix" "matrix44"]
    else []
  match kind with
  | .position => return []
  | .normal => return normal :: world
  | .tangent => return [tangent]
  | .bitangent =>
    if options.implicitBitangents then return normal :: tangent :: world
    else return [.vertexInput "$inBitangent" "i_bitangent" "vector3"]
  | .texcoord => do
    let attr ← kind.attributeText n typeName
    return [.vertexInput ("$inTexcoord_" ++ attr) ("i_texcoord_" ++ attr) typeName]
  | .geomColor => do
    let attr ← kind.attributeText n typeName
    return [.vertexInput ("$inColor_" ++ attr) ("i_color_" ++ attr) "color4"]
  | .geomPropValue => do
    let attr ← kind.attributeText n typeName
    return [.vertexInput ("$inGeomprop_" ++ attr) ("i_geomprop_" ++ attr) typeName]
  | .time => return [.pixelUniform "$time" "u_time" "float"]
  | .frame => return [.pixelUniform "$frame" "u_frame" "float"]
  | .viewDirection => return [.pixelUniform "$viewPosition" "u_viewPosition" "vector3"]

def toWorld (vector4 token attr : String) : String :=
  s!"normalize(({token} * {vector4}({attr}, 0.0)).xyz)"

def normalText (vector4 : String) (world : Bool) : String :=
  if world then toWorld vector4 "$worldInverseTransposeMatrix" "$inNormal"
  else "normalize($inNormal)"

def tangentText (vector4 : String) (world : Bool) : String :=
  if world then toWorld vector4 "$worldMatrix" "$inTangent" else "normalize($inTangent)"

def bitangentText (run : Run) (vector4 : String) (world : Bool) : String :=
  if run.options.implicitBitangents then
    "normalize(cross(" ++ normalText vector4 world ++ ", " ++ tangentText vector4 world ++ "))"
  else if world then toWorld vector4 "$worldMatrix" "$inBitangent"
  else "normalize($inBitangent)"

def connectorText (run : Run) (kind : GeometricKind) (n : GraphNode) (typeName : String) :
    Result String := do
  let world := isWorldSpace n
  let vector4 ← run.typeText "vector4"
  match kind with
  | .viewDirection => return "hPositionWorld.xyz"
  | .position => return if world then "hPositionWorld.xyz" else "$inPosition"
  | .normal => return normalText vector4 world
  | .tangent => return tangentText vector4 world
  | .bitangent => return bitangentText run vector4 world
  | .texcoord =>
    let attr ← kind.attributeText n typeName
    return "$inTexcoord_" ++ attr
  | .geomColor =>
    let attr ← kind.attributeText n typeName
    return "$inColor_" ++ attr
  | .geomPropValue =>
    let attr ← kind.attributeText n typeName
    return "$inGeomprop_" ++ attr
  | .time | .frame => return ""

def vertexCode (run : Run) (stage : Stage) (kind : GeometricKind) (n : GraphNode)
    (typeName : String) : Result (List Code) := do
  match ← kind.connector? n typeName with
  | none => return []
  | some name =>
    let text ← kind.connectorText run n typeName
    let assigned ← stage.assignConnector name s!"${name} = {text}"
    return [assigned]

def pixelText (kind : GeometricKind) (n : GraphNode) (typeName : String) : Result String := do
  match kind with
  | .time => return "$time"
  | .frame => return "$frame"
  | .viewDirection => return "normalize($positionWorld - $viewPosition)"
  | _ =>
    let connector ← kind.connector? n typeName
    let token := "$" ++ connector.getD ""
    match kind with
    | .normal | .tangent | .bitangent => return s!"normalize({token})"
    | .geomColor =>
      if typeName = "float" then return token ++ ".r"
      else if typeName = "color3" then return token ++ ".rgb"
      else return token
    | _ => return token

def colorAttribute (n : GraphNode) : String :=
  if indexText n = "0" then "color" else "color" ++ indexText n

def oslCode (run : Run) (kind : GeometricKind) (n : GraphNode) (id : NodeId) (typeName : String) :
    Result (List Code) := do
  let placed (text : String) : String :=
    if isWorldSpace n then text else s!"transform(\"object\", {text})"
  let plain (text : String) : Result (List Code) := do
    let declared ← run.declare id 0 (some text)
    return [declared]
  let attr (name : String) : Result (List Code) := do
    let initial ←
      match n.input? "default" with
      | some i => some <$> run.argument i
      | none => pure none
    let declared ← run.declare id 0 initial
    let out ← run.outputName id 0
    return [declared, .statement s!"getattribute(\"{name}\", {out})"]
  match kind with
  | .position => plain (placed "P")
  | .normal => plain (placed "N")
  | .tangent => plain (placed "normalize(dPdu)")
  | .bitangent => plain (placed "normalize(dPdv)")
  | .texcoord => plain (if typeName = "vector3" then "vector(u, v, 0.0)" else "vector2(u, v)")
  | .time => plain "time"
  | .viewDirection => plain "normalize(I)"
  | .geomColor => attr (colorAttribute n)
  | .frame => attr "frame"
  | .geomPropValue =>
    let name ← property n
    attr name

def mdlTransform (function space value : String) : String :=
  s!"state::{function}(state::coordinate_internal, {space}, state::{value})"

def mdlProperty (typeName name fallback : String) : String :=
  if typeName = "integer" then s!"scene::data_lookup_int(\"{name}\", {fallback})"
  else if typeName = "boolean" then
    s!"scene::data_lookup_int(\"{name}\", {fallback} ? 1 : 0) != 0"
  else if typeName = "vector2" then s!"scene::data_lookup_float2(\"{name}\", {fallback})"
  else if typeName = "vector3" then s!"scene::data_lookup_float3(\"{name}\", {fallback})"
  else if typeName = "vector4" then s!"scene::data_lookup_float4(\"{name}\", {fallback})"
  else if typeName = "color3" then s!"scene::data_lookup_color(\"{name}\", {fallback})"
  else s!"scene::data_lookup_float(\"{name}\", {fallback})"

def mdlText (run : Run) (kind : GeometricKind) (n : GraphNode) (o : Output) : Result String := do
  let space := if isWorldSpace n then "state::coordinate_world" else "state::coordinate_object"
  let typeName := o.type.name
  match kind with
  | .position => return mdlTransform "transform_point" space "position()"
  | .normal => return mdlTransform "transform_normal" space "normal()"
  | .tangent => return mdlTransform "transform_vector" space "texture_tangent_u(0)"
  | .bitangent => return mdlTransform "transform_vector" space "texture_tangent_v(0)"
  | .texcoord =>
    let index := indexText n
    if typeName = "vector3" then return s!"state::texture_coordinate({index})"
    else
      return s!"float2(state::texture_coordinate({index}).x, " ++
        s!"state::texture_coordinate({index}).y)"
  | .geomColor =>
    let name := colorAttribute n
    if typeName = "float" then return s!"scene::data_lookup_float(\"{name}\", 0.0)"
    else if typeName = "color4" then
      return s!"mk_color4(scene::data_lookup_float4(\"{name}\", float4(0.0)))"
    else return s!"scene::data_lookup_color(\"{name}\", color(0.0))"
  | .geomPropValue =>
    let name ← property n
    let fallback ←
      match n.input? "default" with
      | some i => run.argument i
      | none => run.dialect.initialValue o.type false
    return mdlProperty typeName name fallback
  | .time => return "state::animation_time()"
  | .frame => return "scene::data_lookup_float(\"frame\", 1.0)"
  | .viewDirection => return "state::direction()"

def code (run : Run) (stage : Stage) (id : NodeId) (kind : GeometricKind) :
    Result (List Code) := do
  let n ← run.node id
  let o ← run.firstOutput id
  match run.target with
  | .glsl | .msl =>
    if stage.name = vertexStage then kind.vertexCode run stage n o.type.name
    else
      let text ← kind.pixelText n o.type.name
      let declared ← run.declare id 0 (some text)
      return [declared]
  | .osl => kind.oslCode run n id o.type.name
  | .mdl =>
    let text ← kind.mdlText run n o
    let declared ← run.declare id 0 (some text)
    return [declared]

end GeometricKind

end MaterialShader
