import MaterialShader.Assembly.Hardware

/-!
Shaders of one stage: OSL shaders, with a parameter for each published input and for each output,
and MDL materials, with a parameter for each published input and a body of declarations.
-/

namespace MaterialShader.Osl

/-- Parameters cannot be structures; such outputs are written as colors with these channels. -/
def remappedChannels? (typeName : String) : Option String :=
  if typeName = "color4" then some "rgb"
  else if typeName = "vector2" then some "xy0"
  else if typeName = "vector4" then some "xyz"
  else none

def outputType (color3 : ShaderType) (t : ShaderType) : ShaderType :=
  if (remappedChannels? t.name).isSome then color3 else t

def outputs (run : Run) (color3 : ShaderType) : List (String × ShaderType) :=
  run.names.graphOutputs.zip (run.graph.outputSockets.map fun s => outputType color3 s.type)

def declareStage (run : Run) (color3 : ShaderType) (entryPoint : String) :
    Result (List Stage) := do
  let empty := ((Stage.start pixelStage entryPoint).createBlock .uniform publicUniforms
    "").createBlock .output pixelOutputs ""
  let published ← empty.updateBlock publicUniforms fun b =>
    b.addAll (Hardware.publicVariables run)
  let whole ← published.updateBlock pixelOutputs fun b =>
    b.addAll ((outputs run color3).map fun (name, t) => .plain t name)
  run.declareVariables [whole]

def transformFunction (run : Run) : List Code :=
  .function Hardware.transformKey :: Code.block "vector2 mx_transform_uv(vector2 texcoord)"
    [.statement
      (if run.options.verticalFlip then "return vector2(texcoord.x, 1.0 - texcoord.y)"
       else "return texcoord")] false

def shaderKind (g : Graph) : String :=
  match g.outputSockets.head? with
  | some s =>
    if s.type.name = "surfaceshader" || s.type.name = "material" then "surface"
    else if s.type.name = "volumeshader" then "volume"
    else "shader"
  | none => "shader"

def socketValue (run : Run) (s : InputSocket) : Result String :=
  match s.value with
  | some v => run.dialect.literal s.type v true
  | none => run.dialect.initialValue s.type true

def inputParameter (run : Run) (s : InputSocket) (name : String) : Result String := do
  let value ← socketValue run s
  let typeName ← run.dialect.typeName s.type
  return s!"{typeName} {name} = {value}"

def outputParameter (run : Run) (name : String) (t : ShaderType) : Result String := do
  let typeName ← run.dialect.outputTypeName t
  let value ← run.dialect.initialValue t true
  return s!"{typeName} {name} = {value}"

def commaLines : List String → List Code
  | [] => []
  | [last] => [.line last]
  | text :: rest => .line (text ++ ",") :: commaLines rest

def outputCode (run : Run) (color3 : ShaderType) (s : OutputSocket) (name : String) :
    Result Code := do
  let text ← run.outputText s
  let written ←
    match remappedChannels? s.type.name with
    | some channels => run.dialect.swizzle text s.type channels color3
    | none => pure text
  return .statement s!"{name} = {written}"

/-- The statement that declares the empty closure, where closures are. -/
def emptyClosure (run : Run) : List Code :=
  if run.graph.classification.has .closure then [.statement "closure color null_closure = 0"] else []

def stageCode (run : Run) (color3 : ShaderType) (stage : Stage) (shaderName : String) :
    Emission (List Code) := do
  let hasTextures := Hardware.hasTextures run
  let transform := if hasTextures then transformFunction run else []
  let functions ←
    run.functionDefinitions (if hasTextures then [Hardware.transformKey] else [])
  let inputs ← (run.graph.inputSockets.zip run.names.sockets).mapM fun (s, n) =>
    inputParameter run s n
  let results ← (outputs run color3).mapM fun (n, t) => outputParameter run n t
  let nodes ← run.emitEverywhere stage
  let written ← (run.graph.outputSockets.zip run.names.graphOutputs).mapM fun (s, n) =>
    outputCode run color3 s n
  let start : List Code :=
    [.line "#include \"mx_funcs.h\"", .blank, .line "#define M_FLOAT_EPS 0.000001", .blank]
  let head : List Code :=
    [.line s!"{shaderKind run.graph} {shaderName}", .openScope .parentheses] ++
      commaLines (inputs ++ results) ++ [.closeScope false]
  return start ++ transform ++ functions ++ head ++ [.openScope .braces] ++ emptyClosure run ++
    nodes ++ written ++ [.closeScope false]

def stages (run : Run) (name : String) : Emission (List Stage) := do
  let shaderName := run.dialect.validName name
  let color3 ← run.types.get "color3"
  let declared ← declareStage run color3 shaderName
  let stage ← Stage.named declared pixelStage
  let code ← stageCode run color3 stage shaderName
  let whole ← stage.writeAll code
  return [whole]

end MaterialShader.Osl

namespace MaterialShader.Mdl

def modules : List String := ["df", "math", "state", "tex", "anno", "scene"]

def finalOutput : String := "finalOutput__"

def color4Text : String :=
  "struct color4
\x7b
    color rgb = color(0.0);
    float a = 1.0;
\x7d;

color4 mk_color4(float v)
\x7b
    return color4(color(v), v);
\x7d

color4 mk_color4(float r, float g, float b, float a)
\x7b
    return color4(color(r, g, b), a);
\x7d

color4 mk_color4(color c, float a)
\x7b
    return color4(c, a);
\x7d

color4 mk_color4(float4 v)
\x7b
    return color4(color(v.x, v.y, v.z), v.w);
\x7d
"

def emissionColor (typeName text : String) : String :=
  if typeName = "color3" then text
  else if typeName = "float" || typeName = "vector3" then s!"color({text})"
  else if typeName = "integer" then s!"color(float({text}))"
  else if typeName = "boolean" then s!"color({text} ? 1.0 : 0.0)"
  else if typeName = "color4" then s!"{text}.rgb"
  else if typeName = "vector2" then s!"color({text}.x, {text}.y, 0.0)"
  else if typeName = "vector4" then s!"color({text}.x, {text}.y, {text}.z)"
  else "color(0.0)"

def emissive (color : String) : String :=
  "material(surface: material_surface(emission: material_emission(emission: " ++
    s!"df::diffuse_edf(), intensity: {color} * math::PI)))"

def outputMaterial (run : Run) (s : OutputSocket) : Result String := do
  let text ← run.outputText s
  if s.type.isClosure then return text
  else
    let typeName ← run.dialect.typeName s.type
    if typeName = "material" then return text
    else return emissive (emissionColor s.type.name text)

def declareStage (run : Run) (entryPoint : String) : Result (List Stage) := do
  let material ← run.types.get "material"
  let empty := ((Stage.start pixelStage entryPoint).createBlock .uniform publicUniforms
    "").createBlock .output pixelOutputs ""
  let published ← empty.updateBlock publicUniforms fun b =>
    b.addAll (Hardware.publicVariables run)
  let whole ← published.updateBlock pixelOutputs fun b => b.add (.plain material finalOutput)
  run.declareVariables [whole]

def transformFunction (run : Run) : List Code :=
  .function Hardware.transformKey :: Code.block "float2 mx_transform_uv(float2 uv)"
    [.statement
      (if run.options.verticalFlip then "return float2(uv.x, 1.0 - uv.y)" else "return uv")] false

def parameter (run : Run) (s : InputSocket) (name : String) : Result String := do
  let plain ← Osl.inputParameter run s name
  if s.type.isFilename then return run.dialect.uniformQualifier ++ " " ++ plain
  else return plain

/-- Only the first output of a graph can be exported. -/
def warnOutputs (run : Run) (shaderName : String) : Emission Unit := do
  let count := run.graph.outputSockets.length
  if 1 < count then
    Emission.note (Log.warn (s!"MDL material '{shaderName}' exposes only its first output; " ++
      s!"{count - 1} ignored"))

def stageCode (run : Run) (stage : Stage) (shaderName : String) : Emission (List Code) := do
  let hasTextures := Hardware.hasTextures run
  let transform := if hasTextures then transformFunction run else []
  let functions ←
    run.functionDefinitions (if hasTextures then [Hardware.transformKey] else [])
  let parameters ← (run.graph.inputSockets.zip run.names.sockets).mapM fun (s, n) =>
    parameter run s n
  let nodes ← run.emitEverywhere stage
  warnOutputs run shaderName
  let final ←
    match run.graph.outputSockets.head? with
    | some s => outputMaterial run s
    | none => pure "material()"
  let start : List Code :=
    [.statement "mdl 1.6", .blank] ++
      modules.map (fun m => .statement s!"import ::{m}::*") ++
      [.blank, .lines color4Text, .blank]
  return start ++ transform ++ functions ++
    [.line s!"export material {shaderName}", .openScope .parentheses] ++
    Osl.commaLines parameters ++ [.closeScope false, .line "= let", .openScope .braces] ++ nodes ++
    [.statement s!"material {finalOutput} = {final}", .closeScope false,
     .statement s!"in material({finalOutput})"]

def stages (run : Run) (name : String) : Emission (List Stage) := do
  let shaderName := run.dialect.validName name
  let declared ← declareStage run shaderName
  let stage ← Stage.named declared pixelStage
  let code ← stageCode run stage shaderName
  let whole ← stage.writeAll code
  return [whole]

end MaterialShader.Mdl
