import MaterialShader.Emission.Node

/-!
GLSL and MSL shaders: a vertex stage that computes the connectors that geometry nodes ask for, and a
pixel stage with all else.
-/

namespace MaterialShader.Hardware

def tokens : List (String × VariableKind × String) :=
  [("$inPosition", .vertexInput, "i_position"),
   ("$inNormal", .vertexInput, "i_normal"),
   ("$inTangent", .vertexInput, "i_tangent"),
   ("$inBitangent", .vertexInput, "i_bitangent"),
   ("$positionWorld", .connector, "positionWorld"),
   ("$positionObject", .connector, "positionObject"),
   ("$normalWorld", .connector, "normalWorld"),
   ("$normalObject", .connector, "normalObject"),
   ("$tangentWorld", .connector, "tangentWorld"),
   ("$tangentObject", .connector, "tangentObject"),
   ("$bitangentWorld", .connector, "bitangentWorld"),
   ("$bitangentObject", .connector, "bitangentObject"),
   ("$worldMatrix", .uniform, "u_worldMatrix"),
   ("$worldInverseTransposeMatrix", .uniform, "u_worldInverseTransposeMatrix"),
   ("$viewProjectionMatrix", .uniform, "u_viewProjectionMatrix"),
   ("$viewPosition", .uniform, "u_viewPosition"),
   ("$time", .uniform, "u_time"),
   ("$frame", .uniform, "u_frame"),
   ("$numActiveLightSources", .uniform, "u_numActiveLightSources"),
   ("$lightData", .uniform, "u_lightData"),
   ("$udimScaleAndOffset", .uniform, "u_udimScaleAndOffset"),
   ("$envMatrix", .uniform, "u_envMatrix"),
   ("$envRadiance", .uniform, "u_envRadiance"),
   ("$envRadianceMips", .uniform, "u_envRadianceMips"),
   ("$envRadianceSamples", .uniform, "u_envRadianceSamples"),
   ("$envIrradiance", .uniform, "u_envIrradiance"),
   ("$shadowMap", .uniform, "u_shadowMap"),
   ("$shadowMatrix", .uniform, "u_shadowMatrix"),
   ("$ambOcclMap", .uniform, "u_ambOcclMap"),
   ("$ambOcclGain", .uniform, "u_ambOcclGain")]

def withTokens (target : Target) (s : Stage) : Stage :=
  tokens.foldl (fun acc (token, kind, name) => acc.addToken token (kind.reach target name)) s

def entryPoints (target : Target) : String × String :=
  if target = .msl then ("VertexMain", "FragmentMain") else ("main", "main")

def baseStage (target : Target) (name entryPoint : String) : Stage :=
  withTokens target
    (((Stage.start name entryPoint).createBlock .uniform privateUniforms "u_prv").createBlock
      .uniform publicUniforms "u_pub")

def emptyStages (target : Target) : List Stage :=
  let (vertexEntry, pixelEntry) := entryPoints target
  let vertex :=
    ((baseStage target vertexStage vertexEntry).createBlock .input vertexInputs "i_vs").createBlock
      .output vertexData "vd"
  let pixel :=
    ((baseStage target pixelStage pixelEntry).createBlock .input vertexData "vd").createBlock
      .output pixelOutputs (if target = .msl then "po" else "")
  [vertex, pixel]

def publicVariables (run : Run) : List StageVariable :=
  (run.graph.inputSockets.zip run.names.sockets).map fun (s, name) =>
    ⟨s.type, name, s.value, s.path, false⟩

def declareInterface (run : Run) (stages : List Stage) : Result (List Stage) := do
  let vector4 ← run.types.get "vector4"
  Stage.updateNamed stages pixelStage fun s => do
    let published ← s.updateBlock publicUniforms fun b => b.addAll (publicVariables run)
    published.updateBlock pixelOutputs fun b =>
      b.addAll (run.names.graphOutputs.map (StageVariable.plain vector4))

def isLit (run : Run) : Bool := run.graph.classification.has .surface

def hasTextures (run : Run) : Bool := run.graph.classification.has .texture

def lightingUniforms (o : Options) : List HardwareVariable :=
  [.pixelUniform "$numActiveLightSources" "u_numActiveLightSources" "integer"] ++
    (if o.specularEnvironment = .none then []
     else
       [.pixelUniform "$envMatrix" "u_envMatrix" "matrix44",
        .pixelUniform "$envRadiance" "u_envRadiance" "filename",
        .pixelUniform "$envRadianceMips" "u_envRadianceMips" "integer",
        .pixelUniform "$envIrradiance" "u_envIrradiance" "filename"]) ++
    (if o.specularEnvironment = .fis then
       [.pixelUniform "$envRadianceSamples" "u_envRadianceSamples" "integer"] else []) ++
    (if o.shadowMap then
       [.pixelUniform "$shadowMap" "u_shadowMap" "filename",
        .pixelUniform "$shadowMatrix" "u_shadowMatrix" "matrix44"]
     else []) ++
    (if o.ambientOcclusion then
       [.pixelUniform "$ambOcclMap" "u_ambOcclMap" "filename",
        .pixelUniform "$ambOcclGain" "u_ambOcclGain" "float"]
     else [])

/-- Whether texture coordinates of tiles are normalized; MSL has no way to. -/
def normalizesUdim (run : Run) : Bool :=
  hasTextures run && run.options.normalizeUdim && run.target != .msl

def pixelUniforms (run : Run) : List HardwareVariable :=
  (if isLit run then lightingUniforms run.options else []) ++
    (if normalizesUdim run then
       [.pixelUniform "$udimScaleAndOffset" "u_udimScaleAndOffset" "vector4"]
     else [])

def basicVariables (options : Options) : List HardwareVariable :=
  [.vertexInput "$inPosition" "i_position" "vector3",
   .vertexUniform "$worldMatrix" "u_worldMatrix" "matrix44",
   .vertexUniform "$viewProjectionMatrix" "u_viewProjectionMatrix" "matrix44"] ++
    if options.textureSpace then [.vertexInput "$inTexcoord_0" "i_texcoord_0" "vector2"] else []

def declareStages (run : Run) : Result (List Stage) := do
  let basics ← (basicVariables run.options).foldlM run.enter (emptyStages run.target)
  let interfaced ← declareInterface run basics
  let uniforms ← (pixelUniforms run).foldlM run.enter interfaced
  run.declareVariables uniforms

def header (target : Target) : List Code :=
  match target with
  | .msl =>
    [.line "#include <metal_stdlib>", .line "#include <simd/simd.h>", .blank,
     .statement "using namespace metal", .blank]
  | _ => [.line "#version 450", .blank]

def memberText (run : Run) (v : StageVariable) : Result String := do
  let typeName ← run.dialect.typeName v.type
  return s!"{typeName} {v.name}"

def memberScope (run : Run) (head : String) (vs : List StageVariable) : Result (List Code) := do
  let members ← vs.mapM (memberText run)
  return Code.block head (members.map Code.statement) true

def plainUniforms (stage : Stage) (block : String) : List StageVariable :=
  (stage.members block).filter fun v => !v.type.isFilename

def textureUniforms (stage : Stage) (block : String) : List StageVariable :=
  (stage.members block).filter fun v => v.type.isFilename

/-- A statement for each text, with numbers from the first on. -/
def numbered (line : Nat → String → String) : Nat → List String → List Code
  | _, [] => []
  | first, text :: rest => .statement (line first text) :: numbered line (first + 1) rest

def samplerLine (binding : Nat) (name : String) : String :=
  s!"layout (binding = {binding}) uniform sampler2D {name}"

def locationLine (direction : String) (location : Nat) (member : String) : String :=
  s!"layout (location = {location}) {direction} {member}"

def indexedLine (what : String) (index : Nat) (member : String) : String :=
  s!"{member} [[{what}({index})]]"

/-- One block of uniforms, and the next free binding. In MSL it is a structure. -/
def uniformBlock (run : Run) (stage : Stage) (binding : Nat) (block : String) :
    Result (List Code × Nat) := do
  let plain := plainUniforms stage block
  let textures := textureUniforms stage block
  let name := s!"{block}_{stage.name}"
  if run.target = .msl then
    if plain.isEmpty then return ([], binding)
    else
      let members ← memberScope run s!"struct {name}" plain
      return (members, binding)
  else
    let samplers (next : Nat) : List Code :=
      if textures.isEmpty then []
      else numbered samplerLine next (textures.map StageVariable.name) ++ [.blank]
    if plain.isEmpty then return (samplers binding, binding + textures.length)
    else
      let members ←
        memberScope run s!"layout (std140, binding = {binding}) uniform {name}" plain
      return (members ++ samplers (binding + 1), binding + 1 + textures.length)

def uniformBlocks (run : Run) (stage : Stage) (binding : Nat) : Result (List Code × Nat) := do
  let (generated, next) ← uniformBlock run stage binding privateUniforms
  let (published, last) ← uniformBlock run stage next publicUniforms
  return (generated ++ published, last)

def vertexDataCode (members : List String) : List Code :=
  Code.block "struct VertexData"
    (("float4 pos [[position]]" :: members).map Code.statement) true

structure EntryPoint where
  parameters : List String
  locals : List String
  buffers : Nat
  textures : Nat

def textureEntry (entry : EntryPoint) (name : String) : EntryPoint :=
  { entry with
    parameters := entry.parameters ++
      [s!"texture2d<float> {name}_tex [[texture({entry.textures})]]",
       s!"sampler {name}_sampler [[sampler({entry.textures})]]"]
    locals := entry.locals ++
      [s!"MetalTexture {name} = " ++ braced s!"{name}_tex, {name}_sampler"]
    textures := entry.textures + 1 }

def entryVariable (run : Run) (access : String) (entry : EntryPoint) (v : StageVariable) :
    Result EntryPoint :=
  if v.type.isFilename then .ok (textureEntry entry v.name)
  else do
    let member ← memberText run v
    return { entry with locals := entry.locals ++ [s!"{member} = {access}.{v.name}"] }

def entryBlock (run : Run) (stage : Stage) (entry : EntryPoint) (block : String) :
    Result EntryPoint :=
  match stage.block? block with
  | none => .ok entry
  | some b => do
    let filled ← b.members.foldlM (entryVariable run b.access) entry
    if (plainUniforms stage block).isEmpty then return filled
    else
      return { filled with
        parameters := filled.parameters ++
          [s!"constant {block}_{stage.name}& {b.access} [[buffer({filled.buffers})]]"]
        buffers := filled.buffers + 1 }

def entryPoint (run : Run) (stage : Stage) (lit : Bool) : Result EntryPoint := do
  let generated ← entryBlock run stage ⟨[], [], 0, 0⟩ privateUniforms
  let all ← entryBlock run stage generated publicUniforms
  if lit then
    return { all with
      parameters := all.parameters ++
        [s!"constant {lightData}* u_lightData [[buffer({all.buffers})]]"] }
  else return all

def entryHead (kind : String) (stage : Stage) (first : String) (entry : EntryPoint) : Code :=
  .line s!"{kind} {Dialect.call stage.entryPoint (first :: entry.parameters)}"

def vertexClasses : Classification := .ofList [.geometric, .light]

def vertexInterface (run : Run) (stage : Stage) : Result (List Code) := do
  let inputs ← (stage.members vertexInputs).mapM (memberText run)
  let connectors ← (stage.members vertexData).mapM (memberText run)
  if run.target = .msl then
    return Code.block "struct VertexInputs" (numbered (indexedLine "attribute") 0 inputs) true ++
      vertexDataCode connectors
  else
    return numbered (locationLine "in") 0 inputs ++ [.blank] ++
      numbered (locationLine "out") 0 connectors ++ [.blank]

/-- The code of a stage around that of its nodes. -/
structure Frame where
  /-- All before the entry point. -/
  front : List Code
  /-- The line that names the entry point. -/
  head : Code
  /-- The statements before those of the nodes. -/
  opening : List Code
  /-- The statements after those of the nodes. -/
  closing : List Code

def Frame.around (f : Frame) (nodes : List Code) : List Code :=
  f.front ++ f.head ::
    .openScope .braces :: (f.opening ++ nodes ++ f.closing ++ [.closeScope false])

def positionCode (run : Run) (vector4 position : String) : List Code :=
  [.statement s!"{vector4} hPositionWorld = $worldMatrix * {vector4}($inPosition, 1.0)",
   .statement
     (if run.options.textureSpace then
        s!"{position} = {vector4}($inTexcoord_0 * 2.0 - 1.0, 0.0, 1.0)"
      else s!"{position} = $viewProjectionMatrix * hPositionWorld")]

/-- The frame of the vertex stage, and the next free binding. -/
def vertexFrame (run : Run) (stage : Stage) : Result (Frame × Nat) := do
  let (uniforms, binding) ← uniformBlocks run stage 0
  let outer ← vertexInterface run stage
  let vector4 ← run.typeText "vector4"
  let front := header run.target ++ uniforms ++ outer
  if run.target = .msl then
    let entry ← entryPoint run stage false
    let head := entryHead "vertex VertexData" stage "VertexInputs i_vs [[stage_in]]" entry
    let copies := entry.locals.map Code.statement ++ [.statement "VertexData vd"]
    return (⟨front, head, copies ++ positionCode run vector4 "vd.pos", [.statement "return vd"]⟩,
      binding)
  else return (⟨front, .line "void main()", positionCode run vector4 "gl_Position", []⟩, binding)

def vertexCode (run : Run) (stage : Stage) : Emission (List Code × Nat) := do
  let (frame, binding) ← vertexFrame run stage
  let nodes ← run.emitClass stage vertexClasses
  return (frame.around nodes, binding)

def lightStructure (run : Run) : Result (List Code) := do
  let vector3 ← run.typeText "vector3"
  return [.line s!"#define MAX_LIGHT_SOURCES {Nat.max run.options.maxLights 1}", .blank] ++
    Code.block s!"struct {lightData}"
      [.statement "int type", .statement s!"{vector3} position",
       .statement s!"{vector3} direction", .statement s!"{vector3} color",
       .statement "float intensity"] true

def lightBlock (stage : Stage) (binding : Nat) : List Code :=
  Code.block s!"layout (std140, binding = {binding}) uniform {lightData}_{stage.name}"
    [.statement s!"{lightData} u_lightData[MAX_LIGHT_SOURCES]"] true

def pixelInterface (run : Run) (stage : Stage) : Result (List Code) := do
  let connectors ← (stage.members vertexData).mapM (memberText run)
  let outputs ← (stage.members pixelOutputs).mapM (memberText run)
  if run.target = .msl then
    return vertexDataCode connectors ++
      Code.block "struct PixelOutputs" (numbered (indexedLine "color") 0 outputs) true
  else
    return numbered (locationLine "in") 0 connectors ++
      (if connectors.isEmpty then [] else [.blank]) ++
      numbered (locationLine "out") 0 outputs ++ [.blank]

def transformKey : String := "mx_transform_uv"

def transformFunction (run : Run) : Result (List Code) := do
  let vector2 ← run.typeText "vector2"
  return .function transformKey :: Code.block s!"{vector2} mx_transform_uv({vector2} uv)"
    ([.statement s!"{vector2} res = uv"] ++
      (if normalizesUdim run then
         [.statement "res = res * $udimScaleAndOffset.xy + $udimScaleAndOffset.zw"] else []) ++
      (if run.options.verticalFlip then [.statement "res.y = 1.0 - res.y"] else []) ++
      [.statement "return res"]) false

def lightFunction (run : Run) (light : Nat × String) : Result (String × String) := do
  let (number, definition) := light
  let d ← orFail (.unknownDefinition definition) (run.library.definition? definition)
  match (run.library.implementation? d run.target).map Implementation.source with
  | some (.function name source) => return (name, source)
  | _ => fail (.missingImplementation s!"<light {number}>" definition run.target)

def lightBranch (index number : Nat) (name : String) : List Code :=
  let head := if index = 0 then "if" else "else if"
  Code.branch s!"{head} (light.type == {number})" [.statement s!"{name}(light, position, result)"]

def lightFunctions (run : Run) : Result (List Code × List String) := do
  let functions ← run.lights.mapM (lightFunction run)
  let vector3 ← run.typeText "vector3"
  let lightshader ← run.types.get "lightshader"
  let out ← run.dialect.outputTypeName lightshader
  let definitions := functions.map fun (name, source) =>
    Code.definition name source
  let branches := (run.lights.zip functions).mapIdx fun index entry =>
    lightBranch index entry.1.1 entry.2.1
  let sample : List Code :=
    Code.block s!"void sampleLightSource({lightData} light, {vector3} position, {out} result)"
      ([.statement s!"result.intensity = {vector3}(0.0)",
        .statement s!"result.direction = {vector3}(0.0)"] ++ branches.flatten) false
  return (definitions ++ sample, functions.map Prod.fst)

def srgbFunction (run : Run) : Result (List Code) := do
  let vector3 ← run.typeText "vector3"
  return Code.block s!"{vector3} mx_srgb_encode({vector3} color)"
    [.statement s!"{vector3} isAbove = step({vector3}(0.0031308), color)",
     .statement s!"{vector3} linSeg = color * 12.92",
     .statement (s!"{vector3} powSeg = 1.055 * pow(max(color, {vector3}(0.0)), " ++
       s!"{vector3}(1.0 / 2.4)) - 0.055"),
     .statement "return mix(linSeg, powSeg, isAbove)"] false

def depthFunction (run : Run) : Result (List Code) := do
  let vector2 ← run.typeText "vector2"
  return Code.block s!"{vector2} mx_compute_depth_moments(float z)"
    [.statement "float depth = clamp(z, 0.0, 1.0)",
     .statement s!"return {vector2}(depth, depth * depth)"] false

def pixelFunctions (run : Run) (stage : Stage) : Result (List Code) := do
  let transform ←
    if hasTextures run && !stage.hasFunction transformKey then do
      let f ← transformFunction run
      pure (f, [transformKey])
    else pure ([], [])
  let lights ← if isLit run then lightFunctions run else pure ([], [])
  let srgb ← if run.options.srgbOutput then srgbFunction run else pure []
  let depth ← if run.options.depthMoments then depthFunction run else pure []
  let nodes ← run.functionDefinitions (transform.2 ++ lights.2)
  return transform.1 ++ lights.1 ++ srgb ++ depth ++ nodes

def widened (run : Run) (typeName text : String) : Result String := do
  let vector3 ← run.typeText "vector3"
  let vector4 ← run.typeText "vector4"
  if typeName = "float" then return s!"{vector4}({text}, {text}, {text}, 1.0)"
  else if typeName = "integer" || typeName = "boolean" then
    return s!"{vector4}({vector3}(float({text})), 1.0)"
  else if typeName = "vector2" then return s!"{vector4}({text}, 0.0, 1.0)"
  else if ["color3", "vector3", "EDF"].contains typeName then return s!"{vector4}({text}, 1.0)"
  else if typeName = "color4" || typeName = "vector4" then return text
  else if typeName = "BSDF" then return s!"{vector4}({text}.response, 1.0)"
  else if typeName = "surfaceshader" || typeName = "material" then
    let alpha :=
      if run.options.transparency then
        s!"clamp(1.0 - dot({text}.transparency, {vector3}(0.3333)), 0.0, 1.0)"
      else "1.0"
    return s!"{vector4}({text}.color, {alpha})"
  else return s!"{vector4}(0.0, 0.0, 0.0, 1.0)"

def outputCode (run : Run) (vector4 : String) (s : OutputSocket) (name : String) :
    Result (List Code) := do
  let isMsl := run.target = .msl
  let result := if isMsl then "po." ++ name else name
  if run.options.depthMoments then
    let depth := if isMsl then "vd.pos.z" else "gl_FragCoord.z"
    return [.statement s!"{result} = {vector4}(mx_compute_depth_moments({depth}), 0.0, 1.0)"]
  else
    let text ← run.outputText s
    let drawn ← widened run s.type.name text
    let encoded :=
      if run.options.srgbOutput then
        [Code.statement s!"{result} = {vector4}(mx_srgb_encode({result}.rgb), {result}.a)"]
      else []
    return .statement s!"{result} = {drawn}" :: encoded

def outputsCode (run : Run) : Result (List Code) := do
  let vector4 ← run.typeText "vector4"
  let outputs ← (run.graph.outputSockets.zip run.names.graphOutputs).mapM fun (s, name) =>
    outputCode run vector4 s name
  return outputs.flatten

/-- The frame of the pixel stage; the outputs are assigned after the nodes. -/
def pixelFrame (run : Run) (stage : Stage) (binding : Nat) : Result Frame := do
  let lightHead ← (if isLit run then lightStructure run else pure [] : Result (List Code))
  let (uniforms, next) ← uniformBlocks run stage binding
  let lights := if isLit run && !(run.target = .msl : Bool) then lightBlock stage next else []
  let outer ← pixelInterface run stage
  let functions ← pixelFunctions run stage
  let front := header run.target ++ run.dialect.typeDefinitions.map Code.line ++ [.blank] ++
    lightHead ++ uniforms ++ lights ++ outer ++ functions
  if run.target = .msl then
    let entry ← entryPoint run stage (isLit run)
    let head := entryHead "fragment PixelOutputs" stage "VertexData vd [[stage_in]]" entry
    let copies := entry.locals.map Code.statement ++ [.statement "PixelOutputs po"]
    return ⟨front, head, copies, [.statement "return po"]⟩
  else return ⟨front, .line "void main()", [], []⟩

def pixelCode (run : Run) (stage : Stage) (binding : Nat) : Emission (List Code) := do
  let frame ← pixelFrame run stage binding
  let nodes ← run.emitEverywhere stage
  let outputs ← outputsCode run
  return frame.around (nodes ++ outputs)

def stages (run : Run) : Emission (List Stage) := do
  if hasTextures run && run.options.normalizeUdim && run.target = .msl then
    Emission.note (Log.warn
      s!"UDIM texture coordinate normalization is not supported on {run.target.name}; ignored")
  let declared ← declareStages run
  let vertex ← Stage.named declared vertexStage
  let pixel ← Stage.named declared pixelStage
  let (vertexText, binding) ← vertexCode run vertex
  let writtenVertex ← vertex.writeAll vertexText
  let pixelText ← pixelCode run pixel binding
  let writtenPixel ← pixel.writeAll pixelText
  return [writtenVertex, writtenPixel]

end MaterialShader.Hardware
