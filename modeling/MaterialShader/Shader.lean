import MaterialShader.Emission.Basic

/-!
Finished shaders: the text of every stage with the variables through which it is used. The JSON form
of a shader is its manifest.
-/

namespace MaterialShader

structure InterfaceVariable where
  block : String
  name : String
  typeName : String
  /-- The value that it starts with, as a literal of the target. -/
  value : Option String
  path : String
  deriving DecidableEq, Repr

structure FinishedStage where
  name : String
  entryPoint : String
  source : String
  uniforms : List InterfaceVariable
  inputs : List InterfaceVariable
  outputs : List InterfaceVariable
  deriving DecidableEq, Repr

structure Shader where
  name : String
  target : Target
  stages : List FinishedStage
  deriving DecidableEq, Repr

inductive Program where
  | vertex
  | fragment
  deriving DecidableEq, Repr

def Program.ofStage? (stage : String) : Option Program :=
  if stage = vertexStage then some .vertex
  else if stage = pixelStage then some .fragment
  else none

namespace InterfaceVariable

def ofVariable (d : Dialect) (block : Block) (v : StageVariable) : Result InterfaceVariable := do
  let value ←
    match v.value with
    | some x => do
      let text ← d.literal v.type x true
      pure (some text)
    | none => pure none
  return ⟨block.name, v.name, v.type.name, value, v.path⟩

/-- A value that is missing and a path that is empty are left out. -/
def toJson (v : InterfaceVariable) : Json :=
  let value : List (String × Json) :=
    match v.value with
    | some text => [("value", .str text)]
    | none => []
  let path : List (String × Json) := if v.path.isEmpty then [] else [("path", .str v.path)]
  .obj ([("block", .str v.block), ("name", .str v.name), ("type", .str v.typeName)] ++
    value ++ path)

end InterfaceVariable

namespace Stage

def interface (s : Stage) (d : Dialect) (kind : BlockKind) : Result (List InterfaceVariable) := do
  let blocks ← (s.blocksOf kind).mapM fun b =>
    b.members.mapM fun v => InterfaceVariable.ofVariable d b v
  return blocks.flatten

def finish (s : Stage) (d : Dialect) : Result FinishedStage := do
  let source ← s.finalize.inside (.finalizing s.name)
  let uniforms ← s.interface d .uniform
  let inputs ← s.interface d .input
  let outputs ← s.interface d .output
  return ⟨s.name, s.entryPoint, source, uniforms, inputs, outputs⟩

end Stage

def FinishedStage.toJson (s : FinishedStage) : Json :=
  .obj [("name", .str s.name), ("entryPoint", .str s.entryPoint), ("source", .str s.source),
    ("uniforms", .arr (s.uniforms.map InterfaceVariable.toJson)),
    ("inputs", .arr (s.inputs.map InterfaceVariable.toJson)),
    ("outputs", .arr (s.outputs.map InterfaceVariable.toJson))]

namespace Shader

def toJson (s : Shader) : Json :=
  .obj [("name", .str s.name), ("target", .str s.target.name),
    ("stages", .arr (s.stages.map FinishedStage.toJson))]

def requireGlsl (s : Shader) : Result Unit :=
  match s.target with
  | .glsl => .ok ()
  | other => fail (.notValidated other)

def files (s : Shader) : List (String × String) :=
  (s.stages.map fun stage => (s!"{s.name}.{stage.name}.{s.target.fileExtension}", stage.source)) ++
    [(s.name ++ ".json", s.toJson.pretty)]

end Shader

end MaterialShader
