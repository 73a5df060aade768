import MaterialShader.Failure
import MaterialShader.Json

/-!
Options of a generation run, and their JSON form. Every field may be left out.
-/

namespace MaterialShader

inductive InterfaceKind where
  /-- Every editable unconnected input. -/
  | complete
  /-- Only inputs of the graph, and textures; all else is a literal. -/
  | reduced
  deriving DecidableEq, Repr

inductive SpecularEnvironment where
  | none
  | prefilter
  | fis
  deriving DecidableEq, Repr

structure Options where
  interfaceKind : InterfaceKind := .complete
  verticalFlip : Bool := false
  transparency : Bool := false
  specularEnvironment : SpecularEnvironment := .prefilter
  maxLights : Nat := 3
  normalizeUdim : Bool := false
  depthMoments : Bool := false
  shadowMap : Bool := false
  ambientOcclusion : Bool := false
  srgbOutput : Bool := false
  /-- Compute bitangents from normal and tangent, without an attribute of their own. -/
  implicitBitangents : Bool := true
  textureSpace : Bool := false
  constantFolding : Bool := true
  deriving DecidableEq, Repr

namespace InterfaceKind

def name : InterfaceKind → String
  | .complete => "complete"
  | .reduced => "reduced"

def ofJson? (j : Json) : Option InterfaceKind := do
  let word ← j.word?
  [InterfaceKind.complete, .reduced].find? fun k => k.name == word

end InterfaceKind

namespace SpecularEnvironment

def name : SpecularEnvironment → String
  | .none => "none"
  | .prefilter => "prefilter"
  | .fis => "fis"

def ofJson? (j : Json) : Option SpecularEnvironment := do
  let word ← j.word?
  [SpecularEnvironment.none, .prefilter, .fis].find? fun k => k.name == word

end SpecularEnvironment

namespace Options

attribute [local instance (high)] instPowNat

open Json

def fieldNames : List String :=
  ["shaderInterfaceType", "fileTextureVerticalFlip", "hwTransparency",
   "hwSpecularEnvironmentMethod", "hwMaxActiveLightSources", "hwNormalizeUdimTexCoords",
   "hwWriteDepthMoments", "hwShadowMap", "hwAmbientOcclusion", "hwSrgbEncodeOutput",
   "hwImplicitBitangents", "textureSpaceRender", "constantFolding"]

def ofJson? (j : Json) : Option Options := do
  let base : Options := {}
  let r ← record? fieldNames j
  let flag (name : String) (fallback : Bool) : Option Bool := r.withDefault? name fallback asBool?
  let interfaceKind ←
    r.withDefault? "shaderInterfaceType" base.interfaceKind InterfaceKind.ofJson?
  let verticalFlip ← flag "fileTextureVerticalFlip" base.verticalFlip
  let transparency ← flag "hwTransparency" base.transparency
  let specularEnvironment ←
    r.withDefault? "hwSpecularEnvironmentMethod" base.specularEnvironment
      SpecularEnvironment.ofJson?
  let maxLights ←
    r.withDefault? "hwMaxActiveLightSources" base.maxLights (natBelow? (2 ^ (32 : Nat)))
  let normalizeUdim ← flag "hwNormalizeUdimTexCoords" base.normalizeUdim
  let depthMoments ← flag "hwWriteDepthMoments" base.depthMoments
  let shadowMap ← flag "hwShadowMap" base.shadowMap
  let ambientOcclusion ← flag "hwAmbientOcclusion" base.ambientOcclusion
  let srgbOutput ← flag "hwSrgbEncodeOutput" base.srgbOutput
  let implicitBitangents ← flag "hwImplicitBitangents" base.implicitBitangents
  let textureSpace ← flag "textureSpaceRender" base.textureSpace
  let constantFolding ← flag "constantFolding" base.constantFolding
  return { interfaceKind, verticalFlip, transparency, specularEnvironment, maxLights,
           normalizeUdim, depthMoments, shadowMap, ambientOcclusion, srgbOutput,
           implicitBitangents, textureSpace, constantFolding }

def parse? (text : String) : Option Options := Json.parse? text >>= ofJson?

def toJson (o : Options) : Json :=
  .obj [("shaderInterfaceType", .str o.interfaceKind.name),
    ("fileTextureVerticalFlip", .bool o.verticalFlip),
    ("hwTransparency", .bool o.transparency),
    ("hwSpecularEnvironmentMethod", .str o.specularEnvironment.name),
    ("hwMaxActiveLightSources", .int o.maxLights),
    ("hwNormalizeUdimTexCoords", .bool o.normalizeUdim),
    ("hwWriteDepthMoments", .bool o.depthMoments),
    ("hwShadowMap", .bool o.shadowMap),
    ("hwAmbientOcclusion", .bool o.ambientOcclusion),
    ("hwSrgbEncodeOutput", .bool o.srgbOutput),
    ("hwImplicitBitangents", .bool o.implicitBitangents),
    ("textureSpaceRender", .bool o.textureSpace),
    ("constantFolding", .bool o.constantFolding)]

end Options

end MaterialShader
