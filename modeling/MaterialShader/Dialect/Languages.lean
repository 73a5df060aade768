import MaterialShader.Dialect.Basic

/-!
The languages. GLSL and MSL write types alike, with other names for vectors and matrices, and keep
closures in structures. OSL has structures for two and four components in its header; closures are
values of the language. In MDL every closure and shader is a `material`; colors have no components
of their own and go through `float3`.
-/

namespace MaterialShader

namespace Dialect

def letterMembers (letters : String) : List String :=
  letters.toList.map fun c => memberHole ++ "." ++ String.singleton c

/-- Functions of the hardware languages; a variable of such a name would hide the function. -/
def hardwareFunctions : List String :=
  ["radians", "degrees", "sin", "cos", "tan", "asin", "acos", "atan", "pow", "exp", "log",
   "exp2", "log2", "sqrt", "inversesqrt", "abs", "sign", "floor", "ceil", "fract", "mod", "fmod",
   "min", "max", "clamp", "mix", "step", "smoothstep", "length", "distance", "dot", "cross",
   "normalize", "faceforward", "reflect", "refract", "transpose", "determinant", "inverse",
   "texture", "textureSize", "textureLod", "dFdx", "dFdy", "fwidth", "any", "all", "not"]

def hardwareRules : List NameRule :=
  [.anywhere "__" "_", .anywhere "gl_" "gll", .anywhere "webgl_" "webgll",
   .anywhere "_webgl" "wwebgl"]

def structureForm (name initial fields : String) : TypeForm :=
  { TypeForm.fixed name initial with
    definition := some ("struct " ++ name ++ " " ++ braced (" " ++ fields ++ " ") ++ ";") }

def aliasForm (name initial meaning : String) : TypeForm :=
  { TypeForm.fixed name initial with aliasText := some ("#define " ++ name ++ " " ++ meaning) }

def arrayForm (name initial opening closing : String) : TypeForm :=
  { TypeForm.scalar name initial with literal := .items opening closing }

structure HardwareNames where
  vector2 : String
  vector3 : String
  vector4 : String
  matrix3 : String
  matrix4 : String
  texture : String

/-- Numbers, vectors and matrices. Text has no form of its own on hardware. -/
def hardwareValueForms (n : HardwareNames) : List (String × TypeForm) :=
  let filled (name value : String) : String := name ++ "(" ++ value ++ ")"
  [("float", .scalar "float" "0.0"),
   ("floatarray", arrayForm "float" "0.0" "float[](" ")"),
   ("integer", .scalar "int" "0"),
   ("integerarray", arrayForm "int" "0" "int[](" ")"),
   ("boolean", .scalar "bool" "false"),
   ("color3", .aggregate n.vector3 (filled n.vector3 "0.0") (letterMembers "xyz")),
   ("color4", .aggregate n.vector4 (filled n.vector4 "0.0") (letterMembers "xyzw")),
   ("vector2", .aggregate n.vector2 (filled n.vector2 "0.0") (letterMembers "xy")),
   ("vector3", .aggregate n.vector3 (filled n.vector3 "0.0") (letterMembers "xyz")),
   ("vector4", .aggregate n.vector4 (filled n.vector4 "0.0") (letterMembers "xyzw")),
   ("matrix33", .aggregate n.matrix3 (filled n.matrix3 "1.0") []),
   ("matrix44", .aggregate n.matrix4 (filled n.matrix4 "1.0") []),
   ("string", .fixed "int" "0"),
   ("filename", .fixed n.texture "")]

/-- Closures and shaders as structures; `make` writes a structure value. -/
def hardwareClosureForms (vector3 : String) (make : String → List String → String) :
    List (String × TypeForm) :=
  let filled (value : String) : String := vector3 ++ "(" ++ value ++ ")"
  let fields (first second : String) : String :=
    s!"{vector3} {first}; {vector3} {second};"
  [("BSDF",
     structureForm "BSDF" (make "BSDF" [filled "0.0", filled "1.0"])
       (fields "response" "throughput")),
   ("EDF", aliasForm "EDF" "EDF(0.0)" vector3),
   ("VDF",
     structureForm "VDF" (make "VDF" [filled "0.0", filled "0.0"])
       (fields "absorption" "scattering")),
   ("surfaceshader",
     structureForm "surfaceshader" (make "surfaceshader" [filled "0.0", filled "0.0"])
       (fields "color" "transparency")),
   ("volumeshader",
     structureForm "volumeshader" (make "volumeshader" [filled "0.0", filled "0.0"])
       (fields "color" "transparency")),
   ("displacementshader",
     structureForm "displacementshader" (make "displacementshader" [filled "0.0", "1.0"])
       s!"{vector3} offset; float scale;"),
   ("lightshader",
     structureForm "lightshader" (make "lightshader" [filled "0.0", filled "0.0"])
       (fields "intensity" "direction")),
   ("material",
     aliasForm "material" (make "material" [filled "0.0", filled "0.0"]) "surfaceshader")]

def glslKeywords : List String :=
  ["centroid", "flat", "smooth", "noperspective", "patch", "sample", "break", "continue", "do",
   "for", "while", "switch", "case", "default", "if", "else", "subroutine", "in", "out", "inout",
   "float", "double", "int", "void", "bool", "true", "false", "invariant", "discard", "return",
   "mat2", "mat3", "mat4", "dmat2", "dmat3", "dmat4", "mat2x2", "mat2x3", "mat2x4", "dmat2x2",
   "dmat2x3", "dmat2x4", "mat3x2", "mat3x3", "mat3x4", "dmat3x2", "dmat3x3", "dmat3x4", "mat4x2",
   "mat4x3", "mat4x4", "dmat4x2", "dmat4x3", "dmat4x4", "vec2", "vec3", "vec4", "ivec2", "ivec3",
   "ivec4", "bvec2", "bvec3", "bvec4", "dvec2", "dvec3", "dvec4", "uint", "uvec2", "uvec3",
   "uvec4", "lowp", "mediump", "highp", "precision", "sampler1D", "sampler2D", "sampler3D",
   "samplerCube", "sampler1DShadow", "sampler2DShadow", "samplerCubeShadow", "sampler1DArray",
   "sampler2DArray", "sampler1DArrayShadow", "sampler2DArrayShadow", "isampler1D", "isampler2D",
   "isampler3D", "isamplerCube", "isampler1DArray", "isampler2DArray", "usampler1D",
   "usampler2D", "usampler3D", "usamplerCube", "usampler1DArray", "usampler2DArray",
   "sampler2DRect", "sampler2DRectShadow", "isampler2DRect", "usampler2DRect", "samplerBuffer",
   "isamplerBuffer", "usamplerBuffer", "sampler2DMS", "isampler2DMS", "usampler2DMS",
   "sampler2DMSArray", "isampler2DMSArray", "usampler2DMSArray", "samplerCubeArray",
   "samplerCubeArrayShadow", "isamplerCubeArray", "usamplerCubeArray", "common", "partition",
   "active", "asm", "struct", "class", "union", "enum", "typedef", "template", "this", "packed",
   "goto", "inline", "noinline", "volatile", "public", "static", "extern", "external",
   "interface", "long", "short", "half", "fixed", "unsigned", "superp", "input", "output",
   "hvec2", "hvec3", "hvec4", "fvec2", "fvec3", "fvec4", "sampler3DRect", "filter", "image1D",
   "image2D", "image3D", "imageCube", "iimage1D", "iimage2D", "iimage3D", "iimageCube",
   "uimage1D", "uimage2D", "uimage3D", "uimageCube", "image1DArray", "image2DArray",
   "iimage1DArray", "iimage2DArray", "uimage1DArray", "uimage2DArray", "image1DShadow",
   "image2DShadow", "image1DArrayShadow", "image2DArrayShadow", "imageBuffer", "iimageBuffer",
   "uimageBuffer", "sizeof", "cast", "namespace", "using", "row_major"]

def glslNames : HardwareNames := ⟨"vec2", "vec3", "vec4", "mat3", "mat4", "sampler2D"⟩

def calledStructure (name : String) (fields : List String) : String :=
  name ++ "(" ++ Text.join ", " fields ++ ")"

def bracedStructure (name : String) (fields : List String) : String :=
  name ++ braced (Text.join ", " fields)

def glsl : Dialect :=
  { (((empty .glsl).restrict glslKeywords).restrict hardwareFunctions |>.addRules hardwareRules
      |>.registerAll (hardwareValueForms glslNames)
      |>.registerAll (hardwareClosureForms "vec3" calledStructure)) with
    inputQualifier := "in"
    outputQualifier := "out"
    uniformQualifier := "uniform"
    constantQualifier := "const" }

def mslKeywords : List String :=
  ["centroid", "flat", "smooth", "noperspective", "patch", "sample", "break", "continue", "do",
   "for", "while", "switch", "case", "default", "if", "else", "subroutine", "in", "out", "inout",
   "float", "double", "int", "void", "bool", "true", "false", "invariant", "discard_fragment",
   "return", "float2x2", "float2x3", "float2x4", "float3x2", "float3x3", "float3x4", "float4x2",
   "float4x3", "float4x4", "float2", "float3", "float4", "int2", "int3", "int4", "bool2",
   "bool3", "bool4", "uint", "uint2", "uint3", "uint4", "lowp", "mediump", "highp", "precision",
   "common", "partition", "active", "asm", "struct", "class", "union", "enum", "typedef",
   "template", "this", "packed", "inline", "noinline", "volatile", "public", "static", "extern",
   "external", "interface", "long", "short", "half", "fixed", "unsigned", "superp", "input",
   "output", "half2", "half3", "half4", "sampler3DRect", "filter", "texture1d", "texture2d",
   "texture3d", "textureCube", "buffer", "sizeof", "cast", "namespace", "using", "row_major",
   "mix", "sampler", "thread", "device", "constant", "vertex", "fragment"]

def mslNames : HardwareNames :=
  ⟨"float2", "float3", "float4", "float3x3", "float4x4", "MetalTexture"⟩

def mslValueForms : List (String × TypeForm) :=
  [("floatarray", arrayForm "float" "0" "\x7b" "\x7d"),
   ("integerarray", arrayForm "int" "0" "\x7b" "\x7d"),
   ("filename", structureForm "MetalTexture" "" "texture2d<float> tex; sampler s;")]

def msl : Dialect :=
  { (((empty .msl).restrict mslKeywords).restrict hardwareFunctions |>.addRules hardwareRules
      |>.registerAll (hardwareValueForms mslNames)
      |>.registerAll (hardwareClosureForms "float3" bracedStructure)
      |>.registerAll mslValueForms) with
    outputQualifier := "thread"
    outputByReference := true
    uniformQualifier := "constant"
    constantQualifier := "constant" }

def oslKeywords : List String :=
  ["and", "break", "closure", "color", "continue", "do", "else", "emit", "float", "for", "if",
   "illuminance", "illuminate", "int", "matrix", "normal", "not", "or", "output", "point",
   "public", "return", "string", "struct", "vector", "void", "while", "bool", "case", "catch",
   "char", "class", "const", "delete", "default", "double", "enum", "extern", "false", "friend",
   "goto", "inline", "long", "new", "operator", "private", "protected", "short", "signed",
   "sizeof", "static", "switch", "template", "this", "throw", "true", "try", "typedef",
   "uniform", "union", "unsigned", "varying", "virtual", "volatile", "emission", "background",
   "diffuse", "oren_nayer", "translucent", "phong", "ward", "microfacet", "reflection",
   "transparent", "debug", "holdout", "subsurface"]

def indexedMembers (base : String) : List String :=
  [base ++ "[0]", base ++ "[1]", base ++ "[2]"]

def textForm (name initial : String) : TypeForm :=
  { TypeForm.scalar name initial with literal := .quoted }

def oslValueForms : List (String × TypeForm) :=
  [("float", .scalar "float" "0.0"),
   ("floatarray", arrayForm "float" "0.0" "\x7b" "\x7d"),
   ("integer", .scalar "int" "0"),
   ("integerarray", arrayForm "int" "0" "\x7b" "\x7d"),
   ("boolean", { TypeForm.scalar "int" "0" with literal := .numericTruth }),
   ("color3", .aggregate "color" "color(0.0)" (indexedMembers memberHole)),
   ("color4",
     { TypeForm.aggregate "color4" "color4(color(0.0), 0.0)"
         (indexedMembers (memberHole ++ ".rgb") ++ [memberHole ++ ".a"]) with
       uniformInitial := braced "color(0.0), 0.0"
       literal := .nestedColor "color" true }),
   ("vector2",
     { TypeForm.aggregate "vector2" "vector2(0.0, 0.0)" (letterMembers "xy") with
       uniformInitial := braced "0.0, 0.0"
       literal := .constructed true }),
   ("vector3", .aggregate "vector" "vector(0.0)" (indexedMembers memberHole)),
   ("vector4",
     { TypeForm.aggregate "vector4" "vector4(0.0, 0.0, 0.0, 0.0)" (letterMembers "xyzw") with
       uniformInitial := braced "0.0, 0.0, 0.0, 0.0"
       literal := .constructed true }),
   ("matrix33",
     { TypeForm.aggregate "matrix" "matrix(1.0)" [] with literal := .paddedMatrix }),
   ("matrix44", .aggregate "matrix" "matrix(1.0)" []),
   ("string", textForm "string" "\"\""),
   ("filename", textForm "string" "\"\"")]

def closureTypeNames : List String :=
  ["BSDF", "EDF", "VDF", "surfaceshader", "volumeshader", "displacementshader", "lightshader",
   "material"]

def oslClosureForm : TypeForm :=
  { TypeForm.fixed "closure color" "null_closure" with uniformInitial := "0" }

def osl : Dialect :=
  { ((empty .osl).restrict oslKeywords |>.registerAll oslValueForms
      |>.registerAll (closureTypeNames.map fun name => (name, oslClosureForm))) with
    outputQualifier := "output" }

def mdlKeywords : List String :=
  ["annotation", "bool", "bool2", "bool3", "bool4", "break", "bsdf", "bsdf_measurement", "case",
   "cast", "color", "const", "continue", "default", "do", "double", "double2", "double2x2",
   "double2x3", "double3", "double3x2", "double3x3", "double3x4", "double4", "double4x3",
   "double4x4", "double4x2", "double2x4", "edf", "else", "enum", "export", "false", "float",
   "float2", "float2x2", "float2x3", "float3", "float3x2", "float3x3", "float3x4", "float4",
   "float4x3", "float4x4", "float4x2", "float2x4", "for", "hair_bsdf", "if", "import", "in",
   "int", "int2", "int3", "int4", "intensity_mode", "intensity_power",
   "intensity_radiant_exitance", "let", "light_profile", "material", "material_emission",
   "material_geometry", "material_surface", "material_volume", "mdl", "module", "package",
   "return", "string", "struct", "switch", "texture_2d", "texture_3d", "texture_cube",
   "texture_ptex", "true", "typedef", "uniform", "using", "varying", "vdf", "while", "auto",
   "catch", "char", "class", "const_cast", "delete", "dynamic_cast", "explicit", "extern",
   "external", "foreach", "friend", "goto", "graph", "half", "half2", "half2x2", "half2x3",
   "half3", "half3x2", "half3x3", "half3x4", "half4", "half4x3", "half4x4", "half4x2", "half2x4",
   "inline", "inout", "lambda", "long", "mutable", "namespace", "native", "new", "operator",
   "out", "phenomenon", "private", "protected", "public", "reinterpret_cast", "sampler",
   "shader", "short", "signed", "sizeof", "static", "static_cast", "technique", "template",
   "this", "throw", "try", "typeid", "typename", "union", "unsigned", "virtual", "void",
   "volatile", "wchar_t"]

def colorMembers (base : String) : List String :=
  ["float3(" ++ base ++ ").x", "float3(" ++ base ++ ").y", "float3(" ++ base ++ ").z"]

def mdlValueForms : List (String × TypeForm) :=
  [("float", .scalar "float" "0.0"),
   ("floatarray", arrayForm "float" "0.0" "float[](" ")"),
   ("integer", .scalar "int" "0"),
   ("integerarray", arrayForm "int" "0" "int[](" ")"),
   ("boolean", .scalar "bool" "false"),
   ("color3", .aggregate "color" "color(0.0)" (colorMembers memberHole)),
   ("color4",
     { TypeForm.aggregate "color4" "mk_color4(0.0)"
         (colorMembers (memberHole ++ ".rgb") ++ [memberHole ++ ".a"]) with
       constructorName := some "mk_color4" }),
   ("vector2", .aggregate "float2" "float2(0.0)" (letterMembers "xy")),
   ("vector3", .aggregate "float3" "float3(0.0)" (letterMembers "xyz")),
   ("vector4", .aggregate "float4" "float4(0.0)" (letterMembers "xyzw")),
   ("matrix33", .aggregate "float3x3" "float3x3(1.0)" []),
   ("matrix44", .aggregate "float4x4" "float4x4(1.0)" []),
   ("string", textForm "string" "\"\""),
   ("filename",
     { TypeForm.scalar "texture_2d" "texture_2d()" with
       literal := .resource "texture_2d(" ", ::tex::gamma_default)" })]

def mdl : Dialect :=
  { ((empty .mdl).restrict mdlKeywords |>.addRules [.atStart "_" "u"]
      |>.registerAll mdlValueForms
      |>.registerAll
        (closureTypeNames.map fun name => (name, TypeForm.fixed "material" "material()"))) with
    uniformQualifier := "uniform" }

def ofTarget : Target → Dialect
  | .glsl => glsl
  | .osl => osl
  | .mdl => mdl
  | .msl => msl

end Dialect

end MaterialShader
