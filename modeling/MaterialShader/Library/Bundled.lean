import MaterialShader.Library.Basic

/-!
The bundled library.

Definitions cover arithmetic, closures, constants, channels, conditionals, geometry, images,
scattering, surfaces and lights. Implementations give their code; a later one is preferred to an
earlier one.
-/

namespace MaterialShader.Library.Bundled

open Numeric

def decimal (coefficient : Nat) (exponent : Int) : Json :=
  .float (Double.ofDecimal false coefficient exponent)

def negative (coefficient : Nat) (exponent : Int) : Json :=
  .float (Double.ofDecimal true coefficient exponent)

def zero : Json := decimal 0 0

def one : Json := decimal 1 0

def plain (name typeName : String) : Port := ⟨name, typeName, none, none, false⟩

def valued (name typeName : String) (value : Json) : Port := ⟨name, typeName, some value, none, false⟩

def picked (name typeName : String) (value : Json) : Port := ⟨name, typeName, some value, none, true⟩

def fromGeometry (name typeName geometry : String) : Port :=
  ⟨name, typeName, none, some geometry, false⟩

def numeric : List String := ["float", "color3", "color4", "vector2", "vector3", "vector4"]

def closures : List String := ["BSDF", "EDF", "VDF", "surfaceshader"]

def matrices : List String := ["matrix33", "matrix44"]

def everywhere : List Target := [.glsl, .osl, .mdl, .msl]

def withStatements : List Target := [.glsl, .osl, .msl]

def hardware : List Target := [.glsl, .msl]

def hole (name : String) : String := "\x7b\x7b" ++ name ++ "\x7d\x7d"

def lined (lines : List String) : String := Text.join "\n" lines

def block (head : String) (body : List String) : String :=
  lined ([head, "\x7b"] ++ body.map ("    " ++ ·) ++ ["\x7d"])

def expression (definition : String) (targets : List Target) (template : String) :
    ImplementationEntry :=
  ⟨definition, targets, some template, none, none, []⟩

def call (definition : String) (targets : List Target) (name : String)
    (extraArguments : List String) (source : String) : ImplementationEntry :=
  ⟨definition, targets, none, some name, some source, extraArguments⟩

def arithmeticDefinitions : List DefinitionEntry :=
  [⟨"add", "add", numeric ++ closures, [valued "in1" "T" zero, valued "in2" "T" zero],
      [plain "out" "T"]⟩,
   ⟨"subtract", "subtract", numeric, [valued "in1" "T" zero, valued "in2" "T" zero],
      [plain "out" "T"]⟩,
   ⟨"multiply", "multiply", numeric, [valued "in1" "T" zero, valued "in2" "T" one],
      [plain "out" "T"]⟩,
   ⟨"divide", "divide", numeric, [valued "in1" "T" zero, valued "in2" "T" one], [plain "out" "T"]⟩,
   ⟨"min", "min", numeric, [valued "in1" "T" zero, valued "in2" "T" zero], [plain "out" "T"]⟩,
   ⟨"max", "max", numeric, [valued "in1" "T" zero, valued "in2" "T" zero], [plain "out" "T"]⟩,
   ⟨"multiply_bsdff", "multiply", [], [plain "in1" "BSDF", valued "in2" "float" one],
      [plain "out" "BSDF"]⟩,
   ⟨"multiply_bsdfc", "multiply", [], [plain "in1" "BSDF", valued "in2" "color3" one],
      [plain "out" "BSDF"]⟩,
   ⟨"multiply_edff", "multiply", [], [plain "in1" "EDF", valued "in2" "float" one],
      [plain "out" "EDF"]⟩,
   ⟨"multiply_edfc", "multiply", [], [plain "in1" "EDF", valued "in2" "color3" one],
      [plain "out" "EDF"]⟩,
   ⟨"multiply_vdff", "multiply", [], [plain "in1" "VDF", valued "in2" "float" one],
      [plain "out" "VDF"]⟩,
   ⟨"mix", "mix", numeric ++ closures,
      [valued "fg" "T" zero, valued "bg" "T" zero, valued "mix" "float" (decimal 5 (-1))],
      [plain "out" "T"]⟩,
   ⟨"layer_bsdf", "layer", [], [plain "top" "BSDF", plain "base" "BSDF"], [plain "out" "BSDF"]⟩,
   ⟨"layer_vdf", "layer", [], [plain "top" "BSDF", plain "base" "VDF"], [plain "out" "BSDF"]⟩]

def constantDefinitions : List DefinitionEntry :=
  [⟨"constant", "constant", numeric ++ matrices, [valued "value" "T" zero], [plain "out" "T"]⟩,
   ⟨"constant_integer", "constant", [], [valued "value" "integer" (.int 0)],
      [plain "out" "integer"]⟩,
   ⟨"constant_boolean", "constant", [], [valued "value" "boolean" (.bool false)],
      [plain "out" "boolean"]⟩,
   ⟨"dot", "dot", numeric ++ matrices, [valued "in" "T" zero], [plain "out" "T"]⟩,
   ⟨"dot_integer", "dot", [], [valued "in" "integer" (.int 0)], [plain "out" "integer"]⟩,
   ⟨"dot_boolean", "dot", [], [valued "in" "boolean" (.bool false)], [plain "out" "boolean"]⟩,
   ⟨"dot_closure", "dot", closures, [plain "in" "T"], [plain "out" "T"]⟩,
   ⟨"dotproduct", "dotproduct", ["vector3", "color3"],
      [valued "in1" "T" zero, valued "in2" "T" zero], [plain "out" "float"]⟩]

def channelDefinitions : List DefinitionEntry :=
  [⟨"convert", "convert", numeric ++ ["integer", "boolean"], [plain "in" "any"], [plain "out" "T"]⟩,
   ⟨"swizzle", "swizzle", numeric, [plain "in" "any", picked "channels" "string" (.str "")],
      [plain "out" "T"]⟩,
   ⟨"extract_float", "extract", [], [plain "in" "any", picked "index" "integer" (.int 0)],
      [plain "out" "float"]⟩,
   ⟨"combine2", "combine2", ["vector2"], [valued "in1" "float" zero, valued "in2" "float" zero],
      [plain "out" "T"]⟩,
   ⟨"combine3", "combine3", ["color3", "vector3"],
      [valued "in1" "float" zero, valued "in2" "float" zero, valued "in3" "float" zero],
      [plain "out" "T"]⟩,
   ⟨"combine4", "combine4", ["color4", "vector4"], [valued "in1" "float" zero,
       valued "in2" "float" zero, valued "in3" "float" zero, valued "in4" "float" zero],
      [plain "out" "T"]⟩,
   ⟨"separate2_vector2", "separate2", [], [valued "in" "vector2" zero],
      [plain "outx" "float", plain "outy" "float"]⟩,
   ⟨"separate3_color3", "separate3", [], [valued "in" "color3" zero],
      [plain "outr" "float", plain "outg" "float", plain "outb" "float"]⟩,
   ⟨"separate3_vector3", "separate3", [], [valued "in" "vector3" zero],
      [plain "outx" "float", plain "outy" "float", plain "outz" "float"]⟩,
   ⟨"separate4_color4", "separate4", [], [valued "in" "color4" zero],
      [plain "outr" "float", plain "outg" "float", plain "outb" "float", plain "outa" "float"]⟩,
   ⟨"separate4_vector4", "separate4", [], [valued "in" "vector4" zero],
      [plain "outx" "float", plain "outy" "float", plain "outz" "float", plain "outw" "float"]⟩]

def conditionalDefinitions : List DefinitionEntry :=
  [⟨"switch", "switch", numeric, [valued "in1" "T" zero, valued "in2" "T" zero,
       valued "in3" "T" zero, valued "in4" "T" zero, valued "in5" "T" zero,
       valued "which" "float" zero], [plain "out" "T"]⟩,
   ⟨"ifgreater", "ifgreater", numeric, [valued "value1" "float" one, valued "value2" "float" zero,
       valued "in1" "T" zero, valued "in2" "T" zero], [plain "out" "T"]⟩,
   ⟨"compare", "compare", numeric, [valued "intest" "float" (decimal 5 (-1)),
       valued "cutoff" "float" (decimal 5 (-1)), valued "in1" "T" zero, valued "in2" "T" zero],
      [plain "out" "T"]⟩]

def geometryDefinitions : List DefinitionEntry :=
  [⟨"position_vector3", "position", [], [picked "space" "string" (.str "object")],
      [plain "out" "vector3"]⟩,
   ⟨"normal_vector3", "normal", [], [picked "space" "string" (.str "object")],
      [plain "out" "vector3"]⟩,
   ⟨"tangent_vector3", "tangent", [], [picked "space" "string" (.str "object")],
      [plain "out" "vector3"]⟩,
   ⟨"bitangent_vector3", "bitangent", [], [picked "space" "string" (.str "object")],
      [plain "out" "vector3"]⟩,
   ⟨"texcoord", "texcoord", ["vector2", "vector3"], [picked "index" "integer" (.int 0)],
      [plain "out" "T"]⟩,
   ⟨"geomcolor", "geomcolor", ["float", "color3", "color4"], [picked "index" "integer" (.int 0)],
      [plain "out" "T"]⟩,
   ⟨"geompropvalue", "geompropvalue", ["float", "color3", "vector2", "vector3", "vector4"],
      [picked "geomprop" "string" (.str ""), valued "default" "T" zero], [plain "out" "T"]⟩,
   ⟨"geompropvalue_integer", "geompropvalue", [],
      [picked "geomprop" "string" (.str ""), valued "default" "integer" (.int 0)],
      [plain "out" "integer"]⟩,
   ⟨"geompropvalue_boolean", "geompropvalue", [],
      [picked "geomprop" "string" (.str ""), valued "default" "boolean" (.bool false)],
      [plain "out" "boolean"]⟩,
   ⟨"time_float", "time", [], [], [plain "out" "float"]⟩,
   ⟨"frame_float", "frame", [], [], [plain "out" "float"]⟩,
   ⟨"viewdirection_vector3", "viewdirection", [], [picked "space" "string" (.str "world")],
      [plain "out" "vector3"]⟩]

def shadingDefinitions : List DefinitionEntry :=
  [⟨"image", "image", ["float", "color3", "color4", "vector3"], [valued "file" "filename" (.str ""),
       valued "default" "T" zero, fromGeometry "texcoord" "vector2" "UV0"], [plain "out" "T"]⟩,
   ⟨"diffuse_bsdf", "diffuse_bsdf", [], [valued "weight" "float" one,
       valued "color" "color3" (.arr [decimal 18 (-2), decimal 18 (-2), decimal 18 (-2)]),
       valued "roughness" "float" zero, fromGeometry "normal" "vector3" "Nworld"],
      [plain "out" "BSDF"]⟩,
   ⟨"dielectric_bsdf", "dielectric_bsdf", [], [valued "weight" "float" one,
       valued "tint" "color3" one, valued "ior" "float" (decimal 15 (-1)),
       valued "roughness" "vector2" (.arr [decimal 5 (-2), decimal 5 (-2)]),
       fromGeometry "normal" "vector3" "Nworld"], [plain "out" "BSDF"]⟩,
   ⟨"uniform_edf", "uniform_edf", [], [valued "color" "color3" one], [plain "out" "EDF"]⟩,
   ⟨"absorption_vdf", "absorption_vdf", [], [valued "absorption" "vector3" zero],
      [plain "out" "VDF"]⟩,
   ⟨"surface", "surface", [], [plain "bsdf" "BSDF", plain "edf" "EDF", valued "opacity" "float" one,
       fromGeometry "position" "vector3" "Pworld"], [plain "out" "surfaceshader"]⟩,
   ⟨"surfacematerial", "surfacematerial", [], [plain "surfaceshader" "surfaceshader"],
      [plain "out" "material"]⟩,
   ⟨"light", "light", [],
      [plain "edf" "EDF", valued "intensity" "color3" one, valued "exposure" "float" zero],
      [plain "out" "lightshader"]⟩,
   ⟨"point_light", "point_light", [], [valued "position" "vector3" zero,
       valued "color" "color3" one, valued "intensity" "float" one], [plain "out" "lightshader"]⟩,
   ⟨"directional_light", "directional_light", [],
      [valued "direction" "vector3" (.arr [zero, negative 1 0, zero]), valued "color" "color3" one,
       valued "intensity" "float" one], [plain "out" "lightshader"]⟩]

/-- Arithmetic. A color with alpha is a structure in MDL and goes by parts. -/
def arithmeticCode : List ImplementationEntry :=
  [expression "add" withStatements (hole "in1" ++ " + " ++ hole "in2"),
   expression "add" [.mdl] (hole "in1" ++ " + " ++ hole "in2"),
   expression "add_color4" [.mdl]
      ("mk_color4(" ++ hole "in1" ++ ".rgb + " ++ hole "in2" ++ ".rgb, " ++ hole "in1" ++ ".a + " ++ hole "in2" ++ ".a)"),
   expression "subtract" withStatements (hole "in1" ++ " - " ++ hole "in2"),
   expression "subtract" [.mdl] (hole "in1" ++ " - " ++ hole "in2"),
   expression "subtract_color4" [.mdl]
      ("mk_color4(" ++ hole "in1" ++ ".rgb - " ++ hole "in2" ++ ".rgb, " ++ hole "in1" ++ ".a - " ++ hole "in2" ++ ".a)"),
   expression "multiply" withStatements (hole "in1" ++ " * " ++ hole "in2"),
   expression "multiply" [.mdl] (hole "in1" ++ " * " ++ hole "in2"),
   expression "multiply_color4" [.mdl]
      ("mk_color4(" ++ hole "in1" ++ ".rgb * " ++ hole "in2" ++ ".rgb, " ++ hole "in1" ++ ".a * " ++ hole "in2" ++ ".a)"),
   expression "divide" withStatements (hole "in1" ++ " / " ++ hole "in2"),
   expression "divide" [.mdl] (hole "in1" ++ " / " ++ hole "in2"),
   expression "divide_color4" [.mdl]
      ("mk_color4(" ++ hole "in1" ++ ".rgb / " ++ hole "in2" ++ ".rgb, " ++ hole "in1" ++ ".a / " ++ hole "in2" ++ ".a)"),
   expression "min" withStatements ("min(" ++ hole "in1" ++ ", " ++ hole "in2" ++ ")"),
   expression "min" [.mdl] ("math::min(" ++ hole "in1" ++ ", " ++ hole "in2" ++ ")"),
   expression "min_color4" [.mdl]
      ("mk_color4(math::min(" ++ hole "in1" ++ ".rgb, " ++ hole "in2" ++ ".rgb), math::min(" ++ hole "in1" ++ ".a, " ++ hole "in2" ++ ".a))"),
   expression "max" withStatements ("max(" ++ hole "in1" ++ ", " ++ hole "in2" ++ ")"),
   expression "max" [.mdl] ("math::max(" ++ hole "in1" ++ ", " ++ hole "in2" ++ ")"),
   expression "max_color4" [.mdl]
      ("mk_color4(math::max(" ++ hole "in1" ++ ".rgb, " ++ hole "in2" ++ ".rgb), math::max(" ++ hole "in1" ++ ".a, " ++ hole "in2" ++ ".a))"),
   expression "mix" withStatements
      ("mix(" ++ hole "bg" ++ ", " ++ hole "fg" ++ ", " ++ hole "mix" ++ ")"),
   expression "mix" [.mdl]
      ("math::lerp(" ++ hole "bg" ++ ", " ++ hole "fg" ++ ", " ++ hole "mix" ++ ")"),
   expression "mix_color4" [.mdl]
      ("mk_color4(math::lerp(" ++ hole "bg" ++ ".rgb, " ++ hole "fg" ++ ".rgb, " ++ hole "mix" ++ "), math::lerp(" ++ hole "bg" ++ ".a, " ++ hole "fg" ++ ".a, " ++ hole "mix" ++ "))")]

def constantCode : List ImplementationEntry :=
  [expression "constant" everywhere (hole "value"),
   expression "constant_integer" everywhere (hole "value"),
   expression "constant_boolean" everywhere (hole "value"),
   expression "dot" everywhere (hole "in"),
   expression "dot_integer" everywhere (hole "in"),
   expression "dot_boolean" everywhere (hole "in"),
   expression "dot_closure" everywhere (hole "in"),
   expression "dotproduct" hardware ("dot(" ++ hole "in1" ++ ", " ++ hole "in2" ++ ")"),
   expression "dotproduct" [.osl]
      ("dot(vector(" ++ hole "in1" ++ "), vector(" ++ hole "in2" ++ "))"),
   expression "dotproduct" [.mdl]
      ("math::dot(float3(" ++ hole "in1" ++ "), float3(" ++ hole "in2" ++ "))")]

def imageCode : List ImplementationEntry :=
  [call "image" [.glsl] "mx_image_$suffix" []
      (block "void mx_image_$suffix(sampler2D tex_sampler, $type default_value, vec2 texcoord, out $type result)"
      ["result = texture(tex_sampler, mx_transform_uv(texcoord)).$channels;"]),
   call "image" [.msl] "mx_image_$suffix" []
      (block "void mx_image_$suffix(MetalTexture tex_sampler, $type default_value, float2 texcoord, thread $type& result)"
      ["result = tex_sampler.tex.sample(tex_sampler.s, mx_transform_uv(texcoord)).$channels;"]),
   call "image_float" [.osl] "mx_image_float" []
      (block "void mx_image_float(string file, float default_value, vector2 texcoord, output float result)"
      ["vector2 st = mx_transform_uv(texcoord);",
       "result = texture(file, st.x, st.y, \"missingcolor\", color(default_value), \"missingalpha\", default_value);"]),
   call "image_float" [.mdl] "mx_image_float" []
      (block "float mx_image_float(texture_2d file, float default_value, float2 texcoord)"
      ["float2 uv = mx_transform_uv(texcoord);",
       "return tex::texture_isvalid(file) ? tex::lookup_float(file, uv) : default_value;"]),
   call "image_color3" [.osl] "mx_image_color3" []
      (block "void mx_image_color3(string file, color default_value, vector2 texcoord, output color result)"
      ["vector2 st = mx_transform_uv(texcoord);",
       "result = texture(file, st.x, st.y, \"missingcolor\", default_value);"]),
   call "image_color3" [.mdl] "mx_image_color3" []
      (block "color mx_image_color3(texture_2d file, color default_value, float2 texcoord)"
      ["float2 uv = mx_transform_uv(texcoord);",
       "return tex::texture_isvalid(file) ? tex::lookup_color(file, uv) : default_value;"]),
   call "image_color4" [.osl] "mx_image_color4" []
      (block "void mx_image_color4(string file, color4 default_value, vector2 texcoord, output color4 result)"
      ["vector2 st = mx_transform_uv(texcoord);",
       "float alpha = 1.0;",
       "color rgb = texture(file, st.x, st.y, \"alpha\", alpha, \"missingcolor\", default_value.rgb, \"missingalpha\", default_value.a);",
       "result = color4(rgb, alpha);"]),
   call "image_color4" [.mdl] "mx_image_color4" []
      (block "color4 mx_image_color4(texture_2d file, color4 default_value, float2 texcoord)"
      ["float2 uv = mx_transform_uv(texcoord);",
       "return tex::texture_isvalid(file) ? mk_color4(tex::lookup_float4(file, uv)) : default_value;"]),
   call "image_vector3" [.osl] "mx_image_vector3" []
      (block "void mx_image_vector3(string file, vector default_value, vector2 texcoord, output vector result)"
      ["vector2 st = mx_transform_uv(texcoord);",
       "result = vector(texture(file, st.x, st.y, \"missingcolor\", color(default_value)));"]),
   call "image_vector3" [.mdl] "mx_image_vector3" []
      (block "float3 mx_image_vector3(texture_2d file, float3 default_value, float2 texcoord)"
      ["float2 uv = mx_transform_uv(texcoord);",
       "return tex::texture_isvalid(file) ? tex::lookup_float3(file, uv) : default_value;"])]

def scatteringCode : List ImplementationEntry :=
  [call "diffuse_bsdf" [.glsl] "mx_diffuse_bsdf" []
      (block "void mx_diffuse_bsdf(float weight, vec3 albedo, float roughness, vec3 N, out BSDF result)"
      ["result.response = albedo * weight;",
       "result.throughput = vec3(1.0 - weight);"]),
   call "diffuse_bsdf" [.msl] "mx_diffuse_bsdf" []
      (block "void mx_diffuse_bsdf(float weight, float3 albedo, float roughness, float3 N, thread BSDF& result)"
      ["result.response = albedo * weight;",
       "result.throughput = float3(1.0 - weight);"]),
   call "diffuse_bsdf" [.osl] "mx_diffuse_bsdf" []
      (block "void mx_diffuse_bsdf(float weight, color albedo, float roughness, vector N, output closure color result)"
      ["result = weight * albedo * oren_nayar(N, roughness);"]),
   call "diffuse_bsdf" [.mdl] "mx_diffuse_bsdf" []
      (lined
      ["material mx_diffuse_bsdf(float weight, color albedo, float roughness, float3 N) = material(",
       "    surface: material_surface(",
       "        scattering: df::weighted_layer(",
       "            weight: weight,",
       "            layer: df::diffuse_reflection_bsdf(tint: albedo, roughness: roughness),",
       "            normal: N",
       "        )",
       "    )",
       ");"]),
   call "dielectric_bsdf" [.glsl] "mx_dielectric_bsdf" []
      (block "void mx_dielectric_bsdf(float weight, vec3 tint, float ior, vec2 roughness, vec3 N, out BSDF result)"
      ["float f0 = (ior - 1.0) / (ior + 1.0);",
       "f0 = f0 * f0;",
       "result.response = tint * weight * f0;",
       "result.throughput = vec3(1.0 - weight * f0);"]),
   call "dielectric_bsdf" [.msl] "mx_dielectric_bsdf" []
      (block "void mx_dielectric_bsdf(float weight, float3 tint, float ior, float2 roughness, float3 N, thread BSDF& result)"
      ["float f0 = (ior - 1.0) / (ior + 1.0);",
       "f0 = f0 * f0;",
       "result.response = tint * weight * f0;",
       "result.throughput = float3(1.0 - weight * f0);"]),
   call "dielectric_bsdf" [.osl] "mx_dielectric_bsdf" []
      (block "void mx_dielectric_bsdf(float weight, color tint, float ior, vector2 roughness, vector N, output closure color result)"
      ["result = weight * tint * microfacet(\"ggx\", N, roughness.x, ior, 0);"]),
   call "dielectric_bsdf" [.mdl] "mx_dielectric_bsdf" []
      (lined
      ["material mx_dielectric_bsdf(float weight, color tint, float ior, float2 roughness, float3 N) = material(",
       "    surface: material_surface(",
       "        scattering: df::weighted_layer(",
       "            weight: weight,",
       "            layer: df::fresnel_layer(",
       "                ior: ior,",
       "                layer: df::microfacet_ggx_smith_bsdf(roughness_u: roughness.x, roughness_v: roughness.y, tint: tint, mode: df::scatter_reflect),",
       "                base: df::microfacet_ggx_smith_bsdf(roughness_u: roughness.x, roughness_v: roughness.y, tint: tint, mode: df::scatter_transmit)",
       "            ),",
       "            normal: N",
       "        )",
       "    ),",
       "    ior: color(ior)",
       ");"])]

def emissionCode : List ImplementationEntry :=
  [expression "uniform_edf" hardware (hole "color"),
   expression "uniform_edf" [.osl] (hole "color" ++ " * emission()"),
   expression "uniform_edf" [.mdl]
      ("material(surface: material_surface(emission: material_emission(emission: df::diffuse_edf(), intensity: " ++ hole "color" ++ ")))"),
   expression "absorption_vdf" [.glsl] ("VDF(" ++ hole "absorption" ++ ", vec3(0.0))"),
   expression "absorption_vdf" [.msl] "VDF\x7b\x7b\x7babsorption\x7d\x7d, float3(0.0)\x7d",
   expression "absorption_vdf" [.osl]
      ("anisotropic_vdf(color(" ++ hole "absorption" ++ "), color(0.0), 0.0)"),
   expression "absorption_vdf" [.mdl]
      ("material(volume: material_volume(absorption_coefficient: color(" ++ hole "absorption" ++ ")))")]

def surfaceCode : List ImplementationEntry :=
  [call "surface" [.glsl] "mx_surface" []
      (block "void mx_surface(BSDF bsdf, EDF edf, float opacity, vec3 position, out surfaceshader result)"
      ["vec3 irradiance = vec3(0.0);",
       "for (int i = 0; i < $numActiveLightSources; ++i)",
       "\x7b",
       "    lightshader light;",
       "    sampleLightSource($lightData[i], position, light);",
       "    irradiance += light.intensity;",
       "\x7d",
       "result.color = (bsdf.response * irradiance + edf) * opacity;",
       "result.transparency = mix(vec3(1.0), bsdf.throughput, opacity);"]),
   call "surface" [.msl] "mx_surface" ["$lightData", "$numActiveLightSources"]
      (block "void mx_surface(BSDF bsdf, EDF edf, float opacity, float3 position, constant LightData* lightData, int numLights, thread surfaceshader& result)"
      ["float3 irradiance = float3(0.0);",
       "for (int i = 0; i < numLights; ++i)",
       "\x7b",
       "    lightshader light;",
       "    sampleLightSource(lightData[i], position, light);",
       "    irradiance += light.intensity;",
       "\x7d",
       "result.color = (bsdf.response * irradiance + edf) * opacity;",
       "result.transparency = mix(float3(1.0), bsdf.throughput, opacity);"]),
   call "surface" [.osl] "mx_surface" []
      (block "void mx_surface(closure color bsdf, closure color edf, float opacity, vector position, output closure color result)"
      ["result = (bsdf + edf) * opacity + transparent() * (1.0 - opacity);"]),
   call "surface" [.mdl] "mx_surface" []
      (lined
      ["material mx_surface(material bsdf, material edf, float opacity, float3 position) = material(",
       "    surface: material_surface(scattering: bsdf.surface.scattering, emission: edf.surface.emission),",
       "    volume: bsdf.volume,",
       "    ior: bsdf.ior,",
       "    geometry: material_geometry(cutout_opacity: opacity)",
       ");"]),
   expression "surfacematerial" everywhere (hole "surfaceshader"),
   call "point_light" [.glsl] "mx_point_light" []
      (block "void mx_point_light(LightData light, vec3 position, out lightshader result)"
      ["vec3 toLight = light.position - position;",
       "float dist = max(length(toLight), 0.0001);",
       "result.direction = toLight / dist;",
       "result.intensity = light.color * light.intensity / (dist * dist);"]),
   call "directional_light" [.glsl] "mx_directional_light" []
      (block "void mx_directional_light(LightData light, vec3 position, out lightshader result)"
      ["result.direction = -normalize(light.direction);",
       "result.intensity = light.color * light.intensity;"]),
   call "point_light" [.msl] "mx_point_light" []
      (block "void mx_point_light(LightData light, float3 position, thread lightshader& result)"
      ["float3 toLight = light.position - position;",
       "float dist = max(length(toLight), 0.0001);",
       "result.direction = toLight / dist;",
       "result.intensity = light.color * light.intensity / (dist * dist);"]),
   call "directional_light" [.msl] "mx_directional_light" []
      (block "void mx_directional_light(LightData light, float3 position, thread lightshader& result)"
      ["result.direction = -normalize(light.direction);",
       "result.intensity = light.color * light.intensity;"])]

def luminance : NodeGraph :=
  ⟨"NG_luminance_color3", "luminance", "color3", [⟨"in", "color3", some (.arr [zero, zero, zero])⟩,
     ⟨"lumacoeffs", "color3", some (.arr [decimal 2722287 (-7), decimal 6740818 (-7), decimal 536895 (-7)])⟩],
    [⟨"out", "color3", ⟨"luma", "out"⟩⟩],
    [⟨"weighted", "dotproduct", "float", none, [], [("in1", "in"), ("in2", "lumacoeffs")],
      [("in1", "color3"), ("in2", "color3")]⟩,
     ⟨"luma", "convert", "color3", none, [], [], [("in", "float")]⟩],
    [⟨"c0", ⟨"weighted", "out"⟩, ⟨"luma", "in"⟩⟩]⟩

def document : LibraryDocument :=
  ⟨arithmeticDefinitions ++ constantDefinitions ++ channelDefinitions ++ conditionalDefinitions ++
      geometryDefinitions ++ shadingDefinitions,
    arithmeticCode ++ constantCode ++ imageCode ++ scatteringCode ++ emissionCode ++ surfaceCode,
    [luminance]⟩

end MaterialShader.Library.Bundled

namespace MaterialShader.Library

def bundled : Library := (empty.absorb Bundled.document).1

end MaterialShader.Library
