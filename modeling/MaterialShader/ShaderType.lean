import MaterialShader.Failure
import MaterialShader.Numeric.Decimal

/-!
Literal values of node inputs and uniforms, and types of ports. A type is known by its name; the
registry has the types in the order of their registration, and the conversions between them.
-/

namespace MaterialShader

open Numeric

inductive Value where
  | boolean (value : Bool)
  | integer (value : Int)
  | float (value : Single)
  /-- Components of vectors, colors and matrices, row by row. -/
  | floats (components : List Single)
  | text (value : String)
  | integerArray (items : List Int)
  | floatArray (items : List Single)
  deriving DecidableEq, Repr

namespace Value

def ofTruth (b : Bool) : Single := if b then .one else .zero

def components? : Value → Option (List Single)
  | .float x => some [x]
  | .floats xs => some xs
  | .integer n => some [.ofInt n]
  | .boolean b => some [ofTruth b]
  | _ => none

def number? : Value → Option Single
  | .float x => some x
  | .integer n => some (.ofInt n)
  | .boolean b => some (ofTruth b)
  | _ => none

/-- An integer, or a whole float moved into the range of 32 bits. -/
def int? : Value → Option Int
  | .integer n => some n
  | .float x => x.reading.toInt?.map clampInt32
  | _ => none

def text? : Value → Option String
  | .text s => some s
  | _ => none

def intText (n : Int) : String := toString n

def shown : Value → String
  | .boolean b => if b then "true" else "false"
  | .integer n => intText n
  | .float x => x.literal
  | .floats xs => Text.join ", " (xs.map Single.literal)
  | .floatArray xs => Text.join ", " (xs.map Single.literal)
  | .text s => s
  | .integerArray ns => Text.join ", " (ns.map intText)

end Value

inductive BaseType where
  | none
  | boolean
  | integer
  | float
  | string
  deriving DecidableEq, Repr

inductive Semantic where
  | none
  | color
  | vector
  | matrix
  | filename
  | closure
  | shader
  | material
  deriving DecidableEq, Repr

structure ShaderType where
  name : String
  base : BaseType
  semantic : Semantic
  /-- Number of components; zero marks an array. -/
  size : Nat
  editable : Bool
  initial : Value
  deriving DecidableEq, Repr

namespace ShaderType

def same (a b : ShaderType) : Bool := a.name == b.name

def isClosure (t : ShaderType) : Bool :=
  t.semantic == .closure || t.semantic == .shader || t.semantic == .material

def isScalar (t : ShaderType) : Bool := t.size == 1 && t.base != .none

def isAggregate (t : ShaderType) : Bool := 1 < t.size

def isArray (t : ShaderType) : Bool := t.size == 0 && t.base != .none

def isFloatBased (t : ShaderType) : Bool := t.base == .float && 0 < t.size && !t.isClosure

def isFloat3 (t : ShaderType) : Bool := t.isFloatBased && t.size == 3

def isFloat4 (t : ShaderType) : Bool := t.isFloatBased && t.size == 4

def isFilename (t : ShaderType) : Bool := t.semantic == .filename

end ShaderType

inductive Conversion where
  /-- A scalar in every component. -/
  | splat
  /-- A scalar of another base type. -/
  | cast
  /-- The same components with another meaning. -/
  | reinterpret
  /-- Channels picked by letters, `0` and `1`. -/
  | swizzle (channels : String)
  deriving DecidableEq, Repr

structure Registry where
  types : List ShaderType
  /-- The newest conversion between two types comes first. -/
  conversions : List ((String × String) × Conversion)
  deriving Repr

namespace Registry

def empty : Registry := ⟨[], []⟩

def find? (r : Registry) (name : String) : Option ShaderType :=
  r.types.find? fun t => t.name == name

def contains (r : Registry) (name : String) : Bool := (r.find? name).isSome

def get (r : Registry) (name : String) : Result ShaderType :=
  orFail (.unknownType name) (r.find? name)

def register (r : Registry) (t : ShaderType) : Result Registry :=
  if r.contains t.name then fail (.duplicateType t.name)
  else .ok { r with types := r.types ++ [t] }

def registerConversion (r : Registry) (source result : String) (c : Conversion) :
    Result Registry := do
  let s ← r.get source
  let t ← r.get result
  if s.isClosure || t.isClosure || s.same t then fail (.invalidConversion source result)
  else .ok { r with conversions := ((source, result), c) :: r.conversions }

def conversion? (r : Registry) (source result : ShaderType) : Option Conversion :=
  (r.conversions.find? fun entry => entry.1 == (source.name, result.name)).map Prod.snd

def zeros (n : Nat) : Value := .floats (List.replicate n .zero)

def identity (n : Nat) : Value :=
  .floats ((List.range (n * n)).map fun i => if i / n = i % n then .one else .zero)

def closureType (name : String) (semantic : Semantic) : ShaderType :=
  ⟨name, .none, semantic, 1, false, .integer 0⟩

def standardTypes : List ShaderType :=
  [⟨"none", .none, .none, 1, false, .integer 0⟩,
   ⟨"boolean", .boolean, .none, 1, true, .boolean false⟩,
   ⟨"integer", .integer, .none, 1, true, .integer 0⟩,
   ⟨"integerarray", .integer, .none, 0, true, .integerArray []⟩,
   ⟨"float", .float, .none, 1, true, .float .zero⟩,
   ⟨"floatarray", .float, .none, 0, true, .floatArray []⟩,
   ⟨"vector2", .float, .vector, 2, true, zeros 2⟩,
   ⟨"vector3", .float, .vector, 3, true, zeros 3⟩,
   ⟨"vector4", .float, .vector, 4, true, zeros 4⟩,
   ⟨"color3", .float, .color, 3, true, zeros 3⟩,
   ⟨"color4", .float, .color, 4, true, zeros 4⟩,
   ⟨"matrix33", .float, .matrix, 9, true, identity 3⟩,
   ⟨"matrix44", .float, .matrix, 16, true, identity 4⟩,
   ⟨"string", .string, .none, 1, true, .text ""⟩,
   ⟨"filename", .string, .filename, 1, true, .text ""⟩,
   closureType "BSDF" .closure,
   closureType "EDF" .closure,
   closureType "VDF" .closure,
   closureType "surfaceshader" .shader,
   closureType "volumeshader" .shader,
   closureType "displacementshader" .shader,
   closureType "lightshader" .shader,
   closureType "material" .material]

def standardConversions : List ((String × String) × Conversion) :=
  [(("float", "vector2"), .splat),
   (("float", "vector3"), .splat),
   (("float", "vector4"), .splat),
   (("float", "color3"), .splat),
   (("float", "color4"), .splat),
   (("integer", "float"), .cast),
   (("boolean", "float"), .cast),
   (("color3", "vector3"), .reinterpret),
   (("vector3", "color3"), .reinterpret),
   (("color4", "vector4"), .reinterpret),
   (("vector4", "color4"), .reinterpret),
   (("color3", "color4"), .swizzle "rgb1"),
   (("color4", "color3"), .swizzle "rgb")]

def standard : Registry := ⟨standardTypes, standardConversions⟩

end Registry

end MaterialShader
