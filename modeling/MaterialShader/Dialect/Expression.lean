import MaterialShader.Dialect.Basic

/-!
Expressions of a dialect: literals, constructors, components, conversions and declarations.
-/

namespace MaterialShader.Dialect

open Numeric

def componentTexts (t : ShaderType) (v : Value) : Result (List String) :=
  match v.components? with
  | none => fail (.invalidValue t.name s!"expected numeric components, got '{v.shown}'")
  | some xs =>
    if xs.length = t.size then .ok (xs.map Single.literal)
    else fail (.invalidValue t.name s!"expected {t.size} components, got {xs.length}")

def commaList (texts : List String) : String := Text.join ", " texts

def call (name : String) (arguments : List String) : String :=
  name ++ "(" ++ commaList arguments ++ ")"

def scalarText (t : ShaderType) (v : Value) : String :=
  match t.base with
  | .float => (v.number?.getD .zero).literal
  | .integer => Value.intText (v.int?.getD 0)
  | _ => v.shown

def padRows : List String → List String
  | a :: b :: c :: rest => a :: b :: c :: "0.0" :: padRows rest
  | _ => ["0.0", "0.0", "0.0", "1.0"]

def nestColor (inner : String) (components : List String) : List String :=
  [call inner (components.take 3), components.getD 3 ""]

def literal (d : Dialect) (t : ShaderType) (v : Value) (uniform : Bool) : Result String := do
  let f ← d.form t
  match f.literal with
  | .fixed => return if uniform then f.uniformInitial else f.initial
  | .quoted => return "\"" ++ v.shown ++ "\""
  | .resource opening closing =>
    match v.text? with
    | some path =>
      if path.isEmpty then return f.initial
      else return opening ++ "\"" ++ path ++ "\"" ++ closing
    | none => return f.initial
  | .numericTruth =>
    match v with
    | .boolean b => return if b then "1" else "0"
    | other => return other.shown
  | .scalar => return scalarText t v
  | .items opening closing =>
    match v with
    | .floatArray xs => return opening ++ commaList (xs.map Single.literal) ++ closing
    | .integerArray ns => return opening ++ commaList (ns.map Value.intText) ++ closing
    | other => fail (.arrayExpected t.name other.shown)
  | .constructed bracedUniform =>
    let cs ← componentTexts t v
    if uniform && bracedUniform then return braced (commaList cs)
    else return call f.constructorText cs
  | .nestedColor inner bracedUniform =>
    let cs ← componentTexts t v
    let nested := nestColor inner cs
    if uniform && bracedUniform then return braced (commaList nested)
    else return call f.constructorText nested
  | .paddedMatrix =>
    let cs ← componentTexts t v
    return call f.constructorText (padRows cs)

def construct (d : Dialect) (t : ShaderType) (components : List String) : Result String := do
  let f ← d.form t
  if components.length ≠ t.size then
    fail (.componentCount t.name components.length t.size)
  else
    match f.literal with
    | .scalar | .numericTruth => return components.headD ""
    | .nestedColor inner _ => return call f.constructorText (nestColor inner components)
    | .constructed _ => return call f.constructorText components
    | other => fail (.notConstructible t.name other.shown)

def member (d : Dialect) (variableName : String) (t : ShaderType) (index : Nat) :
    Result String := do
  if t.isScalar then return variableName
  else
    let f ← d.form t
    match f.members[index]? with
    | some access => return Text.replaceAll memberHole variableName access
    | none => fail (.noComponent t.name index)

inductive Channel where
  | component (index : Nat)
  | constant (text : String)
  deriving DecidableEq, Repr

def channel? (c : Char) : Option Channel :=
  if c = '0' then some (.constant "0.0")
  else if c = '1' then some (.constant "1.0")
  else if c = 'r' || c = 'x' then some (.component 0)
  else if c = 'g' || c = 'y' then some (.component 1)
  else if c = 'b' || c = 'z' then some (.component 2)
  else if c = 'a' || c = 'w' then some (.component 3)
  else none

def channelText (d : Dialect) (source : String) (t : ShaderType) (channels : String) (c : Char) :
    Result String :=
  match channel? c with
  | none => fail (.unknownChannel c channels)
  | some (.constant text) => .ok text
  | some (.component index) =>
    if !t.isScalar && t.size ≤ index then fail (.channelOutOfRange c t.name)
    else d.member source t index

def swizzle (d : Dialect) (source : String) (t : ShaderType) (channels : String)
    (result : ShaderType) : Result String := do
  let parts ← channels.toList.mapM (d.channelText source t channels)
  if result.isScalar then
    match parts with
    | [one] => return one
    | _ => fail (.channelCount channels parts.length result.name)
  else d.construct result parts

def channelLetters : String := "xyzw"

def convert (d : Dialect) (c : Conversion) (t result : ShaderType) (source : String) :
    Result String :=
  match c with
  | .splat => d.construct result (List.replicate result.size source)
  | .cast => do
    let name ← d.typeName result
    return call name [source]
  | .reinterpret => do
    let name ← d.typeName t
    let f ← d.form result
    if name = f.name then return source
    else
      let isConstructed : Bool :=
        match f.literal with
        | .constructed _ => true
        | _ => false
      if isConstructed && t.isFloat3 then return call f.constructorText [source]
      else
        d.swizzle source t (String.ofList (channelLetters.toList.take result.size)) result
  | .swizzle channels => d.swizzle source t channels result

def declaration (d : Dialect) (t : ShaderType) (name : String) (value : Option Value) :
    Result String := do
  let f ← d.form t
  match f.literal with
  | .items _ _ =>
    match value with
    | some (.floatArray xs) => return s!"{f.name} {name}[{xs.length}]"
    | some (.integerArray ns) => return s!"{f.name} {name}[{ns.length}]"
    | _ => fail (.unsizedArray name)
  | _ => return s!"{f.name} {name}"

end MaterialShader.Dialect
