import MaterialShader.Assoc
import MaterialShader.ShaderType
import MaterialShader.Text.Quoted

/-!
A dialect says how one shading language writes types, literals, qualifiers and names.
-/

namespace MaterialShader

inductive LiteralForm where
  | scalar
  /-- Truth values as `1` and `0`. -/
  | numericTruth
  | quoted
  /-- A constructor call; a uniform may take its components in braces instead. -/
  | constructed (bracedUniform : Bool)
  /-- Four components, the first three in a constructor of their own. -/
  | nestedColor (inner : String) (bracedUniform : Bool)
  /-- A matrix with three rows inside one with four. -/
  | paddedMatrix
  | items (opening closing : String)
  /-- A quoted path between two texts. -/
  | resource (opening closing : String)
  /-- No literal but the initial value. -/
  | fixed
  deriving DecidableEq, Repr

structure TypeForm where
  name : String
  /-- The constructor, where it is not the type's name. -/
  constructorName : Option String
  initial : String
  uniformInitial : String
  aliasText : Option String
  definition : Option String
  /-- Access to each component; the hole stands for the variable. -/
  members : List String
  literal : LiteralForm
  deriving DecidableEq, Repr

inductive NameRule where
  | anywhere (pattern replacement : String)
  | atStart (pattern replacement : String)
  deriving DecidableEq, Repr

structure Dialect where
  target : Target
  forms : List (String × TypeForm)
  restricted : List String
  rules : List NameRule
  inputQualifier : String
  outputQualifier : String
  uniformQualifier : String
  constantQualifier : String
  /-- Output parameters are references, not qualified values. -/
  outputByReference : Bool
  deriving Repr

/-- Stands for the variable in the access to a component. -/
def memberHole : String := "\x7b\x7d"

def braced (text : String) : String := "\x7b" ++ text ++ "\x7d"

namespace LiteralForm

def shownTexts (name opening closing : String) : String :=
  name ++ " " ++
    braced (" open: " ++ Text.quoted opening ++ ", close: " ++ Text.quoted closing ++ " ")

def shown : LiteralForm → String
  | .scalar => "Scalar"
  | .numericTruth => "IntBool"
  | .quoted => "Quoted"
  | .constructed _ => "Constructor"
  | .nestedColor .. => "NestedColor4"
  | .paddedMatrix => "PaddedMatrix33"
  | .items opening closing => shownTexts "Array" opening closing
  | .resource opening closing => shownTexts "Resource" opening closing
  | .fixed => "Fixed"

end LiteralForm

namespace TypeForm

def scalar (name initial : String) : TypeForm :=
  ⟨name, none, initial, initial, none, none, [], .scalar⟩

def aggregate (name initial : String) (members : List String) : TypeForm :=
  ⟨name, none, initial, initial, none, none, members, .constructed false⟩

def fixed (name initial : String) : TypeForm :=
  { scalar name initial with literal := .fixed }

def constructorText (f : TypeForm) : String := f.constructorName.getD f.name

end TypeForm

namespace Dialect

def empty (target : Target) : Dialect :=
  ⟨target, [], [], [], "", "", "", "", false⟩

/-- Give a type its form. Its name in the language can then be no variable. -/
def register (d : Dialect) (typeName : String) (form : TypeForm) : Dialect :=
  { d with
    forms := Assoc.put typeName form d.forms
    restricted := form.name :: d.restricted }

def registerAll (d : Dialect) (forms : List (String × TypeForm)) : Dialect :=
  forms.foldl (fun acc (name, form) => acc.register name form) d

def restrict (d : Dialect) (names : List String) : Dialect :=
  { d with restricted := d.restricted ++ names }

def addRules (d : Dialect) (rules : List NameRule) : Dialect :=
  { d with rules := d.rules ++ rules }

def isRestricted (d : Dialect) (name : String) : Bool := d.restricted.contains name

def form (d : Dialect) (t : ShaderType) : Result TypeForm :=
  (orFail (.unknownType t.name) (Assoc.get? t.name d.forms)).inside (.typeForm d.target t.name)

def typeName (d : Dialect) (t : ShaderType) : Result String := do
  let f ← d.form t
  return f.name

def outputTypeName (d : Dialect) (t : ShaderType) : Result String := do
  let name ← d.typeName t
  if d.outputByReference then return s!"{d.outputQualifier} {name}&"
  else if d.outputQualifier.isEmpty then return name
  else return s!"{d.outputQualifier} {name}"

def initialValue (d : Dialect) (t : ShaderType) (uniform : Bool) : Result String := do
  let f ← d.form t
  return if uniform then f.uniformInitial else f.initial

def typeDefinitions (d : Dialect) : List String :=
  d.forms.flatMap fun (_, f) => f.definition.toList ++ f.aliasText.toList

end Dialect

end MaterialShader
