import MaterialShader.Assoc
import MaterialShader.Library.Basic

/-!
How nodes become code. Most nodes have code in the library; closures, conditionals, channels,
geometry and lights depend on types, stages or the graph around them and are built in.
Expressions of the library name their inputs in double braces.
-/

namespace MaterialShader.Template

inductive Flaw where
  | unterminated
  | unknownInput (name : String)
  deriving DecidableEq, Repr

def opening : List Char := ['\x7b', '\x7b']

def closing : List Char := ['\x7d', '\x7d']

/-- Replace the names from left to right; arguments are not looked at again. The first argument
bounds the number of names. -/
def expandFrom (argument : String → Option String) : Nat → List Char → Except Flaw String
  | 0, rest => .ok (String.ofList rest)
  | k + 1, rest =>
    match Text.cut? opening rest with
    | none => .ok (String.ofList rest)
    | some (before, after) =>
      match Text.cut? closing after with
      | none => .error .unterminated
      | some (name, others) =>
        let key := Text.trim (String.ofList name)
        match argument key with
        | none => .error (.unknownInput key)
        | some text => do
          let tail ← expandFrom argument k others
          return String.ofList before ++ text ++ tail

def expand (argument : String → Option String) (template : String) : Except Flaw String :=
  expandFrom argument template.length template.toList

def Flaw.reason (template : String) : Flaw → String
  | .unterminated => "unterminated '\x7b\x7b' in '" ++ template ++ "'"
  | .unknownInput name => s!"unknown input '{name}' in '{template}'"

end MaterialShader.Template

namespace MaterialShader

inductive ClosureOperator where
  | add
  | multiply
  | mix
  | layer
  deriving DecidableEq, Repr

inductive ConditionalOperator where
  | switch
  | compare
  | ifGreater
  deriving DecidableEq, Repr

inductive GeometricKind where
  | position
  | normal
  | tangent
  | bitangent
  | texcoord
  | geomColor
  | geomPropValue
  | time
  | frame
  | viewDirection
  deriving DecidableEq, Repr

structure SourceCode where
  source : CodeSource
  extraArguments : List String
  /-- The type for which the definition was written out. -/
  templateType : Option String
  deriving DecidableEq, Repr

inductive Realization where
  | source (code : SourceCode)
  | closure (op : ClosureOperator)
  | conditional (op : ConditionalOperator)
  | swizzle
  | extract
  | convert
  | combine
  | separate
  | geometric (kind : GeometricKind)
  | light
  | unsupported
  deriving DecidableEq, Repr

namespace SourceCode

def ofImplementation (i : Implementation) (d : Definition) : SourceCode :=
  ⟨i.source, i.extraArguments, d.template.map Prod.snd⟩

def inline (template : String) : SourceCode := ⟨.inline template, [], none⟩

def function (name source : String) : SourceCode := ⟨.function name source, [], none⟩

end SourceCode

def GeometricKind.ofCategory? (category : String) : Option GeometricKind :=
  if category = "position" then some .position
  else if category = "normal" then some .normal
  else if category = "tangent" then some .tangent
  else if category = "bitangent" then some .bitangent
  else if category = "texcoord" then some .texcoord
  else if category = "geomcolor" then some .geomColor
  else if category = "geompropvalue" then some .geomPropValue
  else if category = "time" then some .time
  else if category = "frame" then some .frame
  else if category = "viewdirection" then some .viewDirection
  else none

namespace Realization

def closureOutputs : List String := ["BSDF", "EDF", "VDF", "surfaceshader"]

def closureArithmetic? (d : Definition) : Option ClosureOperator :=
  if closureOutputs.contains d.typeName then
    if d.category = "add" then some .add
    else if d.category = "multiply" then some .multiply
    else if d.category = "mix" then some .mix
    else none
  else none

def ofCategory? (category : String) : Option Realization :=
  if category = "layer" then some (.closure .layer)
  else if category = "switch" then some (.conditional .switch)
  else if category = "compare" then some (.conditional .compare)
  else if category = "ifgreater" then some (.conditional .ifGreater)
  else if category = "swizzle" then some .swizzle
  else if category = "extract" then some .extract
  else if category = "convert" then some .convert
  else if ["combine2", "combine3", "combine4"].contains category then some .combine
  else if ["separate2", "separate3", "separate4"].contains category then some .separate
  else (GeometricKind.ofCategory? category).map Realization.geometric

/-- The realization that needs no code of the library, and whether it is for this target only. -/
def builtin? (d : Definition) (target : Target) : Option (Realization × Bool) :=
  match closureArithmetic? d with
  | some op => some (.closure op, false)
  | none =>
    if d.category = "light" then
      some (if target.isHardware then .light else .unsupported, true)
    else (ofCategory? d.category).map fun r => (r, false)

end Realization

/-- Realizations by definition and target; an entry without target is for all others. -/
abbrev RealizationTable := List ((String × Option Target) × Realization)

namespace RealizationTable

def register (table : RealizationTable) (definition : String) (target : Option Target)
    (r : Realization) : RealizationTable :=
  Assoc.put (definition, target) r table

def get? (table : RealizationTable) (definition : String) (target : Target) :
    Option Realization :=
  match Assoc.get? (definition, some target) table with
  | some r => some r
  | none => Assoc.get? (definition, none) table

def addDefinition (lib : Library) (target : Target) (table : RealizationTable)
    (d : Definition) : RealizationTable :=
  match Realization.builtin? d target with
  | some (r, specific) => table.register d.name (if specific then some target else none) r
  | none =>
    match lib.implementation? d target with
    | some i => table.register d.name (some target) (.source (.ofImplementation i d))
    | none => table

def ofLibrary (lib : Library) (target : Target) : RealizationTable :=
  lib.definitions.foldl (addDefinition lib target) []

end RealizationTable

end MaterialShader
