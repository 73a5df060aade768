import MaterialShader.Assoc
import MaterialShader.ShaderType

/-!
A stage of a shader while it is written: its text so far, its open scopes, its variables, the
functions that it has, and the tokens that stand for texts still to be chosen.

Longer tokens are replaced first, so that a token never breaks one that it starts. A block holds
each variable once, in the order in which they came in. Code is a list of steps that open and close
scopes one by one; a step that closes a scope fails where none is open.
-/

namespace MaterialShader.Token

/-- Whether one token goes before another: longer in bytes, then by name. -/
def goesFirst (a b : String × String) : Bool :=
  if a.1.utf8ByteSize = b.1.utf8ByteSize then decide (a.1 ≤ b.1)
  else decide (b.1.utf8ByteSize < a.1.utf8ByteSize)

def inOrder (tokens : List (String × String)) : List (String × String) :=
  tokens.mergeSort goesFirst

/-- The mark of tokens; a text without it is left alone. -/
def mark : String := "$"

def substitute (tokens : List (String × String)) (source : String) : String :=
  if Text.contains mark source then
    (inOrder tokens).foldl
      (fun text (token, replacement) => Text.replaceAll token replacement text) source
  else source

end MaterialShader.Token

namespace MaterialShader

structure StageVariable where
  type : ShaderType
  name : String
  value : Option Value
  /-- Where in the document the variable comes from; empty for variables of the generator. -/
  path : String
  /-- Whether the code that gives it its value is written. -/
  assigned : Bool
  deriving DecidableEq, Repr

inductive BlockKind where
  | uniform
  | input
  | output
  | constant
  deriving DecidableEq, Repr

structure Block where
  kind : BlockKind
  name : String
  access : String
  members : List StageVariable
  deriving DecidableEq, Repr

def StageVariable.plain (type : ShaderType) (name : String) : StageVariable :=
  ⟨type, name, none, "", false⟩

namespace Block

def find? (b : Block) (name : String) : Option StageVariable :=
  b.members.find? fun v => v.name == name

def contains (b : Block) (name : String) : Bool := (b.find? name).isSome

def add (b : Block) (v : StageVariable) : Block :=
  if b.contains v.name then b else { b with members := b.members ++ [v] }

def addAll (b : Block) (vs : List StageVariable) : Block := vs.foldl add b

def assign (b : Block) (name : String) : Block :=
  { b with
    members := b.members.map fun v => if v.name = name then { v with assigned := true } else v }

end Block

inductive Brackets where
  | none
  | braces
  | parentheses
  | squares
  deriving DecidableEq, Repr

namespace Brackets

def opening : Brackets → String
  | .none => ""
  | .braces => "\x7b"
  | .parentheses => "("
  | .squares => "["

def closing : Brackets → String
  | .none => ""
  | .braces => "\x7d"
  | .parentheses => ")"
  | .squares => "]"

end Brackets

structure Stage where
  name : String
  entryPoint : String
  source : String
  /-- How far lines are indented, in units. -/
  indent : Nat
  scopes : List Brackets
  blocks : List Block
  functions : List String
  tokens : List (String × String)
  deriving DecidableEq, Repr

namespace Stage

def start (name entryPoint : String) : Stage := ⟨name, entryPoint, "", 0, [], [], [], []⟩

def indentUnit : String := "    "

def indentation (level : Nat) : String := String.join (List.replicate level indentUnit)

def addText (s : Stage) (text : String) : Stage := { s with source := s.source ++ text }

def beginLine (s : Stage) : Stage := s.addText (indentation s.indent)

def lineEnd (semicolon : Bool) : String := if semicolon then ";\n" else "\n"

def endLine (s : Stage) (semicolon : Bool) : Stage := s.addText (lineEnd semicolon)

def blankLine (s : Stage) : Stage := s.addText "\n"

def addLine (s : Stage) (text : String) (semicolon : Bool) : Stage :=
  (s.beginLine.addText text).endLine semicolon

def addComment (s : Stage) (text : String) : Stage := s.addLine ("// " ++ text) false

/-- Add the lines of a text, each indented; a line without a visible character becomes empty. -/
def addLines (s : Stage) (text : String) : Stage :=
  (Text.lines (Text.dropFinalNewlines text)).foldl
    (fun acc line => if Text.isAllBlank line then acc.blankLine else acc.addLine line false) s

def openScope (s : Stage) (b : Brackets) : Stage :=
  let written := if b = .none then s else s.addLine b.opening false
  { written with scopes := b :: written.scopes, indent := written.indent + 1 }

def closeScope (s : Stage) (semicolon : Bool) : Result Stage :=
  match s.scopes with
  | [] => fail (.noOpenScope s.name)
  | b :: rest =>
    let inner := { s with scopes := rest, indent := s.indent - 1 }
    .ok (if b = .none then inner else inner.addLine b.closing semicolon)

def block? (s : Stage) (name : String) : Option Block :=
  s.blocks.find? fun b => b.name == name

def createBlock (s : Stage) (kind : BlockKind) (name access : String) : Stage :=
  if (s.block? name).isSome then s
  else { s with blocks := s.blocks ++ [⟨kind, name, access, []⟩] }

def updateBlock (s : Stage) (name : String) (f : Block → Block) : Result Stage :=
  if (s.block? name).isSome then
    .ok { s with blocks := s.blocks.map fun b => if b.name = name then f b else b }
  else fail (.unknownBlock s.name name)

def blocksOf (s : Stage) (kind : BlockKind) : List Block :=
  s.blocks.filter fun b => b.kind == kind

def members (s : Stage) (block : String) : List StageVariable :=
  match s.block? block with
  | some b => b.members
  | none => []

def hasFunction (s : Stage) (key : String) : Bool := s.functions.contains key

def addFunction (s : Stage) (key : String) : Stage :=
  if s.hasFunction key then s else { s with functions := s.functions ++ [key] }

def addToken (s : Stage) (token replacement : String) : Stage :=
  { s with tokens := Assoc.put token replacement s.tokens }

/-- The text of a stage whose scopes are all closed, with its tokens replaced. -/
def finalize (s : Stage) : Result String :=
  if s.scopes.isEmpty then .ok (Token.substitute s.tokens s.source)
  else fail (.scopesLeftOpen s.name s.scopes.length)

def named (stages : List Stage) (name : String) : Result Stage :=
  orFail (.unknownStage name) (stages.find? fun s => s.name == name)

end Stage

/-- A step of writing. -/
inductive Code where
  | line (text : String)
  | statement (text : String)
  | blank
  | lines (text : String)
  | openScope (brackets : Brackets)
  | closeScope (semicolon : Bool)
  /-- Note that the stage has the function of this key. -/
  | function (key : String)
  /-- The text of a function, which a stage has once, under a key. -/
  | definition (key text : String)
  /-- The statement that gives a variable of a block its value; a stage has one for each. -/
  | assignment (block variableName text : String)
  deriving DecidableEq, Repr

namespace Stage

def isAssigned (s : Stage) (block variableName : String) : Bool :=
  match s.block? block with
  | some b =>
    match b.find? variableName with
    | some v => v.assigned
    | none => false
  | none => false

def noteAssigned (s : Stage) (block variableName : String) : Stage :=
  { s with blocks := s.blocks.map fun b => if b.name = block then b.assign variableName else b }

def write (s : Stage) : Code → Result Stage
  | .line text => .ok (s.addLine text false)
  | .statement text => .ok (s.addLine text true)
  | .blank => .ok s.blankLine
  | .lines text => .ok (s.addLines text)
  | .openScope brackets => .ok (s.openScope brackets)
  | .closeScope semicolon => s.closeScope semicolon
  | .function key => .ok (s.addFunction key)
  | .definition key text =>
    if s.hasFunction key then .ok s else .ok ((s.addFunction key).addLines text).blankLine
  | .assignment block variableName text =>
    if s.isAssigned block variableName then .ok s
    else .ok ((s.noteAssigned block variableName).addLine text true)

def writeAll (s : Stage) : List Code → Result Stage
  | [] => .ok s
  | c :: rest => do
    let next ← s.write c
    next.writeAll rest

end Stage

/-- A branch, with its body in braces. -/
def Code.branch (head : String) (body : List Code) : List Code :=
  .line head :: .openScope .braces :: (body ++ [.closeScope false])

/-- A head, its body in braces, and a blank line. -/
def Code.block (head : String) (body : List Code) (semicolon : Bool) : List Code :=
  [.line head, .openScope .braces] ++ body ++ [.closeScope semicolon, .blank]

end MaterialShader
