import MaterialShader.CommandLine.Directory
import MaterialShader.Generator
import MaterialShader.Library.Bundled

/-!
The command: read a document, options and libraries, and write the shaders of all targets. The
compiler that checks and translates GLSL is not part of this library; a command is given one.
-/

namespace MaterialShader

inductive Objection where
  | parse (shown : String)
  | validation (shown : String)
  deriving DecidableEq, Repr

structure Compiler where
  objection? : Program → String → Option Objection
  /-- The WGSL of a program without objections, or why there is none. -/
  wgsl : Program → String → Except String String

namespace Compiler

def lineNumber (n : Nat) : String :=
  let digits := Nat.repr n
  String.ofList (List.replicate (4 - digits.length) ' ') ++ digits

def numbered (source : String) : String :=
  "---\n" ++
    String.join ((Text.lines source).mapIdx fun k line => s!"{lineNumber (k + 1)} | {line}\n") ++
    "---\n"

def check (c : Compiler) (p : Program) (source : String) : Result Unit :=
  match c.objection? p source with
  | none => .ok ()
  | some (.parse shown) => fail (.unparsedProgram shown (numbered source))
  | some (.validation shown) => fail (.invalidProgram shown (numbered source))

def checkStage (c : Compiler) (shader : String) (s : FinishedStage) : Result Unit := do
  let p ← orFail (.noProgram s.name) (Program.ofStage? s.name)
  (c.check p s.source).inside (.checking s.name shader)

def checkStages (c : Compiler) (shader : String) : List FinishedStage → Result Unit
  | [] => .ok ()
  | s :: rest => do
    c.checkStage shader s
    c.checkStages shader rest

def checkShader (c : Compiler) (s : Shader) : Result Unit := do
  s.requireGlsl
  c.checkStages s.name s.stages

def translate (c : Compiler) (p : Program) (source : String) : Result String := do
  c.check p source
  match c.wgsl p source with
  | .ok text => return text
  | .error shown => fail (.untranslatedProgram shown)

end Compiler

end MaterialShader

namespace MaterialShader.CommandLine

def usage : String :=
  "usage: node-forge-shadergen --graph <doc.json> [--target <genglsl|genosl|genmdl|genmsl>]... " ++
    "[--options <opts.json>] [--outputdir <dir>] [--name <shader>] [--library <lib.json>] " ++
    "[--light <id>=<nodedef>]... [--validate] [--wgsl]"

structure Arguments where
  graph : Option String := none
  targets : List Target := []
  options : Option String := none
  outputDirectory : Option String := none
  name : Option String := none
  libraries : List String := []
  lights : List (Nat × String) := []
  validate : Bool := false
  wgsl : Bool := false
  deriving DecidableEq, Repr

inductive Request where
  | help
  | generate (arguments : Arguments)
  deriving DecidableEq, Repr

inductive ValueFlag where
  | graph
  | target
  | options
  | outputDirectory
  | name
  | library
  | light
  deriving DecidableEq, Repr

namespace ValueFlag

def text : ValueFlag → String
  | .graph => "--graph"
  | .target => "--target"
  | .options => "--options"
  | .outputDirectory => "--outputdir"
  | .name => "--name"
  | .library => "--library"
  | .light => "--light"

def all : List ValueFlag := [.graph, .target, .options, .outputDirectory, .name, .library, .light]

def ofText? (word : String) : Option ValueFlag :=
  if word = "--output-dir" then some .outputDirectory
  else all.find? fun flag => flag.text == word

end ValueFlag

attribute [local instance (high)] instPowNat in
def lightBound : Nat := 2 ^ (32 : Nat)

def parseLight (word : String) : Result (Nat × String) := do
  let (number, definition) ← orFail (.lightForm word) (Text.cut? ['='] word.toList)
  let n ← (Numeric.parseNat lightBound (String.ofList (Text.trimChars number))).inside
    (.lightIdentifier word)
  return (n, String.ofList (Text.trimChars definition))

namespace Arguments

/-- The last value of a flag counts, but targets, libraries and lights add up. -/
def put (a : Arguments) (flag : ValueFlag) (word : String) : Result Arguments :=
  match flag with
  | .graph => .ok { a with graph := some word }
  | .target => do
    let t ← orFail (.unknownTarget word) (Target.ofAlias? word)
    return { a with targets := a.targets ++ [t] }
  | .options => .ok { a with options := some word }
  | .outputDirectory => .ok { a with outputDirectory := some word }
  | .name => .ok { a with name := some word }
  | .library => .ok { a with libraries := a.libraries ++ [word] }
  | .light => do
    let light ← parseLight word
    return { a with lights := a.lights ++ [light] }

def complete (a : Arguments) : Arguments :=
  if a.targets.isEmpty then { a with targets := [.glsl] } else a

def read (a : Arguments) : List String → Result Request
  | [] => .ok (.generate a.complete)
  | word :: rest =>
    if word = "--validate" then read { a with validate := true } rest
    else if word = "--wgsl" then read { a with wgsl := true } rest
    else if word = "--help" || word = "-h" then .ok .help
    else
      match ValueFlag.ofText? word, rest with
      | none, _ => fail (.unknownArgument word usage)
      | some flag, [] => fail (.missingValue flag.text)
      | some flag, v :: more => do
        let next ← a.put flag v
        read next more

end Arguments

def Request.parse (words : List String) : Result Request := ({} : Arguments).read words

/-- What a command changes, also if it fails. -/
structure Console where
  directory : Directory
  printed : List String
  log : Log
  deriving DecidableEq, Repr

abbrev Command := ExceptT Failure (StateM Console)

def print (line : String) : Command Unit :=
  modify fun c => { c with printed := c.printed ++ [line] }

def noteAll (log : Log) : Command Unit :=
  modify fun c => { c with log := c.log ++ log }

def readFile (fault : Fault) (path : String) : Command String := do
  let c ← get
  let text ← orFail fault (c.directory.read? path)
  return text

def loadDocument (path : String) : Command Document := do
  let text ← readFile (.unreadableDocument path) path
  let doc ← (Document.parse text).inside (.file path)
  return doc

def loadOptions : Option String → Command Options
  | none => return {}
  | some path => do
    let text ← readFile (.unreadableOptions path) path
    let o ← orFail (.malformedOptionsFile path) (Options.parse? text)
    return o

def loadLibraries (lib : Library) : List String → Command Library
  | [] => return lib
  | path :: rest => do
    let text ← readFile (.unreadableLibrary path) path
    let (merged, result) := lib.merge text
    Result.inside (.file path) result
    loadLibraries merged rest

def createFolders (path : String) : Command Unit := do
  let c ← get
  let created ← orFail (.uncreatableDirectory path) (c.directory.createFolders? path)
  set { c with directory := created }

def writeFile (path text : String) : Command Unit := do
  let c ← get
  let written ← orFail (.unwritableFile path) (c.directory.write? path text)
  set { c with directory := written }

def writeFiles (folder : String) : List (String × String) → Command (List String)
  | [] => return []
  | (name, text) :: rest => do
    let path := Path.join folder name
    writeFile path text
    let others ← writeFiles folder rest
    return path :: others

def printPaths (target : Target) : List String → Command Unit
  | [] => return ()
  | path :: rest => do
    print s!"[{target.name}] wrote: {path}"
    printPaths target rest

structure Task where
  arguments : Arguments
  graphPath : String
  document : Document
  options : Options
  library : Library
  outputDirectory : String
  name : String
  deriving Repr

/-- The name of the shader: as given, or else of the document, or else of its file. -/
def shaderName (a : Arguments) (doc : Document) (graphPath : String) : String :=
  match a.name with
  | some name => name
  | none =>
    if doc.metadata.name.isEmpty then (Path.fileStem? graphPath).getD "shader"
    else doc.metadata.name

def Task.load (a : Arguments) : Command Task := do
  let graphPath ← orFail (.graphRequired usage) a.graph
  let document ← loadDocument graphPath
  let options ← loadOptions a.options
  let library ← loadLibraries .bundled a.libraries
  document.validate library
  return { arguments := a, graphPath, document, options, library,
           outputDirectory := a.outputDirectory.getD ".",
           name := shaderName a document graphPath }

def Task.validate (task : Task) (compiler : Option Compiler) (target : Target) (shader : Shader) :
    Command Unit :=
  if task.arguments.validate then
    match target, compiler with
    | .glsl, some c => do
      c.checkShader shader
      noteAll [Log.info s!"{shader.stages.length} GLSL stages of '{task.name}' validated"]
    | .glsl, none => return ()
    | _, _ =>
      noteAll [Log.warn
        s!"--validate only checks {Target.glsl.name}, skipping {target.name}"]
  else return ()

def Task.writeTranslations (task : Task) (c : Compiler) : List FinishedStage → Command Unit
  | [] => return ()
  | stage :: rest =>
    match Program.ofStage? stage.name with
    | none => task.writeTranslations c rest
    | some p => do
      let text ← (c.translate p stage.source).inside (.translating stage.name)
      let path := Path.join task.outputDirectory s!"{task.name}.{stage.name}.wgsl"
      writeFile path text
      printPaths .glsl [path]
      task.writeTranslations c rest

def Task.translate (task : Task) (compiler : Option Compiler) (target : Target) (shader : Shader) :
    Command Unit :=
  match target, compiler with
  | .glsl, some c => if task.arguments.wgsl then task.writeTranslations c shader.stages else return ()
  | _, _ => return ()

def Task.runTarget (task : Task) (compiler : Option Compiler) (target : Target) : Command Unit := do
  let gen ← Generator.create target task.library
  noteAll [gen.readyEntry]
  let start : Session := { options := task.options }
  let outcome := gen.generate task.name task.document (start.bindLights task.arguments.lights)
  noteAll outcome.log
  let shader ← outcome.result.inside (.generating target task.graphPath)
  task.validate compiler target shader
  createFolders task.outputDirectory
  let paths ← writeFiles task.outputDirectory shader.files
  printPaths target paths
  task.translate compiler target shader

def Task.runTargets (task : Task) (compiler : Option Compiler) : List Target → Command Unit
  | [] => return ()
  | target :: rest => do
    task.runTarget compiler target
    task.runTargets compiler rest

def command (a : Arguments) (compiler : Option Compiler) : Command Unit := do
  let task ← Task.load a
  task.runTargets compiler a.targets

/-- Run in a directory. Without a compiler, nothing is validated or translated. -/
def run (a : Arguments) (d : Directory) (compiler : Option Compiler := none) :
    Result Unit × Console :=
  (command a compiler).run.run ⟨d, [], []⟩

end MaterialShader.CommandLine
