import MaterialShader.Assembly.SingleStage
import MaterialShader.Graph.Build
import MaterialShader.Shader

/-!
Shaders of documents. A generator is made for one target and one library, and only adding
realizations changes it. Everything that a run changes is in the session: options, bound light
shaders and data of users stay, its target and the nodes it emitted until the next run begins.
-/

namespace MaterialShader

inductive SessionData where
  | text (s : String)
  | number (n : Int)
  /-- Light shaders by the number of their kind, in the order of binding. -/
  | lights (bound : List (Nat × String))
  deriving DecidableEq, Repr

structure Session where
  options : Options := {}
  target : Option Target := none
  /-- The nodes whose code was begun, by stage. -/
  emitted : List (String × NodeId) := []
  data : List (String × SessionData) := []
  deriving DecidableEq, Repr

namespace Session

def begin (s : Session) (target : Target) : Session :=
  { s with target := some target, emitted := [] }

def isEmitted (s : Session) (stage : String) (id : NodeId) : Bool := s.emitted.contains (stage, id)

def markEmitted (s : Session) (stage : String) (id : NodeId) : Session :=
  if s.isEmitted stage id then s else { s with emitted := s.emitted ++ [(stage, id)] }

def put (s : Session) (key : String) (d : SessionData) : Session :=
  { s with data := Assoc.put key d s.data }

def get? (s : Session) (key : String) : Option SessionData := Assoc.get? key s.data

def erase (s : Session) (key : String) : Session :=
  { s with data := s.data.filter fun entry => entry.1 != key }

def append? (s : Session) (key more : String) : Option Session :=
  match s.get? key with
  | some (.text old) => some (s.put key (.text (old ++ more)))
  | _ => none

def lightsKey : String := "boundLightShaders"

def lights (s : Session) : List (Nat × String) :=
  match s.get? lightsKey with
  | some (.lights bound) => bound
  | _ => []

def bindLight (s : Session) (number : Nat) (definition : String) : Session :=
  s.put lightsKey (.lights ((s.lights.filter fun l => l.1 != number) ++ [(number, definition)]))

def bindLights (s : Session) (lights : List (Nat × String)) : Session :=
  lights.foldl (fun acc (number, definition) => acc.bindLight number definition) s

def unbindLights (s : Session) : Session := s.erase lightsKey

end Session

structure Generator where
  target : Target
  dialect : Dialect
  types : Registry
  library : Library
  realizations : RealizationTable
  deriving Repr

structure Outcome (α : Type) where
  session : Session
  log : Log
  result : Result α

namespace Generator

def create (target : Target) (library : Library) : Result Generator := do
  library.validate .standard
  return ⟨target, Dialect.ofTarget target, .standard, library,
    RealizationTable.ofLibrary library target⟩

def readyEntry (gen : Generator) : LogEntry :=
  Log.debug (s!"{gen.target.name} generator ready: {gen.library.definitions.length} nodedefs, " ++
    s!"{gen.realizations.length} implementations")

/-- Give a definition another realization, for one target or for all that have none. -/
def register (gen : Generator) (definition : String) (target : Option Target) (r : Realization) :
    Generator :=
  { gen with realizations := gen.realizations.register definition target r }

def realize (gen : Generator) (n : GraphNode) : Result Realization :=
  match gen.realizations.get? n.definition gen.target with
  | none => fail (.missingImplementation n.path n.definition gen.target)
  | some .unsupported => fail (.unsupported n.path n.category gen.target)
  | some r => .ok r

def scopes (gen : Generator) (g : Graph) : List Scope :=
  if gen.target.hasBranches then g.scopes else List.replicate g.nodes.length .everywhere

def run (gen : Generator) (g : Graph) (s : Session) : Result Run := do
  let realizations ← g.nodes.mapM gen.realize
  return { target := gen.target, dialect := gen.dialect, types := gen.types,
           library := gen.library, options := s.options, lights := s.lights, graph := g,
           names := .ofGraph gen.dialect g, scopes := gen.scopes g, realizations }

def assemble (run : Run) (name : String) : Emission (List Stage) :=
  match run.target with
  | .glsl | .msl => Hardware.stages run
  | .osl => Osl.stages run name
  | .mdl => Mdl.stages run name

def stageEntry (gen : Generator) (name : String) (s : FinishedStage) : LogEntry :=
  Log.debug (s!"{gen.target.name} stage '{s.name}' of '{name}': {s.source.utf8ByteSize} bytes, " ++
    s!"{s.uniforms.length} uniform(s)")

def finishStages (gen : Generator) (name : String) : List Stage → Emission (List FinishedStage)
  | [] => return []
  | stage :: rest => do
    let finished ← stage.finish gen.dialect
    Emission.note (gen.stageEntry name finished)
    let others ← gen.finishStages name rest
    return finished :: others

def doneEntry (gen : Generator) (name : String) (g : Graph) (s : Shader) : LogEntry :=
  Log.info (s!"generated {gen.target.name} shader '{name}' ({g.nodes.length} nodes, " ++
    s!"{s.stages.length} stage(s))")

def emit (gen : Generator) (name : String) (g : Graph) (s : Session) : Emission Shader := do
  let run ← gen.run g s
  let stages ← assemble run name
  let finished ← gen.finishStages name stages
  let shader : Shader := ⟨name, gen.target, finished⟩
  Emission.note (gen.doneEntry name g shader)
  return shader

def generateFromGraph (gen : Generator) (name : String) (g : Graph) (s : Session) :
    Outcome Shader :=
  let started := s.begin gen.target
  let (result, progress) := (gen.emit name g started).run.run ⟨started.emitted, []⟩
  ⟨{ started with emitted := progress.emitted }, progress.log, result⟩

def buildGraph (gen : Generator) (doc : Document) (s : Session) (walk : Network.Walk := .listed) :
    Result (Graph × Log) :=
  Graph.build doc gen.library gen.types s.options walk

/-- The shader of a document. If it has no graph, the session stays as it is. -/
def generate (gen : Generator) (name : String) (doc : Document) (s : Session)
    (walk : Network.Walk := .listed) : Outcome Shader :=
  match (gen.buildGraph doc s walk).inside (.building name) with
  | .error f => ⟨s, [], .error f⟩
  | .ok (g, log) =>
    let outcome := gen.generateFromGraph name g s
    { outcome with log := log ++ outcome.log }

end Generator

end MaterialShader
