import MaterialShader.Text.Search

/-!
What can go wrong. A `Fault` is a cause; a `Failure` is a cause with the places around it, the
outermost first. All wording is in `Fault.message` and `Place.message`.
-/

namespace MaterialShader

inductive Target where
  | glsl
  | osl
  | mdl
  | msl
  deriving DecidableEq, Repr

namespace Target

def all : List Target := [.glsl, .osl, .mdl, .msl]

def name : Target → String
  | .glsl => "genglsl"
  | .osl => "genosl"
  | .mdl => "genmdl"
  | .msl => "genmsl"

def isHardware : Target → Bool
  | .glsl | .msl => true
  | .osl | .mdl => false

theorem mem_hardware {target : Target} (hardware : target.isHardware) :
    target ∈ [Target.glsl, .msl] := by
  cases target with
  | glsl | msl => decide
  | osl | mdl => cases hardware

/-- Whether the language has statements, so that a conditional can branch. An MDL body is one
`let` expression. -/
def hasBranches : Target → Bool
  | .mdl => false
  | _ => true

def fileExtension : Target → String
  | .glsl => "glsl"
  | .osl => "osl"
  | .mdl => "mdl"
  | .msl => "metal"

def ofName? (s : String) : Option Target :=
  all.find? fun t => t.name == s

/-- The target of a name as a user writes it: the library name or a short one. -/
def ofAlias? (s : String) : Option Target :=
  match ofName? s with
  | some t => some t
  | none =>
    if s = "glsl" then some .glsl
    else if s = "osl" then some .osl
    else if s = "mdl" then some .mdl
    else if s = "msl" || s = "metal" then some .msl
    else none

end Target

inductive Fault where
  -- types
  | unknownType (name : String)
  | duplicateType (name : String)
  | typeMismatch (producer output producerType consumer input consumerType : String)
  | invalidConversion (source result : String)
  | invalidValue (typeName reason : String)
  -- structure of the graph
  | cycle (paths : List String)
  | missingInput (node category input : String)
  | unknownCategory (node category : String)
  | unknownNode (name : String)
  | unknownPort (node port : String)
  -- what a target can express
  | unsupported (node category : String) (target : Target)
  | missingImplementation (node definition : String) (target : Target)
  | template (node reason : String)
  -- scopes of a stage
  | noOpenScope (stage : String)
  | scopesLeftOpen (stage : String) (count : Nat)
  -- names that lead nowhere
  | unknownTarget (name : String)
  | unknownBlock (stage block : String)
  | unknownStage (name : String)
  | undeclaredConnector (name : String)
  | unknownDefinition (name : String)
  | noConversionNode (typeName : String)
  | unknownGeometry (name : String)
  | noGeometryNode (definition geometry : String)
  | danglingReference (node output : Nat)
  -- expressions in a target language
  | arrayExpected (typeName shown : String)
  | componentCount (typeName : String) (given expected : Nat)
  | notConstructible (typeName form : String)
  | noComponent (typeName : String) (index : Nat)
  | unknownChannel (channel : Char) (channels : String)
  | channelOutOfRange (channel : Char) (typeName : String)
  | channelCount (channels : String) (count : Nat) (typeName : String)
  | unsizedArray (name : String)
  -- literals that a node needs
  | literalTextNeeded (node input : String)
  | literalIndexNeeded (node : String)
  | geometryNameNeeded (node : String)
  | indexOutOfRange (index : Int) (typeName : String)
  -- node graphs
  | nestingTooDeep (limit : Nat) (at_ : String)
  | chainTooDeep (shown : String)
  -- libraries and documents
  | implementationForm (definition : String)
  | invalidLibrary (problems : List String)
  | invalidDocument (problems : List String)
  | notValidated (target : Target)
  -- what a compiler says against a program
  | noProgram (stage : String)
  | unparsedProgram (shown source : String)
  | invalidProgram (shown source : String)
  | untranslatedProgram (shown : String)
  -- texts that cannot be read
  | malformedDocument
  | malformedLibrary
  | malformedOptions
  | malformedOptionsFile (path : String)
  | malformedNode
  -- the command line and its files
  | missingValue (flag : String)
  | unknownArgument (argument usage : String)
  | graphRequired (usage : String)
  | lightForm (argument : String)
  | emptyInteger
  | invalidDigit
  | integerTooLarge
  | unreadableDocument (path : String)
  | unreadableOptions (path : String)
  | unreadableLibrary (path : String)
  | uncreatableDirectory (path : String)
  | unwritableFile (path : String)
  deriving DecidableEq, Repr

namespace Fault

def isTypeFault : Fault → Bool
  | .unknownType _ | .duplicateType _ | .typeMismatch .. | .invalidConversion ..
  | .invalidValue .. => true
  | _ => false

def listed (what : String) (problems : List String) : String :=
  s!"{what} failed validation ({problems.length} error(s)):\n- " ++ Text.join "\n- " problems

def message : Fault → String
  | .unknownType name => s!"unknown type '{name}'"
  | .duplicateType name => s!"type '{name}' is already registered"
  | .typeMismatch producer output producerType consumer input consumerType =>
    s!"type mismatch: node '{producer}' output '{output}' has type {producerType}, " ++
      s!"but node '{consumer}' input '{input}' expects {consumerType}"
  | .invalidConversion source result =>
    s!"no conversion may be registered between {source} and {result}"
  | .invalidValue typeName reason => s!"invalid value for type {typeName}: {reason}"
  | .cycle paths =>
    "encountered a cycle in graph through nodes: " ++ Text.join ", " paths
  | .missingInput node category input =>
    s!"node '{node}' ({category}) is missing required input '{input}'"
  | .unknownCategory node category => s!"node '{node}' has unresolved category '{category}'"
  | .unknownNode name => s!"reference to missing node '{name}'"
  | .unknownPort node port => s!"node '{node}' has no port named '{port}'"
  | .unsupported node category target =>
    s!"node '{node}' ({category}) is not supported on target {target.name}"
  | .missingImplementation node definition target =>
    s!"no implementation of '{definition}' for node '{node}' on target {target.name}"
  | .template node reason => s!"malformed source template for node '{node}': {reason}"
  | .noOpenScope stage => s!"end_scope called with no open scope in stage '{stage}'"
  | .scopesLeftOpen stage count => s!"stage '{stage}' finished with {count} open scope(s)"
  | .unknownTarget name =>
    s!"unknown target '{name}' (supported: genglsl, genosl, genmdl, genmsl)"
  | .unknownBlock stage block => s!"stage '{stage}' has no variable block '{block}'"
  | .unknownStage name => s!"shader has no '{name}' stage"
  | .undeclaredConnector name => s!"connector '{name}' was not declared"
  | .unknownDefinition name => s!"nodedef '{name}' is not in the library"
  | .noConversionNode typeName => s!"node library has no convert nodedef producing {typeName}"
  | .unknownGeometry name => s!"unknown default geometric property '{name}'"
  | .noGeometryNode definition geometry =>
    s!"node library has no '{definition}' for geomprop {geometry}"
  | .danglingReference node output => s!"node {node} has no output {output}"
  | .arrayExpected typeName shown => s!"expected an array value for {typeName}, got '{shown}'"
  | .componentCount typeName given expected =>
    s!"cannot construct {typeName} from {given} components (expected {expected})"
  | .notConstructible typeName form => s!"type {typeName} cannot be constructed ({form})"
  | .noComponent typeName index => s!"type {typeName} has no component {index}"
  | .unknownChannel channel channels => s!"invalid swizzle channel '{channel}' in '{channels}'"
  | .channelOutOfRange channel typeName =>
    s!"swizzle channel '{channel}' is out of range for type {typeName}"
  | .channelCount channels count typeName =>
    s!"swizzle '{channels}' yields {count} channels, {typeName} expects 1"
  | .unsizedArray name => s!"array variable '{name}' needs a value to size it"
  | .literalTextNeeded node input => s!"node '{node}' needs a literal string for '{input}'"
  | .literalIndexNeeded node => s!"node '{node}' needs a literal integer for 'index'"
  | .geometryNameNeeded node => s!"node '{node}' needs a literal 'geomprop' name"
  | .indexOutOfRange index typeName =>
    s!"extract index {index} is out of range for {typeName}"
  | .nestingTooDeep limit at_ => s!"node graph nesting exceeds {limit} levels at '{at_}'"
  | .chainTooDeep shown => s!"node graph output chain too deep starting at {shown}"
  | .implementationForm definition =>
    s!"implementation of '{definition}' must have either 'inline' or 'function' + 'source'"
  | .invalidLibrary problems => listed "node library" problems
  | .invalidDocument problems => listed "document" problems
  | .notValidated target => s!"only genglsl shaders can be validated, got {target.name}"
  | .noProgram stage => s!"unknown stage '{stage}'"
  | .unparsedProgram shown source => s!"GLSL parse failed: {shown}\n{source}"
  | .invalidProgram shown source => s!"GLSL validation failed: {shown}\n{source}"
  | .untranslatedProgram shown => s!"WGSL writer failed: {shown}"
  | .malformedDocument => "failed to parse material json"
  | .malformedLibrary => "failed to parse node library"
  | .malformedOptions => "invalid options json"
  | .malformedOptionsFile path => s!"invalid options json in {path}"
  | .malformedNode => "node"
  | .missingValue flag => s!"missing value for {flag}"
  | .unknownArgument argument usage => s!"unknown argument: {argument}\n{usage}"
  | .graphRequired usage => s!"--graph is required\n{usage}"
  | .lightForm argument => s!"--light expects <id>=<nodedef>, got '{argument}'"
  | .emptyInteger => "cannot parse integer from empty string"
  | .invalidDigit => "invalid digit found in string"
  | .integerTooLarge => "number too large to fit in target type"
  | .unreadableDocument path => s!"failed to read material json at {path}"
  | .unreadableOptions path => s!"failed to read --options file {path}"
  | .unreadableLibrary path => s!"failed to read --library file {path}"
  | .uncreatableDirectory path => s!"failed to create output dir {path}"
  | .unwritableFile path => s!"failed to write {path}"

end Fault

inductive Place where
  | graphInput (name : String)
  | graphOutput (name : String)
  | definitionOutput (output definition : String)
  | definitionDefault (input definition : String)
  | nodeInput (input node : String)
  | inlining (graph path : String)
  | building (shader : String)
  | declaring (node : String)
  | emitting (node : String)
  | finalizing (stage : String)
  | typeForm (target : Target) (typeName : String)
  | namedDefinition (name : String)
  | lightIdentifier (argument : String)
  | file (path : String)
  | generating (target : Target) (path : String)
  | checking (stage shader : String)
  | translating (stage : String)
  deriving DecidableEq, Repr

def Place.message : Place → String
  | .graphInput name => s!"graph input '{name}'"
  | .graphOutput name => s!"graph output '{name}'"
  | .definitionOutput output definition => s!"output '{output}' of nodedef '{definition}'"
  | .definitionDefault input definition => s!"default of input '{input}' in nodedef '{definition}'"
  | .nodeInput input node => s!"input '{input}' of node '{node}'"
  | .inlining graph path => s!"while inlining node graph '{graph}' at '{path}'"
  | .building shader => s!"failed to build shader graph for '{shader}'"
  | .declaring node => s!"while declaring variables of '{node}'"
  | .emitting node => s!"while emitting node '{node}'"
  | .finalizing stage => s!"failed to finalize {stage} stage"
  | .typeForm target typeName => s!"no {target.name} syntax for type '{typeName}'"
  | .namedDefinition name => s!"nodedef '{name}' is not in the library"
  | .lightIdentifier argument => s!"invalid light type id in '{argument}'"
  | .file path => s!"in {path}"
  | .generating target path => s!"{target.name} generation failed for {path}"
  | .checking stage shader => s!"{stage} stage of '{shader}' is not valid GLSL"
  | .translating stage => s!"failed to translate {stage} stage to WGSL"

structure Failure where
  places : List Place
  fault : Fault
  deriving DecidableEq, Repr

namespace Failure

def message (f : Failure) : String :=
  Text.join ": " (f.places.map Place.message ++ [f.fault.message])

def headline (f : Failure) : String :=
  match f.places with
  | [] => f.fault.message
  | p :: _ => p.message

end Failure

abbrev Result (α : Type) := Except Failure α

def fail {α : Type} (f : Fault) : Result α := .error ⟨[], f⟩

def Result.inside {α : Type} (p : Place) : Result α → Result α
  | .ok a => .ok a
  | .error f => .error ⟨p :: f.places, f.fault⟩

def orFail {α : Type} (f : Fault) : Option α → Result α
  | some a => .ok a
  | none => fail f

inductive Level where
  | warn
  | info
  | debug
  deriving DecidableEq, Repr

structure LogEntry where
  level : Level
  text : String
  deriving DecidableEq, Repr

abbrev Log := List LogEntry

namespace Log

def warn (text : String) : LogEntry := ⟨.warn, text⟩

def info (text : String) : LogEntry := ⟨.info, text⟩

def debug (text : String) : LogEntry := ⟨.debug, text⟩

end Log

def Level.name : Level → String
  | .warn => "WARN"
  | .info => "INFO"
  | .debug => "DEBUG"

def LogEntry.line (e : LogEntry) : String := e.level.name ++ " " ++ e.text

end MaterialShader
