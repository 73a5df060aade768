import MaterialShader.Assoc
import MaterialShader.Graph.Basic
import MaterialShader.Options

/-!
Names for nodes, output variables and published inputs, all different.

A name that is taken gets the next free number at its end.
-/

namespace MaterialShader.Text

def isIdentifierChar (c : Char) : Bool :=
  c.isAlphanum || c == '_'

/-- A name over the identifier alphabet; it may not be empty or start with a digit. -/
def isIdentifier (cs : List Char) : Bool :=
  match cs with
  | [] => false
  | c :: _ => !c.isDigit && cs.all isIdentifierChar

def sanitizeChars (cs : List Char) : List Char :=
  let kept := cs.map fun c => if isIdentifierChar c then c else '_'
  match kept with
  | [] => ['_']
  | c :: _ => if c.isDigit then '_' :: kept else kept

/-- Characters outside the identifier alphabet become underscores, and an underscore goes in front
of an empty name or a leading digit. -/
def sanitize (s : String) : String :=
  String.ofList (sanitizeChars s.toList)

end MaterialShader.Text

namespace MaterialShader

/-- Names in use, with the number from which to look for a free one. -/
abbrev NameTable := List (String × Nat)

namespace NameTable

/-- The first number from `k` on that makes a free name, looking at most as often as the first
argument says. -/
def firstFree (taken : String → Bool) (name : String) : Nat → Nat → Nat
  | 0, k => k
  | fuel + 1, k => if taken (name ++ Nat.repr k) then firstFree taken name fuel (k + 1) else k

/-- The name itself if it is free, else with a number; and the table with what was used. -/
def reserve (table : NameTable) (name : String) : String × NameTable :=
  match Assoc.get? name table with
  | none => (name, Assoc.put name 1 table)
  | some seen =>
    let k := firstFree (fun c => Assoc.has c table) name (table.length + 1) seen
    let candidate := name ++ Nat.repr k
    (candidate, Assoc.put candidate 1 (Assoc.put name (k + 1) table))

end NameTable

namespace Graph

def nameOutputs (nodeName : String) : NameTable → List Output → NameTable × List Output
  | table, [] => (table, [])
  | table, o :: rest =>
    let (variableName, table') := table.reserve (nodeName ++ "_" ++ o.name)
    let (table'', outputs) := nameOutputs nodeName table' rest
    (table'', { o with variableName } :: outputs)

def nameNode (table : NameTable) (n : GraphNode) : NameTable × GraphNode :=
  let (name, table') := table.reserve (Text.sanitize n.path)
  let (table'', outputs) := nameOutputs name table' n.outputs
  (table'', { n with name, outputs })

def updateNode {σ : Type} (f : σ → GraphNode → σ × GraphNode) (state : σ × List GraphNode)
    (id : NodeId) : σ × List GraphNode :=
  match state.2[id]? with
  | some n =>
    let (s, n') := f state.1 n
    (s, state.2.set id n')
  | none => state

def isPublished (kind : InterfaceKind) (i : Input) : Bool :=
  i.source.isNone && !i.isStatic && !i.type.isClosure && i.type.editable && i.value.isSome &&
    (i.type.isFilename || (kind == .complete && i.type.base != .string))

def publishInputs (kind : InterfaceKind) (nodeName : String) :
    NameTable × List InputSocket → List Input → (NameTable × List InputSocket) × List Input
  | state, [] => (state, [])
  | (table, sockets), i :: rest =>
    if isPublished kind i then
      let (name, table') := table.reserve (nodeName ++ "_" ++ i.name)
      let i' := { i with source := some (.socket sockets.length) }
      let socket : InputSocket := ⟨name, i.type, i.value, i.path⟩
      let (state, inputs) := publishInputs kind nodeName (table', sockets ++ [socket]) rest
      (state, i' :: inputs)
    else
      let (state, inputs) := publishInputs kind nodeName (table, sockets) rest
      (state, i :: inputs)

def publishNode (kind : InterfaceKind) (state : NameTable × List InputSocket) (n : GraphNode) :
    (NameTable × List InputSocket) × GraphNode :=
  let (state', inputs) := publishInputs kind n.name state n.inputs
  (state', { n with inputs })

def reservedNames (sockets : List InputSocket) : NameTable :=
  Assoc.putAll [] (sockets.map fun s => (Text.sanitize s.name, 1))

/-- Name nodes and outputs in the order of the graph, then publish inputs. -/
def assignNames (kind : InterfaceKind) (g : Graph) : Graph :=
  let (table, nodes) := g.order.foldl (updateNode nameNode) (reservedNames g.inputSockets, g.nodes)
  let ((_, inputSockets), published) :=
    g.order.foldl (updateNode (publishNode kind)) ((table, g.inputSockets), nodes)
  { g with nodes := published, inputSockets }

end Graph

end MaterialShader
