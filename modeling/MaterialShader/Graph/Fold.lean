import MaterialShader.Graph.Basic
import MaterialShader.Value.Literal

/-!
Constant folding: a node whose result is one of its inputs, or a literal, is bypassed. Its readers
read that instead, and the node is left for pruning.
-/

namespace MaterialShader

open Numeric

structure Replacement where
  source : Option Source
  value : Option Value
  deriving DecidableEq, Repr

namespace Fold

def literal (v : Value) : Replacement := ⟨none, some v⟩

def pass (n : GraphNode) (result : ShaderType) (name : String) : Option Replacement :=
  match n.input? name with
  | some i => if i.type.same result then some ⟨i.source, i.value⟩ else none
  | none => none

def literalNumber? (n : GraphNode) (name : String) : Option Single :=
  n.literal? name >>= Value.number?

def branchCount (n : GraphNode) : Nat :=
  Nat.max 1 (n.inputs.countP fun i => Text.startsWith "in" i.name)

/-- The branch that a selector picks, counted from zero. -/
def switchBranch (selector : Single) (branches : Nat) : Nat :=
  selector.floorWithin (branches - 1)

def branchName (k : Nat) : String := s!"in{k + 1}"

def chosenInput? (n : GraphNode) : Option String :=
  if n.category = "switch" then
    (literalNumber? n "which").map fun which => branchName (switchBranch which (branchCount n))
  else if n.category = "compare" then
    match literalNumber? n "intest", literalNumber? n "cutoff" with
    | some intest, some cutoff => some (if intest.le cutoff then "in1" else "in2")
    | _, _ => none
  else if n.category = "ifgreater" then
    match literalNumber? n "value1", literalNumber? n "value2" with
    | some value1, some value2 => some (if value2.lt value1 then "in1" else "in2")
    | _, _ => none
  else none

def channel? (xs : List Single) (c : Char) : Option Single :=
  if c = '0' then some .zero
  else if c = '1' then some .one
  else if c = 'r' || c = 'x' then xs[0]?
  else if c = 'g' || c = 'y' then xs[1]?
  else if c = 'b' || c = 'z' then xs[2]?
  else if c = 'a' || c = 'w' then xs[3]?
  else none

def convertValue? (v : Value) (c : Conversion) (result : ShaderType) : Option Value := do
  let xs ← v.components?
  let ys ←
    match c with
    | .splat => xs.head?.map (List.replicate result.size)
    | .cast | .reinterpret => some xs
    | .swizzle channels => channels.toList.mapM (channel? xs)
  (Value.ofComponents result ys).toOption

inductive Operator where
  | add
  | subtract
  | multiply
  | divide
  | min
  | max
  deriving DecidableEq, Repr

def Operator.ofCategory? (category : String) : Option Operator :=
  if category = "add" then some .add
  else if category = "subtract" then some .subtract
  else if category = "multiply" then some .multiply
  else if category = "divide" then some .divide
  else if category = "min" then some .min
  else if category = "max" then some .max
  else none

/-- The result for one component. Nothing is divided by zero. -/
def Operator.apply? (op : Operator) (x y : Single) : Option Single :=
  match op with
  | .add => some (x.add y)
  | .subtract => some (x.sub y)
  | .multiply => some (x.mul y)
  | .divide => if y.eq .zero then none else some (x.div y)
  | .min => some (x.min y)
  | .max => some (x.max y)

def broadcast? (n : Nat) (xs : List Single) : Option (List Single) :=
  if xs.length = n then some xs
  else
    match xs with
    | [x] => some (List.replicate n x)
    | _ => none

def applyAll? (op : Operator) : List Single → List Single → Option (List Single)
  | x :: xs, y :: ys => do
    let z ← op.apply? x y
    let zs ← applyAll? op xs ys
    return z :: zs
  | _, _ => some []

def arithmetic? (op : Operator) (a b : List Single) (result : ShaderType) : Option Value := do
  let n := Nat.max a.length b.length
  if n ≠ result.size then none
  else
    let xs ← broadcast? n a
    let ys ← broadcast? n b
    let zs ← applyAll? op xs ys
    (Value.ofComponents result zs).toOption

/-- What a node with one output folds to. With `literalMath`, arithmetic and conversions of literals
are carried out. -/
def replacement? (types : Registry) (literalMath : Bool) (n : GraphNode) :
    Option Replacement :=
  match n.outputs with
  | [out] =>
    if n.category = "constant" then pass n out.type "value"
    else if n.category = "dot" then pass n out.type "in"
    else if conditionalCategories.contains n.category then
      chosenInput? n >>= pass n out.type
    else if n.category = "mix" then
      match literalNumber? n "mix" with
      | some w =>
        if w.eq .zero then pass n out.type "bg"
        else if w.eq .one then pass n out.type "fg"
        else none
      | none => none
    else if !literalMath then none
    else if n.category = "convert" then
      match n.input? "in", n.literal? "in" with
      | some i, some v =>
        (types.conversion? i.type out.type >>= fun c => convertValue? v c out.type).map literal
      | _, _ => none
    else
      match Operator.ofCategory? n.category with
      | some op =>
        if out.type.isFloatBased && out.type.semantic != .matrix then
          match n.literal? "in1" >>= Value.components?, n.literal? "in2" >>= Value.components? with
          | some a, some b => (arithmetic? op a b out.type).map literal
          | _, _ => none
        else none
      | none => none
  | _ => none

def bypass (g : Graph) (id : NodeId) (r : Replacement) : Graph :=
  let reads (s : Option Source) : Bool := s == some (.node id 0)
  { g with
    nodes := g.nodes.map fun n =>
      { n with
        inputs := n.inputs.map fun i =>
          if reads i.source then { i with source := r.source, value := r.value } else i }
    outputSockets := g.outputSockets.map fun s =>
      if reads s.source then { s with source := r.source, value := r.value } else s }

/-- One pass over nodes in order; the second component lists the nodes bypassed so far. -/
def pass1 (types : Registry) (literalMath : Bool) :
    List NodeId → Graph × List NodeId → Graph × List NodeId
  | [], state => state
  | id :: rest, (g, bypassed) =>
    if bypassed.contains id then pass1 types literalMath rest (g, bypassed)
    else
      match g.nodes[id]? >>= replacement? types literalMath with
      | some r => pass1 types literalMath rest (bypass g id r, id :: bypassed)
      | none => pass1 types literalMath rest (g, bypassed)

/-- Passes until one bypasses nothing. Every other pass bypasses a node, so there are at most as
many as nodes. -/
def passes (types : Registry) (literalMath : Bool) :
    Nat → Graph × List NodeId → Graph × List NodeId
  | 0, state => state
  | k + 1, (g, bypassed) =>
    let (g', bypassed') := pass1 types literalMath g.order (g, bypassed)
    if bypassed'.length = bypassed.length then (g', bypassed')
    else passes types literalMath k (g', bypassed')

def run (types : Registry) (literalMath : Bool) (g : Graph) : Graph × Nat :=
  let (folded, bypassed) := passes types literalMath (g.nodes.length + 1) (g, [])
  (folded, bypassed.length)

end Fold

end MaterialShader
