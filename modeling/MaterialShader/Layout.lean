import MaterialShader.Graph.Basic
import MaterialShader.Numeric.Integer

/-!
Where the code of a node goes. On targets that branch, a node that only one branch of a conditional
reads is computed inside that branch, so the nodes of a stage are a forest, where the children of a
conditional are the nodes of its branches.
-/

namespace MaterialShader

inductive Scope where
  | everywhere
  | branch (conditional : NodeId) (index : Nat)
  deriving DecidableEq, Repr

namespace Scope

attribute [local instance (high)] instPowNat

/-- The branch that an input named `in` and a number from one on feeds. -/
def branchNumber? (name : String) : Option Nat :=
  match Text.dropHead? "in" name with
  | none => none
  | some digits =>
    match Numeric.parseNat (2 ^ (64 : Nat)) digits with
    | .ok (k + 1) => some k
    | _ => none

def branchOf? (n : GraphNode) (i : Input) : Option Nat :=
  if conditionalCategories.contains n.category then branchNumber? i.name else none

/-- Two different scopes have only everything in common. -/
def meet : Option Scope → Scope → Scope
  | none, s => s
  | some a, s => if a = s then s else .everywhere

def note (scopes : List (Option Scope)) (id : NodeId) (s : Scope) : List (Option Scope) :=
  scopes.modify id fun known => some (meet known s)

def noteInputs (id : NodeId) (n : GraphNode) (own : Scope) (scopes : List (Option Scope)) :
    List (Option Scope) :=
  n.inputs.foldl
    (fun acc i =>
      match i.source with
      | some (.node source _) =>
        match branchOf? n i with
        | some k => note acc source (.branch id k)
        | none => note acc source own
      | _ => acc)
    scopes

/-- The scope known of a node; what is read from nowhere is outside of all branches. -/
def known (scopes : List (Option Scope)) (id : NodeId) : Scope :=
  (scopes.getD id none).getD .everywhere

end Scope

namespace Graph

def socketScopes (g : Graph) : List (Option Scope) :=
  g.outputSockets.foldl
    (fun acc s =>
      match s.source with
      | some (.node id _) => Scope.note acc id .everywhere
      | _ => acc)
    (List.replicate g.nodes.length none)

def scopes (g : Graph) : List Scope :=
  let noted :=
    g.order.reverse.foldl
      (fun acc id =>
        match g.nodes[id]? with
        | some n => Scope.noteInputs id n (Scope.known acc id) acc
        | none => acc)
      g.socketScopes
  noted.map fun s => s.getD .everywhere

end Graph

/-- A node with the nodes that are written inside each of its branches. -/
inductive Placed where
  | node (id : NodeId) (branches : List (List Placed))
  deriving Repr

namespace Placed

def id : Placed → NodeId
  | .node id _ => id

end Placed

namespace Layout

/-- Place nodes one after the other, with `placeOne` for each; the state is the nodes placed so
far. -/
def placeList (placeOne : List NodeId → NodeId → Option Placed × List NodeId) :
    List NodeId → List NodeId → List Placed × List NodeId
  | seen, [] => ([], seen)
  | seen, id :: rest =>
    let (first, seen') := placeOne seen id
    let (others, seen'') := placeList placeOne seen' rest
    (first.toList ++ others, seen'')

def placeBranches (placeOne : List NodeId → NodeId → Option Placed × List NodeId) :
    List NodeId → List (List NodeId) → List (List Placed) × List NodeId
  | seen, [] => ([], seen)
  | seen, members :: rest =>
    let (first, seen') := placeList placeOne seen members
    let (others, seen'') := placeBranches placeOne seen' rest
    (first :: others, seen'')

/-- Place a node and the members of its branches, unless it has a place. Every level places another
node, so as many levels as nodes are enough. -/
def placeNode (branches : NodeId → List (List NodeId)) :
    Nat → List NodeId → NodeId → Option Placed × List NodeId
  | 0, seen, _ => (none, seen)
  | depth + 1, seen, id =>
    if seen.contains id then (none, seen)
    else
      let (placed, seen') := placeBranches (placeNode branches depth) (id :: seen) (branches id)
      (some (.node id placed), seen')

def forest (count : Nat) (branches : NodeId → List (List NodeId)) (roots : List NodeId) :
    List Placed :=
  (placeList (placeNode branches (count + 1)) [] roots).1

end Layout

end MaterialShader
