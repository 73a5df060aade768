/-!
Orders of the nodes `0 … n - 1` of a directed graph. An edge `(a, b)` says that `b` reads `a`.

The order takes at every step the least node that reads none of the nodes still to come. If none is
left that way, the rest holds a cycle, and the nodes between cycles are found by taking away again
and again those that no remaining node reads.
-/

namespace MaterialShader.Dependency

abbrev Edge := Nat × Nat

/-- Take nodes in order from `rest`, at most as many as the first argument; the second list holds
what could not be taken. -/
def takeReady : Nat → List Nat → List Edge → List Nat × List Nat
  | 0, rest, _ => ([], rest)
  | k + 1, rest, edges =>
    match rest.find? fun v => edges.all fun e => e.2 != v with
    | none => ([], rest)
    | some v =>
      let (taken, left) := takeReady k (rest.erase v) (edges.filter fun e => e.1 != v)
      (v :: taken, left)

/-- Take away the nodes without an edge into the rest, until every node has one. -/
def dropSinks (edges : List Edge) : Nat → List Nat → List Nat
  | 0, rest => rest
  | k + 1, rest =>
    let kept := rest.filter fun v => edges.any fun e => e.1 == v && rest.contains e.2
    if kept.length = rest.length then rest else dropSinks edges k kept

/-- The nodes with every one after all that it reads and the least possible first; or the nodes
that lie on or between cycles. -/
def sort (n : Nat) (edges : List Edge) : Except (List Nat) (List Nat) :=
  let (taken, left) := takeReady n (List.range n) edges
  if left.isEmpty then .ok taken else .error (dropSinks edges n left)

/-- Visit pending nodes, the first one first. A node not seen before makes the nodes that it reads
pending. Every edge makes a node pending once at most, which bounds the number of visits. -/
def visit (edges : List Edge) : Nat → List Nat → List Nat → List Nat
  | 0, _, seen => seen
  | _ + 1, [], seen => seen
  | k + 1, v :: pending, seen =>
    if seen.contains v then visit edges k pending seen
    else
      let read := (edges.filter fun e => e.2 == v).map Prod.fst
      visit edges k (read ++ pending) (v :: seen)

def reached (edges : List Edge) (roots : List Nat) : List Nat :=
  visit edges (roots.length + edges.length) roots []

/-- For each of the nodes `0 … n - 1` whether a root depends on it. -/
def reachable (n : Nat) (edges : List Edge) (roots : List Nat) : List Bool :=
  let seen := reached edges roots
  (List.range n).map seen.contains

end MaterialShader.Dependency
