import MaterialShader.Graph.Builder
import MaterialShader.Graph.Fold
import MaterialShader.Graph.Naming

/-!
The shader graph of a document: bound, sorted, pruned, folded and named.
-/

namespace MaterialShader.Graph

def bind (doc : Document) (lib : Library) (types : Registry) (walk : Network.Walk := .listed) :
    Result Graph := do
  let net ← Network.ofDocument doc lib walk
  let start : Builder :=
    { library := lib, types, nodes := [], index := [], sockets := [], socketIndex := [],
      geometry := [], conversions := [] }
  let (g, _) ← (Builder.graph doc net).run start
  return g

def classifyNodes (g : Graph) : Graph :=
  { g with nodes := g.nodes.map fun n => { n with classification := n.classify } }

def withClassification (g : Graph) : Graph :=
  { g with
    classification := g.nodes.foldl (fun acc n => acc.union n.classification) .empty }

def foldConstants (types : Registry) (options : Options) (g : Graph) : Result (Graph × Log) :=
  if options.constantFolding then do
    let (folded, count) := Fold.run types (options.interfaceKind == .reduced) g
    if count = 0 then return (folded, [])
    else
      let (pruned, removed) := folded.prune
      let sorted ← pruned.sort
      return (sorted, removed.map fun path => Log.debug s!"constant folding removed '{path}'")
  else .ok (g, [])

def build (doc : Document) (lib : Library) (types : Registry) (options : Options)
    (walk : Network.Walk := .listed) : Result (Graph × Log) := do
  let bound ← bind doc lib types walk
  let sorted ← bound.sort
  let (pruned, dropped) := sorted.prune
  let ordered ← pruned.sort
  let (folded, log) ← foldConstants types options ordered.classifyNodes
  let named := (folded.assignNames options.interfaceKind).withClassification
  return (named,
    (dropped.map fun path => Log.warn s!"dropping node '{path}': not connected to any output") ++
      log)

end MaterialShader.Graph
