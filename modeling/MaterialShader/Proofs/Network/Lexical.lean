import Mathlib.Data.List.Nodup
import MaterialShader.Network

/-!
Documents as nested scopes.
-/

namespace MaterialShader.Network

open List

inductive Site where
  | document
  | inside (outer : Site) (node : Node) (graph : NodeGraph)

namespace Site

def nodes (doc : Document) : Site → List Node
  | document => doc.nodes
  | inside _ _ graph => graph.nodes

def connections (doc : Document) : Site → List Connection
  | document => doc.connections
  | inside _ _ graph => graph.connections

def outputs (doc : Document) : Site → List GraphOutput
  | document => doc.outputs
  | inside _ _ graph => graph.outputs

/-- The ids of the instances around the scope, the outermost first. -/
def ids : Site → List String
  | document => []
  | inside outer node _ => outer.ids ++ [node.id]

def path (site : Site) (id : String) : String := Text.join "/" (site.ids ++ [id])

end Site

inductive Origin where
  | literal (value : Json)
  | socket (name : String)
  | output (site : Site) (endpoint : Endpoint)

def Site.reads? (doc : Document) (site : Site) (enclosing : String → Option Origin) (node : Node)
    (port : String) : Option Origin :=
  let connection := (site.connections doc).reverse.find? fun c => c.destination == ⟨node.id, port⟩
  let literal := Assoc.get? port node.params.reverse
  let link := node.links.reverse.findSome? fun (p, name) =>
    if p == port then enclosing name else none
  (connection.map fun c => Origin.output site c.origin).or ((literal.map .literal).or link)

def Site.input? (doc : Document) : Site → String → Option Origin
  | .document, name =>
    (doc.inputs.reverse.find? fun i => i.name == name).map fun i => .socket i.name
  | .inside outer node graph, name =>
    (graph.inputs.reverse.find? fun i => i.name == name).bind fun i =>
      (outer.reads? doc (fun link => outer.input? doc link) node name).or (i.value.map .literal)

def Site.origin? (doc : Document) (site : Site) (node : Node) (port : String) : Option Origin :=
  site.reads? doc (site.input? doc) node port

section

variable (doc : Document) (lib : Library)

inductive Leads : Site → Endpoint → Binding → Prop where
  | node {site e n} (found : (site.nodes doc).find? (fun n => n.id == e.node) = some n)
      (plain : graphOf? doc lib n = none) : Leads site e (.port (site.path n.id) e.port)
  | dangling {site e n graph} (found : (site.nodes doc).find? (fun n => n.id == e.node) = some n)
      (stands : graphOf? doc lib n = some graph)
      (undeclared : graph.outputs.reverse.find? (fun o => o.name == e.port) = none) :
      Leads site e (.port (site.path n.id) e.port)
  | inside {site e n graph o b} (found : (site.nodes doc).find? (fun n => n.id == e.node) = some n)
      (stands : graphOf? doc lib n = some graph)
      (declared : graph.outputs.reverse.find? (fun o => o.name == e.port) = some o)
      (onward : Leads (.inside site n graph) o.origin b) : Leads site e b

inductive Resolves : Origin → Binding → Prop where
  | literal (value : Json) : Resolves (.literal value) (.literal value)
  | socket (name : String) : Resolves (.socket name) (.socket name)
  | output {site e b} (leads : Leads doc lib site e b) : Resolves (.output site e) b

/-- The nodes that are no instances, in order: an instance is unrolled where it stands. -/
inductive Unrolls : Site → List Node → List (Site × Node) → Prop where
  | nil {site} : Unrolls site [] []
  | node {site n rest leaves} (plain : graphOf? doc lib n = none)
      (later : Unrolls site rest leaves) : Unrolls site (n :: rest) ((site, n) :: leaves)
  | inside {site n rest graph inner leaves} (stands : graphOf? doc lib n = some graph)
      (within : Unrolls (.inside site n graph) graph.nodes inner)
      (later : Unrolls site rest leaves) : Unrolls site (n :: rest) (inner ++ leaves)

/-- A node of the network is a node of the unrolled document: its path is the way to it, and its
bindings are what its scope says. -/
structure Inlined (leaf : Site × Node) (n : BoundNode) : Prop where
  path : n.path = leaf.1.path leaf.2.id
  node : n.node = leaf.2
  bindings : ∀ port b, (port, b) ∈ n.bindings ↔
    ∃ o, leaf.1.origin? doc leaf.2 port = some o ∧ Resolves doc lib o b

end

structure Tidy (nodes : List Node) (connections : List Connection) (outputs : List GraphOutput) :
    Prop where
  plain : ∀ n ∈ nodes, '/' ∉ n.id.toList
  distinct : (nodes.map Node.id).Nodup
  connected : ∀ c ∈ connections, c.origin.node ∈ nodes.map Node.id
  published : ∀ o ∈ outputs, o.origin.node ∈ nodes.map Node.id

instance (nodes : List Node) (connections : List Connection) (outputs : List GraphOutput) :
    Decidable (Tidy nodes connections outputs) :=
  decidable_of_iff
    ((∀ n ∈ nodes, '/' ∉ n.id.toList) ∧ (nodes.map Node.id).Nodup ∧
      (∀ c ∈ connections, c.origin.node ∈ nodes.map Node.id) ∧
      ∀ o ∈ outputs, o.origin.node ∈ nodes.map Node.id)
    ⟨fun ⟨a, b, c, d⟩ => ⟨a, b, c, d⟩, fun ⟨a, b, c, d⟩ => ⟨a, b, c, d⟩⟩

/-- The document and every node graph are tidy. -/
structure TidyScopes (doc : Document) (lib : Library) : Prop where
  document : Tidy doc.nodes doc.connections doc.outputs
  graphs : ∀ g ∈ doc.nodegraphs ++ lib.nodegraphs, Tidy g.nodes g.connections g.outputs

instance (doc : Document) (lib : Library) : Decidable (TidyScopes doc lib) :=
  decidable_of_iff
    (Tidy doc.nodes doc.connections doc.outputs ∧
      ∀ g ∈ doc.nodegraphs ++ lib.nodegraphs, Tidy g.nodes g.connections g.outputs)
    ⟨fun ⟨a, b⟩ => ⟨a, b⟩, fun ⟨a, b⟩ => ⟨a, b⟩⟩

theorem graphOf?_mem {doc : Document} {lib : Library} {node : Node} {graph : NodeGraph}
    (stands : graphOf? doc lib node = some graph) : graph ∈ doc.nodegraphs ++ lib.nodegraphs := by
  simp only [graphOf?, Document.graphFor?, Library.nodegraph?] at stands
  rw [mem_append]
  split at stands
  · cases stands
  · split at stands
    · rename_i own
      cases stands
      exact .inl (mem_of_find?_eq_some own)
    · exact .inr (mem_of_find?_eq_some stands)

theorem TidyScopes.inside {doc : Document} {lib : Library} (tidy : TidyScopes doc lib) {node : Node}
    {graph : NodeGraph} (stands : graphOf? doc lib node = some graph) :
    Tidy graph.nodes graph.connections graph.outputs :=
  tidy.graphs graph (graphOf?_mem stands)

theorem Tidy.find?_id {nodes : List Node} {connections : List Connection}
    {outputs : List GraphOutput} (tidy : Tidy nodes connections outputs) {n : Node}
    (member : n ∈ nodes) : nodes.find? (fun m => m.id == n.id) = some n := by
  have distinct := tidy.distinct
  clear tidy
  induction nodes with
  | nil => cases member
  | cons first rest ih =>
    rw [map_cons, nodup_cons] at distinct
    obtain rfl | later := mem_cons.1 member
    · simp
    · have other : first.id ≠ n.id := fun same => distinct.1 (same ▸ mem_map_of_mem later)
      rw [List.find?_cons_of_neg (by simpa using other)]
      exact ih later distinct.2

section

variable {doc : Document} {lib : Library}

theorem Leads.unique {site : Site} {e : Endpoint} {b c : Binding} (first : Leads doc lib site e b)
    (second : Leads doc lib site e c) : b = c := by
  induction first generalizing c with
  | node found plain =>
    cases second with
    | node found' _ =>
      cases found.symm.trans found'
      rfl
    | dangling found' _ _ =>
      cases found.symm.trans found'
      rfl
    | inside found' stands _ _ =>
      cases found.symm.trans found'
      cases plain.symm.trans stands
  | dangling found stands undeclared =>
    cases second with
    | node found' _ =>
      cases found.symm.trans found'
      rfl
    | dangling found' _ _ =>
      cases found.symm.trans found'
      rfl
    | inside found' stands' declared _ =>
      cases found.symm.trans found'
      cases stands.symm.trans stands'
      cases undeclared.symm.trans declared
  | inside found stands declared _ ih =>
    cases second with
    | node found' plain =>
      cases found.symm.trans found'
      cases plain.symm.trans stands
    | dangling found' stands' undeclared =>
      cases found.symm.trans found'
      cases stands.symm.trans stands'
      cases undeclared.symm.trans declared
    | inside found' stands' declared' onward =>
      cases found.symm.trans found'
      cases stands.symm.trans stands'
      cases declared.symm.trans declared'
      exact ih onward

theorem Resolves.unique {o : Origin} {b c : Binding} (first : Resolves doc lib o b)
    (second : Resolves doc lib o c) : b = c := by
  cases first with
  | literal value =>
    cases second
    rfl
  | socket name =>
    cases second
    rfl
  | output leads =>
    cases second with
    | output leads' => exact leads.unique leads'

end

end MaterialShader.Network
