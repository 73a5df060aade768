import MaterialShader.Proofs.Fault.Graph
import MaterialShader.Proofs.Graph.Declared
import MaterialShader.Proofs.Graph.Inlined

/-!
What a valid document may still fail by.
-/

namespace MaterialShader

open List
open Result

namespace Network

/-- An input of a node, or an output of the document, is bound to the output. -/
def Reads (net : Network) (node output : String) : Prop :=
  (∃ m ∈ net.nodes, ∃ entry ∈ m.bindings, entry.2 = .port node output) ∨
    ∃ o ∈ net.outputs, o.binding = .port node output

def Lacks (lib : Library) (net : Network) : Fault → Prop
  | .unknownNode name => (∀ m ∈ net.nodes, m.path ≠ name) ∧ ∃ output, net.Reads name output
  | .unknownCategory name _ =>
    ∃ m ∈ net.nodes, m.path = name ∧ ∀ d, lib.resolve m.path m.node ≠ .ok d
  | _ => True

theorem lacks_of_ordinary {lib : Library} {net : Network} {f : Fault} (ordinary : f.Ordinary) :
    net.Lacks lib f := by
  cases f with
  | unknownNode name => exact absurd rfl (ordinary.2.1 name)
  | unknownCategory name category => exact absurd rfl (ordinary.2.2 name category)
  | _ => trivial

end Network

namespace Library

theorem resolve_lacks {lib : Library} {net : Network} {n : BoundNode} (member : n ∈ net.nodes) :
    (lib.resolve n.path n.node).FailsBy (net.Lacks lib) := by
  intro f failed
  have missing : ∀ d, lib.resolve n.path n.node ≠ .ok d := by
    intro d resolved
    cases failed.symm.trans resolved
  have named : (lib.resolve n.path n.node).FailsBy fun fault =>
      ∃ category, fault = .unknownCategory n.path category := by
    unfold resolve
    split <;> simp
  obtain ⟨category, fault⟩ := named f failed
  rw [fault]
  exact ⟨n, member, rfl, missing⟩

end Library

namespace Builder

open Build

variable {lib : Library} {net : Network}

def Placed (net : Network) (b : Builder) : Prop :=
  ∀ n ∈ net.nodes, (Assoc.get? n.path b.index).isSome

theorem addNodes_placed {b b' : Builder} {binders : List Binder}
    (added : net.nodes.mapM addNode b = .ok (binders, b')) : Placed net b' := by
  obtain ⟨_, _, _, _, rfl⟩ := addNodes_ok added
  intro n member
  change Assoc.has n.path (Assoc.putAll _ _)
  rw [Assoc.has_putAll, map_fst_zip (by simp)]
  exact .inl (mem_map_of_mem member)

theorem placed_guards : Guards (Placed net) (net.Lacks lib) :=
  .of_ordinary (fun _ _ _ index placed n member => index ▸ placed n member)
    fun _ ordinary => Network.lacks_of_ordinary ordinary

theorem placed_catches {binding : Binding}
    (reads : ∀ node output, binding = .port node output → net.Reads node output) :
    Catches (Placed net) (net.Lacks lib) binding := by
  intro node output bound b placed absent
  refine ⟨fun m member same => ?_, output, reads node output bound⟩
  have present := placed m member
  rw [same, absent] at present
  cases present

theorem graph_lacks (doc : Document) (types : Registry) :
    FailsBy (net.Lacks lib) ((graph doc net).run (start lib types)) := by
  have same : Guards (fun b => b.library = lib) (net.Lacks lib) :=
    .of_ordinary (fun _ _ library _ holds => library.trans holds)
      fun _ ordinary => Network.lacks_of_ordinary ordinary
  -- Until all nodes are placed only definitions can be missing, afterwards only places.
  have sockets := Steps.forM fun i (_ : i ∈ doc.inputs) => addSocket_steps same i
  refine .bind (sockets.fails _ rfl) fun ⟨_, b₁⟩ shown => ?_
  have nodes : (net.nodes.mapM addNode).Steps (fun b => b.library = lib) (net.Lacks lib) := by
    refine .mapM fun n member => addNode_steps same (fun _ _ holds => holds) fun b library => ?_
    rw [library]
    exact Library.resolve_lacks member
  refine .bind (nodes.fails b₁ (sockets.keeps _ _ _ rfl shown)) fun ⟨binders, b₂⟩ added => ?_
  obtain ⟨shells, places, rfl, _⟩ := addNodes_ok added
  have rest : Build.Steps (Placed net) (net.Lacks lib) (do
      (shells.map Prod.fst).forM (bindInputs (geometryCount + 2))
      let outputSockets ← net.outputs.mapM outputSocket
      let b ← get
      return ({ nodes := b.nodes, inputSockets := b.sockets, outputSockets, order := [],
                classification := .empty } : Graph)) := by
    refine .bind (.forM fun w bound => ?_) fun _ => ?_
    · obtain ⟨p, listed, rfl⟩ := mem_map.1 bound
      obtain ⟨n, member, here⟩ := exists_of_mem_right places listed
      refine bindInputs_steps _ _ p.1 placed_guards fun entry given => placed_catches ?_
      exact fun node output read => .inl ⟨n, member, entry, here.bindings ▸ given, read⟩
    refine .bind (.mapM fun o member => ?_) fun _ =>
      .read (fun _ _ => rfl) fun b _ => .pure
    refine outputSocket_steps placed_guards (placed_catches ?_)
    exact fun node output read => .inr ⟨o, member, read⟩
  exact rest.fails b₂ (addNodes_placed added)

end Builder

namespace Network

variable {doc : Document} {lib : Library} {net : Network}

theorem expand_paths {levels : Nat} {nodes : List Node} {connections : List Connection}
    {at_ : String} {around : Surroundings} {e : Expansion}
    (run : expand doc lib levels nodes connections at_ around = .ok e) :
    ∀ m ∈ e.nodes, ∃ rest, m.path = at_ ++ rest := by
  induction levels generalizing nodes connections at_ around e with
  | zero => exact absurd run not_expand_zero
  | succ levels ih =>
    obtain ⟨parts, made, rfl⟩ := expand_parts run
    intro m member
    obtain ⟨part, listed, member⟩ := mem_flatMap.1 member
    obtain ⟨node, _, of_node⟩ := exists_of_mem_right made listed
    cases of_node with
    | node bound plain =>
      rw [mem_singleton.1 member]
      exact ⟨node.id, rfl⟩
    | inside _ _ within =>
      obtain ⟨rest, path⟩ := ih within m member
      exact ⟨node.id ++ "/" ++ rest, by simp only [path, String.append_assoc]⟩

theorem ofDocument_path (run : ofDocument doc lib = .ok net) {m : BoundNode}
    (member : m ∈ net.nodes) :
    (m.node ∈ doc.nodes ∧ m.path = m.node.id ∧ graphOf? doc lib m.node = none) ∨
      ∃ n ∈ doc.nodes, (graphOf? doc lib n).isSome ∧ ∃ rest, m.path = n.id ++ "/" ++ rest := by
  obtain ⟨whole, expanded, settled, _⟩ := ofDocument_ok run
  obtain ⟨draft, before, settles⟩ := exists_of_mem_right settled member
  obtain ⟨path, node, _⟩ := settleNode_keys settles
  rw [path, node]
  obtain ⟨parts, made, rfl⟩ := expand_parts expanded
  obtain ⟨part, listed, here⟩ := mem_flatMap.1 before
  obtain ⟨n, of_doc, of_node⟩ := exists_of_mem_right made listed
  cases of_node with
  | node bound plain =>
    rw [mem_singleton.1 here]
    exact .inl ⟨of_doc, String.empty_append, plain⟩
  | inside _ stands within =>
    obtain ⟨rest, inner⟩ := expand_paths within draft here
    refine .inr ⟨n, of_doc, by simp [stands], rest, ?_⟩
    rw [inner, String.empty_append]

theorem redirect?_of_follow? {redirects : List Redirect} {steps : Nat} {b : Binding}
    {node output : String} (followed : follow? redirects steps b = some (.port node output)) :
    redirect? redirects node output = none := by
  induction steps generalizing b with
  | zero => cases followed
  | succ steps ih =>
    cases b with
    | literal json => cases followed
    | socket name => cases followed
    | port node' output' =>
      rw [follow?] at followed
      split at followed
      · exact ih followed
      · rename_i ends
        cases followed
        exact ends

theorem ofDocument_reads (run : ofDocument doc lib = .ok net) {node output : String}
    (reads : net.Reads node output) {n : Node} (member : n ∈ doc.nodes) (id : n.id = node)
    {graph : NodeGraph} (stands : graphOf? doc lib n = some graph) :
    ∀ o ∈ graph.outputs, o.name ≠ output := by
  obtain ⟨whole, expanded, settled, published⟩ := ofDocument_ok run
  have ends : redirect? whole.redirects node output = none := by
    obtain ⟨m, after, entry, given, read⟩ | ⟨o, after, read⟩ := reads
    · obtain ⟨draft, _, settles⟩ := exists_of_mem_right settled after
      obtain ⟨old, _, _, followed⟩ := exists_of_mem_right (settleNode_ok settles).2.2 given
      exact redirect?_of_follow? (followed.trans (congrArg some read))
    · obtain ⟨old, _, settles⟩ := exists_of_mem_right published after
      exact redirect?_of_follow? ((settleOutput_ok settles).trans (congrArg some read))
  obtain ⟨parts, made, rfl⟩ := expand_parts expanded
  obtain ⟨part, listed, of_node⟩ := exists_of_mem_right made.flip member
  rintro o declared rfl
  cases of_node with
  | node _ plain => cases plain.symm.trans stands
  | @inside _ graph' inner _ stands' _ =>
    cases stands.symm.trans stands'
    have redirected : ((n.id, o.name), Binding.port (n.id ++ "/" ++ o.origin.node) o.origin.port) ∈
        parts.flatMap Expansion.redirects := by
      refine mem_flatMap.2 ⟨_, listed, mem_append_right _ ?_⟩
      exact mem_map.2 ⟨o, declared, by rw [String.empty_append]⟩
    have present := Assoc.has_of_mem_keys (mem_map_of_mem (mem_reverse.2 redirected))
    rw [redirect?, ← id] at ends
    rw [Assoc.has, ends] at present
    cases present

end Network

theorem Document.resolve_of_validate {doc : Document} {lib : Library}
    (valid : doc.validate lib = .ok ()) {n : Node} (member : n ∈ doc.nodes)
    (none_ : doc.graphFor? lib n.category n.typeName = none) :
    ∃ d, lib.resolve n.id n = .ok d := by
  have problems : doc.problems lib = [] := by
    unfold validate at valid
    split at valid
    · assumption
    · cases valid
  have clean : doc.nodeProblems lib = [] := by
    rw [Document.problems, append_eq_nil_iff, append_eq_nil_iff] at problems
    exact problems.1.1
  have passed := filterMap_eq_nil_iff.1 clean n member
  simp only [none_, Option.isSome_none, Bool.false_eq_true, if_false] at passed
  split at passed
  · exact ⟨_, ‹_›⟩
  · cases passed

/-- A valid document that has no graph fails neither by a reference to a node of its own, unless that
is an instance whose graph lacks the output, nor by the category of a node of its own, unless that
names a definition the library lacks while a graph stands for its category. -/
theorem valid_build_faults {doc : Document} {lib : Library} {types : Registry} {options : Options}
    {f : Failure} (valid : doc.validate lib = .ok ())
    (failed : Graph.build doc lib types options = .error f) :
    (∀ name, f.fault = .unknownNode name → ∃ net output, Network.ofDocument doc lib = .ok net ∧
      net.Reads name output ∧ ∀ n ∈ doc.nodes, n.id = name →
        ∃ graph, Network.graphOf? doc lib n = some graph ∧ ∀ o ∈ graph.outputs, o.name ≠ output) ∧
    (∀ name category, f.fault = .unknownCategory name category →
      (∃ n ∈ doc.nodes, (Network.graphOf? doc lib n).isSome ∧ ∃ rest, name = n.id ++ "/" ++ rest) ∨
      ∃ n ∈ doc.nodes, n.id = name ∧ (doc.graphFor? lib n.category n.typeName).isSome ∧
        ∃ d, n.definition = some d ∧ lib.definition? d = none) := by
  have lacks : f.fault.Ordinary ∨
      ∃ net, Network.ofDocument doc lib = .ok net ∧ net.Lacks lib f.fault := by
    refine Graph.build_failsBy (P := fun fault => fault.Ordinary ∨
      ∃ net, Network.ofDocument doc lib = .ok net ∧ net.Lacks lib fault)
      (fun _ common => .inl common.1) ?_ options f failed
    rw [Graph.bind_eq]
    have expands := Network.ofDocument_common doc lib
    refine failsBy_bind.2 ⟨expands.mono fun _ common => .inl common.1, fun net expanded => ?_⟩
    refine failsBy_map.2 ((Builder.graph_lacks doc types).mono fun fault lacking => ?_)
    exact .inr ⟨net, expanded, lacking⟩
  refine ⟨fun name fault => ?_, fun name category fault => ?_⟩
  · obtain ordinary | ⟨net, expanded, lacking⟩ := lacks
    · exact absurd fault (ordinary.2.1 name)
    · rw [fault] at lacking
      obtain ⟨absent, output, reads⟩ := lacking
      refine ⟨net, output, expanded, reads, fun n member id => ?_⟩
      cases stands : Network.graphOf? doc lib n with
      | none =>
        obtain ⟨m, placed, path, _⟩ := Network.ofDocument_node expanded member stands
        exact absurd (path.trans id) (absent m placed)
      | some graph => exact ⟨graph, rfl, Network.ofDocument_reads expanded reads member id stands⟩
  · obtain ordinary | ⟨net, expanded, lacking⟩ := lacks
    · exact absurd fault (ordinary.2.2 name category)
    · rw [fault] at lacking
      obtain ⟨m, placed, rfl, missing⟩ := lacking
      obtain ⟨member, path, plain⟩ | ⟨n, member, stands, rest, path⟩ :=
        Network.ofDocument_path expanded placed
      · refine .inr ⟨m.node, member, path.symm, ?_⟩
        rw [path] at missing
        cases stands : doc.graphFor? lib m.node.category m.node.typeName with
        | none =>
          obtain ⟨d, resolved⟩ := Document.resolve_of_validate valid member stands
          exact absurd resolved (missing d)
        | some graph =>
          cases named : m.node.definition with
          | none =>
            rw [Network.graphOf?, named, stands] at plain
            cases plain
          | some d =>
            refine ⟨rfl, d, rfl, ?_⟩
            cases defined : lib.definition? d with
            | none => rfl
            | some found =>
              refine absurd ?_ (missing found)
              simp only [Library.resolve, named, defined]
              rfl
      · exact .inl ⟨n, member, stands, rest, path⟩

/-- The lamp is an instance, but an output is read of it that its graph does not have. -/
def unlitDocument : Document where
  version := "1"
  metadata := ⟨"unlit", none, none⟩
  inputs := []
  nodes := [⟨"lamp", "dim", "float", none, [], [], []⟩]
  connections := []
  outputs := [⟨"o", "float", ⟨"lamp", "glow"⟩⟩]
  nodegraphs := []

/-- A graph stands for the category of the lamp, but the lamp names a definition that does not
exist. -/
def misnamedDocument : Document :=
  { unlitDocument with
    nodes := [⟨"lamp", "dim", "float", some "nope", [], [], []⟩]
    outputs := [⟨"o", "float", ⟨"lamp", "out"⟩⟩] }

theorem valid_build_faults_unlit :
    ∃ f, unlitDocument.validate dimLibrary = .ok () ∧
      Graph.build unlitDocument dimLibrary .standard {} = .error f ∧
      (∀ name, f.fault = .unknownNode name → ∃ net output,
        Network.ofDocument unlitDocument dimLibrary = .ok net ∧ net.Reads name output ∧
        ∀ n ∈ unlitDocument.nodes, n.id = name →
          ∃ graph, Network.graphOf? unlitDocument dimLibrary n = some graph ∧
            ∀ o ∈ graph.outputs, o.name ≠ output) ∧
      (∀ name category, f.fault = .unknownCategory name category →
        (∃ n ∈ unlitDocument.nodes, (Network.graphOf? unlitDocument dimLibrary n).isSome ∧
          ∃ rest, name = n.id ++ "/" ++ rest) ∨
        ∃ n ∈ unlitDocument.nodes, n.id = name ∧
          (unlitDocument.graphFor? dimLibrary n.category n.typeName).isSome ∧
          ∃ d, n.definition = some d ∧ dimLibrary.definition? d = none) := by
  have valid : unlitDocument.validate dimLibrary = .ok () := by decide
  have stops : (Graph.build unlitDocument dimLibrary .standard {}).toOption.isNone := by
    decide
  cases built : Graph.build unlitDocument dimLibrary .standard {} with
  | ok r =>
    rw [built] at stops
    cases stops
  | error f => exact ⟨f, valid, rfl, valid_build_faults valid built⟩

/-- Two valid documents that fail by their own node: one by a reference to it, one by its
category. -/
theorem valid_build_fails :
    (unlitDocument.validate dimLibrary = .ok () ∧ unlitDocument.hasNode "lamp" ∧
      Graph.build unlitDocument dimLibrary .standard {} = fail (.unknownNode "lamp")) ∧
    misnamedDocument.validate dimLibrary = .ok () ∧ misnamedDocument.hasNode "lamp" ∧
      Graph.build misnamedDocument dimLibrary .standard {} =
        (fail (.unknownCategory "lamp" "dim") : Result _).inside (.namedDefinition "nope") := by
  refine ⟨⟨by decide, rfl, ?_⟩, by decide +kernel, rfl, ?_⟩
  · rfl
  · rfl

end MaterialShader
