import MaterialShader.Graph.Build
import MaterialShader.Proofs.Builder.Steps

/-!
Inputs of a document and nodes of a network in the graph under construction.
-/

namespace MaterialShader

open List Build

theorem forall₂_getElem? {α β : Type} {R : α → β → Prop} {items : List α} {results : List β}
    (all : List.Forall₂ R items results) {k : Nat} {a : α} (here : items[k]? = some a) :
    ∃ b, results[k]? = some b ∧ R a b := by
  obtain ⟨inside, rfl⟩ := List.getElem?_eq_some_iff.1 here
  have inside' : k < results.length := all.length_eq ▸ inside
  exact ⟨results[k], List.getElem?_eq_getElem inside', all.get inside inside'⟩

structure GraphInput.Declares (types : Registry) (i : GraphInput) (s : InputSocket) : Prop where
  name : s.name = i.name
  type : types.find? i.typeName = some s.type
  value : Option.Rel (fun json v => Value.ofJson json s.type = .ok v) i.value s.value
  path : s.path = i.name

namespace Builder

structure Places (lib : Library) (types : Registry) (n : BoundNode) (p : Binder × GraphNode) :
    Prop where
  resolved : lib.resolve n.path n.node = .ok p.1.definition
  bindings : p.1.bindings = n.bindings
  inputTypes : p.1.inputTypes = n.node.inputTypes
  node : p.2 = shell n.path p.1.definition p.2.outputs
  outputs : Shows types p.1.definition p.2.outputs

section

variable {b b' : Builder}

theorem addSocket_ok {i : GraphInput} (run : addSocket i b = .ok ((), b')) :
    ∃ s, i.Declares b.types s ∧
      b' = { b with
        socketIndex := Assoc.put i.name b.sockets.length b.socketIndex
        sockets := b.sockets ++ [s] } := by
  have run := get_bind_ok.1 run
  obtain ⟨t, _, looked, run⟩ := bind_ok.1 run
  simp only [lift_ok, Result.inside_ok, Registry.get, orFail_ok] at looked
  obtain ⟨found, rfl⟩ := looked
  cases given : i.value with
  | none =>
    simp only [given, bind_ok, pure_ok, set_ok] at run
    obtain ⟨_, _, ⟨rfl, rfl⟩, rfl⟩ := run
    exact ⟨_, ⟨rfl, found, given ▸ .none, rfl⟩, rfl⟩
  | some json =>
    simp only [given, bind_ok, map_ok, lift_ok, Result.inside_ok,
      set_ok] at run
    obtain ⟨_, _, ⟨v, ⟨read, rfl⟩, rfl⟩, rfl⟩ := run
    exact ⟨_, ⟨rfl, found, given ▸ .some read, rfl⟩, rfl⟩

theorem addSockets_ok {inputs : List GraphInput} (run : inputs.forM addSocket b = .ok ((), b')) :
    ∃ added, List.Forall₂ (GraphInput.Declares b.types) inputs added ∧
      b' = { b with
        socketIndex := Assoc.putAll b.socketIndex
          ((inputs.map GraphInput.name).zip (List.range' b.sockets.length inputs.length))
        sockets := b.sockets ++ added } := by
  refine forM_induct (fun (inputs : List GraphInput) b b' => ∃ added,
    List.Forall₂ (GraphInput.Declares b.types) inputs added ∧
      b' = { b with
        socketIndex := Assoc.putAll b.socketIndex
          ((inputs.map GraphInput.name).zip (List.range' b.sockets.length inputs.length))
        sockets := b.sockets ++ added }) ?_ ?_ run
  · intro b
    exact ⟨[], .nil, by simp [Assoc.putAll]⟩
  · rintro i rest b b' b'' first ⟨added, declared, rfl⟩
    obtain ⟨s, here, rfl⟩ := addSocket_ok first
    refine ⟨s :: added, .cons here declared, ?_⟩
    simp only [map_cons, length_cons, List.range'_succ, zip_cons_cons]
    simp [Assoc.putAll]

theorem addNode_places {n : BoundNode} {w : Binder} (run : addNode n b = .ok (w, b')) :
    ∃ m, Places b.library b.types n (w, m) ∧ w.id = b.nodes.length ∧
      b' = { b with nodes := b.nodes ++ [m], index := Assoc.put n.path w.id b.index } := by
  obtain ⟨d, b₁, resolved, made, bound, rfl⟩ := addNode_ok run
  obtain ⟨outputs, shown, id, rfl⟩ := addShell_ok made
  rw [bound]
  exact ⟨shell n.path d outputs, ⟨resolved, rfl, rfl, rfl, shown⟩, id, rfl⟩

theorem addNodes_ok {nodes : List BoundNode} {binders : List Binder}
    (run : nodes.mapM addNode b = .ok (binders, b')) :
    ∃ placed, List.Forall₂ (Places b.library b.types) nodes placed ∧
      binders = placed.map Prod.fst ∧
      binders.map Binder.id = List.range' b.nodes.length nodes.length ∧
      b' = { b with
        nodes := b.nodes ++ placed.map Prod.snd
        index := Assoc.putAll b.index
          ((nodes.map BoundNode.path).zip (List.range' b.nodes.length nodes.length)) } := by
  refine mapM_induct (fun (nodes : List BoundNode) (binders : List Binder) b b' =>
    ∃ placed, List.Forall₂ (Places b.library b.types) nodes placed ∧
      binders = placed.map Prod.fst ∧
      binders.map Binder.id = List.range' b.nodes.length nodes.length ∧
      b' = { b with
        nodes := b.nodes ++ placed.map Prod.snd
        index := Assoc.putAll b.index
          ((nodes.map BoundNode.path).zip (List.range' b.nodes.length nodes.length)) }) ?_ ?_ run
  · intro b
    exact ⟨[], .nil, rfl, rfl, by simp [Assoc.putAll]⟩
  · rintro n w rest binders b b' b'' first ⟨placed, places, rfl, ids, rfl⟩
    obtain ⟨m, here, id, rfl⟩ := addNode_places first
    refine ⟨(w, m) :: placed, .cons here places, rfl, ?_, ?_⟩
    · simp only [map_cons, length_cons, List.range'_succ, id]
      simpa using ids
    · simp only [map_cons, length_cons, List.range'_succ, zip_cons_cons, id]
      simp [Assoc.putAll]

theorem foldl_eq_none {α β : Type} {f : Option α → β → Option α} {p : β → Prop}
    (keeps : ∀ found b, p b → f found b = found) (sets : ∀ found b, ¬ p b → f found b ≠ none)
    (found : Option α) (entries : List β) :
    entries.foldl f found = none ↔ found = none ∧ ∀ b ∈ entries, p b := by
  induction entries generalizing found with
  | nil => simp
  | cons b rest ih =>
    rw [foldl_cons, ih, forall_mem_cons]
    by_cases held : p b
    · simp [keeps found b held, held]
    · simp [sets found b held, held]

theorem strayBinding?_eq_none {d : Definition} {bindings : List (String × Binding)} :
    strayBinding? d bindings = none ↔ ∀ entry ∈ bindings, (d.input? entry.1).isSome := by
  refine (foldl_eq_none ?_ ?_ none bindings).trans (and_iff_right rfl)
  · rintro found ⟨name, _⟩ declared
    exact if_pos declared
  · rintro found ⟨name, _⟩ stray
    cases found <;> simp [stray]

theorem bindInputs_declared {depth : Nat} {w : Binder} (run : bindInputs depth w b = .ok ((), b')) :
    ∀ entry ∈ w.bindings, (w.definition.input? entry.1).isSome := by
  cases depth with
  | zero => exact absurd run raise_ok
  | succ depth => exact strayBinding?_eq_none.1 (bindInputs_ok run).1

theorem graph_declared {doc : Document} {net : Network} {g : Graph}
    (run : graph doc net b = .ok (g, b')) :
    ∀ n ∈ net.nodes, ∃ d, b.library.resolve n.path n.node = .ok d ∧
      ∀ entry ∈ n.bindings, (d.input? entry.1).isSome := by
  obtain ⟨_, _, sockets, run⟩ := bind_ok.1 run
  obtain ⟨_, _, rfl⟩ := addSockets_ok sockets
  obtain ⟨binders, _, added, run⟩ := bind_ok.1 run
  obtain ⟨placed, places, rfl, _⟩ := addNodes_ok added
  obtain ⟨_, _, bound, _⟩ := bind_ok.1 run
  have declared := forM_induct
    (fun (binders : List Binder) _ _ => ∀ w ∈ binders, ∀ entry ∈ w.bindings,
      (w.definition.input? entry.1).isSome)
    (fun _ _ member => nomatch member)
    (fun w rest _ _ _ first later => forall_mem_cons.2 ⟨bindInputs_declared first, later⟩)
    bound
  intro n member
  obtain ⟨p, listed, here⟩ := exists_of_mem_right places.flip member
  refine ⟨p.1.definition, here.resolved, fun entry bound => ?_⟩
  exact declared p.1 (mem_map_of_mem listed) entry (here.bindings ▸ bound)

end

def start (lib : Library) (types : Registry) : Builder :=
  { library := lib, types, nodes := [], index := [], sockets := [], socketIndex := [],
    geometry := [], conversions := [] }

/-- Every node of the network stands in its place, and both tables are complete. -/
structure Holds (doc : Document) (lib : Library) (types : Registry) (net : Network) (b : Builder) :
    Prop where
  index : b.index = Assoc.putAll []
    ((net.nodes.map BoundNode.path).zip (List.range' 0 net.nodes.length))
  nodes : ∀ (k : NodeId) n, net.nodes[k]? = some n → ∃ (d : Definition) (m : GraphNode),
    lib.resolve n.path n.node = .ok d ∧ b.nodes[k]? = some m ∧ m.path = n.path ∧
      Shows types d m.outputs
  socketIndex : b.socketIndex = Assoc.putAll []
    ((doc.inputs.map GraphInput.name).zip (List.range' 0 doc.inputs.length))
  sockets : List.Forall₂ (GraphInput.Declares types) doc.inputs b.sockets

section

variable {doc : Document} {lib : Library} {types : Registry} {net : Network} {b b' : Builder}

theorem Holds.grow {changed : List NodeId} (holds : b.Holds doc lib types net)
    (grows : b.Grows changed b') : b'.Holds doc lib types net := by
  refine ⟨grows.index.trans holds.index, ?_, grows.socketIndex.trans holds.socketIndex,
    grows.sockets ▸ holds.sockets⟩
  intro k n found
  obtain ⟨d, m, resolved, at_k, path, outputs⟩ := holds.nodes k n found
  obtain ⟨inputs, at_k', _⟩ := grows.nodes k m at_k
  exact ⟨d, _, resolved, at_k', path, outputs⟩

theorem start_holds {b₁ : Builder} {binders : List Binder}
    (sockets : doc.inputs.forM addSocket (start lib types) = .ok ((), b₁))
    (added : net.nodes.mapM addNode b₁ = .ok (binders, b')) :
    b'.Holds doc lib types net ∧
      ∃ placed, List.Forall₂ (Places lib types) net.nodes placed ∧
        binders = placed.map Prod.fst ∧
        binders.map Binder.id = List.range' 0 net.nodes.length ∧
        (∀ (k : NodeId) p, placed[k]? = some p → p.1.id = k) ∧
        b' = { start lib types with
          index := b'.index
          nodes := placed.map Prod.snd
          sockets := b'.sockets
          socketIndex := b'.socketIndex } := by
  obtain ⟨shown, declared, rfl⟩ := addSockets_ok sockets
  obtain ⟨placed, places, rfl, ids, rfl⟩ := addNodes_ok added
  refine ⟨⟨rfl, ?_, rfl, declared⟩, placed, places, rfl, ids, ?_, rfl⟩
  · intro k n found
    obtain ⟨p, at_k, here⟩ := forall₂_getElem? places found
    exact ⟨p.1.definition, p.2, here.resolved, by simp [start, at_k], here.node ▸ rfl, here.outputs⟩
  · intro k p at_k
    have at_id : ((placed.map Prod.fst).map Binder.id)[k]? = some p.1.id := by simp [at_k]
    rw [ids] at at_id
    obtain ⟨_, same⟩ := List.getElem?_eq_some_iff.1 at_id
    simpa [start] using same.symm

end

end Builder

end MaterialShader
