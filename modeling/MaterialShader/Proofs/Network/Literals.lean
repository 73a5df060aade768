import MaterialShader.Proofs.Network.Inlining

/-!
Where the literals of a network are written:
-/

namespace MaterialShader

open List

def Node.literals (n : Node) : List Json := n.params.map Prod.snd

def NodeGraph.literals (g : NodeGraph) : List Json :=
  g.inputs.filterMap GraphInput.value ++ g.nodes.flatMap Node.literals

def Document.literals (doc : Document) : List Json :=
  doc.inputs.filterMap GraphInput.value ++ doc.nodes.flatMap Node.literals ++
    doc.nodegraphs.flatMap NodeGraph.literals

def Definition.literals (d : Definition) : List Json := d.inputs.filterMap Port.value

def Library.literals (lib : Library) : List Json :=
  lib.definitions.flatMap Definition.literals ++ lib.nodegraphs.flatMap NodeGraph.literals

variable {doc : Document} {j : Json}

theorem NodeGraph.mem_literals {lib : Library} {g : NodeGraph}
    (member : g ∈ doc.nodegraphs ++ lib.nodegraphs) (written : j ∈ g.literals) :
    j ∈ doc.literals ++ lib.literals := by
  simp only [Document.literals, Library.literals, mem_append, mem_flatMap]
  obtain own | other := mem_append.1 member
  · exact .inl (.inr ⟨g, own, written⟩)
  · exact .inr (.inr ⟨g, other, written⟩)

theorem Definition.mem_literals {lib : Library} {d : Definition} (member : d ∈ lib.definitions)
    {port : Port} (listed : port ∈ d.inputs) (value : port.value = some j) : j ∈ lib.literals :=
  mem_append_left _
    (mem_flatMap.2 ⟨d, member, mem_filterMap.2 ⟨port, listed, value⟩⟩)

theorem Document.mem_literals_of_input {i : GraphInput} (member : i ∈ doc.inputs)
    (value : i.value = some j) : j ∈ doc.literals := by
  simp only [literals, mem_append, mem_filterMap]
  exact .inl (.inl ⟨i, member, value⟩)

theorem Document.mem_literals_of_node {n : Node} (member : n ∈ doc.nodes)
    (written : j ∈ n.literals) : j ∈ doc.literals := by
  simp only [literals, mem_append, mem_flatMap]
  exact .inl (.inr ⟨n, member, written⟩)

def Binding.From (js : List Json) (b : Binding) : Prop := ∀ j, b = .literal j → j ∈ js

theorem Assoc.forall_putAll {κ α : Type} [BEq κ] [LawfulBEq κ] {P : κ × α → Prop}
    {start entries : List (κ × α)} (old : ∀ e ∈ start, P e) (new : ∀ e ∈ entries, P e) :
    ∀ e ∈ putAll start entries, P e := by
  induction entries generalizing start with
  | nil => exact old
  | cons entry rest ih =>
    rw [forall_mem_cons] at new
    refine ih (fun e member => ?_) new.2
    obtain rfl | member := mem_put member
    · exact new.1
    · exact old e member

namespace Network

variable {doc : Document} {lib : Library} {js : List Json} {around : Surroundings}
  {bindings : List (String × Binding)} {connections : List Connection} {at_ : String}

def Surroundings.From (js : List Json) (around : Surroundings) : Prop :=
  ∀ e ∈ around, ∀ b ∈ e.2, b.From js

theorem linkBindings_from (outside : around.From js) {path : String}
    {links : List (String × String)} (run : linkBindings path around links = .ok bindings) :
    ∀ e ∈ bindings, e.2.From js := by
  induction links generalizing bindings with
  | nil =>
    cases run
    exact nofun
  | cons link rest ih =>
    rw [linkBindings] at run
    cases found : Assoc.get? link.2 around with
    | none =>
      rw [found] at run
      cases run
    | some bound =>
      rw [found] at run
      cases bound with
      | none => exact ih run
      | some b =>
        obtain ⟨others, later, rfl⟩ := Result.map_ok.1 run
        refine forall_mem_cons.2 ⟨?_, ih later⟩
        exact outside _ (Assoc.mem_of_get? found) b rfl

theorem bindingsOf_from (outside : around.From js) {node : Node}
    (written : ∀ j ∈ node.literals, j ∈ js)
    (run : bindingsOf node connections at_ around = .ok bindings) :
    ∀ e ∈ bindings, e.2.From js := by
  obtain ⟨links, linked, run⟩ := Result.bind_ok.1 run
  cases Result.pure_ok.1 run
  refine Assoc.forall_putAll (Assoc.forall_putAll (Assoc.forall_putAll ?_ ?_) ?_) ?_
  · exact nofun
  · exact linkBindings_from outside linked
  · intro e member j literal
    obtain ⟨p, param, rfl⟩ := mem_map.1 member
    cases literal
    exact written _ (mem_map_of_mem param)
  · intro e member j literal
    obtain ⟨c, _, rfl⟩ := mem_map.1 member
    cases literal

theorem innerSurroundings_from {graph : NodeGraph} (written : ∀ j ∈ graph.literals, j ∈ js)
    (bound : ∀ e ∈ bindings, e.2.From js) : (innerSurroundings graph bindings).From js := by
  refine Assoc.forall_putAll nofun ?_
  intro e member b inner
  obtain ⟨i, input, rfl⟩ := mem_map.1 member
  cases own : Assoc.get? i.name bindings with
  | some c =>
    rw [own] at inner
    cases inner
    exact bound _ (Assoc.mem_of_get? own)
  | none =>
    rw [own] at inner
    obtain ⟨j, value, rfl⟩ := Option.map_eq_some_iff.1 inner
    rintro _ ⟨⟩
    exact written j (mem_append_left _ (mem_filterMap.2 ⟨i, input, value⟩))

theorem expand_from (graphs : ∀ g ∈ doc.nodegraphs ++ lib.nodegraphs, ∀ j ∈ g.literals, j ∈ js)
    {levels : Nat} {nodes : List Node} {e : Expansion} (outside : around.From js)
    (written : ∀ n ∈ nodes, ∀ j ∈ n.literals, j ∈ js)
    (run : expand doc lib levels nodes connections at_ around = .ok e) :
    ∀ n ∈ e.nodes, ∀ b ∈ n.bindings, b.2.From js := by
  induction levels generalizing nodes connections at_ around e with
  | zero => exact absurd run not_expand_zero
  | succ levels ih =>
    obtain ⟨parts, made, rfl⟩ := expand_parts run
    intro n member
    obtain ⟨part, listed, member⟩ := mem_flatMap.1 member
    obtain ⟨node, here, of_node⟩ := exists_of_mem_right made listed
    cases of_node with
    | node bound _ =>
      cases mem_singleton.1 member
      exact bindingsOf_from outside (written node here) bound
    | @inside bindings graph inner bound stands run =>
      have own := graphs graph (graphOf?_mem stands)
      have bound' := bindingsOf_from outside (written node here) bound
      refine ih (innerSurroundings_from own bound') (fun m inside j literal => ?_) run n member
      exact own j (mem_append_right _ (mem_flatMap.2 ⟨m, inside, literal⟩))

theorem expand_redirects_from {levels : Nat} {nodes : List Node} {e : Expansion}
    (run : expand doc lib levels nodes connections at_ around = .ok e) :
    ∀ r ∈ e.redirects, r.2.From [] := by
  refine redirects_induct (P := fun _ _ _ r => r.2.From []) ?_ (fun _ _ old => old) run
  exact fun _ _ => forall_mem_map.2 fun o _ j literal => nomatch literal

theorem follow?_from {redirects : List Redirect} (leads : ∀ r ∈ redirects, r.2.From [])
    {steps : Nat} {b c : Binding} (from_ : b.From js) (run : follow? redirects steps b = some c) :
    c.From js := by
  induction steps generalizing b with
  | zero => cases run
  | succ steps ih =>
    cases b with
    | literal j => cases run; exact from_
    | socket name => cases run; exact from_
    | port node output =>
      rw [follow?] at run
      cases found : redirect? redirects node output with
      | none =>
        rw [found] at run
        cases run
        exact from_
      | some next =>
        rw [found] at run
        refine ih (fun j literal => ?_) run
        have listed := mem_reverse.1 (Assoc.mem_of_get? found)
        exact absurd (leads _ listed j literal) not_mem_nil

theorem ofDocument_from {net : Network} (run : ofDocument doc lib = .ok net) :
    (∀ n ∈ net.nodes, ∀ b ∈ n.bindings, b.2.From (doc.literals ++ lib.literals)) ∧
      ∀ o ∈ net.outputs, o.binding.From (doc.literals ++ lib.literals) := by
  obtain ⟨whole, expanded, settled, published⟩ := ofDocument_ok run
  have leads := expand_redirects_from expanded
  constructor
  · have outside : Surroundings.From (doc.literals ++ lib.literals)
        (Assoc.putAll [] (doc.inputs.map fun i => (i.name, some (.socket i.name)))) := by
      refine Assoc.forall_putAll nofun ?_
      intro e member b bound
      obtain ⟨i, _, rfl⟩ := mem_map.1 member
      cases bound
      rintro j ⟨⟩
    have drafted := expand_from (fun g member j => NodeGraph.mem_literals member) outside
      (fun n member j literal => mem_append_left _ (doc.mem_literals_of_node member literal))
      expanded
    intro n member b bound
    obtain ⟨draft, old, settles⟩ := exists_of_mem_right settled member
    obtain ⟨a, was, _, followed⟩ := exists_of_mem_right (settleNode_ok settles).2.2 bound
    exact follow?_from leads (drafted draft old a was) followed
  · intro o member
    obtain ⟨out, _, settles⟩ := exists_of_mem_right published member
    refine follow?_from leads ?_ (settleOutput_ok settles)
    rintro j ⟨⟩

end Network

end MaterialShader
