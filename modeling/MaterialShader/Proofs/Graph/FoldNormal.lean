import MaterialShader.Proofs.Graph.Build
import MaterialShader.Proofs.Graph.FoldMeaning

/-!
What folding leaves to fold:
-/

namespace MaterialShader

open List Option

variable {g : Graph} {s : Source} {id : NodeId} {bypassed : List NodeId}

theorem Graph.mem_sources :
    s ∈ g.sources ↔ (∃ n ∈ g.nodes, ∃ i ∈ n.inputs, i.source = some s) ∨
      ∃ o ∈ g.outputSockets, o.source = some s := by
  simp only [sources, mem_append, mem_filterMap, mem_flatMap]
  constructor
  · rintro (⟨i, ⟨n, member, input⟩, source⟩ | socket)
    · exact .inl ⟨n, member, i, input, source⟩
    · exact .inr socket
  · rintro (⟨n, member, i, input, source⟩ | socket)
    · exact .inl ⟨i, ⟨n, member, input⟩, source⟩
    · exact .inr socket

namespace Fold

open MaterialShader.Graph (mem_sources)

structure Sharper (i j : Input) : Prop where
  name : j.name = i.name
  type : j.type = i.type
  literal : i.source = none → j.source = none ∧ j.value = i.value

structure Along (R : Input → Input → Prop) (n m : GraphNode) : Prop where
  category : m.category = n.category
  outputs : m.outputs = n.outputs
  inputs : List.Forall₂ R n.inputs m.inputs

section

variable {R : Input → Input → Prop} {n m : GraphNode} {name : String}

section

variable (sharp : ∀ i j, R i j → Sharper i j) (along : Along R n m)

include sharp along

theorem Along.input? {i : Input}
    (found : n.input? name = some i) : ∃ j, m.input? name = some j ∧ R i j := by
  have related := along.inputs
  unfold GraphNode.input? at found ⊢
  generalize n.inputs = xs at related found
  generalize m.inputs = ys at related
  induction related with
  | nil => cases found
  | @cons a b _ _ first _ ih =>
    rw [List.find?_cons] at found ⊢
    rw [(sharp a b first).name]
    split at found
    · cases found
      exact ⟨b, rfl, first⟩
    · exact ih found

theorem Along.literal? {v : Value}
    (literal : n.literal? name = some v) : m.literal? name = some v := by
  obtain ⟨i, input, source, value⟩ := GraphNode.literal?_eq_some.1 literal
  obtain ⟨j, input', related⟩ := along.input? sharp input
  obtain ⟨source', value'⟩ := (sharp i j related).literal source
  exact GraphNode.literal?_eq_some.2 ⟨j, input', source', value'.trans value⟩

theorem Along.literalNumber? {x : Numeric.Single} (number : literalNumber? n name = some x) :
    literalNumber? m name = some x := by
  obtain ⟨v, literal, number⟩ := bind_eq_some_iff.1 number
  exact bind_eq_some_iff.2 ⟨v, along.literal? sharp literal, number⟩

theorem Along.branchCount :
    branchCount m = branchCount n := by
  have names : m.inputs.map Input.name = n.inputs.map Input.name := by
    have related := along.inputs
    generalize n.inputs = xs at related
    generalize m.inputs = ys at related
    induction related with
    | nil => rfl
    | cons first _ ih => rw [map_cons, map_cons, ih, (sharp _ _ first).name]
  have counts := congrArg (List.countP fun name => Text.startsWith "in" name) names
  rw [countP_map, countP_map] at counts
  exact congrArg (Nat.max 1) counts

theorem Along.chosenInput? (chosen : chosenInput? n = some name) : chosenInput? m = some name := by
  unfold Fold.chosenInput? at chosen ⊢
  rw [along.category]
  split_ifs at chosen ⊢ with switch compare ifgreater
  · obtain ⟨which, selector, rfl⟩ := map_eq_some_iff.1 chosen
    rw [along.literalNumber? sharp selector, along.branchCount sharp]
    rfl
  · split at chosen
    · rename_i intest cutoff first second
      rw [along.literalNumber? sharp first, along.literalNumber? sharp second]
      exact chosen
    · cases chosen
  · split at chosen
    · rename_i value1 value2 first second
      rw [along.literalNumber? sharp first, along.literalNumber? sharp second]
      exact chosen
    · cases chosen

end

theorem Picks.along (sharp : ∀ i j, R i j → Sharper i j) (along : Along R n m)
    (picks : Picks n name) : Picks m name := by
  cases picks with
  | constant category => exact .constant (along.category.trans category)
  | dot category => exact .dot (along.category.trans category)
  | background w category weight zero =>
    exact .background w (along.category.trans category) (along.literalNumber? sharp weight) zero
  | foreground w category weight one =>
    exact .foreground w (along.category.trans category) (along.literalNumber? sharp weight) one
  | chosen _ chosen => exact .chosen name (along.chosenInput? sharp chosen)

theorem Computes.along {types : Registry} (sharp : ∀ i j, R i j → Sharper i j)
    (along : Along R n m) {t : ShaderType} {w : Value} (computes : Computes types n t w) :
    Computes types m t w := by
  cases computes with
  | convert i v c _ category input literal conversion computed =>
    obtain ⟨j, input', related⟩ := along.input? sharp input
    rw [← (sharp i j related).type] at conversion
    exact .convert j v c w (along.category.trans category) input' (along.literal? sharp literal)
      conversion computed
  | arithmetic op xs ys _ category float notMatrix first second computed =>
    rw [← along.category] at category
    obtain ⟨x, literal, components⟩ := bind_eq_some_iff.1 first
    obtain ⟨y, literal', components'⟩ := bind_eq_some_iff.1 second
    exact .arithmetic op xs ys w category float notMatrix
      (bind_eq_some_iff.2 ⟨x, along.literal? sharp literal, components⟩)
      (bind_eq_some_iff.2 ⟨y, along.literal? sharp literal', components'⟩) computed

end

variable {types : Registry} {literalMath : Bool} {n : GraphNode} {r : Replacement}

theorem Computes.math {out : Output} (outputs : n.outputs = [out]) {w : Value}
    (computes : Computes types n out.type w) (folds : replacement? types literalMath n = some r) :
    literalMath := by
  by_contra off
  cases computes with
  | convert i v c _ category =>
    simp [replacement?, outputs, category, conditionalCategories, off] at folds
  | arithmetic op xs ys _ category =>
    obtain ⟨constant, dot, conditional, mix, _⟩ := plain_of_operator category
    simp [replacement?, outputs, constant, dot, conditional, mix, off] at folds

theorem replacement?_along {R : Input → Input → Prop} {m : GraphNode}
    (sharp : ∀ i j, R i j → Sharper i j) (along : Along R n m)
    (folds : replacement? types literalMath n = some r) :
    (∃ i j, R i j ∧ r = ⟨i.source, i.value⟩ ∧
        replacement? types literalMath m = some ⟨j.source, j.value⟩) ∨
      ∃ w, r = literal w ∧ replacement? types literalMath m = some (literal w) := by
  obtain ⟨out, outputs, ⟨name, picks, passed⟩ | ⟨w, computes, rfl⟩⟩ := replacement?_cases folds
  · obtain ⟨i, input, same, rfl⟩ := pass_eq_some.1 passed
    obtain ⟨j, input', related⟩ := along.input? sharp input
    rw [← (sharp i j related).type] at same
    refine .inl ⟨i, j, related, rfl, ?_⟩
    rw [(picks.along sharp along).replaces (along.outputs.trans outputs)]
    exact pass_eq_some.2 ⟨j, input', same, rfl⟩
  · cases computes.math outputs folds
    exact .inr ⟨w, rfl, (computes.along sharp along).replaces (along.outputs.trans outputs)⟩

theorem mem_bypass_sources (read : s ∈ (bypass g id r).sources) :
    s ∈ g.sources ∧ s ≠ .node id 0 ∨ r.source = some s := by
  have inputs : ∀ m ∈ (bypass g id r).nodes, ∀ i ∈ m.inputs, i.source = some s →
      s ∈ g.sources ∧ s ≠ .node id 0 ∨ r.source = some s := by
    refine forall_inputs_bypass (fun m member i input other source => .inl ⟨?_, ?_⟩)
      fun _ _ _ _ _ => .inr
    · exact mem_sources.2 (.inl ⟨m, member, i, input, source⟩)
    · exact fun same => other (same ▸ source)
  have sockets : ∀ o ∈ (bypass g id r).outputSockets, o.source = some s →
      s ∈ g.sources ∧ s ≠ .node id 0 ∨ r.source = some s := by
    refine forall_sockets_bypass (fun o member other source => .inl ⟨?_, ?_⟩) fun _ _ _ => .inr
    · exact mem_sources.2 (.inr ⟨o, member, source⟩)
    · exact fun same => other (same ▸ source)
  obtain ⟨m, member, i, input, source⟩ | ⟨o, member, source⟩ := mem_sources.1 read
  · exact inputs m member i input source
  · exact sockets o member source

theorem replacement_mem_sources (found : g.nodes[id]? = some n)
    (folds : replacement? types literalMath n = some r) (source : r.source = some s) :
    s ∈ g.sources := by
  obtain ⟨i, input, rfl⟩ | ⟨w, rfl⟩ := replacement_input folds
  · exact mem_sources.2 (.inl ⟨n, mem_of_getElem? found, i, input, source⟩)
  · cases source

def Cut (s : Graph × List NodeId) : Prop := ∀ id ∈ s.2, ∀ k, Source.node id k ∉ s.1.sources

theorem bypass_cut (typed : g.WellTyped types) (acyclic : g.Acyclic) (cut : Cut (g, bypassed))
    (found : g.nodes[id]? = some n) (folds : replacement? types literalMath n = some r) :
    Cut (bypass g id r, id :: bypassed) := by
  intro b member k read
  obtain ⟨old, other⟩ | replaced := mem_bypass_sources read
  · obtain rfl | earlier := mem_cons.1 member
    · -- The node has one output, and that is the one whose readers were moved.
      obtain ⟨out, outputs, _⟩ := replacement?_cases folds
      obtain ⟨m, at_b, bound⟩ := typed.holds old
      rw [found] at at_b
      cases at_b
      rw [outputs, length_singleton, Nat.lt_one_iff] at bound
      exact other (by rw [bound])
    · exact cut b earlier k old
  · obtain rfl | earlier := mem_cons.1 member
    · exact acyclic b (.single (replacement_feeds found folds replaced))
    · exact cut b earlier k (replacement_mem_sources found folds replaced)

section

variable {types : Registry} {literalMath : Bool}

theorem Settles.keeps {P : Graph × List NodeId → Prop}
    (step : ∀ g bypassed id n r, P (g, bypassed) → id ∉ bypassed → g.nodes[id]? = some n →
      replacement? types literalMath n = some r → P (bypass g id r, id :: bypassed))
    {s t : Graph × List NodeId} (settles : Settles types literalMath s t) (holds : P s) : P t := by
  induction settles with
  | stop s _ => exact pass1_keeps step s.1.order holds
  | again s t _ _ ih => exact ih (pass1_keeps step s.1.order holds)

theorem Settles.not_folds {s t : Graph × List NodeId} (settles : Settles types literalMath s t) :
    ∀ id ∈ t.1.order, id ∉ t.2 → ∀ n, t.1.nodes[id]? = some n →
      replacement? types literalMath n = none := by
  induction settles with
  | stop s idle =>
    have nothing := not_folds_of_length_eq idle
    rwa [← pass1_eq_of_length_eq idle] at nothing
  | again s t _ _ ih => exact ih

structure Exhausted (types : Registry) (literalMath : Bool) (g : Graph) (bypassed : List NodeId) :
    Prop where
  typed : g.WellTyped types
  acyclic : g.Acyclic
  cut : Cut (g, bypassed)
  rest : ∀ id n, g.nodes[id]? = some n → id ∉ bypassed → replacement? types literalMath n = none

theorem run_exhausted (literalMath : Bool) (typed : g.WellTyped types) (acyclic : g.Acyclic)
    (complete : ∀ id < g.nodes.length, id ∈ g.order) :
    ∃ bypassed, Exhausted types literalMath (run types literalMath g).1 bypassed := by
  have settles := run_settles types literalMath g
  have kept := settles.keeps (P := fun s => (s.1.WellTyped types ∧ s.1.Acyclic) ∧ Cut s ∧
    s.1.order = g.order ∧ s.1.nodes.length = g.nodes.length) (by
      rintro h bypassed id n r ⟨shape, cut, order, length⟩ _ found folds
      exact ⟨stable_typed_acyclic types literalMath h id n r shape found folds,
        bypass_cut shape.1 shape.2 cut found folds, order,
        (bypass_nodes_length h id r).trans length⟩)
    ⟨⟨typed, acyclic⟩, fun _ impossible => (not_mem_nil impossible).elim, rfl, rfl⟩
  obtain ⟨⟨typed', acyclic'⟩, cut, order, length⟩ := kept
  refine ⟨_, typed', acyclic', cut, fun id n found fresh => ?_⟩
  have inside : id ∈ g.order := complete id (length ▸ (lt_of_getElem? found))
  exact settles.not_folds id (order ▸ inside) fresh n found

theorem Exhausted.not_mem_of_used (exhausted : Exhausted types literalMath g bypassed)
    (used : g.Used id) : id ∉ bypassed := by
  obtain ⟨_, r, root, path⟩ := used
  intro member
  obtain rfl | ⟨reader, _, edge⟩ := Relation.ReflTransGen.cases_tail path
  · obtain ⟨s, socket, k, source⟩ := Graph.mem_roots.1 root
    exact exhausted.cut _ member k (mem_sources.2 (.inr ⟨s, socket, source⟩))
  · obtain ⟨n, found, i, input, k, source⟩ := Graph.mem_edges.1 edge
    exact exhausted.cut id member k
      (mem_sources.2 (.inl ⟨n, mem_of_getElem? found, i, input, source⟩))

theorem renumberNode_along (kept : List Bool) (n : GraphNode) :
    Along (fun i j => Sharper i j) (Graph.renumberNode kept n) n := by
  refine ⟨rfl, rfl, ?_⟩
  simp only [Graph.renumberNode, forall₂_map_left_iff, forall₂_same]
  exact fun i _ => ⟨rfl, rfl, fun source => ⟨Graph.renumberSource_eq_none.1 source, rfl⟩⟩

theorem Exhausted.prune_not_folds (exhausted : Exhausted types literalMath g bypassed) :
    ∀ m ∈ g.prune.1.nodes, replacement? types literalMath m = none := by
  refine Graph.forall_nodes_prune fun id n marked found => ?_
  have fresh := exhausted.not_mem_of_used (Graph.keptFlags_iff.1 marked)
  have stays := exhausted.rest id n found fresh
  rw [eq_none_iff_forall_ne_some]
  intro r folds
  obtain ⟨_, _, _, _, old⟩ | ⟨_, _, old⟩ :=
    replacement?_along (fun _ _ sharper => sharper) (renumberNode_along g.keptFlags n) folds
  · exact nomatch stays.symm.trans old
  · exact nomatch stays.symm.trans old

end

end Fold

end MaterialShader
