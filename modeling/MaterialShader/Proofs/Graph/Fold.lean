import MaterialShader.Graph.Fold
import MaterialShader.Proofs.Graph.WellFormed

/-!
Constant folding as a sequence of bypasses.
-/

namespace MaterialShader

open List

variable {name : String} {g : Graph} {size : Nat}

theorem GraphNode.mem_of_input? {n : GraphNode} {i : Input} (found : n.input? name = some i) :
    i ∈ n.inputs := mem_of_find?_eq_some found

theorem GraphNode.literal?_eq_some {n : GraphNode} {v : Value} :
    n.literal? name = some v ↔
      ∃ i, n.input? name = some i ∧ i.source = none ∧ i.value = some v := by
  unfold GraphNode.literal?
  cases n.input? name with
  | none => simp
  | some i => cases i.source <;> simp

namespace Fold

inductive Picks (n : GraphNode) : String → Prop where
  | constant : n.category = "constant" → Picks n "value"
  | dot : n.category = "dot" → Picks n "in"
  | background (w : Numeric.Single) : n.category = "mix" → literalNumber? n "mix" = some w →
      w.eq .zero → Picks n "bg"
  | foreground (w : Numeric.Single) : n.category = "mix" → literalNumber? n "mix" = some w →
      w.eq .one → Picks n "fg"
  | chosen (name : String) : chosenInput? n = some name → Picks n name

inductive Computes (types : Registry) (n : GraphNode) (t : ShaderType) : Value → Prop where
  | convert (i : Input) (v : Value) (c : Conversion) (w : Value) : n.category = "convert" →
      n.input? "in" = some i → n.literal? "in" = some v → types.conversion? i.type t = some c →
      convertValue? v c t = some w → Computes types n t w
  | arithmetic (op : Operator) (xs ys : List Numeric.Single) (w : Value) :
      Operator.ofCategory? n.category = some op → t.isFloatBased → t.semantic ≠ .matrix →
      n.literal? "in1" >>= Value.components? = some xs →
      n.literal? "in2" >>= Value.components? = some ys →
      arithmetic? op xs ys t = some w → Computes types n t w

section

variable {types : Registry} {literalMath : Bool} {id : NodeId} {n : GraphNode} {r : Replacement}
  {t : ShaderType}

theorem replacement?_cases (folds : replacement? types literalMath n = some r) :
    ∃ out, n.outputs = [out] ∧
      ((∃ name, Picks n name ∧ pass n out.type name = some r) ∨
        ∃ w, Computes types n out.type w ∧ r = literal w) := by
  unfold replacement? at folds
  split at folds
  · rename_i out outputs
    refine ⟨out, outputs, ?_⟩
    split_ifs at folds with constant dot conditional mix plain convert numeric
    · exact .inl ⟨_, .constant constant, folds⟩
    · exact .inl ⟨_, .dot dot, folds⟩
    · obtain ⟨name, chosen, passed⟩ := Option.bind_eq_some_iff.1 folds
      exact .inl ⟨name, .chosen name chosen, passed⟩
    · split at folds
      · rename_i w weight
        split_ifs at folds with zero one
        · exact .inl ⟨_, .background w mix weight zero, folds⟩
        · exact .inl ⟨_, .foreground w mix weight one, folds⟩
      · cases folds
    · split at folds
      · rename_i i v input value
        obtain ⟨w, computed, rfl⟩ := Option.map_eq_some_iff.1 folds
        obtain ⟨c, conversion, computed⟩ := Option.bind_eq_some_iff.1 computed
        exact .inr ⟨w, .convert i v c w convert input value conversion computed, rfl⟩
      · cases folds
    · split at folds
      · rename_i op category
        split at folds
        · rename_i xs ys first second
          obtain ⟨w, computed, rfl⟩ := Option.map_eq_some_iff.1 folds
          simp only [Bool.and_eq_true, bne_iff_ne, ne_eq] at numeric
          exact .inr ⟨w, .arithmetic op xs ys w category numeric.1 numeric.2 first second computed,
            rfl⟩
        · cases folds
      · cases folds
    · split at folds <;> cases folds
  · cases folds

theorem pass_eq_some :
    pass n t name = some r ↔
      ∃ i, n.input? name = some i ∧ i.type.same t ∧ r = ⟨i.source, i.value⟩ := by
  unfold pass
  constructor
  · intro passed
    split at passed
    · rename_i i input
      split_ifs at passed with same
      exact ⟨i, input, same, (Option.some.inj passed).symm⟩
    · cases passed
  · rintro ⟨i, input, same, rfl⟩
    simp only [input, same, if_true]

def rewireInput (id : NodeId) (r : Replacement) (i : Input) : Input :=
  if i.source == some (.node id 0) then { i with source := r.source, value := r.value } else i

def rewireNode (id : NodeId) (r : Replacement) (n : GraphNode) : GraphNode :=
  { n with inputs := n.inputs.map (rewireInput id r) }

def rewireSocket (id : NodeId) (r : Replacement) (s : OutputSocket) : OutputSocket :=
  if s.source == some (.node id 0) then { s with source := r.source, value := r.value } else s

theorem bypass_nodes (g : Graph) (id : NodeId) (r : Replacement) :
    (bypass g id r).nodes = g.nodes.map (rewireNode id r) := rfl

theorem bypass_outputSockets (g : Graph) (id : NodeId) (r : Replacement) :
    (bypass g id r).outputSockets = g.outputSockets.map (rewireSocket id r) := rfl

@[simp] theorem bypass_nodes_length (g : Graph) (id : NodeId) (r : Replacement) :
    (bypass g id r).nodes.length = g.nodes.length := by simp [bypass_nodes]

@[simp] theorem bypass_order (g : Graph) (id : NodeId) (r : Replacement) :
    (bypass g id r).order = g.order := rfl

@[simp] theorem bypass_sourceType? (g : Graph) (id : NodeId) (r : Replacement) (s : Source) :
    (bypass g id r).sourceType? s = g.sourceType? s := by
  cases s with
  | socket k => rfl
  | node a k =>
    simp only [Graph.sourceType?, Graph.output?, bypass_nodes, List.getElem?_map]
    cases g.nodes[a]? <;> rfl

theorem bypass_carries {s : Option Source} (carries : g.Carries t s) :
    (bypass g id r).Carries t s := by
  intro source member
  rw [bypass_sourceType?]
  exact carries source member

theorem bypass_inside {s : Source} (inside : g.Inside s) : (bypass g id r).Inside s := by
  cases s with
  | socket k => exact inside
  | node a k =>
    rw [Graph.Inside, bypass_nodes_length]
    exact inside

theorem forall_inputs_bypass {P : Input → Prop}
    (kept : ∀ m ∈ g.nodes, ∀ i ∈ m.inputs, i.source ≠ some (.node id 0) → P i)
    (moved : ∀ m ∈ g.nodes, ∀ i ∈ m.inputs, i.source = some (.node id 0) →
      P { i with source := r.source, value := r.value }) :
    ∀ m ∈ (bypass g id r).nodes, ∀ i ∈ m.inputs, P i := by
  simp only [bypass_nodes, forall_mem_map, rewireNode]
  intro m member i input
  unfold rewireInput
  split
  · rename_i reads
    exact moved m member i input (beq_iff_eq.1 reads)
  · rename_i reads
    exact kept m member i input fun source => reads (beq_iff_eq.2 source)

theorem forall_sockets_bypass {P : OutputSocket → Prop}
    (kept : ∀ s ∈ g.outputSockets, s.source ≠ some (.node id 0) → P s)
    (moved : ∀ s ∈ g.outputSockets, s.source = some (.node id 0) →
      P { s with source := r.source, value := r.value }) :
    ∀ s ∈ (bypass g id r).outputSockets, P s := by
  simp only [bypass_outputSockets, forall_mem_map]
  intro s member
  unfold rewireSocket
  split
  · rename_i reads
    exact moved s member (beq_iff_eq.1 reads)
  · rename_i reads
    exact kept s member fun source => reads (beq_iff_eq.2 source)

theorem replacement_input (folds : replacement? types literalMath n = some r) :
    (∃ i ∈ n.inputs, r = ⟨i.source, i.value⟩) ∨ ∃ w, r = literal w := by
  obtain ⟨_, _, ⟨_, _, passed⟩ | ⟨w, _, same⟩⟩ := replacement?_cases folds
  · obtain ⟨i, input, _, same⟩ := pass_eq_some.1 passed
    exact .inl ⟨i, GraphNode.mem_of_input? input, same⟩
  · exact .inr ⟨w, same⟩

variable (found : g.nodes[id]? = some n) (folds : replacement? types literalMath n = some r)

include found in
theorem carried_type {out : Output} (outputs : n.outputs = [out])
    (reads : g.Carries t (some (.node id 0))) : out.type = t := by
  obtain ⟨m, o, at_id, first, type⟩ := Graph.sourceType?_node (reads _ rfl)
  rw [found] at at_id
  cases at_id
  rw [outputs, List.getElem?_cons_zero] at first
  cases first
  exact type

include found folds

theorem replacement_typed (typed : g.WellTyped types) (reads : g.Carries t (some (.node id 0))) :
    (∃ i ∈ n.inputs, i.type = t ∧ r = ⟨i.source, i.value⟩) ∨
      ∃ w, Computes types n t w ∧ r = literal w := by
  obtain ⟨out, outputs, ⟨name, _, passed⟩ | computed⟩ := replacement?_cases folds
  · obtain ⟨i, input, same, replaced⟩ := pass_eq_some.1 passed
    have member := mem_of_getElem? found
    have listed := GraphNode.mem_of_input? input
    have type : i.type = out.type := (typed.inputs n member i listed).1.eq_of_same
      (typed.outputs n member out (by simp [outputs])) same
    exact .inl ⟨i, listed, type.trans (carried_type found outputs reads), replaced⟩
  · exact .inr (carried_type found outputs reads ▸ computed)

theorem replacement_carries (typed : g.WellTyped types) (reads : g.Carries t (some (.node id 0))) :
    g.Carries t r.source := by
  obtain ⟨i, input, rfl, rfl⟩ | ⟨w, _, rfl⟩ := replacement_typed found folds typed reads
  · exact (typed.inputs n (mem_of_getElem? found) i input).2
  · exact g.carries_none t

theorem bypass_wellTyped (typed : g.WellTyped types) : (bypass g id r).WellTyped types := by
  refine ⟨forall_inputs_bypass (fun m member i input _ => ?_) fun m member i input reads => ?_, ?_,
    typed.inputSockets, forall_sockets_bypass (fun s member _ => ?_) fun s member reads => ?_⟩
  · obtain ⟨known, carries⟩ := typed.inputs m member i input
    exact ⟨known, bypass_carries carries⟩
  · obtain ⟨known, carries⟩ := typed.inputs m member i input
    rw [reads] at carries
    exact ⟨known, bypass_carries (replacement_carries found folds typed carries)⟩
  · simp only [bypass_nodes, forall_mem_map]
    exact typed.outputs
  · obtain ⟨known, carries⟩ := typed.outputSockets s member
    exact ⟨known, bypass_carries carries⟩
  · obtain ⟨known, carries⟩ := typed.outputSockets s member
    rw [reads] at carries
    exact ⟨known, bypass_carries (replacement_carries found folds typed carries)⟩

theorem replacement_feeds {a k : Nat} (source : r.source = some (.node a k)) : g.Feeds a id := by
  obtain ⟨i, input, rfl⟩ | ⟨w, rfl⟩ := replacement_input folds
  · exact ⟨n, found, i, input, k, source⟩
  · cases source

theorem bypass_sources {P : Source → Prop}
    (inputs : ∀ m ∈ g.nodes, ∀ i ∈ m.inputs, ∀ s ∈ i.source, P s)
    (sockets : ∀ o ∈ g.outputSockets, ∀ s ∈ o.source, P s) :
    (∀ m ∈ (bypass g id r).nodes, ∀ i ∈ m.inputs, ∀ s ∈ i.source, P s) ∧
      ∀ o ∈ (bypass g id r).outputSockets, ∀ s ∈ o.source, P s := by
  have replaced : ∀ s ∈ r.source, P s := by
    obtain ⟨i, input, rfl⟩ | ⟨w, rfl⟩ := replacement_input folds
    · exact inputs n (mem_of_getElem? found) i input
    · exact nofun
  exact ⟨forall_inputs_bypass (fun m member i input _ => inputs m member i input)
      fun _ _ _ _ _ => replaced,
    forall_sockets_bypass (fun o member _ => sockets o member) fun _ _ _ => replaced⟩

theorem bypass_closed (closed : g.Closed) : (bypass g id r).Closed := by
  obtain ⟨inputs, sockets⟩ := bypass_sources found folds closed.inputs closed.outputSockets
  constructor
  · exact fun m member i input s read => bypass_inside (inputs m member i input s read)
  · exact fun o member s read => bypass_inside (sockets o member s read)

theorem bypass_feeds {a b : NodeId} (feeds : (bypass g id r).Feeds a b) :
    Relation.TransGen g.Feeds a b := by
  obtain ⟨m', at_b, i', input, k, source⟩ := feeds
  simp only [bypass_nodes, List.getElem?_map, Option.map_eq_some_iff] at at_b
  obtain ⟨m, at_b, rfl⟩ := at_b
  simp only [rewireNode, mem_map] at input
  obtain ⟨i, input, rfl⟩ := input
  unfold rewireInput at source
  split at source
  · rename_i reads
    have into : g.Feeds id b := ⟨m, at_b, i, input, 0, beq_iff_eq.1 reads⟩
    exact .head (replacement_feeds found folds source) (.single into)
  · exact .single ⟨m, at_b, i, input, k, source⟩

theorem bypass_acyclic (acyclic : g.Acyclic) : (bypass g id r).Acyclic := by
  intro v cycle
  exact acyclic v (Relation.TransGen.closed (fun _ _ => bypass_feeds found folds) v v cycle)

end

section

variable {types : Registry} {literalMath : Bool}

theorem pass1_keeps {P : Graph × List NodeId → Prop}
    (step : ∀ g bypassed id n r, P (g, bypassed) → id ∉ bypassed → g.nodes[id]? = some n →
      replacement? types literalMath n = some r → P (bypass g id r, id :: bypassed))
    (ids : List NodeId) {s : Graph × List NodeId} (holds : P s) :
    P (pass1 types literalMath ids s) := by
  induction ids generalizing s with
  | nil => exact holds
  | cons id rest ih =>
    obtain ⟨g, bypassed⟩ := s
    unfold pass1
    split_ifs with seen
    · exact ih holds
    · split
      · rename_i r folds
        obtain ⟨n, found, folds⟩ := Option.bind_eq_some_iff.1 folds
        exact ih (step g bypassed id n r holds (by simpa using seen) found folds)
      · exact ih holds

def Stable (types : Registry) (literalMath : Bool) (P : Graph → Prop) : Prop :=
  ∀ g id n r, P g → g.nodes[id]? = some n → replacement? types literalMath n = some r →
    P (bypass g id r)

theorem Stable.passes {P : Graph → Prop} (stable : Stable types literalMath P) (fuel : Nat)
    (bypassed : List NodeId) (holds : P g) : P (passes types literalMath fuel (g, bypassed)).1 := by
  induction fuel generalizing g bypassed with
  | zero => exact holds
  | succ fuel ih =>
    have once := pass1_keeps (P := fun s => P s.1)
      (fun g _ id n r holds _ => stable g id n r holds) g.order (s := (g, bypassed)) holds
    simp only [Fold.passes]
    split_ifs with settled
    · exact once
    · exact ih _ once

theorem Stable.run {P : Graph → Prop} (stable : Stable types literalMath P) (holds : P g) :
    P (run types literalMath g).1 := stable.passes (g.nodes.length + 1) [] holds

end

theorem stable_typed_acyclic (types : Registry) (literalMath : Bool) :
    Stable types literalMath fun g => g.WellTyped types ∧ g.Acyclic := by
  intro g id n r holds found folds
  exact ⟨bypass_wellTyped found folds holds.1, bypass_acyclic found folds holds.2⟩

/-- Passes repeated without a bound on their number, up to one that bypasses nothing. -/
inductive Settles (types : Registry) (literalMath : Bool) :
    Graph × List NodeId → Graph × List NodeId → Prop where
  | stop (s : Graph × List NodeId) :
      (pass1 types literalMath s.1.order s).2.length = s.2.length →
      Settles types literalMath s (pass1 types literalMath s.1.order s)
  | again (s t : Graph × List NodeId) :
      (pass1 types literalMath s.1.order s).2.length ≠ s.2.length →
      Settles types literalMath (pass1 types literalMath s.1.order s) t →
      Settles types literalMath s t

def Listed (size : Nat) (s : Graph × List NodeId) : Prop :=
  s.1.nodes.length = size ∧ s.2.Nodup ∧ ∀ id ∈ s.2, id < size

theorem Listed.length_le {s : Graph × List NodeId} (listed : Listed size s) :
    s.2.length ≤ size := by
  obtain ⟨_, nodup, inside⟩ := listed
  have subset : s.2 ⊆ List.range size := fun id member => mem_range.2 (inside id member)
  simpa using (nodup.subperm subset).length_le

section

variable {types : Registry} {literalMath : Bool}

variable (types literalMath) in
theorem pass1_length_le (ids : List NodeId) (s : Graph × List NodeId) :
    s.2.length ≤ (pass1 types literalMath ids s).2.length :=
  pass1_keeps (P := fun t => s.2.length ≤ t.2.length)
    (fun _ _ _ _ _ shorter _ _ _ => shorter.trans (Nat.le_succ _)) ids le_rfl

variable (types literalMath) {s : Graph × List NodeId} {ids : List NodeId} in
theorem pass1_listed (ids : List NodeId) (listed : Listed size s) :
    Listed size (pass1 types literalMath ids s) := by
  refine pass1_keeps (fun g bypassed id n r listed fresh found _ => ?_) ids listed
  obtain ⟨same, nodup, inside⟩ := listed
  have bound : id < size := same ▸ lt_of_getElem? found
  exact ⟨(bypass_nodes_length g id r).trans same, nodup_cons.2 ⟨fresh, nodup⟩,
    forall_mem_cons.2 ⟨bound, inside⟩⟩

theorem passes_settles {fuel : Nat} (listed : Listed size s) (enough : size < s.2.length + fuel) :
    Settles types literalMath s (passes types literalMath fuel s) := by
  induction fuel generalizing s with
  | zero =>
    have bound := listed.length_le
    omega
  | succ fuel ih =>
    -- A pass that does not stop has bypassed one more node, and there are only so many.
    obtain ⟨g, bypassed⟩ := s
    have next := pass1_listed types literalMath g.order listed
    have longer := pass1_length_le types literalMath g.order (g, bypassed)
    simp only [passes]
    split_ifs with settled
    · exact .stop (g, bypassed) settled
    · have left : size < (pass1 types literalMath g.order (g, bypassed)).2.length + fuel := by
        simp only at enough longer
        omega
      exact .again (g, bypassed) _ settled (ih next left)

theorem not_folds_of_length_eq (idle : (pass1 types literalMath ids s).2.length = s.2.length) :
    ∀ id ∈ ids, id ∉ s.2 → ∀ n, s.1.nodes[id]? = some n →
      replacement? types literalMath n = none := by
  induction ids generalizing s with
  | nil => simp
  | cons first rest ih =>
    obtain ⟨g, bypassed⟩ := s
    unfold pass1 at idle
    intro id member fresh n found
    split_ifs at idle with seen
    · obtain rfl | later := mem_cons.1 member
      · exact absurd (by simpa using seen) fresh
      · exact ih idle id later fresh n found
    · split at idle
      · rename_i r _
        have longer := pass1_length_le types literalMath rest (bypass g first r, first :: bypassed)
        simp only [length_cons] at longer
        simp only at idle
        omega
      · rename_i stays
        obtain rfl | later := mem_cons.1 member
        · simpa [show g.nodes[id]? = some n from found] using stays
        · exact ih idle id later fresh n found

theorem pass1_of_not_folds
    (stays : ∀ id ∈ ids, id ∉ s.2 → ∀ n, s.1.nodes[id]? = some n →
      replacement? types literalMath n = none) : pass1 types literalMath ids s = s := by
  induction ids with
  | nil => rfl
  | cons id rest ih =>
    obtain ⟨g, bypassed⟩ := s
    obtain ⟨here, later⟩ := forall_mem_cons.1 stays
    rw [pass1]
    split_ifs with seen
    · exact ih later
    · have nothing : g.nodes[id]? >>= replacement? types literalMath = none :=
        Option.bind_eq_none_iff.2 (here (by simpa using seen))
      simp only [nothing]
      exact ih later

theorem pass1_eq_of_length_eq (idle : (pass1 types literalMath ids s).2.length = s.2.length) :
    pass1 types literalMath ids s = s :=
  pass1_of_not_folds (not_folds_of_length_eq idle)

variable (types literalMath) in
theorem passes_length_le (fuel : Nat) (s : Graph × List NodeId) :
    s.2.length ≤ (passes types literalMath fuel s).2.length := by
  induction fuel generalizing s with
  | zero => exact le_refl _
  | succ fuel ih =>
    obtain ⟨g, bypassed⟩ := s
    have once := pass1_length_le types literalMath g.order (g, bypassed)
    simp only [passes]
    split_ifs
    · exact once
    · exact once.trans (ih _)

theorem run_eq_of_count_eq_zero (idle : (run types literalMath g).2 = 0) :
    (run types literalMath g).1 = g := by
  have first := pass1_length_le types literalMath g.order (g, [])
  simp only [run, passes] at idle ⊢
  split_ifs at idle ⊢ with settled
  · rw [pass1_eq_of_length_eq settled]
  · have later := passes_length_le types literalMath g.nodes.length
      (pass1 types literalMath g.order (g, []))
    exact absurd (Nat.le_zero.1 (later.trans (Nat.le_of_eq idle))) settled

theorem run_eq_zero_of_not_folds (stays : ∀ n ∈ g.nodes, replacement? types literalMath n = none) :
    (run types literalMath g).2 = 0 := by
  have idle : pass1 types literalMath g.order (g, []) = (g, []) :=
    pass1_of_not_folds fun _ _ _ n found => stays n (mem_of_getElem? found)
  simp only [run, passes, idle, if_true, length_nil]

end

theorem run_settles (types : Registry) (literalMath : Bool) (g : Graph) :
    Settles types literalMath (g, []) (passes types literalMath (g.nodes.length + 1) (g, [])) :=
  passes_settles ⟨rfl, nodup_nil, by simp⟩ (by simp)

end Fold

end MaterialShader
