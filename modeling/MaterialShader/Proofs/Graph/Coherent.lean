import MaterialShader.Proofs.Graph.Fold
import MaterialShader.Proofs.Graph.Meaning
import MaterialShader.Proofs.Graph.Prune

/-!
Graphs whose readers find the same value whether they read a node or what it folds to.
-/

namespace MaterialShader

open List

variable {D : Type}

/-- Literals stand for the same values at both types. -/
def Interpretation.Alike (I : Interpretation D) (t u : ShaderType) : Prop :=
  ∀ v, I.literal t v = I.literal u v

namespace Graph

def Suits (g : Graph) (I : Interpretation D) (opens : ShaderType → Prop) (t : ShaderType)
    (s : Option Source) : Prop :=
  ∀ id n o, s = some (.node id 0) → g.nodes[id]? = some n → n.outputs = [o] →
    t = o.type ∨ (I.Alike t o.type ∧ ∀ i ∈ n.inputs, i.type = o.type → ¬ opens i.type)

structure Coherent (types : Registry) (I : Interpretation D) (opens : ShaderType → Prop)
    (g : Graph) : Prop where
  inputTypes : ∀ n ∈ g.nodes, ∀ i ∈ n.inputs, types.Knows i.type
  outputTypes : ∀ n ∈ g.nodes, ∀ o ∈ n.outputs, types.Knows o.type
  inputs : ∀ n ∈ g.nodes, ∀ i ∈ n.inputs, g.Suits I opens i.type i.source
  left : ∀ n ∈ g.nodes, ∀ i ∈ n.inputs, i.source = none → i.value = none → opens i.type
  outputSockets : ∀ s ∈ g.outputSockets, g.Suits I opens s.type s.source

section

variable {types : Registry} {I : Interpretation D} {opens : ShaderType → Prop} {g : Graph}
  {t : ShaderType} {s : Option Source}

theorem suits_of_carries (opens : ShaderType → Prop) (carries : g.Carries t s) :
    g.Suits I opens t s := by
  rintro id n o rfl found outputs
  obtain ⟨m, o', at_id, first, type⟩ := sourceType?_node (carries _ rfl)
  rw [found] at at_id
  cases at_id
  rw [outputs, List.getElem?_cons_zero] at first
  cases first
  exact .inl type.symm

theorem WellTyped.coherent (typed : g.WellTyped types) (I : Interpretation D) :
    g.Coherent types I fun _ => True where
  inputTypes n member i input := (typed.inputs n member i input).1
  outputTypes := typed.outputs
  inputs n member i input := suits_of_carries _ (typed.inputs n member i input).2
  left _ _ _ _ _ _ := trivial
  outputSockets s member := suits_of_carries _ (typed.outputSockets s member).2

theorem Coherent.retag (coherent : g.Coherent types I opens) (order : List NodeId) :
    Coherent types I opens { g with order } :=
  ⟨coherent.inputTypes, coherent.outputTypes, coherent.inputs, coherent.left,
    coherent.outputSockets⟩

theorem Coherent.pass_type (coherent : g.Coherent types I opens) {n : GraphNode}
    (member : n ∈ g.nodes) {o : Output} (outputs : n.outputs = [o]) {i : Input}
    (input : i ∈ n.inputs) (same : i.type.same o.type) : i.type = o.type := by
  have known := coherent.inputTypes n member i input
  exact known.eq_of_same (coherent.outputTypes n member o (by simp [outputs])) same

section

variable (coherent : g.Coherent types I opens) {id : NodeId} {n : GraphNode}
  (found : g.nodes[id]? = some n) {o : Output} (outputs : n.outputs = [o]) {i : Input}
  (input : i ∈ n.inputs) (type : i.type = o.type) (suits : g.Suits I opens t (some (.node id 0)))

include coherent found outputs input type suits

theorem Coherent.suits_input : g.Suits I opens t i.source := by
  have inner := coherent.inputs n (mem_of_getElem? found) i input
  obtain rfl | ⟨alike, shut⟩ := suits id n o rfl found outputs
  · rwa [type] at inner
  · intro id' n' o' source found' outputs'
    right
    obtain same | ⟨alike', shut'⟩ := inner id' n' o' source found' outputs'
    · rw [← same, type]
      refine ⟨alike, fun i' _ type' => ?_⟩
      rw [type', ← type]
      exact shut i input type
    · rw [type] at alike'
      exact ⟨fun v => (alike v).trans (alike' v), shut'⟩

theorem Coherent.read_input (sockets : Nat → D) (v : Valuation D) :
    I.read sockets v t i.source i.value = I.read sockets v i.type i.source i.value := by
  obtain rfl | ⟨alike, shut⟩ := suits id n o rfl found outputs
  · rw [type]
  · match source : i.source, value : i.value with
    | some (.node _ _), _ => rfl
    | some (.socket _), _ => rfl
    | none, some w =>
      rw [type]
      exact alike w
    | none, none =>
      have opened := coherent.left n (mem_of_getElem? found) i input source value
      exact absurd opened (shut i input type)

end

end

end Graph

namespace Fold

section

variable {types : Registry} {literalMath : Bool} {I : Interpretation D}
  {opens : ShaderType → Prop} {g : Graph} {id : NodeId} {n : GraphNode} {r : Replacement}

@[simp] theorem rewireInput_type (i : Input) : (rewireInput id r i).type = i.type := by
  unfold rewireInput
  split <;> rfl

theorem bypass_suits {t : ShaderType} {s : Option Source} (suits : g.Suits I opens t s) :
    (bypass g id r).Suits I opens t s := by
  intro a m' o source found outputs
  simp only [bypass_nodes, List.getElem?_map, Option.map_eq_some_iff] at found
  obtain ⟨m, found, rfl⟩ := found
  refine (suits a m o source found outputs).imp_right (And.imp_right fun shut => ?_)
  intro i' input
  simp only [rewireNode, mem_map] at input
  obtain ⟨i, input, rfl⟩ := input
  rw [rewireInput_type]
  exact shut i input

section

variable (coherent : g.Coherent types I opens) (found : g.nodes[id]? = some n)
  (folds : replacement? types literalMath n = some r)

include coherent found folds

theorem replacement_suits {t : ShaderType}
    (suits : g.Suits I opens t (some (.node id 0))) :
    g.Suits I opens t r.source ∧ (r.source = none → r.value = none → opens t) := by
  obtain ⟨out, outputs, ⟨name, _, passed⟩ | ⟨w, _, rfl⟩⟩ := replacement?_cases folds
  · obtain ⟨i, input, same, rfl⟩ := pass_eq_some.1 passed
    have member := mem_of_getElem? found
    have input := GraphNode.mem_of_input? input
    have type := coherent.pass_type member outputs input same
    refine ⟨coherent.suits_input found outputs input type suits, ?_⟩
    intro source value
    have opened := coherent.left n member i input source value
    obtain rfl | ⟨_, shut⟩ := suits id n out rfl found outputs
    · rwa [← type]
    · exact absurd opened (shut i input type)
  · constructor
    · intro _ _ _ reads
      cases reads
    · intro _ value
      cases value

theorem bypass_coherent :
    (bypass g id r).Coherent types I opens := by
  have replaced := fun t => replacement_suits (t := t) coherent found folds
  refine ⟨forall_inputs_bypass (fun m member i input _ => coherent.inputTypes m member i input)
      fun m member i input _ => coherent.inputTypes m member i input, ?_,
    forall_inputs_bypass ?_ ?_,
    forall_inputs_bypass (fun m member i input _ => coherent.left m member i input) ?_,
    forall_sockets_bypass (fun s member _ => bypass_suits (coherent.outputSockets s member)) ?_⟩
  · simp only [bypass_nodes, forall_mem_map]
    exact coherent.outputTypes
  · exact fun m member i input _ => bypass_suits (coherent.inputs m member i input)
  · intro m member i input reads
    exact bypass_suits (replaced i.type (reads ▸ coherent.inputs m member i input)).1
  · intro m member i input reads
    exact (replaced i.type (reads ▸ coherent.inputs m member i input)).2
  · intro s member reads
    exact bypass_suits (replaced s.type (reads ▸ coherent.outputSockets s member)).1

end

end

end Fold

namespace Graph

section

variable {types : Registry} {I : Interpretation D} {opens : ShaderType → Prop} {g : Graph}

theorem restrict_suits {kept : List Bool} (length : kept.length = g.nodes.length) {t : ShaderType}
    {s : Option Source} (survives : Survives kept s) (suits : g.Suits I opens t s)
    (inside : ∀ source ∈ s, g.Inside source) :
    (g.restrict kept).Suits I opens t (renumberSource kept s) := by
  match s with
  | none => exact fun _ _ _ impossible => nomatch impossible
  | some (.socket k) => exact fun _ _ _ impossible => nomatch impossible
  | some (.node a k) =>
    rintro id m o source found outputs
    cases source
    have old := List.getElem?_eq_getElem (inside (.node a 0) rfl)
    rw [restrict_node length (survives a 0 rfl) old] at found
    cases found
    refine (suits a _ o rfl old outputs).imp_right (And.imp_right fun shut => ?_)
    intro i' input
    simp only [renumberNode, mem_map] at input
    obtain ⟨i, input, rfl⟩ := input
    exact shut i input

theorem Coherent.prune (coherent : g.Coherent types I opens) (closed : g.Closed) :
    g.prune.1.Coherent types I opens := by
  have suited {t : ShaderType} {s : Option Source} (survives : Survives g.keptFlags s)
      (suits : g.Suits I opens t s) (inside : ∀ source ∈ s, g.Inside source) :
      g.prune.1.Suits I opens t (renumberSource g.keptFlags s) := by
    rw [prune_eq_restrict]
    exact restrict_suits g.keptFlags_length survives suits inside
  refine ⟨forall_inputs_prune fun _ n _ found => ?_, forall_nodes_prune fun _ n _ found => ?_,
    forall_inputs_prune fun _ n marked found i input => ?_,
    forall_inputs_prune fun _ n _ found i input source value => ?_,
    forall_sockets_prune fun s member => ?_⟩
  · exact coherent.inputTypes n (mem_of_getElem? found)
  · exact coherent.outputTypes n (mem_of_getElem? found)
  · have member := mem_of_getElem? found
    exact suited (closed.input_survives marked found input) (coherent.inputs n member i input)
      (closed.inputs n member i input)
  · refine coherent.left n (mem_of_getElem? found) i input ?_ value
    match old : i.source with
    | none => rfl
    | some (.socket k) => simp [old, renumberSource] at source
    | some (.node a k) => simp [old, renumberSource] at source
  · exact suited (closed.socket_survives member) (coherent.outputSockets s member)
      (closed.outputSockets s member)

end

end Graph

end MaterialShader
