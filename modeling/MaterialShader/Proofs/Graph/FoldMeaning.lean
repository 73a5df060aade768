import MaterialShader.Proofs.Graph.Coherent

/-!
Constant folding keeps the meaning of a graph.
-/

namespace MaterialShader

open List
open Interpretation (results)
open Numeric

variable {name : String} {out : Output} {w : Value} {types : Registry}

variable {D : Type}

namespace Interpretation

section

variable (I : Interpretation D) (sockets : Nat → D) (v : Valuation D)

include I sockets v

theorem argument?_arguments (n : GraphNode) (name : String) :
    argument? (I.arguments sockets v n) name = (n.input? name).map (I.argumentOf sockets v) := by
  rw [argument?, arguments, List.find?_map]
  rfl

theorem branches_arguments (n : GraphNode) :
    branches (I.arguments sockets v n) = Fold.branchCount n := by
  rw [branches, arguments, countP_map]
  rfl

theorem hasLiteral_of_literal? {n : GraphNode} {x : Value} (literal : n.literal? name = some x) :
    ∃ i, n.input? name = some i ∧ I.HasLiteral (I.arguments sockets v n) name i.type x := by
  obtain ⟨i, input, source, value⟩ := GraphNode.literal?_eq_some.1 literal
  refine ⟨i, input, I.argumentOf sockets v i, ?_, rfl, ?_⟩
  · rw [argument?_arguments, input, Option.map_some]
  · simp only [argumentOf, source, value, read]

theorem hasNumber_of_literalNumber? {n : GraphNode} {x : Single}
    (number : Fold.literalNumber? n name = some x) :
    I.HasNumber (I.arguments sockets v n) name x := by
  obtain ⟨value, literal, number⟩ := Option.bind_eq_some_iff.1 number
  obtain ⟨i, _, has⟩ := I.hasLiteral_of_literal? sockets v literal
  exact ⟨i.type, value, has, number⟩

end

end Interpretation

namespace Fold

variable {I : Interpretation D} {n : GraphNode}

section

variable (lawful : I.Lawful types) (sockets : Nat → D) (v : Valuation D)

include lawful sockets v

theorem chosenInput?_returns (chosen : chosenInput? n = some name) :
    I.Returns n.signature (I.arguments sockets v n) name := by
  unfold chosenInput? at chosen
  split_ifs at chosen with switch compare ifgreater
  · obtain ⟨which, selector, rfl⟩ := Option.map_eq_some_iff.1 chosen
    apply lawful.switch _ _ which _ switch (I.hasNumber_of_literalNumber? sockets v selector)
    rw [I.branches_arguments]
    exact which.floorWithin_eq _
  · split at chosen
    · rename_i intest cutoff first second
      cases chosen
      exact lawful.compare _ _ intest cutoff compare (I.hasNumber_of_literalNumber? sockets v first)
        (I.hasNumber_of_literalNumber? sockets v second)
    · cases chosen
  · split at chosen
    · rename_i value1 value2 first second
      cases chosen
      exact lawful.ifgreater _ _ value1 value2 ifgreater
        (I.hasNumber_of_literalNumber? sockets v first)
        (I.hasNumber_of_literalNumber? sockets v second)
    · cases chosen

theorem Picks.returns (picks : Picks n name) :
    I.Returns n.signature (I.arguments sockets v n) name := by
  cases picks with
  | constant category => exact lawful.constant _ _ category
  | dot category => exact lawful.dot _ _ category
  | background w category weight zero =>
    exact lawful.mix_zero _ _ w category (I.hasNumber_of_literalNumber? sockets v weight) zero
  | foreground w category weight one =>
    exact lawful.mix_one _ _ w category (I.hasNumber_of_literalNumber? sockets v weight) one
  | chosen _ chosen => exact chosenInput?_returns lawful sockets v chosen

theorem Computes.value (outputs : n.outputs = [out]) (computes : Computes types n out.type w) :
    I.results sockets v n 0 = I.literal out.type w := by
  have single : n.signature.outputs = [out.type] := by simp [GraphNode.signature, outputs]
  cases computes with
  | convert i x c _ category input literal conversion computed =>
    obtain ⟨j, found, has⟩ := I.hasLiteral_of_literal? sockets v literal
    rw [input] at found
    cases found
    exact lawful.convert _ _ i.type _ x c w category single has conversion computed
  | arithmetic op xs ys _ category float notMatrix first second computed =>
    obtain ⟨x, literal, components⟩ := Option.bind_eq_some_iff.1 first
    obtain ⟨y, literal', components'⟩ := Option.bind_eq_some_iff.1 second
    obtain ⟨i, _, has⟩ := I.hasLiteral_of_literal? sockets v literal
    obtain ⟨j, _, has'⟩ := I.hasLiteral_of_literal? sockets v literal'
    exact lawful.arithmetic _ _ op _ i.type j.type x y xs ys w category single float notMatrix has
      components has' components' computed

end

section

variable {literalMath : Bool} {g : Graph} {I : Interpretation D} {opens : ShaderType → Prop}
  {sockets : Nat → D} {v : Valuation D} {id : NodeId} {n : GraphNode} {r : Replacement}

section

variable (lawful : I.Lawful types) (coherent : g.Coherent types I opens)
  (solves : g.Solves I sockets v) (found : g.nodes[id]? = some n)
  (folds : replacement? types literalMath n = some r)

include lawful coherent solves found folds

theorem replacement_read {t : ShaderType}
    (suits : g.Suits I opens t (some (.node id 0))) :
    I.read sockets v t r.source r.value = v id 0 := by
  obtain ⟨out, outputs, ⟨name, picks, passed⟩ | ⟨w, computes, rfl⟩⟩ := replacement?_cases folds
  · obtain ⟨i, input, same, rfl⟩ := pass_eq_some.1 passed
    have member := GraphNode.mem_of_input? input
    have type := coherent.pass_type (mem_of_getElem? found) outputs member same
    have argument := I.argument?_arguments sockets v n name
    rw [input, Option.map_some] at argument
    rw [solves id n found, results, picks.returns lawful sockets v out.type _
      (by simp [GraphNode.signature, outputs]) argument type]
    exact coherent.read_input found outputs member type suits sockets v
  · rw [solves id n found, computes.value lawful sockets v outputs]
    obtain rfl | ⟨alike, _⟩ := suits id n out rfl found outputs
    · rfl
    · exact alike w

theorem rewire_read {i : Input}
    (suits : g.Suits I opens i.type i.source) :
    I.argumentOf sockets v (rewireInput id r i) = I.argumentOf sockets v i := by
  unfold rewireInput
  split
  · rename_i reads
    have source := beq_iff_eq.1 reads
    rw [source] at suits
    simp only [Interpretation.argumentOf, Argument.mk.injEq, true_and]
    rw [replacement_read lawful coherent solves found folds suits, source, Interpretation.read]
  · rfl

theorem bypass_solves :
    (bypass g id r).Solves I sockets v := by
  -- The valuation stays: a rewired input reads another source with the same value.
  intro b m' at_b
  simp only [bypass_nodes, List.getElem?_map, Option.map_eq_some_iff] at at_b
  obtain ⟨m, at_b, rfl⟩ := at_b
  have same : I.arguments sockets v (rewireNode id r m) = I.arguments sockets v m := by
    simp only [Interpretation.arguments, rewireNode, map_map]
    apply map_congr_left
    intro i member
    have suits := coherent.inputs m (mem_of_getElem? at_b) i member
    exact rewire_read lawful coherent solves found folds suits
  rw [solves b m at_b, results, results, same]
  rfl

theorem bypass_outputsUnder :
    (bypass g id r).outputsUnder I sockets v = g.outputsUnder I sockets v := by
  simp only [Graph.outputsUnder, bypass_outputSockets, map_map]
  apply map_congr_left
  intro s member
  have suits := coherent.outputSockets s member
  simp only [Function.comp_apply, rewireSocket]
  split
  · rename_i reads
    have source := beq_iff_eq.1 reads
    rw [source] at suits
    rw [replacement_read lawful coherent solves found folds suits, source, Interpretation.read]
  · rfl

end

end

theorem stable_meaning (literalMath : Bool) {I : Interpretation D} (lawful : I.Lawful types)
    (sockets : Nat → D) (v : Valuation D) (outputs : List (Argument D)) :
    Stable types literalMath fun g =>
      (g.WellTyped types ∧ g.Acyclic) ∧ g.Solves I sockets v ∧
        g.outputsUnder I sockets v = outputs := by
  rintro g id n r ⟨shape, solves, same⟩ found folds
  have coherent := shape.1.coherent I
  refine ⟨stable_typed_acyclic types literalMath g id n r shape found folds,
    bypass_solves lawful coherent solves found folds, ?_⟩
  rw [bypass_outputsUnder lawful coherent solves found folds, same]

theorem stable_closed_acyclic (types : Registry) (literalMath : Bool) :
    Stable types literalMath fun g => g.Closed ∧ g.Acyclic := by
  intro g id n r holds found folds
  exact ⟨bypass_closed found folds holds.1, bypass_acyclic found folds holds.2⟩

theorem stable_coherent (literalMath : Bool) {I : Interpretation D} (lawful : I.Lawful types)
    (opens : ShaderType → Prop) (sockets : Nat → D) (v : Valuation D) (outputs : List (Argument D)) :
    Stable types literalMath fun g =>
      g.Coherent types I opens ∧ g.Solves I sockets v ∧ g.outputsUnder I sockets v = outputs := by
  rintro g id n r ⟨coherent, solves, same⟩ found folds
  refine ⟨bypass_coherent coherent found folds, bypass_solves lawful coherent solves found folds,
    ?_⟩
  rw [bypass_outputsUnder lawful coherent solves found folds, same]

end Fold

theorem Numeric.Single.not_eq_zero_of_eq_one {w : Single} (one : w.eq .one) : ¬ w.eq .zero := by
  have h1 : Single.one.reading = .finite false (2 ^ 23) (-23) := by decide
  have h0 : Single.zero.reading = .finite false 0 (-149) := by decide
  unfold Single.eq at *
  rw [h1] at one
  cases reading : w.reading with
  | finite s m e =>
    simp only [reading, Reading.eq, Reading.aligned] at one ⊢
    intro zero
    cases s <;> simp_all
  | infinite s => simp [reading, Reading.eq] at one
  | notANumber => simp [reading, Reading.eq] at one

theorem plain_of_operator {category : String} {op : Fold.Operator}
    (operator : Fold.Operator.ofCategory? category = some op) :
    category ≠ "constant" ∧ category ≠ "dot" ∧ category ∉ conditionalCategories ∧
      category ≠ "mix" ∧ category ≠ "convert" := by
  refine ⟨?_, ?_, ?_, ?_, ?_⟩
  · rintro rfl
    cases operator
  · rintro rfl
    cases operator
  · intro conditional
    simp only [conditionalCategories, mem_cons, not_mem_nil, or_false] at conditional
    obtain rfl | rfl | rfl := conditional <;> cases operator
  · rintro rfl
    cases operator
  · rintro rfl
    cases operator

namespace Fold

variable {n : GraphNode}

theorem category_of_chosenInput? (chosen : chosenInput? n = some name) :
    n.category = "switch" ∨ n.category = "compare" ∨ n.category = "ifgreater" := by
  unfold chosenInput? at chosen
  split_ifs at chosen with switch compare ifgreater
  · exact .inl switch
  · exact .inr (.inl compare)
  · exact .inr (.inr ifgreater)

theorem Picks.replaces {literalMath : Bool} (outputs : n.outputs = [out]) (picks : Picks n name) :
    replacement? types literalMath n = pass n out.type name := by
  cases picks with
  | constant category => simp [replacement?, outputs, category]
  | dot category => simp [replacement?, outputs, category]
  | background w category weight zero =>
    simp [replacement?, outputs, category, weight, zero, conditionalCategories]
  | foreground w category weight one =>
    simp [replacement?, outputs, category, weight, one, Numeric.Single.not_eq_zero_of_eq_one one,
      conditionalCategories]
  | chosen _ chosen =>
    obtain category | category | category := category_of_chosenInput? chosen <;>
      simp [replacement?, outputs, category, conditionalCategories, chosen]

theorem Computes.replaces (outputs : n.outputs = [out]) (computes : Computes types n out.type w) :
    replacement? types true n = some (literal w) := by
  cases computes with
  | convert i v c _ category input value conversion computed =>
    simp [replacement?, outputs, category, conditionalCategories, input, value, conversion,
      computed]
  | arithmetic op xs ys _ category float notMatrix first second computed =>
    obtain ⟨constant, dot, conditional, mix, convert⟩ := plain_of_operator category
    simp [replacement?, outputs, constant, dot, conditional, mix, convert, category, float,
      notMatrix, first, second, computed]

end Fold

def literalNode (sig : Signature) (args : List (Argument Value)) : GraphNode where
  name := ""
  path := ""
  category := sig.category
  definition := sig.definition
  classification := .ofList []
  inputs := args.map fun a => ⟨a.name, a.type, some a.value, none, false, ""⟩
  outputs := sig.outputs.map fun t => ⟨"out", t, ""⟩

instance : Inhabited Value := ⟨.boolean false⟩

/-- Values stand for themselves, and a node gives what it folds to if its inputs are literals. -/
def Interpretation.ofValues (types : Registry) : Interpretation Value where
  literal _ v := v
  apply sig args _ :=
    ((Fold.replacement? types true (literalNode sig args)).bind Replacement.value).getD default

section

variable {sig : Signature} {args : List (Argument Value)} {t : ShaderType}

theorem literalNode_input? {a : Argument Value} (found : argument? args name = some a) :
    (literalNode sig args).input? name = some ⟨a.name, a.type, some a.value, none, false, ""⟩ := by
  rw [argument?] at found
  simp only [GraphNode.input?, literalNode, List.find?_map, Function.comp_def, found,
    Option.map_some]

theorem literalNode_literal? {v : Value}
    (has : (Interpretation.ofValues types).HasLiteral args name t v) :
    (literalNode sig args).literal? name = some v := by
  obtain ⟨a, found, _, value⟩ := has
  simp only [GraphNode.literal?, literalNode_input? found, Option.isNone_none, if_true, value]
  rfl

theorem literalNode_number? {x : Single}
    (has : (Interpretation.ofValues types).HasNumber args name x) :
    Fold.literalNumber? (literalNode sig args) name = some x := by
  obtain ⟨t, v, has, number⟩ := has
  rw [Fold.literalNumber?, literalNode_literal? has]
  exact number

theorem literalNode_branchCount :
    Fold.branchCount (literalNode sig args) = Interpretation.branches args := by
  simp only [Fold.branchCount, literalNode, countP_map]
  rfl

theorem literalNode_outputs (outputs : sig.outputs = [t]) :
    (literalNode sig args).outputs = [⟨"out", t, ""⟩] := by
  simp [literalNode, outputs]

theorem ofValues_picks (picks : Fold.Picks (literalNode sig args) name) :
    (Interpretation.ofValues types).Returns sig args name := by
  rintro t a outputs found rfl
  have input : (literalNode sig args).input? name = _ := literalNode_input? found
  have passed : Fold.pass (literalNode sig args) a.type name = _ :=
    Fold.pass_eq_some.2 ⟨_, input, by simp [ShaderType.same], rfl⟩
  simp only [Interpretation.ofValues, picks.replaces (literalNode_outputs outputs), passed,
    Option.bind_some, Option.getD_some]

theorem ofValues_computes (outputs : sig.outputs = [t])
    (computes : Fold.Computes types (literalNode sig args) t w) :
    (Interpretation.ofValues types).apply sig args 0 = w := by
  simp [Interpretation.ofValues, computes.replaces (literalNode_outputs outputs), Fold.literal]

@[simp] theorem literalNode_category : (literalNode sig args).category = sig.category := rfl

theorem ofValues_lawful (types : Registry) : (Interpretation.ofValues types).Lawful types where
  constant _ _ category := ofValues_picks (.constant category)
  dot _ _ category := ofValues_picks (.dot category)
  mix_zero _ _ w category weight zero :=
    ofValues_picks (.background w category (literalNode_number? weight) zero)
  mix_one _ _ w category weight one :=
    ofValues_picks (.foreground w category (literalNode_number? weight) one)
  switch sig args which k category selector branch := by
    have same : Fold.switchBranch which (Interpretation.branches args) = k := by
      have floor := which.floorWithin_eq (Interpretation.branches args - 1)
      rw [← branch] at floor
      exact Int.ofNat.inj floor
    refine ofValues_picks (.chosen _ ?_)
    simp [category, Fold.chosenInput?, literalNode_number? selector, literalNode_branchCount, same,
      Fold.branchName]
  compare sig args intest cutoff category first second := by
    refine ofValues_picks (.chosen _ ?_)
    simp [category, Fold.chosenInput?, literalNode_number? first, literalNode_number? second]
  ifgreater sig args value1 value2 category first second := by
    refine ofValues_picks (.chosen _ ?_)
    simp [category, Fold.chosenInput?, literalNode_number? first, literalNode_number? second]
  convert sig args s t v c r category outputs has conversion computed := by
    obtain ⟨a, found, rfl, value⟩ := has
    exact ofValues_computes outputs (.convert _ v c r category (literalNode_input? found)
      (literalNode_literal? ⟨a, found, rfl, value⟩) conversion computed)
  arithmetic sig args op t t1 t2 v1 v2 xs ys r category outputs float notMatrix has1 first has2
      second computed := by
    refine ofValues_computes outputs (.arithmetic op xs ys r category float notMatrix ?_ ?_ computed)
    · rw [literalNode_literal? has1]
      exact first
    · rw [literalNode_literal? has2]
      exact second

end

namespace Graph

variable {v : Valuation D} {g : Graph}

theorem renumber_read (I : Interpretation D) (sockets : Nat → D) {w : Valuation D}
    (kept : List Bool) (t : ShaderType) (source : Option Source) (value : Option Value)
    (agree : ∀ id k, source = some (.node id k) → w (renumber kept id) = v id) :
    I.read sockets w t (renumberSource kept source) value = I.read sockets v t source value := by
  match source, value with
  | some (.node id k), _ => exact congrFun (agree id k rfl) k
  | some (.socket k), _ => rfl
  | none, some x => rfl
  | none, none => rfl

theorem renumber_arguments (I : Interpretation D) (sockets : Nat → D) {w : Valuation D}
    (kept : List Bool) (n : GraphNode) (agree : ∀ a ∈ n.readNodes, w (renumber kept a) = v a) :
    I.arguments sockets w (renumberNode kept n) = I.arguments sockets v n := by
  simp only [Interpretation.arguments, renumberNode, map_map]
  apply map_congr_left
  intro i member
  simp only [Function.comp_apply, Interpretation.argumentOf, Argument.mk.injEq, true_and]
  apply renumber_read
  intro id k source
  exact agree id (GraphNode.mem_readNodes.2 ⟨i, member, k, source⟩)

theorem Closed.prune_outputValues [Inhabited D] (closed : g.Closed) (acyclic : g.Acyclic)
    {I : Interpretation D} {sockets : Nat → D} (solves : g.Solves I sockets v) :
    g.prune.1.outputValues I sockets = g.outputsUnder I sockets v := by
  have pruned := closed.prune.evaluate_solves (closed.prune_acyclic acyclic) I sockets
  rw [outputValues]
  generalize g.prune.1.evaluate I sockets = w at pruned ⊢
  rw [prune_eq_restrict] at pruned ⊢
  have agree : ∀ id, g.Used id → w (renumber g.keptFlags id) = v id := by
    intro id used
    apply solves.agree pruned closed acyclic g.Used (renumber g.keptFlags) _ _ used used.1
    · intro a b used feeds
      exact closed.used_of_feeds used feeds
    · intro id n used found
      exact ⟨_, restrict_node g.keptFlags_length (keptFlags_iff.2 used) found, rfl,
        fun v w => renumber_arguments I sockets g.keptFlags n⟩
  simp only [outputsUnder, restrict, map_map]
  apply map_congr_left
  intro s member
  simp only [Function.comp_apply, Argument.mk.injEq, true_and]
  apply renumber_read
  intro id k source
  exact agree id (closed.root_used member source)

theorem prune_outputValues [Inhabited D] (typed : g.WellTyped types) (acyclic : g.Acyclic)
    {I : Interpretation D} {sockets : Nat → D} (solves : g.Solves I sockets v) :
    g.prune.1.outputValues I sockets = g.outputsUnder I sockets v :=
  typed.closed.prune_outputValues acyclic solves

theorem sort_outputValues [Inhabited D] {sorted : Graph} (ok : g.sort = .ok sorted)
    (I : Interpretation D) (sockets : Nat → D) :
    sorted.outputValues I sockets = g.outputValues I sockets := by
  unfold sort at ok
  split at ok
  · cases ok
    rfl
  · cases ok

theorem Closed.exists_sort (closed : g.Closed) (acyclic : g.Acyclic) :
    ∃ sorted, g.sort = .ok sorted := by
  obtain ⟨order, found⟩ := exists_order closed acyclic
  exact ⟨{ g with order }, by simp only [sort, found]⟩

theorem exists_sort (typed : g.WellTyped types) (acyclic : g.Acyclic) :
    ∃ sorted, g.sort = .ok sorted := typed.closed.exists_sort acyclic

end Graph

/-- Folding ends, the pruned result can be sorted, and no output socket changes its value. -/
theorem fold_prune_sort_keeps_outputs [Inhabited D] {types : Registry} {I : Interpretation D}
    (lawful : I.Lawful types) {g : Graph} (typed : g.WellTyped types) (acyclic : g.Acyclic)
    (sockets : Nat → D) (literalMath : Bool) :
    ∃ folded bypassed final, Fold.Settles types literalMath (g, []) (folded, bypassed) ∧
      Fold.run types literalMath g = (folded, bypassed.length) ∧
      folded.prune.1.sort = .ok final ∧
      final.outputValues I sockets = g.outputValues I sockets := by
  have solves := g.evaluate_solves typed acyclic I sockets
  have kept := (Fold.stable_meaning literalMath lawful sockets _ _).run
    ⟨⟨typed, acyclic⟩, solves, rfl⟩
  obtain ⟨⟨typed', acyclic'⟩, solves', same⟩ := kept
  obtain ⟨final, sorted⟩ := Graph.exists_sort (Graph.prune_wellTyped typed')
    (Graph.prune_acyclic typed' acyclic')
  refine ⟨_, _, final, Fold.run_settles types literalMath g, rfl, sorted, ?_⟩
  calc
    final.outputValues I sockets
      = (Fold.run types literalMath g).1.prune.1.outputValues I sockets :=
        Graph.sort_outputValues sorted I sockets
    _ = (Fold.run types literalMath g).1.outputsUnder I sockets (g.evaluate I sockets) :=
        Graph.prune_outputValues typed' acyclic' solves'
    _ = g.outputValues I sockets := same

/-- A sum of one and of a mix that is its background, read before it stands. -/
def mixedSum : Graph :=
  let float : ShaderType := ⟨"float", .float, .none, 1, true, .float .zero⟩
  let input (name : String) (value : Option Value) (source : Option Source) : Input :=
    ⟨name, float, value, source, false, name⟩
  { nodes :=
      [⟨"sum", "sum", "add", "add_float", .ofList [],
        [input "in1" none (some (.node 1 0)), input "in2" (some (.float .one)) none],
        [⟨"out", float, "sum_out"⟩]⟩,
       ⟨"blend", "blend", "mix", "mix_float", .ofList [],
        [input "fg" none (some (.socket 0)), input "bg" none none,
         input "mix" (some (.float .zero)) none],
        [⟨"out", float, "blend_out"⟩]⟩]
    inputSockets := [⟨"tint", float, none, "tint"⟩]
    outputSockets := [⟨"out", float, some (.node 0 0), none⟩]
    order := [1, 0]
    classification := .ofList [] }

theorem fold_prune_sort_keeps_mixedSum :
    (Interpretation.ofValues .standard).Lawful .standard ∧ mixedSum.WellTyped .standard ∧
      mixedSum.Acyclic ∧
      ∃ folded bypassed final, Fold.Settles .standard true (mixedSum, []) (folded, bypassed) ∧
        Fold.run .standard true mixedSum = (folded, bypassed.length) ∧
        folded.prune.1.sort = .ok final ∧
        final.outputValues (.ofValues .standard) (fun _ => .float .one) =
          mixedSum.outputValues (.ofValues .standard) (fun _ => .float .one) := by
  have typed : mixedSum.WellTyped .standard :=
    ⟨by decide, by decide, by decide, by decide⟩
  have acyclic : mixedSum.Acyclic := Graph.acyclic_of_rank (fun id => 1 - id) (by decide)
  exact ⟨ofValues_lawful .standard, typed, acyclic,
    fold_prune_sort_keeps_outputs (ofValues_lawful .standard) typed acyclic _ true⟩

end MaterialShader
