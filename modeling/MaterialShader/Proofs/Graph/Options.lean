import MaterialShader.Proofs.Graph.Build
import MaterialShader.Proofs.Graph.FoldMeaning
import MaterialShader.Proofs.Graph.Interface

/-!
Options change neither whether a document can be built nor what it means.
-/

namespace MaterialShader

open List

/-- Literals stand for the same values at every type. -/
def Interpretation.Untyped {D : Type} (I : Interpretation D) : Prop := ∀ t u, I.Alike t u

namespace Builder

section

variable {lib : Library} {types : Registry} {js : List Json} {waiting : List NodeId} {b : Builder}
  {t : ShaderType} {s : Option Source}

theorem Reads.inside (reads : b.Reads t s) (sound : b.Sound lib types js waiting) :
    ∀ source ∈ s, b.draft.Inside source := by
  intro source read
  obtain typed | ⟨origin, id, rfl, listed⟩ := reads source read
  · exact Graph.inside_of_sourceType? typed
  · exact sound.listed_lt listed

theorem Reads.suits {D : Type} {I : Interpretation D} (reads : b.Reads t s)
    (sound : b.Sound lib types js waiting) (known : types.Knows t) (literals : I.Untyped ∨ lib.Converts) :
    b.draft.Suits I (fun t => t.isClosure) t s := by
  obtain untyped | converts := literals
  · intro id n o source found outputs
    obtain typed | ⟨origin, id', same, listed⟩ := reads _ source
    · have carries : b.draft.Carries t s := by
        intro _ read
        cases source.symm.trans read
        exact typed
      exact Graph.suits_of_carries (fun t => t.isClosure) carries id n o source found outputs
    · -- A conversion may make any type, but it reads no closure.
      cases same
      obtain ⟨m, at_id, _, plain⟩ := sound.conversions origin t.name id listed
      cases at_id.symm.trans found
      exact .inr ⟨untyped t o.type, fun i input _ => plain i input⟩
  · exact Graph.suits_of_carries _ (Graph.carries_of_reads converts sound known reads)

end

end Builder

namespace Graph

section

variable {doc : Document} {lib : Library} {types : Registry} {g : Graph}

section

variable (regular : ∀ t, types.Knows t → t.Regular) (run : bind doc lib types = .ok g)

include regular run

theorem bind_closed : g.Closed := by
  obtain ⟨b, ⟨sound, admits, _⟩, shape⟩ := bind_ends regular run
  generalize g.outputSockets = outputs at admits shape
  subst shape
  constructor
  · exact fun n member i input => (sound.inputs n member i input).reads.inside sound
  · exact fun s member => (admits s member).reads.inside sound

theorem bind_coherent {D : Type} {I : Interpretation D}
    (literals : I.Untyped ∨ lib.Converts) : g.Coherent types I fun t => t.isClosure := by
  obtain ⟨b, ⟨sound, admits, _⟩, shape⟩ := bind_ends regular run
  generalize g.outputSockets = outputs at admits shape
  subst shape
  refine ⟨?_, sound.outputs, ?_, ?_, ?_⟩
  · exact fun n member i input => (sound.inputs n member i input).known
  · intro n member i input
    have admitted := sound.inputs n member i input
    exact admitted.reads.suits sound admitted.known literals
  · exact fun n member i input => (sound.inputs n member i input).closed
  · exact fun s member => (admits s member).reads.suits sound (admits s member).known literals

theorem bind_sockets :
    List.Forall₂ (GraphInput.Declares types) doc.inputs g.inputSockets := by
  obtain ⟨b, ends, shape⟩ := bind_ends regular run
  rw [shape]
  exact ends.sockets

end

def prepare (doc : Document) (lib : Library) (types : Registry) (walk : Network.Walk := .listed) :
    Result (Graph × List String) := do
  let bound ← bind doc lib types walk
  let sorted ← bound.sort
  let (pruned, dropped) := sorted.prune
  let ordered ← pruned.sort
  return (ordered.classifyNodes, dropped)

def finish (types : Registry) (options : Options) (prepared : Graph × List String) :
    Result (Graph × Log) := do
  let (folded, log) ← foldConstants types options prepared.1
  return ((folded.assignNames options.interfaceKind).withClassification,
    (prepared.2.map fun path =>
      Log.warn s!"dropping node '{path}': not connected to any output") ++ log)

theorem build_eq (doc : Document) (lib : Library) (types : Registry) (options : Options)
    (walk : Network.Walk) : build doc lib types options walk =
      prepare doc lib types walk >>= finish types options := by
  simp only [build, prepare, finish, bind_assoc, pure_bind]

theorem prepare_agree (doc : Document) (lib : Library) (types : Registry) (walk walk' : Network.Walk) :
    Network.WalksAgree doc lib (prepare doc lib types walk) (prepare doc lib types walk') :=
  ((Network.ofDocument_agree doc lib walk walk').bind _).bind _

structure Prepared (doc : Document) (lib : Library) (types : Registry) (g : Graph) : Prop where
  closed : g.Closed
  acyclic : g.Acyclic
  sockets : List.Forall₂ (GraphInput.Declares types) doc.inputs g.inputSockets
  coherent : ∀ {D : Type} {I : Interpretation D}, I.Untyped ∨ lib.Converts →
    g.Coherent types I fun t => t.isClosure

theorem Closed.classifyNodes (closed : g.Closed) : g.classifyNodes.Closed := by
  have inside : ∀ s, g.Inside s → g.classifyNodes.Inside s := by
    intro s inside
    cases s with
    | socket k => exact inside
    | node id k => simpa [Inside, Graph.classifyNodes] using inside
  constructor
  · intro n member i input s read
    obtain ⟨m, old, rfl⟩ := mem_map.1 member
    exact inside s (closed.inputs m old i input s read)
  · exact fun s member source read => inside source (closed.outputSockets s member source read)

theorem Acyclic.classifyNodes (acyclic : g.Acyclic) : g.classifyNodes.Acyclic := by
  have feeds : ∀ a b, g.classifyNodes.Feeds a b → g.Feeds a b := by
    rintro a b ⟨n, found, reads⟩
    simp only [Graph.classifyNodes, List.getElem?_map, Option.map_eq_some_iff] at found
    obtain ⟨m, found, rfl⟩ := found
    exact ⟨m, found, reads⟩
  exact fun v cycle => acyclic v (Relation.TransGen.mono feeds v v cycle)

theorem Coherent.classifyNodes {D : Type} {I : Interpretation D} {opens : ShaderType → Prop}
    (coherent : g.Coherent types I opens) : g.classifyNodes.Coherent types I opens := by
  have suits : ∀ t s, g.Suits I opens t s → g.classifyNodes.Suits I opens t s := by
    intro t s suits id n o source found outputs
    simp only [Graph.classifyNodes, List.getElem?_map, Option.map_eq_some_iff] at found
    obtain ⟨m, found, rfl⟩ := found
    exact suits id m o source found outputs
  refine ⟨?_, ?_, ?_, ?_, ?_⟩
  · intro n member
    obtain ⟨m, old, rfl⟩ := mem_map.1 member
    exact coherent.inputTypes m old
  · intro n member
    obtain ⟨m, old, rfl⟩ := mem_map.1 member
    exact coherent.outputTypes m old
  · intro n member i input
    obtain ⟨m, old, rfl⟩ := mem_map.1 member
    exact suits i.type i.source (coherent.inputs m old i input)
  · intro n member
    obtain ⟨m, old, rfl⟩ := mem_map.1 member
    exact coherent.left m old
  · exact fun s member => suits s.type s.source (coherent.outputSockets s member)

theorem prepare_prepared (regular : ∀ t, types.Knows t → t.Regular) {dropped : List String}
    (run : prepare doc lib types = .ok (g, dropped)) : Prepared doc lib types g := by
  obtain ⟨bound, binding, run⟩ := Result.bind_ok.1 run
  obtain ⟨sorted, first, run⟩ := Result.bind_ok.1 run
  obtain ⟨order, found, rfl⟩ := sort_eq first
  -- The first sort has found an order, so there is no cycle.
  have closed := (bind_closed regular binding).retag order
  have acyclic : Acyclic { bound with order } := acyclic_of_order found
  have closed' := closed.prune
  have acyclic' := closed.prune_acyclic acyclic
  have declared : List.Forall₂ (GraphInput.Declares types) doc.inputs
      (prune { bound with order }).1.inputSockets := by
    have declared := bind_sockets regular binding
    rw [prune_eq_restrict]
    exact declared
  have coherent' : ∀ {D : Type} {I : Interpretation D}, I.Untyped ∨ lib.Converts →
      (prune { bound with order }).1.Coherent types I fun t => t.isClosure := by
    intro D I literals
    exact ((bind_coherent regular binding literals).retag order).prune closed
  obtain ⟨few, removed⟩ := prune { bound with order }
  obtain ⟨ordered, second, run⟩ := Result.bind_ok.1 run
  cases Result.pure_ok.1 run
  obtain ⟨order', _, rfl⟩ := sort_eq second
  refine ⟨(closed'.retag order').classifyNodes, Acyclic.classifyNodes acyclic', declared, ?_⟩
  intro D I literals
  exact ((coherent' literals).retag order').classifyNodes

def outputLabels (g : Graph) : List (String × ShaderType) :=
  g.outputSockets.map fun s => (s.name, s.type)

structure Preserves (types : Registry) (g h : Graph) : Prop where
  closed : h.Closed
  inputSockets : h.inputSockets = g.inputSockets
  outputLabels : h.outputLabels = g.outputLabels
  outputValues : ∀ {D : Type} [Inhabited D] {I : Interpretation D} {opens : ShaderType → Prop},
    I.Lawful types → g.Coherent types I opens → ∀ sockets,
      h.outputValues I sockets = g.outputValues I sockets

theorem stable_interface (types : Registry) (literalMath : Bool) (sockets : List InputSocket)
    (labels : List (String × ShaderType)) :
    Fold.Stable types literalMath fun g =>
      g.inputSockets = sockets ∧ g.outputLabels = labels := by
  rintro g id n r ⟨same, rfl⟩ _ _
  refine ⟨same, ?_⟩
  simp only [outputLabels, Fold.bypass_outputSockets, map_map]
  apply map_congr_left
  intro s _
  simp only [Function.comp_apply, Fold.rewireSocket]
  split <;> rfl

theorem prune_outputLabels (g : Graph) : g.prune.1.outputLabels = g.outputLabels := by
  rw [prune_eq_restrict]
  simp only [outputLabels, restrict, map_map]
  rfl

theorem run_prune_preserves (closed : g.Closed) (acyclic : g.Acyclic) (types : Registry)
    (literalMath : Bool) : g.Preserves types (Fold.run types literalMath g).1.prune.1 := by
  have kept := (Fold.stable_closed_acyclic types literalMath).run ⟨closed, acyclic⟩
  have interface := (stable_interface types literalMath _ _).run (g := g) ⟨rfl, rfl⟩
  refine ⟨kept.1.prune, (prune_inputSockets _).trans interface.1,
    (prune_outputLabels _).trans interface.2, ?_⟩
  intro D _ I opens lawful coherent sockets
  have solves := closed.evaluate_solves acyclic I sockets
  obtain ⟨_, solves', outputs⟩ :=
    (Fold.stable_coherent literalMath lawful opens sockets _ _).run ⟨coherent, solves, rfl⟩
  rw [kept.1.prune_outputValues kept.2 solves', outputs, outputValues]

theorem Preserves.sort {h sorted : Graph} (kept : g.Preserves types h)
    (ok : h.sort = .ok sorted) : g.Preserves types sorted := by
  have values := fun {D : Type} [Inhabited D] (I : Interpretation D) (sockets : Nat → D) =>
    sort_outputValues ok I sockets
  obtain ⟨order, _, rfl⟩ := sort_eq ok
  refine ⟨kept.closed.retag order, kept.inputSockets, kept.outputLabels, ?_⟩
  intro D _ I opens lawful coherent sockets
  rw [values I sockets, kept.outputValues lawful coherent sockets]

theorem foldConstants_preserves (closed : g.Closed) (acyclic : g.Acyclic) (types : Registry)
    (options : Options) :
    ∃ folded log, foldConstants types options g = .ok (folded, log) ∧ g.Preserves types folded := by
  have same : g.Preserves types g := ⟨closed, rfl, rfl, fun _ _ _ => rfl⟩
  unfold foldConstants
  split_ifs with on
  · generalize (options.interfaceKind == .reduced) = literalMath
    have pruned := run_prune_preserves closed acyclic types literalMath
    have kept := (Fold.stable_closed_acyclic types literalMath).run ⟨closed, acyclic⟩
    have idle := @Fold.run_eq_of_count_eq_zero g types literalMath
    generalize Fold.run types literalMath g = ran at pruned kept idle ⊢
    obtain ⟨folded, count⟩ := ran
    simp only at pruned kept idle ⊢
    split_ifs with none
    · exact ⟨g, [], by rw [idle none]; rfl, same⟩
    · obtain ⟨sorted, found⟩ := pruned.closed.exists_sort (kept.1.prune_acyclic kept.2)
      rw [found]
      exact ⟨sorted, _, rfl, pruned.sort found⟩
  · exact ⟨g, [], rfl, same⟩

theorem build_named (regular : ∀ t, types.Knows t → t.Regular) {options : Options} {log : Log}
    (run : build doc lib types options = .ok (g, log)) :
    ∃ folded : Graph, folded.Closed ∧
      List.Forall₂ (GraphInput.Declares types) doc.inputs folded.inputSockets ∧
      folded.order.Perm (List.range folded.nodes.length) ∧
      g = (folded.assignNames options.interfaceKind).withClassification := by
  obtain ⟨bound, order, ordered, folded, log', binding, second, third, rfl⟩ := build_ok run
  obtain ⟨order', found, rfl⟩ := sort_eq second
  have closed := (((bind_closed regular binding).retag order).prune.retag order').classifyNodes
  obtain ⟨_, _, same, kept⟩ :=
    foldConstants_preserves closed (Acyclic.classifyNodes (acyclic_of_order found)) types options
  cases third.symm.trans same
  refine ⟨folded, kept.closed, ?_, ?_, rfl⟩
  · have declared := bind_sockets regular binding
    rw [kept.inputSockets, classifyNodes, prune_inputSockets]
    exact declared
  · obtain rfl | ok := foldConstants_ok third
    · simpa [classifyNodes] using Dependency.sort_perm found
    · obtain ⟨_, found, rfl⟩ := sort_eq ok
      exact Dependency.sort_perm found

theorem Prepared.finish (prepared : Prepared doc lib types g) (dropped : List String)
    (options : Options) :
    ∃ final log, finish types options (g, dropped) = .ok (final, log) ∧
      final.outputLabels = g.outputLabels ∧
      (∃ added, final.inputSockets = g.inputSockets ++ added) ∧
      ∀ (D : Type) [Inhabited D] (I : Interpretation D), I.Lawful types →
        I.Untyped ∨ lib.Converts → ∀ assigned : Nat → D,
          final.outputValues I (I.socketValues doc.inputs.length assigned final.inputSockets) =
            g.outputValues I (I.socketValues doc.inputs.length assigned g.inputSockets) := by
  obtain ⟨folded, log, run, kept⟩ :=
    foldConstants_preserves prepared.closed prepared.acyclic types options
  have late : doc.inputs.length ≤ folded.inputSockets.length := by
    rw [kept.inputSockets, prepared.sockets.length_eq]
  refine ⟨(folded.assignNames options.interfaceKind).withClassification, _,
    by rw [Graph.finish, run]; rfl, kept.outputLabels, ?_, ?_⟩
  · -- Any interpretation shows how the sockets grow.
    have restated : folded.Restated (.ofValues types) doc.inputs.length (fun _ => default) _
        (folded.assignNames options.interfaceKind).nodes :=
      kept.closed.assignNames_restated late options.interfaceKind
    rw [← kept.inputSockets]
    exact restated.grown
  · intro D _ I lawful literals assigned
    calc
      _ = folded.outputValues I (I.socketValues doc.inputs.length assigned folded.inputSockets) :=
          kept.closed.assignNames_outputValues late options.interfaceKind I assigned
      _ = _ := by
          rw [kept.inputSockets]
          exact kept.outputValues lawful (prepared.coherent literals) _

end

end Graph

/-- Under any two options a document is refused with the same failure, or it gives two graphs with
the same output sockets, whose input sockets start with the document's inputs. Whatever the nodes do
within the laws of folding, and whatever the document's inputs are, the output sockets have the same
values if every other input socket has its own default. All this holds whatever the orders are in
which bindings are looked at; of several that lead too deep at one node the failures may name
different ones if the orders differ. -/
theorem build_options_agree (doc : Document) (lib : Library) (o₁ o₂ : Options)
    (walk₁ walk₂ : Network.Walk) :
    (∃ f₁ f₂, Graph.build doc lib .standard o₁ walk₁ = .error f₁ ∧
      Graph.build doc lib .standard o₂ walk₂ = .error f₂ ∧ Network.FailAlike doc lib f₁ f₂ ∧
      (walk₁ = walk₂ → f₁ = f₂)) ∨
    ∃ g₁ log₁ g₂ log₂, Graph.build doc lib .standard o₁ walk₁ = .ok (g₁, log₁) ∧
      Graph.build doc lib .standard o₂ walk₂ = .ok (g₂, log₂) ∧
      g₁.outputLabels = g₂.outputLabels ∧
      (∃ sockets added₁ added₂, List.Forall₂ (GraphInput.Declares .standard) doc.inputs sockets ∧
        g₁.inputSockets = sockets ++ added₁ ∧ g₂.inputSockets = sockets ++ added₂) ∧
      ∀ (D : Type) [Inhabited D] (I : Interpretation D), I.Lawful .standard →
        I.Untyped ∨ lib.Converts → ∀ assigned : Nat → D,
          g₁.outputValues I (I.socketValues doc.inputs.length assigned g₁.inputSockets) =
            g₂.outputValues I (I.socketValues doc.inputs.length assigned g₂.inputSockets) := by
  have agree := Graph.prepare_agree doc lib .standard walk₁ walk₂
  rw [Graph.build_eq, Graph.build_eq]
  cases run₁ : Graph.prepare doc lib .standard walk₁ with
  | error f₁ =>
    rw [run₁] at agree
    generalize run₂ : Graph.prepare doc lib .standard walk₂ = result at agree
    cases agree with
    | error alike =>
      refine .inl ⟨f₁, _, rfl, rfl, alike, ?_⟩
      rintro rfl
      exact Except.error.inj (run₁.symm.trans run₂)
  | ok result =>
    rw [agree.eq_of_ok run₁]
    obtain ⟨g, dropped⟩ := result
    have prepared := Graph.prepare_prepared (fun _ known => Registry.find?_standard_regular known)
      ((Graph.prepare_agree doc lib .standard walk₁ .listed).eq_of_ok run₁)
    obtain ⟨g₁, log₁, run₁, labels₁, ⟨added₁, sockets₁⟩, values₁⟩ := prepared.finish dropped o₁
    obtain ⟨g₂, log₂, run₂, labels₂, ⟨added₂, sockets₂⟩, values₂⟩ := prepared.finish dropped o₂
    refine .inr ⟨g₁, log₁, g₂, log₂, run₁, run₂, labels₁.trans labels₂.symm,
      ⟨g.inputSockets, added₁, added₂, prepared.sockets, sockets₁, sockets₂⟩, ?_⟩
    intro D _ I lawful literals assigned
    rw [values₁ D I lawful literals assigned, values₂ D I lawful literals assigned]

/-- A sum of an input and of a constant of another type. -/
def tintedSum : Document where
  version := "1"
  metadata := ⟨"tinted", none, none⟩
  inputs := [⟨"tint", "vector3", none⟩]
  nodes :=
    [⟨"sum", "add", "vector3", none, [], [("in1", "tint")], []⟩,
     ⟨"base", "constant", "float", none, [], [], []⟩]
  connections := [⟨"c", ⟨"base", "out"⟩, ⟨"sum", "in2"⟩⟩]
  outputs := [⟨"out", "vector3", ⟨"sum", "out"⟩⟩]
  nodegraphs := []

/-- Without folding there are three nodes and the constant is published; with folding and literal
arithmetic one node is left, and no socket but the document's. -/
theorem build_options_agree_tintedSum :
    ∃ g₁ log₁ g₂ log₂,
      Graph.build tintedSum sumLibrary .standard { constantFolding := false } = .ok (g₁, log₁) ∧
      Graph.build tintedSum sumLibrary .standard { interfaceKind := .reduced } = .ok (g₂, log₂) ∧
      (g₁.nodes.length, g₁.inputSockets.length) = (3, 2) ∧
      (g₂.nodes.length, g₂.inputSockets.length) = (1, 1) ∧
      (Interpretation.ofValues .standard).Lawful .standard ∧
      (Interpretation.ofValues .standard).Untyped ∧
      ∀ assigned : Nat → Value,
        g₁.outputValues (.ofValues .standard)
            ((Interpretation.ofValues .standard).socketValues 1 assigned g₁.inputSockets) =
          g₂.outputValues (.ofValues .standard)
            ((Interpretation.ofValues .standard).socketValues 1 assigned g₂.inputSockets) := by
  have sizes :
      ((Graph.build tintedSum sumLibrary .standard { constantFolding := false }).toOption.map
        fun p => (p.1.nodes.length, p.1.inputSockets.length)) = some (3, 2) ∧
      ((Graph.build tintedSum sumLibrary .standard { interfaceKind := .reduced }).toOption.map
        fun p => (p.1.nodes.length, p.1.inputSockets.length)) = some (1, 1) := by
    decide
  have untyped : (Interpretation.ofValues .standard).Untyped := fun _ _ _ => rfl
  obtain ⟨f, _, refused, _⟩ | ⟨g₁, log₁, g₂, log₂, run₁, run₂, _, _, values⟩ :=
    build_options_agree tintedSum sumLibrary { constantFolding := false }
      { interfaceKind := .reduced } .listed .listed
  · rw [refused] at sizes
    cases sizes.1
  · rw [run₁, run₂] at sizes
    exact ⟨g₁, log₁, g₂, log₂, run₁, run₂, Option.some.inj sizes.1, Option.some.inj sizes.2,
      ofValues_lawful .standard, untyped,
      values Value (.ofValues .standard) (ofValues_lawful .standard) (.inl untyped)⟩

end MaterialShader
