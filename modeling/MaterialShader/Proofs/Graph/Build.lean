import MaterialShader.Proofs.Builder.Graph
import MaterialShader.Proofs.Graph.Naming

/-!
The graph that a document is built into:
-/

namespace MaterialShader

open List Result

namespace Graph

structure Built (types : Registry) (lib : Library) (g : Graph) : Prop where
  order_perm : g.order.Perm (List.range g.nodes.length)
  order_forward : ∀ a b, g.Feeds a b → g.order.idxOf a < g.order.idxOf b
  typed : g.WellTyped types
  fits : g.Fits
  stems : ∀ n ∈ g.nodes, n.Stems lib
  used : ∀ id < g.nodes.length, g.Used id

theorem sort_eq {g sorted : Graph} (ok : g.sort = .ok sorted) :
    ∃ order, Dependency.sort g.nodes.length g.edges = .ok order ∧ sorted = { g with order } := by
  unfold sort at ok
  split at ok
  · rename_i order found
    cases ok
    exact ⟨order, found, rfl⟩
  · cases ok

section

variable {types : Registry} {lib : Library} {g g' : Graph} {options : Options} {log : Log}

theorem foldConstants_ok (run : foldConstants types options g = .ok (g', log)) :
    g' = g ∨ (Fold.run types (options.interfaceKind == .reduced) g).1.prune.1.sort = .ok g' := by
  unfold foldConstants at run
  split_ifs at run with on
  · dsimp only at run
    split_ifs at run with idle
    · cases pure_ok.1 run
      exact .inl (Fold.run_eq_of_count_eq_zero idle)
    · obtain ⟨sorted, ok, last⟩ := bind_ok.1 run
      cases pure_ok.1 last
      exact .inr ok
  · cases run
    exact .inl rfl

theorem build_ok {doc : Document} (run : build doc lib types options = .ok (g, log)) :
    ∃ bound order ordered folded log', bind doc lib types = .ok bound ∧
      (prune { bound with order }).1.sort = .ok ordered ∧
      foldConstants types options ordered.classifyNodes = .ok (folded, log') ∧
      g = (folded.assignNames options.interfaceKind).withClassification := by
  obtain ⟨bound, binding, run⟩ := bind_ok.1 run
  obtain ⟨sorted, first, run⟩ := bind_ok.1 run
  obtain ⟨order, _, rfl⟩ := sort_eq first
  obtain ⟨ordered, second, run⟩ := bind_ok.1 run
  obtain ⟨⟨folded, log'⟩, third, run⟩ := bind_ok.1 run
  cases pure_ok.1 run
  exact ⟨bound, order, ordered, folded, log', binding, second, third, rfl⟩

theorem WellTyped.retag (typed : g.WellTyped types) (order : List NodeId)
    (classification : Classification) : WellTyped types { g with order, classification } :=
  ⟨typed.inputs, typed.outputs, typed.inputSockets, typed.outputSockets⟩

theorem Fits.retag (fits : g.Fits) (order : List NodeId) (classification : Classification) :
    Fits { g with order, classification } :=
  ⟨fits.inputs, fits.inputSockets, fits.outputSockets⟩

theorem Built.keep (built : g.Built types lib) (keeps : Keeps types lib g g')
    (order : g'.order = g.order) : g'.Built types lib := by
  have edges : g'.edges = g.edges := edgesFrom_congr 0 keeps.reads
  have length : g'.nodes.length = g.nodes.length := by
    simpa using congrArg List.length keeps.reads
  have roots : g'.roots = g.roots := by simp only [roots, keeps.outputSockets]
  refine ⟨by rw [order, length]; exact built.order_perm, ?_, keeps.typed, keeps.fits,
    keeps.stems, ?_⟩
  · intro a b feeds
    rw [order]
    exact built.order_forward a b (mem_edges.1 (edges ▸ mem_edges.2 feeds))
  · intro id inside
    have used := built.used id (length ▸ inside)
    rwa [Used, edges, roots, length]

theorem sort_built (typed : g.WellTyped types) (fits : g.Fits) (stems : ∀ n ∈ g.nodes, n.Stems lib)
    (used : ∀ id < g.nodes.length, g.Used id) (ok : g.sort = .ok g') : g'.Built types lib := by
  obtain ⟨order, found, rfl⟩ := sort_eq ok
  exact ⟨Dependency.sort_perm found, fun _ _ feeds => order_forward found feeds,
    typed.retag _ _, fits.retag _ _, stems, used⟩

theorem prune_sort_built (typed : g.WellTyped types) (fits : g.Fits)
    (stems : ∀ n ∈ g.nodes, n.Stems lib) (ok : g.prune.1.sort = .ok g') : g'.Built types lib :=
  sort_built (prune_wellTyped typed) (prune_fits fits) (prune_stems stems)
    (fun _ inside => prune_used typed inside) ok

theorem classifyNodes_keeps (built : g.Built types lib) : Keeps types lib g g.classifyNodes := by
  have carries : ∀ t s, g.Carries t s → g.classifyNodes.Carries t s := by
    intro t s carried source read
    cases source with
    | socket k => exact carried _ read
    | node id k =>
      obtain ⟨n, o, found, at_k, rfl⟩ := sourceType?_node (carried _ read)
      simp [sourceType?, output?, classifyNodes, found, at_k]
  refine ⟨⟨?_, ?_, built.typed.inputSockets, ?_⟩,
    ⟨?_, built.fits.inputSockets, built.fits.outputSockets⟩, ?_, ?_, rfl⟩
  · intro n member i input
    obtain ⟨m, old, rfl⟩ := mem_map.1 member
    exact ⟨(built.typed.inputs m old i input).1, carries _ _ (built.typed.inputs m old i input).2⟩
  · intro n member
    obtain ⟨m, old, rfl⟩ := mem_map.1 member
    exact built.typed.outputs m old
  · intro s member
    obtain ⟨known, carried⟩ := built.typed.outputSockets s member
    exact ⟨known, carries _ _ carried⟩
  · intro n member
    obtain ⟨m, old, rfl⟩ := mem_map.1 member
    exact built.fits.inputs m old
  · intro n member
    obtain ⟨m, old, rfl⟩ := mem_map.1 member
    exact (built.stems m old).of_same rfl rfl rfl rfl
  · simp only [classifyNodes, map_map]
    rfl

theorem foldConstants_built (built : g.Built types lib)
    (run : foldConstants types options g = .ok (g', log)) : g'.Built types lib := by
  obtain rfl | ok := foldConstants_ok run
  · exact built
  · have kept := (Fold.stable_fits types (options.interfaceKind == .reduced) lib).run
      ⟨built.typed, built.fits, built.stems⟩
    exact prune_sort_built kept.1 kept.2.1 kept.2.2 ok

theorem Built.mem_before (built : g.Built types lib) {before after : List NodeId} {a id : NodeId}
    (split : g.order = before ++ id :: after) (feeds : g.Feeds a id) : a ∈ before := by
  have member : a ∈ g.order :=
    built.order_perm.mem_iff.2 (mem_range.2 (built.typed.feeder_lt feeds))
  have nodup : g.order.Nodup := built.order_perm.nodup_iff.2 nodup_range
  have not_later := Dependency.not_mem_suffix split nodup (built.order_forward a id feeds)
  rw [split] at member
  exact (mem_append.1 member).resolve_right not_later

theorem build_built {doc : Document} (regular : ∀ t, types.Knows t → t.Regular)
    (converts : lib.Converts) (run : build doc lib types options = .ok (g, log)) :
    g.Built types lib := by
  obtain ⟨bound, order, ordered, folded, _, binding, second, third, rfl⟩ := build_ok run
  obtain ⟨typed, fits, stems⟩ := bind_sound regular converts binding
  have sorted := prune_sort_built (typed.retag order _) (fits.retag order _) stems second
  have done := foldConstants_built (sorted.keep (classifyNodes_keeps sorted) rfl) third
  have named := done.keep
    (assignNames_keeps done.typed done.fits done.stems options.interfaceKind) rfl
  exact ⟨named.order_perm, named.order_forward, named.typed.retag _ _, named.fits.retag _ _,
    named.stems, named.used⟩

def sources (g : Graph) : List Source :=
  (g.nodes.flatMap GraphNode.inputs).filterMap Input.source ++
    g.outputSockets.filterMap OutputSocket.source

def Holds (g : Graph) : Source → Prop
  | .node id k => ∃ n, g.nodes[id]? = some n ∧ k < n.outputs.length
  | .socket k => k < g.inputSockets.length

theorem holds_of_sourceType? {s : Source} {t : ShaderType} (typed : g.sourceType? s = some t) :
    g.Holds s := by
  cases s with
  | node id k =>
    obtain ⟨n, o, found, at_k, _⟩ := sourceType?_node typed
    exact ⟨n, found, lt_of_getElem? at_k⟩
  | socket k =>
    obtain ⟨s, at_k, _⟩ := Option.map_eq_some_iff.1 typed
    exact lt_of_getElem? at_k

theorem WellTyped.holds (typed : g.WellTyped types) {s : Source} (read : s ∈ g.sources) :
    g.Holds s := by
  obtain read | read := mem_append.1 read
  · obtain ⟨i, input, source⟩ := mem_filterMap.1 read
    obtain ⟨n, member, input⟩ := mem_flatMap.1 input
    exact holds_of_sourceType? ((typed.inputs n member i input).2 s source)
  · obtain ⟨o, socket, source⟩ := mem_filterMap.1 read
    exact holds_of_sourceType? ((typed.outputSockets o socket).2 s source)

end

end Graph

/-- In the graph of a document every node comes once and behind all that it reads, connections lead
to something of their type, literals fit, static inputs are literals, and every node is used. -/
theorem build_wellFormed {doc : Document} {lib : Library} {options : Options} {g : Graph}
    {log : Log} (converts : lib.Converts)
    (run : Graph.build doc lib .standard options = .ok (g, log)) :
    g.order.Perm (List.range g.nodes.length) ∧
    (∀ before id after, g.order = before ++ id :: after → ∀ a, g.Feeds a id → a ∈ before) ∧
    (∀ s ∈ g.sources, g.Holds s) ∧ g.WellTyped .standard ∧ g.Fits ∧
    ∀ id < g.nodes.length, g.Used id := by
  have built := Graph.build_built (fun _ known => Registry.find?_standard_regular known) converts
    run
  exact ⟨built.order_perm, fun _ _ _ split _ feeds => built.mem_before split feeds,
    fun _ read => built.typed.holds read, built.typed, built.fits, built.used⟩

def sumLibrary : Library where
  definitions :=
    [⟨"constant_float", "constant", none, [⟨"value", "float", some (.int 1), none, false⟩],
      [⟨"out", "float", none, none, false⟩]⟩,
     ⟨"convert_vector3", "convert", none, [⟨"in", "any", none, none, false⟩],
      [⟨"out", "vector3", none, none, false⟩]⟩,
     ⟨"add_vector3", "add", none,
      [⟨"in1", "vector3", none, none, false⟩, ⟨"in2", "vector3", none, none, false⟩],
      [⟨"out", "vector3", none, none, false⟩]⟩]
  implementations := []
  nodegraphs := []

/-- A constant is read twice, by a node that comes before it, as a value of another type. -/
def sumDocument : Document where
  version := "1"
  metadata := ⟨"sum", none, none⟩
  inputs := []
  nodes :=
    [⟨"sum", "add", "vector3", none, [], [], []⟩, ⟨"base", "constant", "float", none, [], [], []⟩]
  connections := [⟨"c", ⟨"base", "out"⟩, ⟨"sum", "in1"⟩⟩, ⟨"d", ⟨"base", "out"⟩, ⟨"sum", "in2"⟩⟩]
  outputs := [⟨"out", "vector3", ⟨"sum", "out"⟩⟩]
  nodegraphs := []

theorem sumLibrary_converts : sumLibrary.Converts := by
  intro name d found
  obtain ⟨member, named⟩ := Library.definition?_eq_some.1 found
  have letters := congrArg String.toList named
  simp only [sumLibrary, mem_cons, not_mem_nil, or_false] at member
  obtain rfl | rfl | rfl := member
  · simp at letters
  · refine ⟨_, rfl, String.toList_inj.1 ?_⟩
    simpa using letters
  · simp at letters

theorem build_wellFormed_sum :
    sumLibrary.Converts ∧ ∃ g log, Graph.build sumDocument sumLibrary .standard {} = .ok (g, log) ∧
      g.order.Perm (List.range g.nodes.length) ∧
      (∀ before id after, g.order = before ++ id :: after → ∀ a, g.Feeds a id → a ∈ before) ∧
      (∀ s ∈ g.sources, g.Holds s) ∧ g.WellTyped .standard ∧ g.Fits ∧
      ∀ id < g.nodes.length, g.Used id := by
  have builds : (Graph.build sumDocument sumLibrary .standard {}).toOption.isSome := by
    decide
  obtain ⟨⟨g, log⟩, found⟩ := Option.isSome_iff_exists.1 builds
  have run := Result.toOption_eq_some.1 found
  exact ⟨sumLibrary_converts, g, log, run, build_wellFormed sumLibrary_converts run⟩

namespace GraphNode

theorem classify_eq (n : GraphNode) :
    n.classify = .ofList (flagsOfCategory n.category ++ n.outputTypes.flatMap flagsOfType) := by
  simp only [classify, outputTypes, flatMap_map]

structure Settled (n : GraphNode) : Prop where
  classified : n.classification = n.classify
  /-- An input with neither source nor literal is a closure. -/
  open_ : ∀ i ∈ n.inputs, i.source = none → i.value = none → i.type.isClosure

theorem Settled.of_same {n m : GraphNode} (settled : n.Settled)
    (classification : m.classification = n.classification) (category : m.category = n.category)
    (outputs : m.outputTypes = n.outputTypes)
    (inputs : ∀ i ∈ m.inputs, i.source = none → i.value = none → i.type.isClosure) : m.Settled where
  classified := by
    rw [classification, settled.classified, classify_eq, classify_eq, category, outputs]
  open_ := inputs

end GraphNode

namespace Fold

theorem stable_settled (types : Registry) (literalMath : Bool) :
    Stable types literalMath fun g => g.WellTyped types ∧ ∀ n ∈ g.nodes, n.Settled := by
  rintro g id n r ⟨typed, settled⟩ found folds
  have opens : ∀ m ∈ (bypass g id r).nodes, ∀ i ∈ m.inputs, i.source = none → i.value = none →
      i.type.isClosure := by
    refine forall_inputs_bypass (fun m member i input _ => (settled m member).open_ i input) ?_
    -- A replacement with neither source nor literal stands for a closure.
    intro m member i input reads source value
    have carries := (typed.inputs m member i input).2
    rw [reads] at carries
    obtain ⟨j, listed, type, rfl⟩ | ⟨w, _, rfl⟩ := replacement_typed found folds typed carries
    · exact type ▸ (settled n (mem_of_getElem? found)).open_ j listed source value
    · cases value
  refine ⟨bypass_wellTyped found folds typed, fun m' member => ?_⟩
  obtain ⟨m, old, rfl⟩ := mem_map.1 member
  exact (settled m old).of_same rfl rfl rfl (opens _ member)

end Fold

namespace Graph

variable {g : Graph} {types : Registry}

theorem prune_open
    (opens : ∀ n ∈ g.nodes, ∀ i ∈ n.inputs, i.source = none → i.value = none → i.type.isClosure) :
    ∀ n ∈ g.prune.1.nodes, ∀ i ∈ n.inputs, i.source = none →
      i.value = none → i.type.isClosure := by
  refine forall_inputs_prune fun _ n _ found i input source => ?_
  exact opens n (mem_of_getElem? found) i input (renumberSource_eq_none.1 source)

theorem prune_settled (settled : ∀ n ∈ g.nodes, n.Settled) : ∀ n ∈ g.prune.1.nodes, n.Settled := by
  have classified : ∀ n ∈ g.prune.1.nodes, n.classification = n.classify :=
    forall_nodes_prune fun _ n _ found => (settled n (mem_of_getElem? found)).classified
  have opens := prune_open fun n member => (settled n member).open_
  exact fun n member => ⟨classified n member, opens n member⟩

theorem assignNames_settled (settled : ∀ n ∈ g.nodes, n.Settled) (kind : InterfaceKind) :
    ∀ n ∈ (g.assignNames kind).nodes, n.Settled := by
  refine assignNames_induct (P := fun g => ∀ n ∈ g.nodes, n.Settled) ?_ ?_ settled
  · intro g id n table settled found m member
    have old := settled n (mem_of_getElem? found)
    obtain other | rfl := mem_replaced member
    · exact settled m other
    · have types := nameOutputs_types (table.reserve (Text.sanitize n.path)).1
        (table.reserve (Text.sanitize n.path)).2 n.outputs
      have names := congrArg (List.map ShaderType.name) types
      rw [map_map, map_map] at names
      exact old.of_same rfl rfl names old.open_
  · intro g id n inputs added settled found published m member
    have old := settled n (mem_of_getElem? found)
    obtain other | rfl := mem_replaced member
    · exact settled m other
    · refine old.of_same rfl rfl rfl fun i' input source value => ?_
      obtain input | ⟨_, _, _, _, _, _, _, rfl⟩ := published.mem input
      · exact old.open_ i' input source value
      · cases source

theorem foldConstants_settled {options : Options} {g' : Graph} {log : Log}
    (typed : g.WellTyped types) (settled : ∀ n ∈ g.nodes, n.Settled)
    (run : foldConstants types options g = .ok (g', log)) : ∀ n ∈ g'.nodes, n.Settled := by
  obtain rfl | ok := foldConstants_ok run
  · exact settled
  · have kept := (Fold.stable_settled types (options.interfaceKind == .reduced)).run
      ⟨typed, settled⟩
    obtain ⟨order, _, rfl⟩ := sort_eq ok
    exact prune_settled kept.2

theorem bind_open {doc : Document} {lib : Library} (regular : ∀ t, types.Knows t → t.Regular)
    (run : bind doc lib types = .ok g) :
    ∀ n ∈ g.nodes, ∀ i ∈ n.inputs, i.source = none → i.value = none → i.type.isClosure := by
  obtain ⟨b, ⟨sound, _, _⟩, shape⟩ := bind_ends regular run
  rw [shape]
  exact fun n member i input => (sound.inputs n member i input).closed

theorem build_settled {doc : Document} {lib : Library} {options : Options} {log : Log}
    (regular : ∀ t, types.Knows t → t.Regular) (converts : lib.Converts)
    (run : build doc lib types options = .ok (g, log)) : ∀ n ∈ g.nodes, n.Settled := by
  obtain ⟨bound, order, ordered, folded, _, binding, second, third, rfl⟩ := build_ok run
  obtain ⟨typed, fits, stems⟩ := bind_sound regular converts binding
  have opens := bind_open regular binding
  have pruned := prune_open (g := { bound with order }) opens
  have sorted := prune_sort_built (typed.retag order _) (fits.retag order _) stems second
  obtain ⟨order', _, rfl⟩ := sort_eq second
  have classified :
      ∀ n ∈ (classifyNodes { (prune { bound with order }).1 with order := order' }).nodes,
        n.Settled := by
    intro n member
    obtain ⟨m, old, rfl⟩ := mem_map.1 member
    exact ⟨rfl, pruned m old⟩
  have typed' := (classifyNodes_keeps sorted).typed
  exact assignNames_settled (foldConstants_settled typed' classified third) options.interfaceKind

end Graph

end MaterialShader
