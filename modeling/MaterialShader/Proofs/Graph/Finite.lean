import MaterialShader.Proofs.Graph.FoldNormal
import MaterialShader.Proofs.Graph.Options
import MaterialShader.Proofs.Value.Finite

/-!
Finite literals of built graphs.
-/

namespace MaterialShader

open List
open Numeric

namespace Fold

inductive Reaches (types : Registry) (literalMath : Bool) (g : Graph) : Graph → Prop where
  | start : Reaches types literalMath g g
  | step {h : Graph} {id : NodeId} {n : GraphNode} {r : Replacement} :
      Reaches types literalMath g h → h.nodes[id]? = some n →
      replacement? types literalMath n = some r → Reaches types literalMath g (bypass h id r)

end Fold

def GraphNode.Overflows (n : GraphNode) : Prop :=
  ∃ op xs ys, Fold.Operator.ofCategory? n.category = some op ∧
    n.literal? "in1" >>= Value.components? = some xs ∧
    n.literal? "in2" >>= Value.components? = some ys ∧ op.Overflows xs ys

namespace Graph

def Computes (doc : Document) (lib : Library) (types : Registry) (options : Options)
    (n : GraphNode) (w : Value) : Prop :=
  options.constantFolding = true ∧ options.interfaceKind = .reduced ∧
    ∃ start dropped h t, prepare doc lib types = .ok (start, dropped) ∧
      Fold.Reaches types true start h ∧ n ∈ h.nodes ∧ Fold.Computes types n t w

/-- Literals out of range: read from a number beyond the limit, or computed by a node that overflows
or that has such a literal. -/
inductive OutOfRange (doc : Document) (lib : Library) (types : Registry) (options : Options) :
    Value → Prop where
  | read {j : Json} {t : ShaderType} {v : Value} {d : Double} :
      j ∈ doc.literals ++ lib.literals → Value.ofJson j t = .ok v → d ∈ j.numbers → d.Exceeds →
      OutOfRange doc lib types options v
  | computed {n : GraphNode} {w : Value} : Computes doc lib types options n w → n.Overflows →
      OutOfRange doc lib types options w
  | passed {n : GraphNode} {i : Input} {v w : Value} : Computes doc lib types options n w →
      i ∈ n.inputs → i.value = some v → OutOfRange doc lib types options v →
      OutOfRange doc lib types options w

section

variable {P : Value → Prop} {g : Graph}

theorem Literals.mono {Q : Value → Prop} (weaker : ∀ v, P v → Q v) (holds : g.Literals P) :
    g.Literals Q where
  inputs n member i input v value := weaker v (holds.inputs n member i input v value)
  inputSockets s member v value := weaker v (holds.inputSockets s member v value)
  outputSockets s member v value := weaker v (holds.outputSockets s member v value)

theorem Literals.retag (holds : g.Literals P) (order : List NodeId)
    (classification : Classification) : Literals P { g with order, classification } :=
  ⟨holds.inputs, holds.inputSockets, holds.outputSockets⟩

theorem Literals.sort (holds : g.Literals P) {sorted : Graph} (ok : g.sort = .ok sorted) :
    sorted.Literals P := by
  obtain ⟨order, _, rfl⟩ := sort_eq ok
  exact holds.retag order _

theorem Literals.classifyNodes (holds : g.Literals P) : g.classifyNodes.Literals P := by
  refine ⟨fun m member => ?_, holds.inputSockets, holds.outputSockets⟩
  obtain ⟨n, old, rfl⟩ := mem_map.1 member
  exact holds.inputs n old

theorem Literals.prune (holds : g.Literals P) : g.prune.1.Literals P :=
  ⟨forall_inputs_prune fun _ n _ found => holds.inputs n (mem_of_getElem? found),
    by simpa using holds.inputSockets, forall_sockets_prune holds.outputSockets⟩

theorem Literals.replaced (holds : g.Literals P) (id : NodeId) {n : GraphNode}
    (inputs : ∀ i ∈ n.inputs, ∀ v ∈ i.value, P v) {added : List InputSocket}
    (sockets : ∀ s ∈ added, ∀ v ∈ s.value, P v) : (g.replaced id n added).Literals P := by
  refine ⟨fun m member => ?_, fun s member => ?_, holds.outputSockets⟩
  · obtain old | rfl := mem_or_eq_of_mem_set member
    · exact holds.inputs m old
    · exact inputs
  · obtain old | new := mem_append.1 member
    · exact holds.inputSockets s old
    · exact sockets s new

theorem Published.literals {kind : InterfaceKind} {sockets sockets' : List InputSocket}
    {inputs inputs' : List Input} (published : Published kind sockets inputs sockets' inputs')
    (old : ∀ i ∈ inputs, ∀ v ∈ i.value, P v) :
    (∀ i ∈ inputs', ∀ v ∈ i.value, P v) ∧
      ∃ added, sockets' = sockets ++ added ∧ ∀ s ∈ added, ∀ v ∈ s.value, P v := by
  induction published with
  | nil sockets => exact ⟨old, [], by simp, by simp⟩
  | socket sockets i name rest sockets' rest' _ _ ih =>
    obtain ⟨here, others⟩ := forall_mem_cons.1 old
    obtain ⟨later, added, rfl, new⟩ := ih others
    refine ⟨forall_mem_cons.2 ⟨here, later⟩, ⟨name, i.type, i.value, i.path⟩ :: added, ?_⟩
    exact ⟨by simp, forall_mem_cons.2 ⟨here, new⟩⟩
  | keep sockets i rest sockets' rest' _ ih =>
    obtain ⟨here, others⟩ := forall_mem_cons.1 old
    obtain ⟨later, added⟩ := ih others
    exact ⟨forall_mem_cons.2 ⟨here, later⟩, added⟩

theorem Literals.assignNames (holds : g.Literals P) (kind : InterfaceKind) :
    (g.assignNames kind).Literals P := by
  refine assignNames_induct (P := Literals P) (fun h id n table holds found => ?_)
    (fun h id n inputs added holds found published => ?_) holds
  · refine holds.replaced id ?_ fun _ impossible => nomatch impossible
    exact holds.inputs n (mem_of_getElem? found)
  · obtain ⟨inputs', added', same, new⟩ :=
      published.literals (holds.inputs n (mem_of_getElem? found))
    obtain rfl := append_cancel_left same
    exact holds.replaced id inputs' new

theorem Literals.bypass (holds : g.Literals P) (id : NodeId) {r : Replacement}
    (new : ∀ v ∈ r.value, P v) : (Fold.bypass g id r).Literals P :=
  ⟨Fold.forall_inputs_bypass (fun m member i input _ => holds.inputs m member i input)
      fun _ _ _ _ _ => new, holds.inputSockets,
    Fold.forall_sockets_bypass (fun s member _ => holds.outputSockets s member) fun _ _ _ => new⟩

theorem Literals.literal (holds : g.Literals P) {n : GraphNode} (member : n ∈ g.nodes)
    {name : String} {v : Value} (literal : n.literal? name = some v) : P v := by
  obtain ⟨i, input, _, value⟩ := GraphNode.literal?_eq_some.1 literal
  exact holds.inputs n member i (GraphNode.mem_of_input? input) v value

end

section

variable {doc : Document} {lib : Library} {types : Registry} {options : Options} {g start : Graph}
  {dropped : List String} {v w : Value}

theorem ofJson_bounded_or {j : Json} {t : ShaderType}
    (written : j ∈ written doc lib)
    (run : Value.ofJson j t = .ok v) : v.Bounded ∨ OutOfRange doc lib types options v := by
  by_cases inside : ∀ d ∈ j.numbers, ¬ d.Exceeds
  · exact .inl (Value.ofJson_bounded inside run)
  · simp only [not_forall, not_not] at inside
    obtain ⟨d, number, exceeds⟩ := inside
    obtain written | geometric := mem_append.1 written
    · exact .inr (.read written run number exceeds)
    · refine absurd exceeds ?_
      have small : ∀ j ∈ Builder.geometryLiterals, ∀ d ∈ j.numbers, d.toSingle.isFinite := by
        decide
      exact d.isFinite_toSingle.1 (small j geometric d number)

theorem prepare_literals (options : Options) (run : prepare doc lib types = .ok (start, dropped)) :
    start.Literals fun v => v.Bounded ∨ OutOfRange doc lib types options v := by
  obtain ⟨bound, binding, run⟩ := Result.bind_ok.1 run
  obtain ⟨sorted, first, run⟩ := Result.bind_ok.1 run
  obtain ⟨ordered, second, run⟩ := Result.bind_ok.1 run
  cases Result.pure_ok.1 run
  have holds : bound.Literals fun v => v.Bounded ∨ OutOfRange doc lib types options v :=
    bind_literals (fun j written t v read => ofJson_bounded_or written read) binding
  exact (((holds.sort first).prune).sort second).classifyNodes

theorem Computes.bounded_or {n : GraphNode} {t : ShaderType}
    (computes : Computes doc lib types options n w) (folds : Fold.Computes types n t w)
    (operand : ∀ name v, n.literal? name = some v →
      v.Bounded ∨ OutOfRange doc lib types options v) :
    w.Bounded ∨ OutOfRange doc lib types options w := by
  have passes : ∀ {name v}, n.literal? name = some v → OutOfRange doc lib types options v →
      OutOfRange doc lib types options w := by
    intro name v literal beyond
    obtain ⟨i, input, _, value⟩ := GraphNode.literal?_eq_some.1 literal
    exact .passed computes (GraphNode.mem_of_input? input) value beyond
  cases folds with
  | convert i v c _ _ _ literal _ computed =>
    obtain bounded | beyond := operand "in" v literal
    · exact .inl (Fold.convertValue?_bounded bounded computed)
    · exact .inr (passes literal beyond)
  | arithmetic op xs ys _ category _ _ first second computed =>
    obtain ⟨x, literal, components⟩ := Option.bind_eq_some_iff.1 first
    obtain ⟨y, literal', components'⟩ := Option.bind_eq_some_iff.1 second
    obtain left | beyond := operand "in1" x literal
    · obtain right | beyond := operand "in2" y literal'
      · by_cases overflows : op.Overflows xs ys
        · exact .inr (.computed computes ⟨op, xs, ys, category, first, second, overflows⟩)
        · exact .inl (Fold.arithmetic?_bounded (left.components components)
            (right.components components') overflows computed)
      · exact .inr (passes literal' beyond)
    · exact .inr (passes literal beyond)

theorem stable_literals (prepared : prepare doc lib types = .ok (start, dropped))
    (folding : options.constantFolding) :
    Fold.Stable types (options.interfaceKind == .reduced) fun h =>
      Fold.Reaches types (options.interfaceKind == .reduced) start h ∧
        h.Literals fun v => v.Bounded ∨ OutOfRange doc lib types options v := by
  rintro h id n r ⟨reaches, holds⟩ found folds
  refine ⟨reaches.step found folds, holds.bypass id ?_⟩
  have member := mem_of_getElem? found
  obtain ⟨out, outputs, ⟨name, _, passed⟩ | ⟨w, computes, rfl⟩⟩ := Fold.replacement?_cases folds
  · obtain ⟨i, input, _, rfl⟩ := Fold.pass_eq_some.1 passed
    exact holds.inputs n member i (GraphNode.mem_of_input? input)
  · rintro _ ⟨⟩
    have reduced := Fold.Computes.math outputs computes folds
    rw [reduced] at reaches
    have made : Computes doc lib types options n w :=
      ⟨folding, eq_of_beq reduced, start, dropped, h, out.type, prepared, reaches, member, computes⟩
    exact made.bounded_or computes fun name v literal => holds.literal member literal

theorem foldConstants_literals {log : Log} (prepared : prepare doc lib types = .ok (start, dropped))
    (run : foldConstants types options start = .ok (g, log)) :
    g.Literals fun v => v.Bounded ∨ OutOfRange doc lib types options v := by
  have holds := prepare_literals options prepared
  obtain rfl | ok := foldConstants_ok run
  · exact holds
  · by_cases folding : options.constantFolding
    · exact (((stable_literals prepared folding).run ⟨.start, holds⟩).2.prune).sort ok
    · simp only [foldConstants, folding] at run
      cases run
      exact holds

end

end Graph

/-- Every component of every literal of a built graph is finite, unless the literal is out of range:
read from a number beyond the limit, or the result of folding arithmetic that overflows. -/
theorem build_literals_finite {doc : Document} {lib : Library} {types : Registry}
    {options : Options} {g : Graph} {log : Log}
    (run : Graph.build doc lib types options = .ok (g, log)) :
    g.Literals fun v => (∀ x ∈ v.floatComponents, x.isFinite = true) ∨
      Graph.OutOfRange doc lib types options v := by
  rw [Graph.build_eq] at run
  obtain ⟨⟨start, dropped⟩, prepared, run⟩ := Result.bind_ok.1 run
  obtain ⟨⟨folded, _⟩, folds, run⟩ := Result.bind_ok.1 run
  cases Result.pure_ok.1 run
  have holds := (Graph.foldConstants_literals prepared folds).assignNames options.interfaceKind
  exact (holds.mono fun v => Or.imp_left Value.Bounded.finite).retag _ _

/-- The sum of a constant with itself, where the constant is finite and the sum is not. -/
def largeSum : Document :=
  { sumDocument with
    nodes :=
      [⟨"sum", "add", "vector3", none, [], [], []⟩,
       ⟨"base", "constant", "float", none, [("value", .float (.ofDecimal false 3 38))], [], []⟩] }

theorem build_literals_finite_largeSum :
    ∃ g log, Graph.build largeSum sumLibrary .standard { interfaceKind := .reduced } =
        .ok (g, log) ∧
      g.outputSockets.map OutputSocket.value =
        [some (.floats (List.replicate 3 ⟨0x7F800000⟩))] ∧
      g.Literals fun v => (∀ x ∈ v.floatComponents, x.isFinite = true) ∨
        Graph.OutOfRange largeSum sumLibrary .standard { interfaceKind := .reduced } v := by
  have builds : (Graph.build largeSum sumLibrary .standard
      { interfaceKind := .reduced }).toOption.map
        (fun p => p.1.outputSockets.map OutputSocket.value) =
      some [some (.floats (List.replicate 3 ⟨0x7F800000⟩))] := by
    decide
  obtain ⟨⟨g, log⟩, found, sockets⟩ := Option.map_eq_some_iff.1 builds
  have run := Result.toOption_eq_some.1 found
  exact ⟨g, log, run, sockets, build_literals_finite run⟩

def largeInput : Document where
  version := "1"
  metadata := ⟨"", none, none⟩
  inputs := [⟨"x", "float", some (.float (.ofDecimal false 1 39))⟩]
  nodes := []
  connections := []
  outputs := []
  nodegraphs := []

/-- A graph is built all the same, and its input socket is infinite. -/
theorem largeInput_infinite :
    ∃ g log, Graph.build largeInput .empty .standard {} = .ok (g, log) ∧
      ¬ g.Literals fun v => ∀ x ∈ v.floatComponents, x.isFinite = true := by
  have builds : (Graph.build largeInput .empty .standard {}).toOption.map
      (fun p => p.1.inputSockets.map InputSocket.value) =
      some [some (.float ⟨0x7F800000⟩)] := by
    decide
  obtain ⟨⟨g, log⟩, found, sockets⟩ := Option.map_eq_some_iff.1 builds
  refine ⟨g, log, Result.toOption_eq_some.1 found, fun finite => ?_⟩
  obtain ⟨s, member, value⟩ := List.mem_map.1 (sockets ▸ List.mem_cons_self)
  have holds := finite.inputSockets s member _ value ⟨0x7F800000⟩ List.mem_cons_self
  exact absurd holds (by decide)

end MaterialShader
