import Mathlib.Logic.Relation
import MaterialShader.Graph.Basic
import MaterialShader.Proofs.Dependency.Order

/-!
Graphs in which every connection leads somewhere, those in which it leads to something of the right
type, and graphs without cycles.
-/

namespace MaterialShader

theorem lt_of_getElem? {α : Type} {items : List α} {k : Nat} {a : α} (found : items[k]? = some a) :
    k < items.length :=
  (List.getElem?_eq_some_iff.1 found).1

/-- The type is the registry's own of that name. -/
def Registry.Knows (types : Registry) (t : ShaderType) : Prop := types.find? t.name = some t

instance (types : Registry) (t : ShaderType) : Decidable (types.Knows t) :=
  inferInstanceAs (Decidable (types.find? t.name = some t))

theorem Registry.Knows.eq_of_same {types : Registry} {a b : ShaderType} (ha : types.Knows a)
    (hb : types.Knows b) (same : a.same b) : a = b := by
  have names : a.name = b.name := by simpa [ShaderType.same] using same
  rw [Registry.Knows, names, hb] at ha
  exact (Option.some.inj ha).symm

theorem mem_filterMap_node {α : Type} {items : List α} {source : α → Option Source} {id : NodeId} :
    id ∈ items.filterMap (fun x => match source x with
      | some (.node id _) => some id
      | _ => none) ↔ ∃ x ∈ items, ∃ k, source x = some (.node id k) := by
  simp only [List.mem_filterMap]
  constructor
  · rintro ⟨x, member, read⟩
    split at read
    · rename_i b k leads
      cases read
      exact ⟨x, member, k, leads⟩
    · cases read
  · rintro ⟨x, member, k, leads⟩
    exact ⟨x, member, by simp [leads]⟩

theorem GraphNode.mem_readNodes {n : GraphNode} {a : NodeId} :
    a ∈ n.readNodes ↔ ∃ i ∈ n.inputs, ∃ k, i.source = some (.node a k) :=
  mem_filterMap_node

namespace Graph

def Feeds (g : Graph) (a b : NodeId) : Prop :=
  ∃ n, g.nodes[b]? = some n ∧ ∃ i ∈ n.inputs, ∃ k, i.source = some (.node a k)

theorem mem_edgesFrom {start a b : Nat} {nodes : List GraphNode} :
    (a, b) ∈ edgesFrom start nodes ↔
      start ≤ b ∧ ∃ n, nodes[b - start]? = some n ∧ a ∈ n.readNodes := by
  induction nodes generalizing start with
  | nil => simp [edgesFrom]
  | cons n rest ih =>
    simp only [edgesFrom, List.mem_append, List.mem_map, Prod.mk.injEq, ih]
    constructor
    · rintro (⟨source, read, rfl, rfl⟩ | ⟨late, m, found, read⟩)
      · exact ⟨le_refl _, n, by simp, read⟩
      · refine ⟨by omega, m, ?_, read⟩
        rwa [show b - start = b - (start + 1) + 1 by omega, List.getElem?_cons_succ]
    · rintro ⟨late, m, found, read⟩
      obtain rfl | later := Nat.eq_or_lt_of_le late
      · simp only [Nat.sub_self, List.getElem?_cons_zero, Option.some.injEq] at found
        exact .inl ⟨a, found ▸ read, rfl, rfl⟩
      · rw [show b - start = b - (start + 1) + 1 by omega, List.getElem?_cons_succ] at found
        exact .inr ⟨later, m, found, read⟩

variable {g : Graph} {a b : NodeId}

theorem mem_edges : (a, b) ∈ g.edges ↔ g.Feeds a b := by
  simp [edges, mem_edgesFrom, Feeds, GraphNode.mem_readNodes]

theorem Feeds.reader_lt (feeds : g.Feeds a b) : b < g.nodes.length := by
  obtain ⟨n, found, _⟩ := feeds
  exact lt_of_getElem? found

def Acyclic (g : Graph) : Prop := ∀ v, ¬ Relation.TransGen g.Feeds v v

def Carries (g : Graph) (t : ShaderType) (s : Option Source) : Prop :=
  ∀ source ∈ s, g.sourceType? source = some t

instance (g : Graph) (t : ShaderType) (s : Option Source) : Decidable (g.Carries t s) :=
  inferInstanceAs (Decidable (∀ source ∈ s, g.sourceType? source = some t))

theorem carries_none (g : Graph) (t : ShaderType) : g.Carries t none := by
  intro source impossible
  cases impossible

/-- Types are those of the registry, and every connection is in range and keeps the type. -/
structure WellTyped (types : Registry) (g : Graph) : Prop where
  inputs : ∀ n ∈ g.nodes, ∀ i ∈ n.inputs, types.Knows i.type ∧ g.Carries i.type i.source
  outputs : ∀ n ∈ g.nodes, ∀ o ∈ n.outputs, types.Knows o.type
  inputSockets : ∀ s ∈ g.inputSockets, types.Knows s.type
  outputSockets : ∀ s ∈ g.outputSockets, types.Knows s.type ∧ g.Carries s.type s.source

theorem sourceType?_node {id k : Nat} {t : ShaderType}
    (typed : g.sourceType? (.node id k) = some t) :
    ∃ n o, g.nodes[id]? = some n ∧ n.outputs[k]? = some o ∧ o.type = t := by
  simp only [sourceType?, output?, Option.map_eq_some_iff] at typed
  obtain ⟨o, found, rfl⟩ := typed
  split at found
  · rename_i n at_id
    exact ⟨n, o, at_id, found, rfl⟩
  · cases found

def Inside (g : Graph) : Source → Prop
  | .node id _ => id < g.nodes.length
  | .socket k => k < g.inputSockets.length

/-- Every connection is in range. -/
structure Closed (g : Graph) : Prop where
  inputs : ∀ n ∈ g.nodes, ∀ i ∈ n.inputs, ∀ s ∈ i.source, g.Inside s
  outputSockets : ∀ s ∈ g.outputSockets, ∀ source ∈ s.source, g.Inside source

theorem inside_of_sourceType? {s : Source} {t : ShaderType} (typed : g.sourceType? s = some t) :
    g.Inside s := by
  cases s with
  | node id k =>
    obtain ⟨n, _, found, _⟩ := sourceType?_node typed
    exact lt_of_getElem? found
  | socket k =>
    obtain ⟨s, found, _⟩ := Option.map_eq_some_iff.1 typed
    exact lt_of_getElem? found

theorem WellTyped.closed {types : Registry} (typed : g.WellTyped types) : g.Closed where
  inputs n member i input s read :=
    inside_of_sourceType? ((typed.inputs n member i input).2 s read)
  outputSockets s member source read :=
    inside_of_sourceType? ((typed.outputSockets s member).2 source read)

theorem Closed.retag (closed : g.Closed) (order : List NodeId) :
    Closed { g with order } := ⟨closed.inputs, closed.outputSockets⟩

theorem Closed.feeder_lt (closed : g.Closed) (feeds : g.Feeds a b) : a < g.nodes.length := by
  obtain ⟨n, found, i, member, k, source⟩ := feeds
  exact closed.inputs n (List.mem_of_getElem? found) i member _ source

theorem WellTyped.feeder_lt {types : Registry} (typed : g.WellTyped types) (feeds : g.Feeds a b) :
    a < g.nodes.length := typed.closed.feeder_lt feeds

theorem Acyclic.exists_rank (acyclic : g.Acyclic)
    (bounded : ∀ a b, g.Feeds a b → a < g.nodes.length) :
    ∃ rank : NodeId → Nat, ∀ a b, g.Feeds a b → rank a < rank b := by
  classical
  let before (v : NodeId) : Finset NodeId :=
    (Finset.range g.nodes.length).filter fun w => Relation.TransGen g.Feeds w v
  refine ⟨fun v => (before v).card, ?_⟩
  intro a b feeds
  apply Finset.card_lt_card
  refine Finset.ssubset_iff_of_subset ?_ |>.2 ⟨a, ?_, ?_⟩
  · intro w earlier
    simp only [before, Finset.mem_filter] at earlier ⊢
    exact ⟨earlier.1, earlier.2.tail feeds⟩
  · simp only [before, Finset.mem_filter, Finset.mem_range]
    exact ⟨bounded a b feeds, .single feeds⟩
  · simp only [before, Finset.mem_filter, not_and]
    exact fun _ => acyclic a

theorem acyclic_of_rank (rank : NodeId → Nat) (climbs : ∀ e ∈ g.edges, rank e.1 < rank e.2) :
    g.Acyclic := by
  have up : ∀ a b, Relation.TransGen g.Feeds a b → rank a < rank b := by
    intro a b path
    induction path with
    | single feeds => exact climbs (a, _) (mem_edges.2 feeds)
    | tail _ feeds ih => exact ih.trans (climbs (_, _) (mem_edges.2 feeds))
  intro v cycle
  exact Nat.lt_irrefl _ (up v v cycle)

theorem exists_order (closed : g.Closed) (acyclic : g.Acyclic) :
    ∃ order, Dependency.sort g.nodes.length g.edges = .ok order := by
  obtain ⟨rank, climbs⟩ := acyclic.exists_rank fun _ _ => closed.feeder_lt
  apply Dependency.sort_complete rank
  · intro e he
    exact closed.feeder_lt (mem_edges.1 he)
  · intro e he
    exact climbs e.1 e.2 (mem_edges.1 he)

theorem order_forward {order : List NodeId}
    (sorted : Dependency.sort g.nodes.length g.edges = .ok order) (feeds : g.Feeds a b) :
    order.idxOf a < order.idxOf b :=
  Dependency.sort_forward sorted (fun _ he => (mem_edges.1 he).reader_lt) (a, b)
    (mem_edges.2 feeds)

theorem acyclic_of_order {order : List NodeId}
    (sorted : Dependency.sort g.nodes.length g.edges = .ok order) : g.Acyclic := by
  apply acyclic_of_rank fun id => order.idxOf id
  intro e he
  exact order_forward sorted (mem_edges.1 he)

end Graph

end MaterialShader
