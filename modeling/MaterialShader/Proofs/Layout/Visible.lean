import MaterialShader.Proofs.Layout.Forest
import MaterialShader.Proofs.Layout.Scope

/-!
In the forest of a graph with its scopes, every node stands behind all that it reads, in its own
branch or around it.
-/

namespace MaterialShader

open List
open Layout
open Placed (idsOfAll mem_idsOfAll)

mutual

inductive Visible (g : Graph) (branchOf : GraphNode → Input → Option Nat) (count : NodeId → Nat) :
    List NodeId → List Placed → Prop where
  | nil (around : List NodeId) : Visible g branchOf count around []
  | cons (around : List NodeId) (id : NodeId) (n : GraphNode) (branches : List (List Placed))
      (rest : List Placed) : g.nodes[id]? = some n → branches.length = count id →
      (∀ i ∈ n.inputs, branchOf n i = none → ∀ a k, i.source = some (.node a k) → a ∈ around) →
      VisibleBranches g branchOf count n (id :: around) 0 branches →
      Visible g branchOf count (id :: around) rest →
      Visible g branchOf count around (.node id branches :: rest)

inductive VisibleBranches (g : Graph) (branchOf : GraphNode → Input → Option Nat)
    (count : NodeId → Nat) : GraphNode → List NodeId → Nat → List (List Placed) → Prop where
  | nil (n : GraphNode) (around : List NodeId) (k : Nat) :
      (∀ i ∈ n.inputs, ∀ j, branchOf n i = some j → j < k) →
      VisibleBranches g branchOf count n around k []
  | cons (n : GraphNode) (around : List NodeId) (k : Nat) (members : List Placed)
      (rest : List (List Placed)) : Visible g branchOf count around members →
      (∀ i ∈ n.inputs, branchOf n i = some k → ∀ a o, i.source = some (.node a o) →
        a ∈ members.map Placed.id ++ around) →
      VisibleBranches g branchOf count n around (k + 1) rest →
      VisibleBranches g branchOf count n around k (members :: rest)

end

def VisibleNode (g : Graph) (branchOf : GraphNode → Input → Option Nat) (count : NodeId → Nat)
    (around : List NodeId) : Placed → Prop
  | .node id branches => ∃ n, g.nodes[id]? = some n ∧ branches.length = count id ∧
    (∀ i ∈ n.inputs, branchOf n i = none → ∀ a k, i.source = some (.node a k) → a ∈ around) ∧
    VisibleBranches g branchOf count n (id :: around) 0 branches

def scopeMembers (g : Graph) (scopes : List Scope) (s : Scope) : List NodeId :=
  g.order.filter fun m => scopes[m]? == some s

def branchLists (g : Graph) (scopes : List Scope) (count : NodeId → Nat) (c : NodeId) :
    List (List NodeId) :=
  (List.range (count c)).map fun k => scopeMembers g scopes (.branch c k)

def ownerOf (scopes : List Scope) (a : NodeId) : Option NodeId :=
  match scopes[a]? with
  | some (.branch c _) => some c
  | _ => none

section

variable {g : Graph} {scopes : List Scope}

theorem mem_scopeMembers {s : Scope} {a : NodeId} :
    a ∈ scopeMembers g scopes s ↔ a ∈ g.order ∧ scopes[a]? = some s := by
  simp [scopeMembers]

theorem ownerOf_eq_some {a c : NodeId} :
    ownerOf scopes a = some c ↔ ∃ k, scopes[a]? = some (.branch c k) := by
  unfold ownerOf
  split
  · rename_i c' k found
    simp only [Option.some.injEq, found, Scope.branch.injEq]
    exact ⟨fun same => ⟨k, same, rfl⟩, fun ⟨_, same, _⟩ => same⟩
  · rename_i other
    simp only [reduceCtorEq, false_iff, not_exists]
    exact fun k found => other c k found

theorem mem_branchLists_flatten {count : NodeId → Nat} {a c : NodeId} :
    a ∈ (branchLists g scopes count c).flatten ↔
      a ∈ g.order ∧ ∃ k < count c, scopes[a]? = some (.branch c k) := by
  simp only [branchLists, mem_flatten, mem_map, mem_range]
  constructor
  · rintro ⟨_, ⟨k, inside, rfl⟩, member⟩
    obtain ⟨placed, scope⟩ := mem_scopeMembers.1 member
    exact ⟨placed, k, inside, scope⟩
  · rintro ⟨placed, k, inside, scope⟩
    exact ⟨_, ⟨k, inside, rfl⟩, mem_scopeMembers.2 ⟨placed, scope⟩⟩

theorem branchLists_nodup (nodup : g.order.Nodup) (count : NodeId → Nat) (c : NodeId) :
    (branchLists g scopes count c).flatten.Nodup := by
  rw [nodup_flatten]
  constructor
  · intro members branch
    obtain ⟨k, _, rfl⟩ := mem_map.1 branch
    exact nodup.filter _
  · rw [branchLists, pairwise_map]
    refine nodup_range.imp ?_
    intro j k different a at_j at_k
    have same := (mem_scopeMembers.1 at_j).2.symm.trans (mem_scopeMembers.1 at_k).2
    simp only [Option.some.injEq, Scope.branch.injEq, true_and] at same
    exact different same

end

section

variable {g : Graph} {branchOf : GraphNode → Input → Option Nat} {scopes : List Scope}
  {count : NodeId → Nat} {around : List NodeId}

theorem Graph.Scoping.family (scoping : g.Scoping branchOf scopes) (ordered : g.Ordered) :
    Family (branchLists g scopes count) (ownerOf scopes) g.order.idxOf where
  parent c a member := by
    obtain ⟨_, k, _, scope⟩ := mem_branchLists_flatten.1 member
    exact ownerOf_eq_some.2 ⟨k, scope⟩
  nodup c := branchLists_nodup ordered.nodup count c
  rank c a member := by
    obtain ⟨_, k, _, scope⟩ := mem_branchLists_flatten.1 member
    exact (scoping.inner a c k scope).1

def scopeForest (g : Graph) (scopes : List Scope) (count : NodeId → Nat) : List Placed :=
  forest g.nodes.length (branchLists g scopes count) (scopeMembers g scopes .everywhere)

theorem Graph.Ordered.idxOf_le (ordered : g.Ordered) (a : NodeId) :
    g.order.idxOf a ≤ g.nodes.length := by
  have length : g.order.length = g.nodes.length := by simpa using ordered.perm.length_eq
  exact length ▸ idxOf_le_length

theorem Graph.Scoping.forest (scoping : g.Scoping branchOf scopes) (ordered : g.Ordered)
    (count : NodeId → Nat) :
    (scopeForest g scopes count).map Placed.id = scopeMembers g scopes .everywhere ∧
      (∀ p ∈ scopeForest g scopes count, p.Follows (branchLists g scopes count)) ∧
      (idsOfAll (scopeForest g scopes count)).Nodup ∧
      ∀ m ∈ idsOfAll (scopeForest g scopes count),
        m ∈ scopeMembers g scopes .everywhere ∨ ∃ c, ownerOf scopes m = some c := by
  refine (scoping.family ordered).forest ordered.idxOf_le (ordered.nodup.filter _) ?_
  intro a member
  have scope := (mem_scopeMembers.1 member).2
  simp [ownerOf, scope]

def Covers (g : Graph) (branchOf : GraphNode → Input → Option Nat) (count : NodeId → Nat) : Prop :=
  ∀ (c : NodeId) n, g.nodes[c]? = some n → ∀ i ∈ n.inputs, ∀ j, branchOf n i = some j → j < count c

theorem Graph.Scoping.mem_ids (scoping : g.Scoping branchOf scopes) (ordered : g.Ordered)
    (covers : Covers g branchOf count) {m : NodeId} (inside : m < g.nodes.length) :
    m ∈ idsOfAll (scopeForest g scopes count) := by
  have place : m ∈ g.order := ordered.mem_order.2 inside
  obtain ⟨roots, follows, _, _⟩ := scoping.forest ordered count
  obtain ⟨s, scope⟩ : ∃ s, scopes[m]? = some s :=
    ⟨_, List.getElem?_eq_getElem (scoping.length.symm ▸ inside)⟩
  cases s with
  | everywhere =>
    have root : m ∈ (scopeForest g scopes count).map Placed.id :=
      roots ▸ mem_scopeMembers.2 ⟨place, scope⟩
    obtain ⟨p, member, rfl⟩ := mem_map.1 root
    exact mem_idsOfAll.2 ⟨p, member, p.id_mem_ids⟩
  | branch c j =>
    -- The conditional comes later, so the induction is on what is left of the order.
    obtain ⟨before, n, found, i, input, feeds⟩ := scoping.inner m c j scope
    have bound : c < g.nodes.length := lt_of_getElem? found
    have late : g.order.idxOf c < g.order.length :=
      idxOf_lt_length_iff.2 (ordered.mem_order.2 bound)
    obtain ⟨p, member, above⟩ := mem_idsOfAll.1 (scoping.mem_ids ordered covers bound)
    have branch : scopeMembers g scopes (.branch c j) ∈ branchLists g scopes count c :=
      mem_map.2 ⟨j, mem_range.2 (covers c n found i input j feeds), rfl⟩
    exact mem_idsOfAll.2 ⟨p, member, (follows p member).mem_ids above branch
      (mem_scopeMembers.2 ⟨place, scope⟩)⟩
termination_by g.order.length - g.order.idxOf m

theorem Graph.Scoping.ids_perm (scoping : g.Scoping branchOf scopes) (ordered : g.Ordered)
    (covers : Covers g branchOf count) :
    (idsOfAll (scopeForest g scopes count)).Perm (List.range g.nodes.length) := by
  obtain ⟨_, _, nodup, origin⟩ := scoping.forest ordered count
  rw [perm_ext_iff_of_nodup nodup nodup_range]
  intro m
  rw [mem_range]
  constructor
  · intro member
    have known : ∃ s, scopes[m]? = some s := by
      obtain root | ⟨c, owner⟩ := origin m member
      · exact ⟨_, (mem_scopeMembers.1 root).2⟩
      · obtain ⟨k, scope⟩ := ownerOf_eq_some.1 owner
        exact ⟨_, scope⟩
    obtain ⟨s, scope⟩ := known
    exact scoping.length ▸ lt_of_getElem? scope
  · exact scoping.mem_ids ordered covers

def Surrounds (g : Graph) (scopes : List Scope) (around : List NodeId) (p : Placed) : Prop :=
  ∀ a, scopes[a]? = scopes[p.id]? ∨ scopes[a]? = some .everywhere →
    g.order.idxOf a < g.order.idxOf p.id → a ∈ around

theorem visible_members {s : Scope} {members : List Placed}
    (sorted : members.Pairwise fun p q => g.order.idxOf p.id < g.order.idxOf q.id)
    (scope : ∀ p ∈ members, scopes[p.id]? = some s)
    (each : ∀ p ∈ members, ∀ around, Surrounds g scopes around p →
      VisibleNode g branchOf count around p)
    (known : ∀ p ∈ members, ∀ a, scopes[a]? = some s ∨ scopes[a]? = some .everywhere →
      g.order.idxOf a < g.order.idxOf p.id → a ∈ around ∨ a ∈ members.map Placed.id) :
    Visible g branchOf count around members := by
  induction members generalizing around with
  | nil => exact .nil around
  | cons p rest ih =>
    obtain ⟨later, sorted⟩ := pairwise_cons.1 sorted
    obtain ⟨own, scope⟩ := forall_mem_cons.1 scope
    obtain ⟨here, each⟩ := forall_mem_cons.1 each
    have surrounds : Surrounds g scopes around p := by
      intro a place before
      rw [own] at place
      obtain old | member := known p mem_cons_self a place before
      · exact old
      · -- Nothing that comes behind `p` comes before it.
        rw [map_cons, mem_cons] at member
        obtain rfl | member := member
        · exact absurd before (Nat.lt_irrefl _)
        · obtain ⟨q, at_q, rfl⟩ := mem_map.1 member
          exact absurd before (Nat.lt_asymm (later q at_q))
    have tail : Visible g branchOf count (p.id :: around) rest := by
      apply ih sorted scope each
      intro q at_q a place before
      obtain old | member := known q (.tail _ at_q) a place before
      · exact .inl (.tail _ old)
      · obtain rfl | member := mem_cons.1 member
        · exact .inl mem_cons_self
        · exact .inr member
    obtain ⟨id, branches⟩ := p
    obtain ⟨n, found, length, reads, inside⟩ := here around surrounds
    exact .cons around id n branches rest found length reads inside tail

theorem visible_scope (ordered : g.Ordered) {s : Scope} {members : List Placed}
    (same : members.map Placed.id = scopeMembers g scopes s)
    (each : ∀ p ∈ members, ∀ around, Surrounds g scopes around p →
      VisibleNode g branchOf count around p)
    (outside : ∀ p ∈ members, ∀ a, scopes[a]? = some .everywhere →
      g.order.idxOf a < g.order.idxOf p.id → s = .everywhere ∨ a ∈ around) :
    Visible g branchOf count around members := by
  have member : ∀ p ∈ members, p.id ∈ g.order ∧ scopes[p.id]? = some s := by
    intro p at_p
    exact mem_scopeMembers.1 (same ▸ mem_map_of_mem at_p)
  apply visible_members (s := s) _ (fun p at_p => (member p at_p).2) each
  · intro p at_p a place before
    have in_order : a ∈ g.order := by
      have later : g.order.idxOf p.id < g.order.length :=
        idxOf_lt_length_iff.2 (member p at_p).1
      exact idxOf_lt_length_iff.1 (before.trans later)
    rw [same, mem_scopeMembers]
    obtain own | everywhere := place
    · exact .inr ⟨in_order, own⟩
    · obtain rfl | old := outside p at_p a everywhere before
      · exact .inr ⟨in_order, everywhere⟩
      · exact .inl old
  · have sorted : (members.map Placed.id).Pairwise fun a b =>
        g.order.idxOf a < g.order.idxOf b := by
      rw [same]
      exact (Graph.pairwise_idxOf ordered.nodup).filter _
    rwa [pairwise_map] at sorted

theorem visible_branches (scoping : g.Scoping branchOf scopes) (ordered : g.Ordered) {id : NodeId}
    {n : GraphNode} (found : g.nodes[id]? = some n)
    (surrounds : ∀ a, scopes[a]? = some .everywhere → g.order.idxOf a < g.order.idxOf id →
      a ∈ around) (placed : List (List Placed))
    (each : ∀ members ∈ placed, ∀ p ∈ members, ∀ around, Surrounds g scopes around p →
      VisibleNode g branchOf count around p) (k total : Nat)
    (same : placed.map (List.map Placed.id) =
      (List.range' k total).map fun j => scopeMembers g scopes (.branch id j))
    (covers : ∀ i ∈ n.inputs, ∀ j, branchOf n i = some j → j < k + total) :
    VisibleBranches g branchOf count n around k placed := by
  -- Branch `k` comes first; what the branches before it hold is out of sight.
  induction placed generalizing k total with
  | nil =>
    have none_left : total = 0 := by simpa using congrArg List.length same.symm
    subst none_left
    exact .nil n around k covers
  | cons members rest ih =>
    obtain _ | total := total
    · simp at same
    rw [List.range'_succ, map_cons, map_cons, List.cons.injEq] at same
    obtain ⟨own, same⟩ := same
    obtain ⟨here, each⟩ := forall_mem_cons.1 each
    have inside : ∀ p ∈ members, g.order.idxOf p.id < g.order.idxOf id := by
      intro p at_p
      have scope := (mem_scopeMembers.1 (own ▸ mem_map_of_mem at_p)).2
      exact (scoping.inner p.id id k scope).1
    refine .cons n around k members rest ?_ ?_ (ih each (k + 1) total same ?_)
    · apply visible_scope ordered own here
      intro p at_p a everywhere before
      exact .inr (surrounds a everywhere (before.trans (inside p at_p)))
    · intro i input feeds a o source
      have before := ordered.forward a id ⟨n, found, i, input, o, source⟩
      obtain branch | everywhere := scoping.branch id n found i input k feeds a o source
      · have in_order := ordered.mem_order.2 (ordered.feeders a id ⟨n, found, i, input, o, source⟩)
        rw [own]
        exact mem_append_left _ (mem_scopeMembers.2 ⟨in_order, branch⟩)
      · exact mem_append_right _ (surrounds a everywhere before)
    · intro i input j feeds
      have bound := covers i input j feeds
      omega

theorem visible_node (scoping : g.Scoping branchOf scopes) (ordered : g.Ordered)
    (covers : Covers g branchOf count) {p : Placed}
    (follows : p.Follows (branchLists g scopes count)) (member : p.id ∈ g.order)
    (surrounds : Surrounds g scopes around p) : VisibleNode g branchOf count around p := by
  induction follows generalizing around with
  | node id placed same _ ih =>
    obtain ⟨n, found⟩ : ∃ n, g.nodes[id]? = some n :=
      ⟨_, List.getElem?_eq_getElem (ordered.mem_order.1 member)⟩
    refine ⟨n, found, by simpa [branchLists] using congrArg List.length same, ?_, ?_⟩
    · intro i input plain a k source
      have before := ordered.forward a id ⟨n, found, i, input, k, source⟩
      exact surrounds a (scoping.plain id n found i input plain a k source) before
    · rw [branchLists, range_eq_range'] at same
      refine visible_branches scoping ordered found ?_ placed ?_ 0 (count id) same ?_
      · intro a everywhere before
        exact .tail _ (surrounds a (.inr everywhere) before)
      · intro members branch q at_q around' surrounds'
        have inner : q.id ∈ g.order := by
          have listed : members.map Placed.id ∈
              (List.range' 0 (count id)).map fun j => scopeMembers g scopes (.branch id j) :=
            same ▸ mem_map_of_mem branch
          obtain ⟨j, _, own⟩ := mem_map.1 listed
          exact (mem_scopeMembers.1 (own ▸ mem_map_of_mem at_q)).1
        exact ih members branch q at_q inner surrounds'
      · simpa using covers id n found

theorem Graph.Scoping.visible (scoping : g.Scoping branchOf scopes) (ordered : g.Ordered)
    (covers : Covers g branchOf count) :
    Visible g branchOf count [] (scopeForest g scopes count) := by
  obtain ⟨roots, follows, _, _⟩ := scoping.forest ordered count
  apply visible_scope ordered roots
  · intro p at_p around surrounds
    have member : p.id ∈ g.order :=
      (mem_scopeMembers.1 (roots ▸ mem_map_of_mem at_p)).1
    exact visible_node scoping ordered covers (follows p at_p) member surrounds
  · exact fun _ _ _ _ _ => .inl rfl

end

end MaterialShader
