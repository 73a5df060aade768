import Mathlib.Data.List.Nodup
import MaterialShader.Layout

/-!
Where every node is a member of at most one branch, the forest has every node once, with exactly the
members of its branches below it.
-/

namespace MaterialShader

open List

variable {m id : NodeId} {branches : NodeId → List (List NodeId)} {p : Placed}
  {members roots : List NodeId} {branchList : List (List NodeId)} {count : Nat}

namespace Placed

mutual

/-- A node and all below it, in the order in which they are written. -/
def ids : Placed → List NodeId
  | .node id branches => id :: idsOfBranches branches

def idsOfBranches : List (List Placed) → List NodeId
  | [] => []
  | members :: rest => idsOfAll members ++ idsOfBranches rest

def idsOfAll : List Placed → List NodeId
  | [] => []
  | p :: rest => p.ids ++ idsOfAll rest

end

theorem id_mem_ids (p : Placed) : p.id ∈ p.ids := by
  cases p
  simp [id, ids]

theorem mem_idsOfAll {placed : List Placed} : m ∈ idsOfAll placed ↔ ∃ p ∈ placed, m ∈ p.ids := by
  induction placed with
  | nil => simp [idsOfAll]
  | cons p rest ih => simp [idsOfAll, ih]

theorem mem_idsOfBranches {branches : List (List Placed)} :
    m ∈ idsOfBranches branches ↔ ∃ members ∈ branches, ∃ p ∈ members, m ∈ p.ids := by
  induction branches with
  | nil => simp [idsOfBranches]
  | cons members rest ih => simp [idsOfBranches, mem_idsOfAll, ih]

inductive Follows (branches : NodeId → List (List NodeId)) : Placed → Prop where
  | node (id : NodeId) (placed : List (List Placed)) :
      placed.map (List.map Placed.id) = branches id →
      (∀ members ∈ placed, ∀ p ∈ members, Follows branches p) → Follows branches (.node id placed)

theorem Follows.mem_ids (follows : Follows branches p) {c a : NodeId} (inside : c ∈ p.ids)
    (branch : members ∈ branches c) (member : a ∈ members) : a ∈ p.ids := by
  induction follows with
  | node id placed same _ ih =>
    obtain rfl | below := mem_cons.1 inside
    · rw [← same] at branch
      obtain ⟨l, at_l, rfl⟩ := mem_map.1 branch
      obtain ⟨q, at_q, rfl⟩ := mem_map.1 member
      exact .tail _ (mem_idsOfBranches.2 ⟨l, at_l, q, at_q, q.id_mem_ids⟩)
    · obtain ⟨l, at_l, q, at_q, inner⟩ := mem_idsOfBranches.1 below
      exact .tail _ (mem_idsOfBranches.2 ⟨l, at_l, q, at_q, ih l at_l q at_q inner⟩)

/-- The first one is the second one or is in its branches, at any depth. -/
inductive Within (p : Placed) : Placed → Prop where
  | self : Within p p
  | inside {id : NodeId} {branches : List (List Placed)} {members : List Placed} {q : Placed} :
      members ∈ branches → q ∈ members → Within p q → Within p (.node id branches)

variable {q r : Placed}

theorem Within.trans (first : Within p q) (second : Within q r) : Within p r := by
  induction second with
  | self => exact first
  | inside listed member _ ih => exact .inside listed member ih

theorem Follows.within (follows : q.Follows branches) (within : Within p q) :
    p.Follows branches := by
  induction within with
  | self => exact follows
  | inside listed member _ ih =>
    cases follows with
    | node _ _ _ each => exact ih (each _ listed _ member)

theorem Follows.exists_within (follows : p.Follows branches) (below : m ∈ p.ids) :
    ∃ q, Within q p ∧ q.id = m := by
  induction follows with
  | node id placed _ _ ih =>
    obtain rfl | below := mem_cons.1 below
    · exact ⟨_, .self, rfl⟩
    · obtain ⟨members, listed, q, member, inner⟩ := mem_idsOfBranches.1 below
      obtain ⟨r, within, same⟩ := ih members listed q member inner
      exact ⟨r, .inside listed member within, same⟩

end Placed

namespace Layout

open Placed

structure Family (branches : NodeId → List (List NodeId)) (parent : NodeId → Option NodeId)
    (rank : NodeId → Nat) : Prop where
  parent : ∀ c, ∀ a ∈ (branches c).flatten, parent a = some c
  nodup : ∀ c, (branches c).flatten.Nodup
  rank : ∀ c, ∀ a ∈ (branches c).flatten, rank a < rank c

structure Added (parent : NodeId → Option NodeId) (seen members ids seen' : List NodeId) :
    Prop where
  mem : ∀ m, m ∈ seen' ↔ m ∈ ids ∨ m ∈ seen
  nodup : ids.Nodup
  fresh : ∀ m ∈ ids, m ∉ seen
  below : ∀ m ∈ ids, m ∈ members ∨ ∃ c ∈ ids, parent m = some c

structure Ready (parent : NodeId → Option NodeId) (seen members : List NodeId) : Prop where
  nodup : members.Nodup
  fresh : ∀ a ∈ members, a ∉ seen
  parents : ∀ a ∈ members, ∀ c, parent a = some c → c ∈ seen
  closed : ∀ a ∈ seen, ∀ c, parent a = some c → c ∈ seen

section

variable {parent : NodeId → Option NodeId} {seen seen' seen'' : List NodeId}
  {members' : List NodeId}

theorem Added.nil (parent : NodeId → Option NodeId) (seen : List NodeId) :
    Added parent seen [] [] seen := by
  constructor <;> simp

theorem Added.append {ids ids' : List NodeId} (first : Added parent seen members ids seen')
    (second : Added parent seen' members' ids' seen'') :
    Added parent seen (members ++ members') (ids ++ ids') seen'' := by
  constructor
  · intro m
    rw [second.mem, first.mem, mem_append]
    tauto
  · refine nodup_append.2 ⟨first.nodup, second.nodup, ?_⟩
    rintro m before _ after rfl
    exact second.fresh m after ((first.mem m).2 (.inl before))
  · intro m member placed
    obtain before | after := mem_append.1 member
    · exact first.fresh m before placed
    · exact second.fresh m after ((first.mem m).2 (.inr placed))
  · intro m member
    obtain before | after := mem_append.1 member
    · obtain own | ⟨c, inside, up⟩ := first.below m before
      · exact .inl (mem_append_left _ own)
      · exact .inr ⟨c, mem_append_left _ inside, up⟩
    · obtain own | ⟨c, inside, up⟩ := second.below m after
      · exact .inl (mem_append_right _ own)
      · exact .inr ⟨c, mem_append_right _ inside, up⟩

theorem Ready.left (ready : Ready parent seen (members ++ members')) :
    Ready parent seen members where
  nodup := (nodup_append.1 ready.nodup).1
  fresh a member := ready.fresh a (mem_append_left _ member)
  parents a member := ready.parents a (mem_append_left _ member)
  closed := ready.closed

theorem Ready.right {ids : List NodeId} (ready : Ready parent seen (members ++ members'))
    (added : Added parent seen members ids seen') : Ready parent seen' members' := by
  obtain ⟨_, nodup, apart⟩ := nodup_append.1 ready.nodup
  constructor
  · exact nodup
  · intro a member placed
    have old := ready.fresh a (mem_append_right _ member)
    have inside := ((added.mem a).1 placed).resolve_right old
    obtain own | ⟨c, new, up⟩ := added.below a inside
    · exact apart a own a member rfl
    · exact added.fresh c new (ready.parents a (mem_append_right _ member) c up)
  · intro a member c up
    exact (added.mem c).2 (.inr (ready.parents a (mem_append_right _ member) c up))
  · intro a placed c up
    rw [added.mem] at placed ⊢
    obtain inside | old := placed
    · obtain own | ⟨c', new, up'⟩ := added.below a inside
      · exact .inr (ready.parents a (mem_append_left _ own) c up)
      · rw [up] at up'
        cases up'
        exact .inl new
    · exact .inr (ready.closed a old c up)

end

section

variable {branches : NodeId → List (List NodeId)} {parent : NodeId → Option NodeId}
  {rank : NodeId → Nat} {seen : List NodeId}

def Places (branches : NodeId → List (List NodeId)) (parent : NodeId → Option NodeId)
    (placeOne : List NodeId → NodeId → Option Placed × List NodeId) (id : NodeId) : Prop :=
  ∀ seen, Ready parent seen [id] → ∃ p seen', placeOne seen id = (some p, seen') ∧ p.id = id ∧
    p.Follows branches ∧ Added parent seen [id] p.ids seen'

theorem placeList_added {placeOne : List NodeId → NodeId → Option Placed × List NodeId}
    (places : ∀ a ∈ members, Places branches parent placeOne a) (ready : Ready parent seen members) :
    ∃ placed seen', placeList placeOne seen members = (placed, seen') ∧
      placed.map Placed.id = members ∧ (∀ p ∈ placed, p.Follows branches) ∧
      Added parent seen members (idsOfAll placed) seen' := by
  induction members generalizing seen with
  | nil => exact ⟨[], seen, rfl, rfl, by simp, Added.nil parent seen⟩
  | cons a rest ih =>
    obtain ⟨here, later⟩ := forall_mem_cons.1 places
    have split : a :: rest = [a] ++ rest := rfl
    obtain ⟨p, seen₁, first, same, follows, added⟩ := here seen ready.left
    obtain ⟨placed, seen₂, others, sames, all, added'⟩ := ih later (ready.right added)
    refine ⟨p :: placed, seen₂, ?_, ?_, ?_, added.append added'⟩
    · simp only [placeList, first, others, Option.toList_some, cons_append, nil_append]
    · rw [map_cons, same, sames]
    · exact forall_mem_cons.2 ⟨follows, all⟩

theorem placeBranches_added {placeOne : List NodeId → NodeId → Option Placed × List NodeId}
    (places : ∀ a ∈ branchList.flatten, Places branches parent placeOne a)
    (ready : Ready parent seen branchList.flatten) :
    ∃ placed seen', placeBranches placeOne seen branchList = (placed, seen') ∧
      placed.map (List.map Placed.id) = branchList ∧
      (∀ members ∈ placed, ∀ p ∈ members, p.Follows branches) ∧
      Added parent seen branchList.flatten (idsOfBranches placed) seen' := by
  induction branchList generalizing seen with
  | nil => exact ⟨[], seen, rfl, rfl, by simp, Added.nil parent seen⟩
  | cons members rest ih =>
    obtain ⟨first, seen₁, placedFirst, same, follows, added⟩ :=
      placeList_added (fun a member => places a (mem_append_left _ member)) ready.left
    obtain ⟨others, seen₂, placedOthers, sames, all, added'⟩ :=
      ih (fun a member => places a (mem_append_right _ member)) (ready.right added)
    refine ⟨first :: others, seen₂, ?_, ?_, ?_, added.append added'⟩
    · simp only [placeBranches, placedFirst, placedOthers]
    · rw [map_cons, same, sames]
    · exact forall_mem_cons.2 ⟨follows, all⟩

section

variable (family : Family branches parent rank)

include family

theorem Family.ready (ready : Ready parent seen [id]) :
    Ready parent (id :: seen) (branches id).flatten := by
  have fresh : id ∉ seen := ready.fresh id mem_cons_self
  constructor
  · exact family.nodup id
  · intro a member placed
    obtain rfl | old := mem_cons.1 placed
    · exact Nat.lt_irrefl _ (family.rank a a member)
    · exact fresh (ready.closed a old id (family.parent id a member))
  · intro a member c up
    rw [family.parent id a member] at up
    cases up
    exact .head _
  · intro a placed c up
    obtain rfl | old := mem_cons.1 placed
    · exact .tail _ (ready.parents a mem_cons_self c up)
    · exact .tail _ (ready.closed a old c up)

theorem Family.added {seen' ids : List NodeId} (ready : Ready parent seen [id])
    (added : Added parent (id :: seen) (branches id).flatten ids seen') :
    Added parent seen [id] (id :: ids) seen' := by
  have fresh : id ∉ seen := ready.fresh id mem_cons_self
  constructor
  · intro m
    rw [added.mem, mem_cons, mem_cons]
    tauto
  · exact nodup_cons.2 ⟨fun inside => added.fresh id inside mem_cons_self, added.nodup⟩
  · intro m inside
    obtain rfl | below := mem_cons.1 inside
    · exact fresh
    · exact fun old => added.fresh m below (.tail _ old)
  · intro m inside
    obtain rfl | below := mem_cons.1 inside
    · exact .inl mem_cons_self
    · obtain own | ⟨c, inner, up⟩ := added.below m below
      · exact .inr ⟨id, .head _, family.parent id m own⟩
      · exact .inr ⟨c, .tail _ inner, up⟩

theorem Family.places {depth : Nat} (deep : rank id < depth) :
    Places branches parent (placeNode branches depth) id := by
  induction depth generalizing id with
  | zero => exact absurd deep (Nat.not_lt_zero _)
  | succ depth ih =>
    intro seen ready
    have fresh : id ∉ seen := ready.fresh id mem_cons_self
    have lower : ∀ a ∈ (branches id).flatten,
        Places branches parent (placeNode branches depth) a := by
      intro a member
      exact ih (Nat.lt_of_lt_of_le (family.rank id a member) (Nat.le_of_lt_succ deep))
    obtain ⟨placed, seen', run, same, follows, added⟩ :=
      placeBranches_added lower (family.ready ready)
    refine ⟨.node id placed, seen', ?_, rfl, .node id placed same follows, family.added ready added⟩
    simp only [placeNode, contains_iff_mem, fresh, if_false, run]

theorem Family.forest (bounded : ∀ id, rank id ≤ count) (nodup : roots.Nodup)
    (top : ∀ a ∈ roots, parent a = none) :
    (forest count branches roots).map Placed.id = roots ∧
      (∀ p ∈ forest count branches roots, p.Follows branches) ∧
      (idsOfAll (forest count branches roots)).Nodup ∧
      ∀ m ∈ idsOfAll (forest count branches roots), m ∈ roots ∨ ∃ c, parent m = some c := by
  have ready : Ready parent [] roots := by
    refine ⟨nodup, by simp, ?_, by simp⟩
    intro a member c up
    rw [top a member] at up
    cases up
  have places : ∀ a ∈ roots, Places branches parent (placeNode branches (count + 1)) a :=
    fun a _ => family.places (Nat.lt_succ_of_le (bounded a))
  obtain ⟨placed, seen', run, same, follows, added⟩ := placeList_added places ready
  simp only [Layout.forest, run]
  refine ⟨same, follows, added.nodup, ?_⟩
  intro m inside
  obtain own | ⟨c, _, up⟩ := added.below m inside
  · exact .inl own
  · exact .inr ⟨c, up⟩

end

end

section

variable {placeOne : List NodeId → NodeId → Option Placed × List NodeId} {seen : List NodeId}

theorem mem_placeList (member : p ∈ (placeList placeOne seen members).1) :
    ∃ before, ∃ a ∈ members, (placeOne before a).1 = some p := by
  induction members generalizing seen with
  | nil => cases member
  | cons a rest ih =>
    obtain first | later := mem_append.1 member
    · exact ⟨seen, a, .head _, Option.mem_toList.1 first⟩
    · obtain ⟨before, b, listed, placed⟩ := ih later
      exact ⟨before, b, .tail _ listed, placed⟩

theorem mem_placeBranches {members : List Placed}
    (branch : members ∈ (placeBranches placeOne seen branchList).1) (member : p ∈ members) :
    ∃ before, ∃ a ∈ branchList.flatten, (placeOne before a).1 = some p := by
  induction branchList generalizing seen with
  | nil => cases branch
  | cons own rest ih =>
    obtain rfl | later := mem_cons.1 branch
    · obtain ⟨before, a, listed, placed⟩ := mem_placeList member
      exact ⟨before, a, mem_append_left _ listed, placed⟩
    · obtain ⟨before, a, listed, placed⟩ := ih later
      exact ⟨before, a, mem_append_right _ listed, placed⟩

theorem forall_ids_forest {Q : NodeId → Prop} (top : ∀ a ∈ roots, Q a)
    (below : ∀ c, ∀ a ∈ (branches c).flatten, Q a) :
    ∀ m ∈ idsOfAll (forest count branches roots), Q m := by
  have node (depth : Nat) (a : NodeId) (own : Q a) (seen : List NodeId) :
      ∀ p, (placeNode branches depth seen a).1 = some p → ∀ m ∈ p.ids, Q m := by
    induction depth generalizing a seen with
    | zero => simp [placeNode]
    | succ depth ih =>
      unfold placeNode
      split
      · simp
      · rintro p ⟨⟩
        refine forall_mem_cons.2 ⟨own, fun m inside => ?_⟩
        obtain ⟨members, branch, q, member, inner⟩ := mem_idsOfBranches.1 inside
        obtain ⟨before, c, listed, placed⟩ := mem_placeBranches branch member
        exact ih c (below a c listed) before q placed m inner
  intro m inside
  obtain ⟨p, member, own⟩ := mem_idsOfAll.1 inside
  obtain ⟨before, a, root, placed⟩ := mem_placeList member
  exact node _ a (top a root) before p placed m own

end

end Layout

end MaterialShader
