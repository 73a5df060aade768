import Mathlib.Data.Finset.Max
import Mathlib.Data.List.Perm.Basic
import Mathlib.Data.List.Lex
import MaterialShader.Dependency

/-!
What an order of a directed graph is worth:
-/

namespace MaterialShader.Dependency

open List

variable {edges : List Edge} {order : List Nat}

/-- Every edge leads from a place in the order to a later one. -/
def Forward (edges : List Edge) (order : List Nat) : Prop :=
  ∀ e ∈ edges, order.idxOf e.1 < order.idxOf e.2

def Leads (edges : List Edge) (a b : Nat) : Prop := (a, b) ∈ edges

theorem takeReady_perm (k : Nat) (rest : List Nat) (edges : List Edge) :
    ((takeReady k rest edges).1 ++ (takeReady k rest edges).2).Perm rest := by
  induction k generalizing rest edges with
  | zero => exact List.Perm.refl rest
  | succ k ih =>
    rw [takeReady]
    split
    · exact List.Perm.refl rest
    · rename_i v found
      have member : v ∈ rest := mem_of_find?_eq_some found
      exact ((ih (rest.erase v) _).cons v).trans (perm_cons_erase member).symm

theorem takeReady_forward (k : Nat) (rest : List Nat) (edges : List Edge) (e : Edge)
    (he : e ∈ edges) (taken : e.2 ∈ (takeReady k rest edges).1) :
    (takeReady k rest edges).1.idxOf e.1 < (takeReady k rest edges).1.idxOf e.2 := by
  induction k generalizing rest edges with
  | zero => simp [takeReady] at taken
  | succ k ih =>
    cases found : rest.find? fun v => edges.all fun e => e.2 != v with
    | none => simp [takeReady, found] at taken
    | some v =>
      have ready := List.find?_some found
      simp only [all_eq_true, bne_iff_ne, ne_eq] at ready
      have late : e.2 ≠ v := ready e he
      simp only [takeReady, found, mem_cons, late, false_or] at taken ⊢
      rw [idxOf_cons_ne _ (Ne.symm late)]
      by_cases first : e.1 = v
      · simp [first]
      · rw [idxOf_cons_ne _ (Ne.symm first)]
        have kept : e ∈ edges.filter fun e => e.1 != v := by simp [he, first]
        exact Nat.succ_lt_succ (ih _ _ kept taken)

theorem exists_edge_of_not_ready {w : Nat} (blocked : (edges.all fun e => e.2 != w) = false) :
    ∃ e ∈ edges, e.2 = w := by
  simpa using blocked

theorem takeReady_blocked {k : Nat} {rest : List Nat} (enough : rest.length ≤ k)
    (sources : ∀ e ∈ edges, e.1 ∈ rest) :
    ∀ v ∈ (takeReady k rest edges).2, ∃ u ∈ (takeReady k rest edges).2, Leads edges u v := by
  induction k generalizing rest edges with
  | zero =>
    cases eq_nil_of_length_eq_zero (Nat.le_zero.1 enough)
    simp [takeReady]
  | succ k ih =>
    cases found : rest.find? fun v => edges.all fun e => e.2 != v with
    | none =>
      simp only [takeReady, found]
      intro v member
      obtain ⟨e, he, rfl⟩ :=
        exists_edge_of_not_ready (by simpa using List.find?_eq_none.1 found v member)
      exact ⟨e.1, sources e he, he⟩
    | some v =>
      have member : v ∈ rest := mem_of_find?_eq_some found
      simp only [takeReady, found]
      intro w left
      have shorter : (rest.erase v).length ≤ k := by
        rw [length_erase_of_mem member]
        omega
      have sources' : ∀ e ∈ edges.filter (fun e => e.1 != v), e.1 ∈ rest.erase v := by
        intro e filtered
        obtain ⟨he, other⟩ := mem_filter.1 filtered
        exact (mem_erase_of_ne (by simpa using other)).2 (sources e he)
      obtain ⟨u, kept, edge⟩ := ih shorter sources' w left
      exact ⟨u, kept, mem_of_mem_filter edge⟩

theorem takeReady_complete (rank : Nat → Nat) (k : Nat) (rest : List Nat) (edges : List Edge)
    (enough : rest.length ≤ k) (sources : ∀ e ∈ edges, e.1 ∈ rest)
    (climbs : ∀ e ∈ edges, rank e.1 < rank e.2) : (takeReady k rest edges).2 = [] := by
  by_contra left
  obtain ⟨v, member, least⟩ := (takeReady k rest edges).2.toFinset.exists_min_image rank
    (toFinset_nonempty_iff _ |>.2 left)
  obtain ⟨u, kept, edge⟩ := takeReady_blocked enough sources v (mem_toFinset.1 member)
  exact absurd (climbs _ edge) (Nat.not_lt.2 (least u (mem_toFinset.2 kept)))

theorem sort_perm {n : Nat} (sorted : sort n edges = .ok order) : order.Perm (List.range n) := by
  have all := takeReady_perm n (List.range n) edges
  simp only [sort] at sorted
  split at sorted
  · rename_i empty
    rw [isEmpty_iff.1 empty, append_nil] at all
    cases sorted
    exact all
  · cases sorted

theorem sort_forward {n : Nat} (sorted : sort n edges = .ok order) (targets : ∀ e ∈ edges, e.2 < n) :
    Forward edges order := by
  intro e he
  have member : e.2 ∈ order := (sort_perm sorted).mem_iff.2 (mem_range.2 (targets e he))
  simp only [sort] at sorted
  split at sorted
  · cases sorted
    exact takeReady_forward n (List.range n) edges e he member
  · cases sorted

theorem sort_complete (rank : Nat → Nat) (n : Nat) (edges : List Edge)
    (sources : ∀ e ∈ edges, e.1 < n) (climbs : ∀ e ∈ edges, rank e.1 < rank e.2) :
    ∃ order, sort n edges = .ok order := by
  have none_left : (takeReady n (List.range n) edges).2 = [] :=
    takeReady_complete rank n (List.range n) edges (by simp)
      (fun e he => mem_range.2 (sources e he)) climbs
  exact ⟨_, by simp [sort, none_left]; rfl⟩

theorem not_mem_suffix {before after : List Nat} {a b : Nat} (split : order = before ++ b :: after)
    (nodup : order.Nodup) (earlier : order.idxOf a < order.idxOf b) : a ∉ b :: after := by
  subst split
  have apart := (nodup_append.1 nodup).2.2
  have fresh : b ∉ before := fun member => apart b member b mem_cons_self rfl
  rw [idxOf_append_of_notMem fresh, idxOf_cons_self] at earlier
  intro member
  have fresh_a : a ∉ before := fun inside => apart a inside a member rfl
  rw [idxOf_append_of_notMem fresh_a] at earlier
  omega

def Ready (edges : List Edge) (v : Nat) : Prop := ∀ e ∈ edges, e.2 ≠ v

theorem least_ready {rest : List Nat} {v : Nat} (sorted : rest.Pairwise (· < ·))
    (found : (rest.find? fun v => edges.all fun e => e.2 != v) = some v) :
    Ready edges v ∧ ∀ w ∈ rest, Ready edges w → v ≤ w := by
  obtain ⟨ready, before, after, rfl, blocked⟩ := List.find?_eq_some_iff_append.1 found
  simp only [all_eq_true, bne_iff_ne, ne_eq] at ready
  refine ⟨ready, ?_⟩
  intro w member free
  obtain early | late := mem_append.1 member
  · obtain ⟨e, he, into⟩ := exists_edge_of_not_ready (by simpa using blocked w early)
    exact absurd into (free e he)
  · obtain rfl | later := mem_cons.1 late
    · exact le_refl w
    · have greater := (pairwise_cons.1 (pairwise_append.1 sorted).2.1).1
      exact Nat.le_of_lt (greater w later)

theorem Forward.head_ready {w : Nat} {others : List Nat} (forward : Forward edges (w :: others)) :
    Ready edges w := by
  intro e he into
  have earlier := forward e he
  rw [into, idxOf_cons_self] at earlier
  exact Nat.not_lt_zero _ earlier

theorem Forward.tail {v : Nat} {others : List Nat} (forward : Forward edges (v :: others)) :
    Forward (edges.filter fun e => e.1 != v) others := by
  intro e he
  obtain ⟨he, other⟩ := mem_filter.1 he
  have source : v ≠ e.1 := Ne.symm (by simpa using other)
  have target : v ≠ e.2 := Ne.symm (forward.head_ready e he)
  have earlier := forward e he
  rwa [idxOf_cons_ne _ source, idxOf_cons_ne _ target, Nat.succ_lt_succ_iff] at earlier

theorem takeReady_least {k : Nat} {rest : List Nat} (sorted : rest.Pairwise (· < ·))
    (all : (takeReady k rest edges).2 = []) {other : List Nat} (perm : other.Perm rest)
    (forward : Forward edges other) : (takeReady k rest edges).1 ≤ other := by
  induction k generalizing rest edges other with
  | zero => exact not_lt.1 (not_lt_nil other)
  | succ k ih =>
    cases found : rest.find? fun v => edges.all fun e => e.2 != v with
    | none =>
      simp only [takeReady, found]
      exact not_lt.1 (not_lt_nil other)
    | some v =>
      have member : v ∈ rest := mem_of_find?_eq_some found
      obtain ⟨_, least⟩ := least_ready sorted found
      simp only [takeReady, found] at all ⊢
      cases other with
      | nil => exact absurd (perm.mem_iff.2 member) not_mem_nil
      | cons w others =>
        -- Both orders start with a ready node, and `v` is the least of those.
        obtain smaller | rfl :=
          Nat.lt_or_eq_of_le (least w (perm.mem_iff.1 mem_cons_self) forward.head_ready)
        · exact le_of_lt (List.Lex.rel smaller)
        · apply cons_le_cons
          have others_perm := (cons_perm_iff_perm_erase.1 perm).2
          exact ih (sorted.sublist erase_sublist) all others_perm forward.tail

theorem sort_least {n : Nat} {order : List Nat} (sorted : sort n edges = .ok order)
    {other : List Nat} (perm : other.Perm (List.range n)) (forward : Forward edges other) :
    order ≤ other := by
  simp only [sort] at sorted
  split at sorted
  · rename_i empty
    cases sorted
    exact takeReady_least pairwise_lt_range (isEmpty_iff.1 empty) perm forward
  · cases sorted

end MaterialShader.Dependency
