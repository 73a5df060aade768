import Mathlib.Data.List.Sort
import MaterialShader.Proofs.Dependency.Order

/-!
The order of a part of a graph.
-/

namespace MaterialShader.Dependency

open List

variable {rest : List Nat} {edges : List Edge} {v : Nat}

theorem takeReady_of_blocked (k : Nat) (blocked : ∀ v ∈ rest, ∃ e ∈ edges, e.2 = v) :
    takeReady k rest edges = ([], rest) := by
  have none_ready : (rest.find? fun v => edges.all fun e => e.2 != v) = none := by
    rw [List.find?_eq_none]
    intro v member ready
    obtain ⟨e, he, into⟩ := blocked v member
    simp only [all_eq_true, bne_iff_ne, ne_eq] at ready
    exact ready e he into
  cases k with
  | zero => rfl
  | succ k => simp only [takeReady, none_ready]

theorem takeReady_of_ready (k : Nat) {before after : List Nat} (ready : Ready edges v)
    (blocked : ∀ w ∈ before, ∃ e ∈ edges, e.2 = w) :
    takeReady (k + 1) (before ++ v :: after) edges =
      (v :: (takeReady k (before ++ after) (edges.filter fun e => e.1 != v)).1,
        (takeReady k (before ++ after) (edges.filter fun e => e.1 != v)).2) := by
  have found : ((before ++ v :: after).find? fun v => edges.all fun e => e.2 != v) = some v := by
    refine List.find?_eq_some_iff_append.2 ⟨by simpa [Ready] using ready, before, after, rfl, ?_⟩
    intro w early
    obtain ⟨e, he, rfl⟩ := blocked w early
    simpa using ⟨_, he⟩
  have fresh : v ∉ before := fun early =>
    have ⟨e, he, into⟩ := blocked v early
    ready e he into
  simp only [takeReady, found, erase_append_right _ fresh, erase_cons_head]

section

variable {keep : Nat → Bool} {f : Nat → Nat} {edges edges' : List Edge}

def Restricts (keep : Nat → Bool) (f : Nat → Nat) (edges edges' : List Edge) : Prop :=
  ∀ e', e' ∈ edges' ↔ ∃ e ∈ edges, keep e.2 ∧ (f e.1, f e.2) = e'

theorem Restricts.skip (restricts : Restricts keep f edges edges')
    (closed : ∀ e ∈ edges, keep e.2 → keep e.1) (outside : ¬ keep v) :
    Restricts keep f (edges.filter fun e => e.1 != v) edges' := by
  intro e'
  rw [restricts e']
  constructor
  · rintro ⟨e, he, into, same⟩
    have other : e.1 ≠ v := fun source => outside (source ▸ closed e he into)
    exact ⟨e, by simp [he, other], into, same⟩
  · rintro ⟨e, he, into, same⟩
    exact ⟨e, mem_of_mem_filter he, into, same⟩

theorem Restricts.take (restricts : Restricts keep f edges edges')
    (closed : ∀ e ∈ edges, keep e.2 → keep e.1) (inj : ∀ a b, keep a → keep b → f a = f b → a = b)
    (inside : keep v) :
    Restricts keep f (edges.filter fun e => e.1 != v) (edges'.filter fun e => e.1 != f v) := by
  intro e'
  simp only [mem_filter, bne_iff_ne, ne_eq, restricts e']
  constructor
  · rintro ⟨⟨e, he, into, rfl⟩, other⟩
    exact ⟨e, ⟨he, fun same => other (congrArg f same)⟩, into, rfl⟩
  · rintro ⟨e, ⟨he, other⟩, into, rfl⟩
    exact ⟨⟨e, he, into, rfl⟩, fun same => other (inj _ _ (closed e he into) inside same)⟩

theorem Restricts.blocked (restricts : Restricts keep f edges edges')
    (blocked : ∀ w ∈ rest, ∃ e ∈ edges, e.2 = w) :
    ∀ w' ∈ (rest.filter keep).map f, ∃ e' ∈ edges', e'.2 = w' := by
  intro w' member
  obtain ⟨w, kept, rfl⟩ := mem_map.1 member
  obtain ⟨early, inside⟩ := mem_filter.1 kept
  obtain ⟨e, he, rfl⟩ := blocked w early
  exact ⟨(f e.1, f e.2), (restricts _).2 ⟨e, he, inside, rfl⟩, rfl⟩

theorem takeReady_restrict (inj : ∀ a b, keep a → keep b → f a = f b → a = b) {k k' : Nat}
    (enough : rest.length ≤ k) (enough' : (rest.filter keep).length ≤ k')
    (closed : ∀ e ∈ edges, keep e.2 → keep e.1) (restricts : Restricts keep f edges edges') :
    takeReady k' ((rest.filter keep).map f) edges' =
      (((takeReady k rest edges).1.filter keep).map f,
        ((takeReady k rest edges).2.filter keep).map f) := by
  induction k generalizing k' rest edges edges' with
  | zero =>
    cases eq_nil_of_length_eq_zero (Nat.le_zero.1 enough)
    exact takeReady_of_blocked k' (by simp)
  | succ k ih =>
    cases found : rest.find? fun v => edges.all fun e => e.2 != v with
    | none =>
      have blocked : ∀ w ∈ rest, ∃ e ∈ edges, e.2 = w := fun w member =>
        exists_edge_of_not_ready (by simpa using List.find?_eq_none.1 found w member)
      rw [takeReady_of_blocked (k + 1) blocked, takeReady_of_blocked k' (restricts.blocked blocked)]
      rfl
    | some v =>
      obtain ⟨ready, before, after, rfl, early⟩ := List.find?_eq_some_iff_append.1 found
      simp only [all_eq_true, bne_iff_ne, ne_eq] at ready
      have blocked : ∀ w ∈ before, ∃ e ∈ edges, e.2 = w := fun w member =>
        exists_edge_of_not_ready (by simpa using early w member)
      have shorter : (before ++ after).length ≤ k := by
        simp only [length_append, length_cons] at enough ⊢
        omega
      have closed' : ∀ e ∈ edges.filter (fun e => e.1 != v), keep e.2 → keep e.1 := fun e he =>
        closed e (mem_of_mem_filter he)
      rw [takeReady_of_ready k ready blocked]
      by_cases inside : keep v
      · have kept : (before ++ v :: after).filter keep =
            before.filter keep ++ v :: after.filter keep := by
          rw [filter_append, filter_cons_of_pos inside]
        rw [kept, length_append, length_cons] at enough'
        obtain ⟨k', rfl⟩ : ∃ m, k' = m + 1 := Nat.exists_eq_add_one.2 (by omega)
        have ready' : Ready edges' (f v) := by
          intro e' he' into
          obtain ⟨e, he, target, rfl⟩ := (restricts e').1 he'
          exact ready e he (inj _ _ target inside into)
        have fewer : ((before ++ after).filter keep).length ≤ k' := by
          rw [filter_append, length_append]
          omega
        have step := ih shorter fewer closed' (restricts.take closed inj inside)
        rw [filter_append, map_append] at step
        rw [kept, map_append, map_cons,
          takeReady_of_ready k' ready' (restricts.blocked blocked), step,
          filter_cons_of_pos inside, map_cons]
      · have kept : (before ++ v :: after).filter keep = (before ++ after).filter keep := by
          rw [filter_append, filter_cons_of_neg inside, filter_append]
        rw [kept] at enough' ⊢
        rw [filter_cons_of_neg inside]
        exact ih shorter enough' closed' (restricts.skip closed inside)

end

variable {ids : List Nat}

theorem filter_range_mem {n : Nat} (increasing : ids.Pairwise (· < ·))
    (bounded : ∀ id ∈ ids, id < n) : ((List.range n).filter fun id => id ∈ ids) = ids := by
  apply (pairwise_lt_range.filter _).eq_of_mem_iff increasing
  intro id
  simp only [mem_filter, mem_range, decide_eq_true_eq]
  exact ⟨And.right, fun member => ⟨bounded id member, member⟩⟩

theorem map_idxOf_self (nodup : ids.Nodup) : ids.map ids.idxOf = List.range ids.length := by
  apply ext_getElem (by simp)
  intro i _ _
  simp only [getElem_map, getElem_range, nodup.idxOf_getElem]

theorem sort_restrict {n : Nat} {edges' : List Edge} {order : List Nat}
    (sorted : sort n edges = .ok order) (increasing : ids.Pairwise (· < ·))
    (bounded : ∀ id ∈ ids, id < n) (closed : ∀ e ∈ edges, e.2 ∈ ids → e.1 ∈ ids)
    (restricts : Restricts (fun id => id ∈ ids) ids.idxOf edges edges') :
    sort ids.length edges' = .ok ((order.filter fun id => id ∈ ids).map ids.idxOf) := by
  have nodup : ids.Nodup := increasing.imp Nat.ne_of_lt
  have members := filter_range_mem increasing bounded
  have inj : ∀ a b, decide (a ∈ ids) → decide (b ∈ ids) →
      ids.idxOf a = ids.idxOf b → a = b :=
    fun a b member _ => (idxOf_inj (of_decide_eq_true member)).1
  have enough : (List.range n).length ≤ n := by simp
  have fewer : ((List.range n).filter fun id => id ∈ ids).length ≤ ids.length := by rw [members]
  have runs := takeReady_restrict inj enough fewer (by simpa using closed) restricts
  rw [members, map_idxOf_self nodup] at runs
  simp only [sort] at sorted ⊢
  split at sorted
  · rename_i empty
    cases sorted
    rw [runs, isEmpty_iff.1 empty]
    rfl
  · cases sorted

end MaterialShader.Dependency
