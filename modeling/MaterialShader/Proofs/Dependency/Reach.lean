import Mathlib.Logic.Relation
import MaterialShader.Dependency

/-!
What is reached from the roots:
-/

namespace MaterialShader.Dependency

open List

def DependsOn (edges : List Edge) : Nat → Nat → Prop :=
  Relation.ReflTransGen fun a b => (b, a) ∈ edges

def readBy (edges : List Edge) (v : Nat) : List Nat :=
  (edges.filter fun e => e.2 == v).map Prod.fst

variable {edges : List Edge}

theorem mem_readBy {u v : Nat} : u ∈ readBy edges v ↔ (u, v) ∈ edges := by
  simp [readBy]

def unseenCount (edges : List Edge) (seen : List Nat) : Nat :=
  edges.countP fun e => decide (e.2 ∉ seen)

theorem readBy_add_unseenCount (edges : List Edge) (seen : List Nat) (v : Nat) (new : v ∉ seen) :
    (readBy edges v).length + unseenCount edges (v :: seen) = unseenCount edges seen := by
  rw [readBy, length_map, ← countP_eq_length_filter]
  simp only [unseenCount]
  induction edges with
  | nil => rfl
  | cons e rest ih =>
    simp only [countP_cons, ← ih]
    by_cases into : e.2 = v
    · simp [into, new]
      omega
    · by_cases known : e.2 ∈ seen
      · simp [into, known]
      · simp [into, known]
        omega

theorem visit_sound (edges : List Edge) (k : Nat) (pending seen : List Nat) (v : Nat)
    (found : v ∈ visit edges k pending seen) :
    v ∈ seen ∨ ∃ p ∈ pending, DependsOn edges p v := by
  induction k generalizing pending seen with
  | zero => exact .inl found
  | succ k ih =>
    cases pending with
    | nil => exact .inl found
    | cons p pending =>
      rw [visit] at found
      split at found
      · obtain known | ⟨q, member, path⟩ := ih pending seen found
        · exact .inl known
        · exact .inr ⟨q, mem_cons_of_mem p member, path⟩
      · obtain known | ⟨q, member, path⟩ := ih _ _ found
        · obtain rfl | known := mem_cons.1 known
          · exact .inr ⟨v, .head _, .refl⟩
          · exact .inl known
        · obtain read | later := mem_append.1 member
          · have edge : (q, p) ∈ edges := mem_readBy.1 read
            exact .inr ⟨p, .head _, .head edge path⟩
          · exact .inr ⟨q, mem_cons_of_mem p later, path⟩

def Covered (edges : List Edge) (pending seen : List Nat) : Prop :=
  ∀ e ∈ edges, e.2 ∈ seen → e.1 ∈ seen ∨ e.1 ∈ pending

theorem Covered.skip {p : Nat} {pending seen : List Nat}
    (covered : Covered edges (p :: pending) seen) (known : p ∈ seen) :
    Covered edges pending seen := by
  intro e he into
  obtain inside | outside := covered e he into
  · exact .inl inside
  · obtain same | later := mem_cons.1 outside
    · exact .inl (same ▸ known)
    · exact .inr later

theorem Covered.take {p : Nat} {pending seen : List Nat}
    (covered : Covered edges (p :: pending) seen) :
    Covered edges (readBy edges p ++ pending) (p :: seen) := by
  intro e he into
  obtain same | inside := mem_cons.1 into
  · exact .inr (mem_append_left _ (mem_readBy.2 (same ▸ he)))
  · obtain inside | outside := covered e he inside
    · exact .inl (mem_cons_of_mem p inside)
    · obtain same | later := mem_cons.1 outside
      · exact .inl (same ▸ (.head _))
      · exact .inr (mem_append_right _ later)

theorem visit_complete (edges : List Edge) (k : Nat) (pending seen : List Nat)
    (enough : pending.length + unseenCount edges seen ≤ k) (covered : Covered edges pending seen) :
    (∀ v ∈ seen, v ∈ visit edges k pending seen) ∧
      (∀ v ∈ pending, v ∈ visit edges k pending seen) ∧
      ∀ e ∈ edges, e.2 ∈ visit edges k pending seen → e.1 ∈ visit edges k pending seen := by
  induction k generalizing pending seen with
  | zero =>
    have none_pending : pending = [] := eq_nil_of_length_eq_zero (by omega)
    subst none_pending
    refine ⟨fun v known => known, by simp, ?_⟩
    intro e he known
    simpa [visit] using covered e he known
  | succ k ih =>
    cases pending with
    | nil =>
      refine ⟨fun v known => known, by simp, ?_⟩
      intro e he known
      simpa [visit] using covered e he known
    | cons p pending =>
      rw [visit]
      split
      · rename_i known
        have known : p ∈ seen := by simpa using known
        have step := ih pending seen (by simp only [length_cons] at enough; omega)
          (covered.skip known)
        refine ⟨step.1, ?_, step.2.2⟩
        intro v member
        obtain rfl | later := mem_cons.1 member
        · exact step.1 v known
        · exact step.2.1 v later
      · rename_i new
        have new : p ∉ seen := by simpa using new
        -- Reads of `p` come in and leave the unseen ones, so the measure falls by one.
        have count := readBy_add_unseenCount edges seen p new
        have step := ih (readBy edges p ++ pending) (p :: seen)
          (by simp only [length_append, length_cons] at enough ⊢; omega) covered.take
        refine ⟨fun v known => step.1 v (mem_cons_of_mem p known), ?_, step.2.2⟩
        intro v member
        obtain rfl | later := mem_cons.1 member
        · exact step.1 v mem_cons_self
        · exact step.2.1 v (mem_append_right _ later)

theorem reached_spec (edges : List Edge) (roots : List Nat) :
    (∀ r ∈ roots, r ∈ reached edges roots) ∧
      ∀ e ∈ edges, e.2 ∈ reached edges roots → e.1 ∈ reached edges roots := by
  have all := visit_complete edges (roots.length + edges.length) roots []
    (Nat.add_le_add_left countP_le_length _) (by simp [Covered])
  exact ⟨all.2.1, all.2.2⟩

theorem mem_reached_iff {roots : List Nat} {v : Nat} :
    v ∈ reached edges roots ↔ ∃ r ∈ roots, DependsOn edges r v := by
  constructor
  · intro found
    simpa using visit_sound edges _ roots [] v found
  · rintro ⟨r, root, path⟩
    obtain ⟨start, closed⟩ := reached_spec edges roots
    induction path with
    | refl => exact start r root
    | tail _ edge ih => exact closed _ edge ih

@[simp] theorem reachable_length (n : Nat) (edges : List Edge) (roots : List Nat) :
    (reachable n edges roots).length = n := by simp [reachable]

theorem reachable_getElem? {n : Nat} {roots : List Nat} {v : Nat} :
    (reachable n edges roots)[v]? = some true ↔ v < n ∧ v ∈ reached edges roots := by
  simp only [reachable, List.getElem?_map, Option.map_eq_some_iff, contains_iff_mem]
  constructor
  · rintro ⟨w, at_w, member⟩
    obtain ⟨bound, rfl⟩ := List.getElem?_eq_some_iff.1 at_w
    exact ⟨by simpa using bound, by simpa using member⟩
  · rintro ⟨bound, member⟩
    exact ⟨v, by simp [bound], member⟩

end MaterialShader.Dependency
