import Mathlib.Data.Fintype.Basic
import Mathlib.Data.Set.Finite.List
import Mathlib.Order.WellFounded
import Mathlib.Order.RelClasses
import MaterialShader.Proofs.Dependency.Order

/-!
Cycles of a directed graph, and what `sort` says about them.
-/

namespace MaterialShader.Dependency

open List

variable {edges : List Edge} {v a : Nat} {rest : List Nat}

def OnCycle (edges : List Edge) (v : Nat) : Prop := Relation.TransGen (Leads edges) v v

/-- The node lies on a way from a cycle to a cycle, the ends of which may be the node itself. -/
def BetweenCycles (edges : List Edge) (v : Nat) : Prop :=
  ∃ a b, OnCycle edges a ∧ Relation.ReflTransGen (Leads edges) a v ∧
    Relation.ReflTransGen (Leads edges) v b ∧ OnCycle edges b

theorem OnCycle.between (cycle : OnCycle edges v) :
    BetweenCycles edges v := ⟨v, v, cycle, .refl, .refl, cycle⟩

theorem exists_cycle {R : Nat → Nat → Prop} (onward : ∀ v ∈ rest, ∃ w ∈ rest, R v w)
    (member : v ∈ rest) : ∃ c, Relation.ReflTransGen R v c ∧ Relation.TransGen R c c := by
  by_contra none
  have acyclic : ∀ c, Relation.ReflTransGen R v c → ¬ Relation.TransGen R c c :=
    fun c path cycle => none ⟨c, path, cycle⟩
  let Ahead := { w // w ∈ rest ∧ Relation.ReflTransGen R v w }
  let Below (a b : Ahead) : Prop := Relation.TransGen R b.1 a.1
  have finite : Finite Ahead :=
    Set.Finite.subset (finite_toSet rest) fun w ahead => ahead.1
  have irreflexive : Std.Irrefl Below := ⟨fun a cycle => acyclic a.1 a.2.2 cycle⟩
  have transitive : IsTrans Ahead Below := ⟨fun _ _ _ first second => second.trans first⟩
  -- A node ahead of which nothing lies would have no way on.
  obtain ⟨last, _, least⟩ := (Finite.wellFounded_of_trans_of_irrefl Below).has_min Set.univ
    ⟨⟨v, member, .refl⟩, trivial⟩
  obtain ⟨w, inside, step⟩ := onward last.1 last.2.1
  exact least ⟨w, inside, last.2.2.tail step⟩ trivial (.single step)

section

variable {k : Nat}

theorem takeReady_left_sublist (k : Nat) (rest : List Nat) (edges : List Edge) :
    (takeReady k rest edges).2.Sublist rest := by
  induction k generalizing rest edges with
  | zero => exact List.Sublist.refl rest
  | succ k ih =>
    rw [takeReady]
    split
    · exact List.Sublist.refl rest
    · exact (ih _ _).trans erase_sublist

theorem taken_of_leads {b : Nat} (path : Relation.TransGen (Leads edges) a b)
    (taken : b ∈ (takeReady k rest edges).1) :
    a ∈ (takeReady k rest edges).1 ∧
      (takeReady k rest edges).1.idxOf a < (takeReady k rest edges).1.idxOf b := by
  induction path using Relation.TransGen.head_induction_on with
  | single edge =>
    have earlier := takeReady_forward k rest edges _ edge taken
    exact ⟨idxOf_lt_length_iff.1 (earlier.trans (idxOf_lt_length_iff.2 taken)), earlier⟩
  | head edge _ ih =>
    have earlier := takeReady_forward k rest edges _ edge ih.1
    exact ⟨idxOf_lt_length_iff.1 (earlier.trans (idxOf_lt_length_iff.2 ih.1)),
      earlier.trans ih.2⟩

theorem mem_left_iff (nodup : rest.Nodup) (member : v ∈ rest) :
    v ∈ (takeReady k rest edges).2 ↔ v ∉ (takeReady k rest edges).1 := by
  have perm := takeReady_perm k rest edges
  have apart := (nodup_append.1 (perm.nodup_iff.2 nodup)).2.2
  constructor
  · exact fun left taken => apart v taken v left rfl
  · exact (mem_append.1 (perm.mem_iff.2 member)).resolve_left

theorem left_of_onCycle (nodup : rest.Nodup) (member : v ∈ rest) (cycle : OnCycle edges v) :
    v ∈ (takeReady k rest edges).2 := by
  rw [mem_left_iff nodup member]
  intro taken
  exact Nat.lt_irrefl _ (taken_of_leads cycle taken).2

theorem left_of_leads (nodup : rest.Nodup) (targets : ∀ e ∈ edges, e.2 ∈ rest) {b : Nat}
    (left : a ∈ (takeReady k rest edges).2) (path : Relation.ReflTransGen (Leads edges) a b) :
    b ∈ (takeReady k rest edges).2 := by
  induction path with
  | refl => exact left
  | tail _ edge ih =>
    rw [mem_left_iff nodup (targets _ edge)]
    intro taken
    have source := (takeReady_left_sublist k rest edges).subset ih
    exact (mem_left_iff nodup source).1 ih (taken_of_leads (.single edge) taken).1

end

theorem dropSinks_sublist (edges : List Edge) (k : Nat) (rest : List Nat) :
    (dropSinks edges k rest).Sublist rest := by
  induction k generalizing rest with
  | zero => exact List.Sublist.refl rest
  | succ k ih =>
    simp only [dropSinks]
    split
    · exact List.Sublist.refl rest
    · exact (ih _).trans filter_sublist

theorem dropSinks_onward {k : Nat} (enough : rest.length ≤ k) :
    ∀ v ∈ dropSinks edges k rest, ∃ w ∈ dropSinks edges k rest, Leads edges v w := by
  induction k generalizing rest with
  | zero =>
    cases eq_nil_of_length_eq_zero (Nat.le_zero.1 enough)
    simp [dropSinks]
  | succ k ih =>
    simp only [dropSinks]
    split
    · rename_i full
      intro v member
      have leads := length_filter_eq_length_iff.1 full v member
      simp only [any_eq_true, Bool.and_eq_true, beq_iff_eq, contains_iff_mem] at leads
      obtain ⟨e, he, rfl, inside⟩ := leads
      exact ⟨e.2, inside, he⟩
    · rename_i shrunk
      apply ih
      have shorter := Nat.lt_of_le_of_ne (length_filter_le _ rest) shrunk
      omega

theorem dropSinks_keeps {k : Nat} {S : Nat → Prop}
    (onward : ∀ v ∈ rest, S v → ∃ w ∈ rest, S w ∧ Leads edges v w) (member : v ∈ rest) (holds : S v) :
    v ∈ dropSinks edges k rest := by
  induction k generalizing rest with
  | zero => exact member
  | succ k ih =>
    simp only [dropSinks]
    split
    · exact member
    · have kept : ∀ u ∈ rest, S u →
          u ∈ rest.filter fun v => edges.any fun e => e.1 == v && rest.contains e.2 := by
        intro u inside holds
        obtain ⟨w, ahead, _, edge⟩ := onward u inside holds
        simp only [mem_filter, any_eq_true, Bool.and_eq_true, beq_iff_eq,
          contains_iff_mem]
        exact ⟨inside, (u, w), edge, rfl, ahead⟩
      apply ih _ (kept v member holds)
      intro u inside holds
      obtain ⟨w, ahead, also, edge⟩ := onward u (mem_of_mem_filter inside) holds
      exact ⟨w, kept w ahead also, also, edge⟩

section

variable {n : Nat}

theorem sort_eq_ok_iff : (∃ order, sort n edges = .ok order) ↔
    (takeReady n (List.range n) edges).2 = [] := by
  simp only [sort]
  split
  · rename_i empty
    exact ⟨fun _ => isEmpty_iff.1 empty, fun _ => ⟨_, rfl⟩⟩
  · rename_i left
    constructor
    · rintro ⟨_, ⟨⟩⟩
    · exact fun empty => absurd (isEmpty_iff.2 empty) left

theorem sort_error {nodes : List Nat} (failed : sort n edges = .error nodes) :
    (takeReady n (List.range n) edges).2 ≠ [] ∧
      nodes = dropSinks edges n (takeReady n (List.range n) edges).2 := by
  simp only [sort] at failed
  split at failed
  · cases failed
  · rename_i left
    cases failed
    exact ⟨fun empty => left (isEmpty_iff.2 empty), rfl⟩

theorem exists_cycle_behind (inside : ∀ e ∈ edges, e.1 < n ∧ e.2 < n)
    (left : v ∈ (takeReady n (List.range n) edges).2) :
    ∃ c, OnCycle edges c ∧ Relation.ReflTransGen (Leads edges) c v := by
  have sources : ∀ e ∈ edges, e.1 ∈ List.range n := fun e he => mem_range.2 (inside e he).1
  have blocked := takeReady_blocked (k := n) (by simp) sources
  obtain ⟨c, path, cycle⟩ := exists_cycle (R := Function.swap (Leads edges)) blocked left
  exact ⟨c, Relation.transGen_swap.1 cycle, Relation.reflTransGen_swap.1 path⟩

theorem left_of_between (inside : ∀ e ∈ edges, e.1 < n ∧ e.2 < n) (cycle : OnCycle edges a)
    (path : Relation.ReflTransGen (Leads edges) a v) :
    v ∈ (takeReady n (List.range n) edges).2 := by
  obtain ⟨b, edge, _⟩ := Relation.TransGen.head'_iff.1 cycle
  have start := left_of_onCycle (k := n) nodup_range (mem_range.2 (inside _ edge).1) cycle
  exact left_of_leads nodup_range (fun e he => mem_range.2 (inside e he).2) start path

theorem mem_dropSinks_iff (inside : ∀ e ∈ edges, e.1 < n ∧ e.2 < n) :
    v ∈ dropSinks edges n (takeReady n (List.range n) edges).2 ↔ BetweenCycles edges v := by
  have short : (takeReady n (List.range n) edges).2.length ≤ n := by
    simpa using (takeReady_left_sublist n (List.range n) edges).length_le
  constructor
  · intro kept
    have left := (dropSinks_sublist edges n _).subset kept
    obtain ⟨a, cycle, path⟩ := exists_cycle_behind inside left
    obtain ⟨b, path', cycle'⟩ := exists_cycle (dropSinks_onward short) kept
    exact ⟨a, b, cycle, path, path', cycle'⟩
  · rintro ⟨a, b, cycle, path, path', cycle'⟩
    apply dropSinks_keeps (S := fun u => ∃ c, Relation.ReflTransGen (Leads edges) u c ∧
      OnCycle edges c) _ (left_of_between inside cycle path) ⟨b, path', cycle'⟩
    -- The first step on the way to a cycle, or around it, leads to a node of the same kind.
    rintro u left ⟨c, ahead, around⟩
    have onward : ∃ w, Leads edges u w ∧ Relation.ReflTransGen (Leads edges) w c := by
      obtain rfl | ⟨w, edge, later⟩ := Relation.ReflTransGen.cases_head ahead
      · exact Relation.TransGen.head'_iff.1 around
      · exact ⟨w, edge, later⟩
    obtain ⟨w, edge, later⟩ := onward
    have also := left_of_leads nodup_range (fun e he => mem_range.2 (inside e he).2) left
      (.single edge)
    exact ⟨w, also, ⟨c, later, around⟩, edge⟩

end

/-- There is an order exactly if there is no cycle, and then it is the least of those that respect
the edges; otherwise the answer is the nodes on and between cycles, in increasing order. -/
theorem sort_exact (n : Nat) (edges : List Edge) (inside : ∀ e ∈ edges, e.1 < n ∧ e.2 < n) :
    ((∃ order, sort n edges = .ok order) ↔ ∀ v, ¬ OnCycle edges v) ∧
    (∀ order, sort n edges = .ok order → order.Perm (List.range n) ∧ Forward edges order ∧
      ∀ other : List Nat, other.Perm (List.range n) → Forward edges other → order ≤ other) ∧
    ∀ nodes, sort n edges = .error nodes → nodes ≠ [] ∧ nodes.Pairwise (· < ·) ∧
      ∀ v, v ∈ nodes ↔ BetweenCycles edges v := by
  refine ⟨?_, ?_, ?_⟩
  · rw [sort_eq_ok_iff, List.eq_nil_iff_forall_not_mem]
    constructor
    · exact fun none v cycle => none v (left_of_between inside cycle .refl)
    · intro acyclic v left
      obtain ⟨c, cycle, _⟩ := exists_cycle_behind inside left
      exact acyclic c cycle
  · intro order sorted
    exact ⟨sort_perm sorted, sort_forward sorted fun e he => (inside e he).2,
      fun _ perm forward => sort_least sorted perm forward⟩
  · intro nodes failed
    obtain ⟨left, rfl⟩ := sort_error failed
    refine ⟨?_, ?_, fun v => mem_dropSinks_iff inside⟩
    · obtain ⟨v, member⟩ := List.exists_mem_of_ne_nil _ left
      obtain ⟨c, cycle, _⟩ := exists_cycle_behind inside member
      exact List.ne_nil_of_mem ((mem_dropSinks_iff inside).2 cycle.between)
    · exact List.pairwise_lt_range.sublist
        ((dropSinks_sublist edges n _).trans (takeReady_left_sublist n _ edges))

/-- Two nodes that read each other, a node between them and one that reads itself, and nodes in
front, behind and aside; one edge comes twice. -/
def twoLoops : List Edge := [(0, 1), (1, 2), (1, 2), (2, 1), (2, 3), (3, 4), (4, 4), (4, 5), (6, 5)]

theorem sort_exact_twoLoops :
    (∀ e ∈ twoLoops, e.1 < 7 ∧ e.2 < 7) ∧ sort 7 twoLoops = .error [1, 2, 3, 4] ∧
      (∀ v, v ∈ [1, 2, 3, 4] ↔ BetweenCycles twoLoops v) ∧
      ∀ other : List Nat, other.Perm (List.range 4) → Forward [(3, 0), (3, 0), (2, 1)] other →
        [2, 1, 3, 0] ≤ other := by
  have inside : ∀ e ∈ twoLoops, e.1 < 7 ∧ e.2 < 7 := by decide
  have failed : sort 7 twoLoops = .error [1, 2, 3, 4] := by decide
  have sorted : sort 4 [(3, 0), (3, 0), (2, 1)] = .ok [2, 1, 3, 0] := by decide
  exact ⟨inside, failed, ((sort_exact 7 twoLoops inside).2.2 _ failed).2.2,
    ((sort_exact 4 [(3, 0), (3, 0), (2, 1)] (by decide)).2.1 _ sorted).2.2⟩

end MaterialShader.Dependency
