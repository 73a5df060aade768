import MaterialShader.Proofs.Layout.Scope

/-!
Nodes that only one branch needs.
-/

namespace MaterialShader

inductive Scope.Lies (scopes : List Scope) (c : NodeId) (k : Nat) : NodeId → Prop where
  | direct {a : NodeId} : scopes[a]? = some (.branch c k) → Lies scopes c k a
  | nested {a d : NodeId} {j : Nat} : scopes[a]? = some (.branch d j) → Lies scopes c k d →
      Lies scopes c k a

theorem Scope.Lies.congr {scopes : List Scope} {c a b : NodeId} {k : Nat}
    (inside : Lies scopes c k a) (same : scopes[b]? = scopes[a]?) : Lies scopes c k b := by
  cases inside with
  | direct scope => exact .direct (same.trans scope)
  | nested scope around => exact .nested (same.trans scope) around

theorem Scope.Lies.exists_branch {scopes : List Scope} {c a : NodeId} {k : Nat}
    (inside : Lies scopes c k a) : ∃ d j, scopes[a]? = some (.branch d j) := by
  cases inside with
  | direct scope => exact ⟨c, k, scope⟩
  | nested scope _ => exact ⟨_, _, scope⟩

theorem Scope.noteAll_same {notes : List (NodeId × Scope)} {a : NodeId} {s : Scope}
    (same : ∀ x ∈ notes, x.1 = a → x.2 = s) {scopes : List (Option Scope)}
    (known : scopes[a]? = some none ∨ scopes[a]? = some (some s))
    (noted : scopes[a]? = some (some s) ∨ ∃ x ∈ notes, x.1 = a) :
    (noteAll notes scopes)[a]? = some (some s) := by
  induction notes generalizing scopes with
  | nil => simpa using noted
  | cons x notes ih =>
    obtain ⟨here, later⟩ := List.forall_mem_cons.1 same
    by_cases own : x.1 = a
    · have new : (note scopes x.1 x.2)[a]? = some (some s) := by
        rw [here own, own]
        obtain none | some := known
        · exact note_self none s
        · simpa [meet] using note_self some s
      exact ih later (.inr new) (.inl new)
    · rw [← note_of_ne scopes own x.2] at known
      refine ih later known (noted.imp ?_ ?_)
      · exact fun found => (note_of_ne scopes own x.2).trans found
      · rintro ⟨y, member, reads⟩
        obtain rfl | member := List.mem_cons.1 member
        · exact absurd reads own
        · exact ⟨y, member, reads⟩

namespace Graph

open Scope

def ReadFrom (g : Graph) (a : NodeId) (s : Scope) : Prop :=
  (a ∈ g.roots ∧ s = .everywhere) ∨
    ∃ b n, g.nodes[b]? = some n ∧ ∃ i ∈ n.inputs, ∃ k, i.source = some (.node a k) ∧
      ((∃ j, branchOf? n i = some j ∧ s = .branch b j) ∨
        (branchOf? n i = none ∧ g.scopes[b]? = some s))

/-- The second node reads the first one otherwise than in branch `k` of `c`. -/
def ReadsPast (g : Graph) (c : NodeId) (k : Nat) (a b : NodeId) : Prop :=
  ∃ n, g.nodes[b]? = some n ∧ ∃ i ∈ n.inputs, (∃ o, i.source = some (.node a o)) ∧
    ¬ (b = c ∧ branchOf? n i = some k)

/-- Every path of reads from the node to an output goes through branch `k` of `c`. -/
def Confined (g : Graph) (c : NodeId) (k : Nat) (a : NodeId) : Prop :=
  ∀ b, Relation.ReflTransGen (g.ReadsPast c k) a b → b ∉ g.roots

/-- The node is read from one scope at most. -/
def ReadOnce (g : Graph) (a : NodeId) : Prop := ∀ s s', g.ReadFrom a s → g.ReadFrom a s' → s = s'

variable {g : Graph} {c a b : NodeId} {k : Nat}

theorem Ordered.scope_of_read (ordered : g.Ordered) {s : Scope} (read : g.ReadFrom a s) :
    g.scopes[a]? = some s ∨ g.scopes[a]? = some .everywhere :=
  ordered.scope_of_note (x := (a, s)) (ordered.mem_finalNotes.2 read)

theorem Ordered.scope_of_readOnce (ordered : g.Ordered) (inside : a < g.nodes.length) {s : Scope}
    (read : g.ReadFrom a s) (once : g.ReadOnce a) : g.scopes[a]? = some s := by
  have noted : (noteAll g.finalNotes (List.replicate g.nodes.length none))[a]? = some (some s) := by
    apply noteAll_same
    · rintro ⟨_, s'⟩ member rfl
      exact once s' s (ordered.mem_finalNotes.1 member) read
    · exact .inl (by simp [inside])
    · exact .inr ⟨(a, s), ordered.mem_finalNotes.2 read, rfl⟩
  rw [finalNotes, noteAll_append, ← socketScopes_eq,
    ← noted_eq g ordered.irreflexive ordered.backward] at noted
  rw [scopes_eq, List.getElem?_map, noted]
  rfl

theorem ReadsPast.feeds (past : g.ReadsPast c k a b) : g.Feeds a b := by
  obtain ⟨n, found, i, input, ⟨o, source⟩, _⟩ := past
  exact ⟨n, found, i, input, o, source⟩

theorem Ordered.inside_of_reads (ordered : g.Ordered) (inside : Lies g.scopes c k a)
    (past : g.ReadsPast c k a b) : Lies g.scopes c k b := by
  obtain ⟨n, found, i, input, ⟨o, source⟩, elsewhere⟩ := past
  obtain ⟨d, j, scope⟩ := inside.exists_branch
  have placed {s : Scope} (read : g.ReadFrom a s) : s = .branch d j := by
    simpa [scope, eq_comm] using ordered.scope_of_read read
  cases feeds : branchOf? n i with
  | some j' =>
    have same := placed (.inr ⟨b, n, found, i, input, o, source, .inl ⟨j', feeds, rfl⟩⟩)
    rw [← same] at scope
    cases inside with
    | direct own =>
      rw [scope, Option.some.injEq, Scope.branch.injEq] at own
      exact absurd ⟨own.1, own.2 ▸ feeds⟩ elsewhere
    | nested own around =>
      rw [scope, Option.some.injEq, Scope.branch.injEq] at own
      exact own.1 ▸ around
  | none =>
    have own := known_noted (lt_of_getElem? found)
    have same := placed (.inr ⟨b, n, found, i, input, o, source, .inr ⟨feeds, own⟩⟩)
    exact inside.congr (own.trans (same ▸ scope.symm))

theorem Ordered.readOnce_of_inside (ordered : g.Ordered) (inside : Lies g.scopes c k a) :
    g.ReadOnce a := by
  obtain ⟨d, j, scope⟩ := inside.exists_branch
  have placed {s : Scope} (read : g.ReadFrom a s) : s = .branch d j := by
    simpa [scope, eq_comm] using ordered.scope_of_read read
  intro s s' read read'
  rw [placed read, placed read']

theorem Used.exists_reader (used : g.Used a) (inner : a ∉ g.roots) : ∃ b, g.Feeds a b := by
  obtain ⟨_, r, root, path⟩ := used
  cases path with
  | refl => exact absurd root inner
  | tail _ last => exact ⟨_, mem_edges.1 last⟩

theorem Ordered.inside_of_readOnce (ordered : g.Ordered)
    (used : ∀ id < g.nodes.length, g.Used id) {a : NodeId} (inner : a < g.nodes.length)
    (confined : g.Confined c k a)
    (once : ∀ m, Relation.ReflTransGen (g.ReadsPast c k) a m → g.ReadOnce m) :
    Lies g.scopes c k a := by
  obtain ⟨b, n, found, i, input, o, source⟩ := (used a inner).exists_reader (confined a .refl)
  have placed {s : Scope} (read : g.ReadFrom a s) : g.scopes[a]? = some s :=
    ordered.scope_of_readOnce inner read (once a .refl)
  by_cases here : b = c ∧ branchOf? n i = some k
  · obtain ⟨rfl, feeds⟩ := here
    exact .direct (placed (.inr ⟨b, n, found, i, input, o, source, .inl ⟨k, feeds, rfl⟩⟩))
  · have past : g.ReadsPast c k a b := ⟨n, found, i, input, ⟨o, source⟩, here⟩
    have bound : b < g.nodes.length := lt_of_getElem? found
    have later := ordered.forward a b past.feeds
    have last : g.order.idxOf b < g.order.length :=
      List.idxOf_lt_length_iff.2 (ordered.mem_order.2 bound)
    have around : Lies g.scopes c k b := ordered.inside_of_readOnce used bound
      (fun m path => confined m (.head past path)) (fun m path => once m (.head past path))
    cases feeds : branchOf? n i with
    | some j =>
      exact .nested (placed (.inr ⟨b, n, found, i, input, o, source, .inl ⟨j, feeds, rfl⟩⟩)) around
    | none =>
      have own := known_noted bound
      exact around.congr
        ((placed (.inr ⟨b, n, found, i, input, o, source, .inr ⟨feeds, own⟩⟩)).trans own.symm)
termination_by g.order.length - g.order.idxOf a

theorem Ordered.inside_iff (ordered : g.Ordered) (used : ∀ id < g.nodes.length, g.Used id)
    (inner : a < g.nodes.length) (confined : g.Confined c k a) : Lies g.scopes c k a ↔
      ∀ m, Relation.ReflTransGen (g.ReadsPast c k) a m → g.ReadOnce m := by
  refine ⟨fun inside m path => ?_, ordered.inside_of_readOnce used inner confined⟩
  have reached : Lies g.scopes c k m := by
    induction path with
    | refl => exact inside
    | tail _ past ih => exact ordered.inside_of_reads ih past
  exact ordered.readOnce_of_inside reached

end Graph

end MaterialShader
