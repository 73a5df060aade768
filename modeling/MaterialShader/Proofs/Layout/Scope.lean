import MaterialShader.Layout
import MaterialShader.Proofs.Graph.Prune

/-!
The scope of a node agrees with all places from which the node is read:
-/

namespace MaterialShader

open List

variable {id : NodeId} {x : NodeId × Scope} {g : Graph}

namespace Scope

def noteAll (notes : List (NodeId × Scope)) (scopes : List (Option Scope)) : List (Option Scope) :=
  notes.foldl (fun acc x => note acc x.1 x.2) scopes

@[simp] theorem noteAll_nil (scopes : List (Option Scope)) : noteAll [] scopes = scopes := rfl

@[simp] theorem noteAll_cons (x : NodeId × Scope) (notes : List (NodeId × Scope))
    (scopes : List (Option Scope)) :
    noteAll (x :: notes) scopes = noteAll notes (note scopes x.1 x.2) := rfl

theorem noteAll_append (first second : List (NodeId × Scope)) (scopes : List (Option Scope)) :
    noteAll (first ++ second) scopes = noteAll second (noteAll first scopes) := by
  simp [noteAll]

@[simp] theorem note_length (scopes : List (Option Scope)) (id : NodeId) (s : Scope) :
    (note scopes id s).length = scopes.length := by
  simp [note]

@[simp] theorem noteAll_length (notes : List (NodeId × Scope)) (scopes : List (Option Scope)) :
    (noteAll notes scopes).length = scopes.length := by
  induction notes generalizing scopes with
  | nil => rfl
  | cons x notes ih => simp [ih]

variable {scopes : List (Option Scope)} {notes : List (NodeId × Scope)}

theorem note_self {known : Option Scope} (found : scopes[id]? = some known) (s : Scope) :
    (note scopes id s)[id]? = some (some (meet known s)) := by
  simp [note, found]

theorem note_of_ne (scopes : List (Option Scope)) {a : NodeId} (other : id ≠ a) (s : Scope) :
    (note scopes id s)[a]? = scopes[a]? := by
  simp [note, other]

theorem noteAll_of_ne {a : NodeId} (others : ∀ x ∈ notes, x.1 ≠ a) (scopes : List (Option Scope)) :
    (noteAll notes scopes)[a]? = scopes[a]? := by
  induction notes generalizing scopes with
  | nil => rfl
  | cons x notes ih =>
    obtain ⟨here, later⟩ := forall_mem_cons.1 others
    rw [noteAll_cons, ih later, note_of_ne scopes here]

structure Agreed (scopes : List (Option Scope)) (notes : List (NodeId × Scope)) : Prop where
  kept : ∀ x ∈ notes, scopes[x.1]? = some (some x.2) ∨ scopes[x.1]? = some (some .everywhere)
  noted : ∀ a s, scopes[a]? = some (some s) → s ≠ .everywhere → (a, s) ∈ notes

theorem meet_new (known : Option Scope) (s : Scope) :
    meet known s = s ∨ meet known s = .everywhere := by
  cases known with
  | none => exact .inl rfl
  | some t =>
    simp only [meet]
    split_ifs
    · exact .inl rfl
    · exact .inr rfl

theorem meet_old (t s : Scope) : meet (some t) s = t ∨ meet (some t) s = .everywhere := by
  simp only [meet]
  split_ifs with equal
  · exact .inl equal.symm
  · exact .inr rfl

theorem Agreed.note (agreed : Agreed scopes notes) (inside : x.1 < scopes.length) :
    Agreed (note scopes x.1 x.2) (notes ++ [x]) := by
  obtain ⟨a, s⟩ := x
  obtain ⟨known, found⟩ : ∃ known, scopes[a]? = some known := ⟨_, List.getElem?_eq_getElem inside⟩
  have self := note_self found s
  constructor
  · intro y member
    obtain old | new := mem_append.1 member
    · by_cases same : a = y.1
      · have before := agreed.kept y old
        rw [← same, found, Option.some.injEq, Option.some.injEq] at before
        rw [← same, self]
        obtain rfl | rfl := before
        · simpa using meet_old y.2 s
        · have still := (or_self_iff).1 (meet_old .everywhere s)
          exact .inr (by rw [still])
      · rw [note_of_ne scopes same]
        exact agreed.kept y old
    · cases mem_singleton.1 new
      simpa [self] using meet_new known s
  · intro b t at_b inner
    by_cases same : a = b
    · subst same
      rw [self, Option.some.injEq, Option.some.injEq] at at_b
      have new := (meet_new known s).resolve_right (at_b ▸ inner)
      rw [← at_b, new]
      simp
    · rw [note_of_ne scopes same] at at_b
      exact mem_append_left _ (agreed.noted b t at_b inner)

theorem Agreed.noteAll {before : List (NodeId × Scope)} (agreed : Agreed scopes before)
    (inside : ∀ x ∈ notes, x.1 < scopes.length) :
    Agreed (noteAll notes scopes) (before ++ notes) := by
  induction notes generalizing scopes before with
  | nil => simpa using agreed
  | cons x notes ih =>
    obtain ⟨here, later⟩ := forall_mem_cons.1 inside
    have rest := ih (agreed.note here) (by simpa using later)
    simpa using rest

def inputNote (id : NodeId) (n : GraphNode) (own : Scope) (i : Input) : Option (NodeId × Scope) :=
  match i.source with
  | some (.node source _) =>
    some (source,
      match branchOf? n i with
      | some k => .branch id k
      | none => own)
  | _ => none

theorem noteInputs_eq (id : NodeId) (n : GraphNode) (own : Scope) (scopes : List (Option Scope)) :
    noteInputs id n own scopes = noteAll (n.inputs.filterMap (inputNote id n own)) scopes := by
  unfold noteInputs
  generalize n.inputs = inputs
  induction inputs generalizing scopes with
  | nil => rfl
  | cons i rest ih =>
    rw [foldl_cons, ih]
    cases source : i.source with
    | none => simp [inputNote, source]
    | some read =>
      cases read with
      | socket k => simp [inputNote, source]
      | node a k => cases feeds : branchOf? n i <;> simp [inputNote, source, feeds]

theorem known_congr {scopes' : List (Option Scope)} (same : scopes'[id]? = scopes[id]?) :
    known scopes' id = known scopes id := by
  simp only [known, getD_eq_getElem?_getD, same]

end Scope

namespace Graph

open Scope

structure Ordered (g : Graph) : Prop where
  perm : g.order.Perm (List.range g.nodes.length)
  forward : ∀ a b, g.Feeds a b → g.order.idxOf a < g.order.idxOf b
  feeders : ∀ a b, g.Feeds a b → a < g.nodes.length
  roots : ∀ a ∈ g.roots, a < g.nodes.length

def socketNotes (g : Graph) : List (NodeId × Scope) := g.roots.map fun a => (a, .everywhere)

def nodeNotes (g : Graph) (own : NodeId → Scope) (id : NodeId) : List (NodeId × Scope) :=
  match g.nodes[id]? with
  | some n => n.inputs.filterMap (inputNote id n (own id))
  | none => []

variable {own : NodeId → Scope}

theorem mem_nodeNotes :
    x ∈ g.nodeNotes own id ↔ ∃ n, g.nodes[id]? = some n ∧ ∃ i ∈ n.inputs, ∃ k,
      i.source = some (.node x.1 k) ∧
        x.2 = match branchOf? n i with
          | some k => .branch id k
          | none => own id := by
  unfold nodeNotes
  cases found : g.nodes[id]? with
  | none => simp
  | some n =>
    simp only [mem_filterMap, Option.some.injEq, exists_eq_left']
    apply exists_congr
    intro i
    apply and_congr_right
    intro _
    obtain ⟨a, s⟩ := x
    unfold inputNote
    split
    · rename_i b k source
      simp only [Option.some.injEq, Prod.mk.injEq, source, Source.node.injEq]
      constructor
      · rintro ⟨rfl, rfl⟩
        exact ⟨k, ⟨rfl, rfl⟩, rfl⟩
      · rintro ⟨_, ⟨rfl, _⟩, rfl⟩
        exact ⟨rfl, rfl⟩
    · rename_i other
      simp only [reduceCtorEq, false_iff]
      rintro ⟨k, source, _⟩
      exact other a k source

theorem feeds_of_mem_nodeNotes (member : x ∈ g.nodeNotes own id) : g.Feeds x.1 id := by
  obtain ⟨n, found, i, input, k, source, _⟩ := mem_nodeNotes.1 member
  exact ⟨n, found, i, input, k, source⟩

theorem nodeNotes_congr {own' : NodeId → Scope} (same : own' id = own id) :
    g.nodeNotes own' id = g.nodeNotes own id := by
  unfold nodeNotes
  rw [same]

theorem socketScopes_eq (g : Graph) :
    g.socketScopes = noteAll g.socketNotes (List.replicate g.nodes.length none) := by
  unfold socketScopes socketNotes roots
  generalize List.replicate g.nodes.length none = scopes
  generalize g.outputSockets = sockets
  induction sockets generalizing scopes with
  | nil => rfl
  | cons s rest ih =>
    rw [foldl_cons, ih]
    cases source : s.source with
    | none => simp [source]
    | some read => cases read <;> simp [source]

def noted (g : Graph) (scopes : List (Option Scope)) (ids : List NodeId) : List (Option Scope) :=
  ids.foldl (fun acc id => noteAll (g.nodeNotes (known acc) id) acc) scopes

theorem scopes_eq (g : Graph) :
    g.scopes = (g.noted g.socketScopes g.order.reverse).map fun s => s.getD .everywhere := by
  unfold scopes noted
  dsimp only
  congr 2
  funext acc id
  unfold nodeNotes
  cases g.nodes[id]? with
  | none => rfl
  | some n => exact noteInputs_eq id n _ acc

theorem noted_eq (g : Graph) {ids : List NodeId} (irreflexive : ∀ id, ¬ g.Feeds id id)
    (backward : ids.Pairwise fun b c => ¬ g.Feeds b c) (scopes : List (Option Scope)) :
    g.noted scopes ids =
      noteAll (ids.flatMap (g.nodeNotes (known (g.noted scopes ids)))) scopes := by
  induction ids generalizing scopes with
  | nil => rfl
  | cons b rest ih =>
    obtain ⟨first, later⟩ := pairwise_cons.1 backward
    let next := noteAll (g.nodeNotes (known scopes) b) scopes
    have step : g.noted scopes (b :: rest) = g.noted next rest := rfl
    have tail := ih later next
    have unread : ∀ x ∈ rest.flatMap (g.nodeNotes (known (g.noted next rest))), x.1 ≠ b := by
      rintro x member rfl
      obtain ⟨c, after, note⟩ := mem_flatMap.1 member
      exact first c after (feeds_of_mem_nodeNotes note)
    have own : ∀ x ∈ g.nodeNotes (known scopes) b, x.1 ≠ b := by
      rintro x note rfl
      exact irreflexive _ (feeds_of_mem_nodeNotes note)
    have settled : known (g.noted next rest) b = known scopes b := by
      apply known_congr
      rw [tail, noteAll_of_ne unread, noteAll_of_ne own]
    rw [step, flatMap_cons, noteAll_append, nodeNotes_congr settled]
    exact tail

section

theorem Ordered.nodup (ordered : g.Ordered) : g.order.Nodup :=
  ordered.perm.nodup_iff.2 nodup_range

theorem Ordered.mem_order (ordered : g.Ordered) {a : NodeId} :
    a ∈ g.order ↔ a < g.nodes.length := by
  rw [ordered.perm.mem_iff, mem_range]

theorem Ordered.irreflexive (ordered : g.Ordered) (id : NodeId) : ¬ g.Feeds id id :=
  fun feeds => Nat.lt_irrefl _ (ordered.forward id id feeds)

theorem pairwise_idxOf {order : List Nat} (nodup : order.Nodup) :
    order.Pairwise fun a b => order.idxOf a < order.idxOf b := by
  rw [pairwise_iff_getElem]
  intro i j hi hj before
  rwa [nodup.idxOf_getElem i hi, nodup.idxOf_getElem j hj]

theorem Ordered.backward (ordered : g.Ordered) :
    g.order.reverse.Pairwise fun b c => ¬ g.Feeds b c := by
  rw [pairwise_reverse]
  refine (pairwise_idxOf ordered.nodup).imp ?_
  intro c b before feeds
  have after := ordered.forward b c feeds
  omega

def finalNotes (g : Graph) : List (NodeId × Scope) :=
  g.socketNotes ++ g.order.reverse.flatMap
    (g.nodeNotes (known (g.noted g.socketScopes g.order.reverse)))

theorem Ordered.agreed (ordered : g.Ordered) :
    Agreed (g.noted g.socketScopes g.order.reverse) g.finalNotes := by
  have start : Agreed (List.replicate g.nodes.length none) [] := by
    constructor
    · simp
    · intro a s found
      rw [List.getElem?_replicate] at found
      split_ifs at found
      cases found
  have inside : ∀ x ∈ g.finalNotes, x.1 < g.nodes.length := by
    intro x member
    obtain socket | node := mem_append.1 member
    · obtain ⟨a, root, rfl⟩ := mem_map.1 socket
      exact ordered.roots a root
    · obtain ⟨b, _, note⟩ := mem_flatMap.1 node
      exact ordered.feeders _ b (feeds_of_mem_nodeNotes note)
  have all : Agreed (noteAll g.finalNotes _) ([] ++ g.finalNotes) :=
    start.noteAll (by simpa using inside)
  rw [nil_append, finalNotes, noteAll_append, ← socketScopes_eq] at all
  rwa [← noted_eq g ordered.irreflexive ordered.backward] at all

theorem scopes_length (g : Graph) : g.scopes.length = g.nodes.length := by
  have length : ∀ ids scopes, (g.noted scopes ids).length = scopes.length := by
    intro ids
    induction ids with
    | nil => exact fun _ => rfl
    | cons id rest ih =>
      intro scopes
      exact (ih _).trans (noteAll_length _ _)
  rw [scopes_eq, length_map, length, socketScopes_eq, noteAll_length, length_replicate]

theorem Ordered.scope_of_note (ordered : g.Ordered) (member : x ∈ g.finalNotes) :
    g.scopes[x.1]? = some x.2 ∨ g.scopes[x.1]? = some .everywhere := by
  rw [scopes_eq, List.getElem?_map]
  obtain same | outside := ordered.agreed.kept x member
  · exact .inl (by rw [same]; rfl)
  · exact .inr (by rw [outside]; rfl)

theorem known_noted {b : NodeId} (inside : b < g.nodes.length) :
    g.scopes[b]? = some (known (g.noted g.socketScopes g.order.reverse) b) := by
  have bound : b < (g.noted g.socketScopes g.order.reverse).length := by
    have length := g.scopes_length
    rw [scopes_eq, length_map] at length
    rwa [length]
  rw [scopes_eq, List.getElem?_map, known, getD_eq_getElem?_getD,
    List.getElem?_eq_getElem bound]
  rfl

theorem Ordered.mem_finalNotes (ordered : g.Ordered) :
    x ∈ g.finalNotes ↔ (x.1 ∈ g.roots ∧ x.2 = .everywhere) ∨
      ∃ b n, g.nodes[b]? = some n ∧ ∃ i ∈ n.inputs, ∃ k, i.source = some (.node x.1 k) ∧
        ((∃ j, branchOf? n i = some j ∧ x.2 = .branch b j) ∨
          (branchOf? n i = none ∧ g.scopes[b]? = some x.2)) := by
  have scope : ∀ b n i, g.nodes[b]? = some n → ((x.2 = match branchOf? n i with
      | some k => .branch b k
      | none => known (g.noted g.socketScopes g.order.reverse) b) ↔
      ((∃ j, branchOf? n i = some j ∧ x.2 = .branch b j) ∨
        (branchOf? n i = none ∧ g.scopes[b]? = some x.2))) := by
    intro b n i found
    have own := known_noted (lt_of_getElem? found)
    cases branchOf? n i with
    | none => simp [own, eq_comm]
    | some j => simp
  simp only [finalNotes, mem_append, socketNotes, mem_map, mem_flatMap,
    mem_reverse, mem_nodeNotes, ordered.mem_order]
  apply or_congr
  · constructor
    · rintro ⟨a, root, rfl⟩
      exact ⟨root, rfl⟩
    · rintro ⟨root, outside⟩
      exact ⟨x.1, root, by rw [← outside]⟩
  · constructor
    · rintro ⟨b, _, n, found, i, input, k, source, note⟩
      exact ⟨b, n, found, i, input, k, source, (scope b n i found).1 note⟩
    · rintro ⟨b, n, found, i, input, k, source, note⟩
      exact ⟨b, lt_of_getElem? found, n, found, i, input, k, source,
        (scope b n i found).2 note⟩

end

structure Scoping (g : Graph) (branchOf : GraphNode → Input → Option Nat) (scopes : List Scope) :
    Prop where
  length : scopes.length = g.nodes.length
  roots : ∀ a ∈ g.roots, scopes[a]? = some .everywhere
  plain : ∀ (b : NodeId) n, g.nodes[b]? = some n → ∀ i ∈ n.inputs, branchOf n i = none →
    ∀ (a : NodeId) k, i.source = some (.node a k) →
      scopes[a]? = scopes[b]? ∨ scopes[a]? = some .everywhere
  branch : ∀ (b : NodeId) n, g.nodes[b]? = some n → ∀ i ∈ n.inputs, ∀ j, branchOf n i = some j →
    ∀ (a : NodeId) k, i.source = some (.node a k) →
      scopes[a]? = some (.branch b j) ∨ scopes[a]? = some .everywhere
  inner : ∀ (a c : NodeId) j, scopes[a]? = some (.branch c j) → g.order.idxOf a < g.order.idxOf c ∧
    ∃ n, g.nodes[c]? = some n ∧ ∃ i ∈ n.inputs, branchOf n i = some j

theorem Ordered.inner (ordered : g.Ordered) {a c : NodeId} {j : Nat}
    (inside : g.scopes[a]? = some (.branch c j)) : g.order.idxOf a < g.order.idxOf c ∧
      ∃ n, g.nodes[c]? = some n ∧ ∃ i ∈ n.inputs, branchOf? n i = some j := by
  have noted : (a, Scope.branch c j) ∈ g.finalNotes := by
    apply ordered.agreed.noted a _ _ (by simp)
    rw [scopes_eq, List.getElem?_map] at inside
    obtain ⟨known, found, value⟩ := Option.map_eq_some_iff.1 inside
    cases known with
    | none => cases value
    | some s => rw [found, show s = .branch c j from value]
  obtain ⟨_, impossible⟩ | ⟨b, n, found, i, input, k, source, place⟩ :=
    ordered.mem_finalNotes.1 noted
  · cases impossible
  · have before := ordered.forward a b ⟨n, found, i, input, k, source⟩
    obtain ⟨j', feeds, same⟩ | ⟨_, own⟩ := place
    · cases same
      exact ⟨before, n, found, i, input, feeds⟩
    · -- The note was passed on by a reader in the same branch, which stands later in the order.
      have bound : g.order.idxOf b < g.order.length :=
        idxOf_lt_length_iff.2 (ordered.mem_order.2 (lt_of_getElem? found))
      obtain ⟨later, reader⟩ := ordered.inner own
      exact ⟨before.trans later, reader⟩
termination_by g.order.length - g.order.idxOf a

theorem Ordered.scoping (ordered : g.Ordered) : Scoping g branchOf? g.scopes where
  length := g.scopes_length
  roots a root := by
    have noted : (a, Scope.everywhere) ∈ g.finalNotes :=
      ordered.mem_finalNotes.2 (.inl ⟨root, rfl⟩)
    exact or_self_iff.1 (ordered.scope_of_note noted)
  plain b n found i input unbranched a k source := by
    have own := known_noted (lt_of_getElem? found)
    rw [own]
    have noted : (a, known (g.noted g.socketScopes g.order.reverse) b) ∈ g.finalNotes :=
      ordered.mem_finalNotes.2
        (.inr ⟨b, n, found, i, input, k, source, .inr ⟨unbranched, own⟩⟩)
    exact ordered.scope_of_note noted
  branch b n found i input j feeds a k source := by
    have noted : (a, Scope.branch b j) ∈ g.finalNotes :=
      ordered.mem_finalNotes.2
        (.inr ⟨b, n, found, i, input, k, source, .inl ⟨j, feeds, rfl⟩⟩)
    exact ordered.scope_of_note noted
  inner _ _ _ inside := ordered.inner inside

theorem Ordered.scoping_everywhere (ordered : g.Ordered) :
    Scoping g (fun _ _ => none) (List.replicate g.nodes.length .everywhere) where
  length := length_replicate
  roots a root := by
    rw [List.getElem?_replicate, if_pos (ordered.roots a root)]
  plain b n found i input _ a k source := by
    rw [List.getElem?_replicate, if_pos (ordered.feeders a b ⟨n, found, i, input, k, source⟩)]
    exact .inr rfl
  branch _ _ _ _ _ _ impossible := nomatch impossible
  inner a c j inside := by
    rw [List.getElem?_replicate] at inside
    split_ifs at inside
    cases inside

end Graph

end MaterialShader
