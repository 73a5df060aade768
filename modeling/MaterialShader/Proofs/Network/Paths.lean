import MaterialShader.Proofs.Network.Redirect

/-!
Paths of the nodes of a network.
-/

namespace MaterialShader.Network

open List
open Result (bind_ok)

/-- The nodes of the document, and those of every node graph. -/
def EveryScope (P : List Node → Prop) (doc : Document) (lib : Library) : Prop :=
  P doc.nodes ∧ ∀ g ∈ doc.nodegraphs ++ lib.nodegraphs, P g.nodes

instance (P : List Node → Prop) [DecidablePred P] (doc : Document) (lib : Library) :
    Decidable (EveryScope P doc lib) :=
  inferInstanceAs (Decidable (_ ∧ _))

abbrev PlainIds (nodes : List Node) : Prop := ∀ n ∈ nodes, '/' ∉ n.id.toList

abbrev DistinctIds (nodes : List Node) : Prop := (nodes.map Node.id).Nodup

theorem EveryScope.inside {P : List Node → Prop} {doc : Document} {lib : Library}
    (all : EveryScope P doc lib) {node : Node} {graph : NodeGraph}
    (stands : graphOf? doc lib node = some graph) : P graph.nodes :=
  all.2 graph (graphOf?_mem stands)

/-- No redirect leads on from the binding. -/
def Final (redirects : List Redirect) (b : Binding) : Prop :=
  ∀ node output, b = .port node output → redirect? redirects node output = none

def slashes (path : String) : Nat := path.toList.count '/'

theorem slashes_append {id : String} (plain : '/' ∉ id.toList) (at_ : String) :
    slashes (at_ ++ id) = slashes at_ := by
  rw [slashes, String.toList_append, count_append, count_eq_zero.2 plain]
  rfl

theorem slashes_below (path rest : String) : slashes path < slashes (path ++ "/" ++ rest) := by
  simp only [slashes, String.toList_append, count_append]
  have one : "/".toList.count '/' = 1 := rfl
  omega

theorem slashes_inside (path : String) : slashes (path ++ "/") = slashes path + 1 := by
  simp only [slashes, String.toList_append, count_append]
  rfl

section

variable {doc : Document} {lib : Library} {levels : Nat} {nodes : List Node}
  {connections : List Connection} {at_ : String} {around : Surroundings} {e : Expansion}

theorem expand_slashes (plain : EveryScope PlainIds doc lib) (here : PlainIds nodes)
    (run : expand doc lib levels nodes connections at_ around = .ok e) :
    ∀ r ∈ e.redirects, slashes r.1.1 + 1 < slashes at_ + levels ∧
      ∃ inner output, r.2 = .port inner output ∧ slashes r.1.1 < slashes inner := by
  refine fun r member => redirects_induct (P := fun levels nodes at_ r => PlainIds nodes →
    slashes r.1.1 + 1 < slashes at_ + levels ∧ ∃ inner output, r.2 = .port inner output ∧
      slashes r.1.1 < slashes inner) ?_ ?_ run r member here
  · intro levels nodes at_ node graph own _
    refine forall_mem_map.2 fun o _ here => ⟨?_, _, _, rfl, slashes_below _ _⟩
    rw [slashes_append (here node own)]
    omega
  · intro levels nodes at_ node graph r own stands within here
    obtain ⟨shallow, inward⟩ := within (plain.inside stands)
    rw [slashes_inside, slashes_append (here node own)] at shallow
    exact ⟨by omega, inward⟩

theorem follow?_final {redirects : List Redirect} {limit : Nat}
    (inward : ∀ r ∈ redirects, slashes r.1.1 < limit ∧
      ∃ inner output, r.2 = .port inner output ∧ slashes r.1.1 < slashes inner)
    {steps : Nat} {b : Binding}
    (enough : ∀ node output, b = .port node output → limit ≤ slashes node + steps) :
    ∃ c, follow? redirects (steps + 1) b = some c ∧ Final redirects c := by
  -- Every step takes a slash more, and from `limit` slashes on there is no redirect.
  induction steps using Nat.strong_induction_on generalizing b with
  | _ steps ih =>
    cases b with
    | literal value => exact ⟨.literal value, rfl, nofun⟩
    | socket name => exact ⟨.socket name, rfl, nofun⟩
    | port node output =>
      rw [follow?]
      cases leads : redirect? redirects node output with
      | none => exact ⟨.port node output, rfl, by rintro _ _ ⟨⟩; exact leads⟩
      | some next =>
        have member := mem_reverse.1 (Assoc.mem_of_get? leads)
        obtain ⟨shallow, inner, output', rfl, further⟩ := inward _ member
        have deep := enough node output rfl
        dsimp only at shallow further
        obtain ⟨k, rfl⟩ := Nat.exists_eq_add_of_lt (show 0 < steps by omega)
        refine ih (0 + k) (by omega) ?_
        rintro _ _ ⟨⟩
        omega

end

/-- Whatever a binding names, the redirects from it come to an end within the limit. -/
theorem redirects_end_within_limit {doc : Document} {lib : Library}
    (plain : EveryScope PlainIds doc lib) {whole : Expansion}
    (expanded : expand doc lib (maxNesting + 1) doc.nodes doc.connections ""
      (Assoc.putAll [] (doc.inputs.map fun i => (i.name, some (.socket i.name)))) = .ok whole)
    (b : Binding) : ∃ c, settle whole.redirects b = .ok c ∧ Final whole.redirects c := by
  have inward : ∀ r ∈ whole.redirects, slashes r.1.1 < maxNesting ∧
      ∃ inner output, r.2 = .port inner output ∧ slashes r.1.1 < slashes inner := by
    intro r member
    obtain ⟨shallow, further⟩ := expand_slashes plain plain.1 expanded r member
    have top : slashes "" = 0 := rfl
    exact ⟨by omega, further⟩
  obtain ⟨c, followed, final⟩ :=
    follow?_final inward fun (node output : String) (_ : b = .port node output) =>
      Nat.le_add_left maxNesting (slashes node)
  exact ⟨c, orFail_ok.2 followed, final⟩

/-- An instance in an instance, as deep as instances may be nested. -/
def deepDocument : Document where
  version := "1"
  metadata := ⟨"deep", none, none⟩
  inputs := []
  nodes := [⟨"n", "", "float", none, [], [], []⟩]
  connections := []
  outputs := [⟨"out", "float", ⟨"n", "out"⟩⟩]
  nodegraphs := (List.range maxNesting).map fun k =>
    let level (k : Nat) := String.ofList (List.replicate k 'l')
    ⟨"NG", level k, "float", [], [⟨"out", "float", ⟨"n", "out"⟩⟩],
      [⟨"n", level (k + 1), "float", none, [], [], []⟩], []⟩

theorem redirects_end_within_limit_deep :
    EveryScope PlainIds deepDocument .empty ∧
      ∃ whole, expand deepDocument .empty (maxNesting + 1) deepDocument.nodes
          deepDocument.connections "" [] = .ok whole ∧ whole.redirects.length = maxNesting ∧
        ∀ b, ∃ c, settle whole.redirects b = .ok c ∧ Final whole.redirects c := by
  have plain : EveryScope PlainIds deepDocument .empty := by decide
  have opens : (expand deepDocument .empty (maxNesting + 1) deepDocument.nodes
      deepDocument.connections "" []).toOption.map (fun whole => whole.redirects.length) =
        some maxNesting := by
    decide +kernel
  obtain ⟨whole, found, count⟩ := Option.map_eq_some_iff.1 opens
  have expanded := Result.toOption_eq_some.1 found
  exact ⟨plain, whole, expanded, count, redirects_end_within_limit plain expanded⟩

/-- The ids of the instances around a node, and its own. -/
def way (leaf : Site × Node) : List String := leaf.1.ids ++ [leaf.2.id]

section

variable {doc : Document} {lib : Library} {levels : Nat} {site : Site} {nodes : List Node}
  {leaves : List (Site × Node)}

theorem expand_unrolls {connections : List Connection} {around : Surroundings} {e : Expansion}
    (run : expand doc lib levels nodes connections site.stem around = .ok e) :
    ∃ leaves, Unrolls doc lib site nodes leaves ∧
      e.nodes.map BoundNode.path = leaves.map fun leaf => Text.join "/" (way leaf) := by
  induction levels generalizing site nodes connections around e with
  | zero => exact absurd run not_expand_zero
  | succ levels ih =>
    obtain ⟨parts, made, rfl⟩ := expand_parts run
    clear run
    induction made with
    | nil => exact ⟨[], .nil, rfl⟩
    | @cons n part rest parts here _ later =>
      obtain ⟨leaves, unrolled, paths⟩ := later
      simp only [flatMap_cons, map_append]
      rw [paths]
      cases here with
      | node _ plain =>
        refine ⟨(site, n) :: leaves, .node plain unrolled, ?_⟩
        simp only [map_cons, map_nil, ← site.path_eq, singleton_append]
        rfl
      | @inside _ graph inner _ stands run =>
        rw [← site.stem_inside n graph] at run
        obtain ⟨within, unrolled', paths'⟩ := ih run
        exact ⟨within ++ leaves, .inside stands unrolled' unrolled, by rw [paths', map_append]⟩

theorem Unrolls.way_prefix (unrolled : Unrolls doc lib site nodes leaves) :
    ∀ leaf ∈ leaves, ∃ n ∈ nodes, site.ids ++ [n.id] <+: way leaf := by
  induction unrolled with
  | nil => nofun
  | @node site n rest leaves _ _ ih =>
    refine forall_mem_cons.2 ⟨⟨n, .head _, prefix_rfl⟩, ?_⟩
    intro leaf member
    obtain ⟨m, later, starts⟩ := ih leaf member
    exact ⟨m, .tail _ later, starts⟩
  | @inside site n rest graph inner leaves _ _ _ within ih =>
    refine forall_mem_append.2 ⟨fun leaf member => ?_, fun leaf member => ?_⟩
    · obtain ⟨m, _, starts⟩ := within leaf member
      exact ⟨n, .head _, (prefix_append _ _).trans starts⟩
    · obtain ⟨m, later, starts⟩ := ih leaf member
      exact ⟨m, .tail _ later, starts⟩

theorem ne_of_prefix {front way way' : List String} {id id' : String}
    (starts : front ++ [id] <+: way) (starts' : front ++ [id'] <+: way') (other : id ≠ id') :
    way ≠ way' := by
  rintro rfl
  have same := prefix_or_prefix_of_prefix starts starts'
  simp [prefix_append_right_inj, other, Ne.symm other] at same

theorem Unrolls.ways_nodup (distinct : EveryScope DistinctIds doc lib)
    (unrolled : Unrolls doc lib site nodes leaves) (here : DistinctIds nodes) :
    (leaves.map way).Nodup := by
  induction unrolled with
  | nil => exact .nil
  | @node site n rest leaves _ later ih =>
    rw [DistinctIds, map_cons, nodup_cons] at here
    rw [map_cons, nodup_cons]
    refine ⟨fun member => ?_, ih here.2⟩
    obtain ⟨leaf, listed, same⟩ := mem_map.1 member
    obtain ⟨m, other, starts⟩ := later.way_prefix leaf listed
    refine ne_of_prefix starts prefix_rfl ?_ same
    rintro same
    exact here.1 (same ▸ mem_map_of_mem other)
  | @inside site n rest graph inner leaves stands within later ih ih' =>
    rw [DistinctIds, map_cons, nodup_cons] at here
    rw [map_append]
    refine (ih (distinct.inside stands)).append (ih' here.2) ?_
    intro w first second
    obtain ⟨leaf, listed, rfl⟩ := mem_map.1 first
    obtain ⟨leaf', listed', same⟩ := mem_map.1 second
    obtain ⟨_, _, starts⟩ := within.way_prefix leaf listed
    obtain ⟨m, other, starts'⟩ := later.way_prefix leaf' listed'
    refine ne_of_prefix starts' ((prefix_append _ _).trans starts) ?_ same
    rintro same
    exact here.1 (same ▸ mem_map_of_mem other)

theorem Unrolls.way_plain (plain : EveryScope PlainIds doc lib)
    (unrolled : Unrolls doc lib site nodes leaves) (here : PlainIds nodes)
    (outside : ∀ id ∈ site.ids, '/' ∉ id.toList) :
    ∀ leaf ∈ leaves, ∀ id ∈ way leaf, '/' ∉ id.toList := by
  induction unrolled with
  | nil => nofun
  | @node site n rest leaves _ _ ih =>
    obtain ⟨first, others⟩ := forall_mem_cons.1 here
    refine forall_mem_cons.2 ⟨?_, ih others outside⟩
    exact forall_mem_append.2 ⟨outside, by simpa using first⟩
  | @inside site n rest graph inner leaves stands _ _ ih ih' =>
    obtain ⟨first, others⟩ := forall_mem_cons.1 here
    refine forall_mem_append.2 ⟨ih (plain.inside stands) ?_, ih' others outside⟩
    exact forall_mem_append.2 ⟨outside, by simpa using first⟩

theorem join_inj {ids ids' : List String} (plain : ∀ id ∈ ids, '/' ∉ id.toList)
    (plain' : ∀ id ∈ ids', '/' ∉ id.toList) (nonempty : ids ≠ []) (nonempty' : ids' ≠ [])
    (same : Text.join "/" ids = Text.join "/" ids') : ids = ids' := by
  have read : ∀ {ids : List String}, (∀ id ∈ ids, '/' ∉ id.toList) → ids ≠ [] →
      (Text.join "/" ids).toList.splitOn '/' = ids.map String.toList := by
    intro ids plain nonempty
    rw [Text.join, String.toList_intercalate]
    exact splitOn_intercalate '/' (by simpa using plain) (by simpa using nonempty)
  apply map_injective_iff.2 fun _ _ => String.toList_inj.1
  rw [← read plain nonempty, same, read plain' nonempty']

end

/-- If the ids of every scope are distinct, so are the ways to the nodes of a network. Their paths are
the ways joined by slashes, and distinct if no id has a slash. -/
theorem paths_distinct {doc : Document} {lib : Library}
    (distinct : EveryScope DistinctIds doc lib) {net : Network} (run : ofDocument doc lib = .ok net) :
    ∃ leaves, Unrolls doc lib .document doc.nodes leaves ∧ (leaves.map way).Nodup ∧
      net.nodes.map BoundNode.path = leaves.map (fun leaf => Text.join "/" (way leaf)) ∧
      (EveryScope PlainIds doc lib → (net.nodes.map BoundNode.path).Nodup) := by
  obtain ⟨whole, expanded, settled, _⟩ := ofDocument_ok run
  have expanded : expand doc lib (maxNesting + 1) doc.nodes doc.connections Site.document.stem _ =
      .ok whole := expanded
  obtain ⟨leaves, unrolled, drafted⟩ := expand_unrolls expanded
  have ways := unrolled.ways_nodup distinct distinct.1
  have kept : net.nodes.map BoundNode.path = whole.nodes.map BoundNode.path :=
    map_eq_of_forall₂ (fun n settled made => (settleNode_ok made).1) settled
  have paths := kept.trans drafted
  refine ⟨leaves, unrolled, ways, paths, fun plain => ?_⟩
  have ids := unrolled.way_plain plain plain.1 nofun
  rw [paths]
  refine (List.nodup_map_iff_inj_on (List.Nodup.of_map _ ways)).2 ?_
  intro leaf member leaf' member' same
  have same := join_inj (ids leaf member) (ids leaf' member') (by simp [way]) (by simp [way]) same
  exact List.inj_on_of_nodup_map ways member member' same

/-- An instance with an inner node, and a node beside the instance. -/
def besideDocument (id : String) : Document where
  version := "1"
  metadata := ⟨"beside", none, none⟩
  inputs := []
  nodes :=
    [⟨"g", "shade", "float", none, [], [], []⟩, ⟨id, "constant", "float", none, [], [], []⟩]
  connections := []
  outputs := [⟨"out", "float", ⟨"g", "out"⟩⟩]
  nodegraphs :=
    [⟨"NG_shade", "shade", "float", [], [⟨"out", "float", ⟨"a", "out"⟩⟩],
      [⟨"a", "constant", "float", none, [("value", .int 1)], [], []⟩], []⟩]

theorem paths_distinct_beside :
    EveryScope DistinctIds (besideDocument "a") .empty ∧
      ∃ net, ofDocument (besideDocument "a") .empty = .ok net ∧
        net.nodes.map BoundNode.path = ["g/a", "a"] ∧
        ∃ leaves, Unrolls (besideDocument "a") .empty .document (besideDocument "a").nodes
            leaves ∧ (leaves.map way).Nodup ∧
          net.nodes.map BoundNode.path = leaves.map (fun leaf => Text.join "/" (way leaf)) ∧
          (EveryScope PlainIds (besideDocument "a") .empty →
            (net.nodes.map BoundNode.path).Nodup) := by
  have distinct : EveryScope DistinctIds (besideDocument "a") .empty := by decide
  have paths : (ofDocument (besideDocument "a") .empty).toOption.map
      (fun net => net.nodes.map BoundNode.path) = some ["g/a", "a"] := by
    decide
  obtain ⟨net, found, paths⟩ := Option.map_eq_some_iff.1 paths
  have run := Result.toOption_eq_some.1 found
  exact ⟨distinct, net, run, paths, paths_distinct distinct run⟩

/-- With a slash in its id, the node beside the instance has the path of the inner node. -/
theorem paths_clash_beside :
    EveryScope DistinctIds (besideDocument "g/a") .empty ∧
      ∃ net, ofDocument (besideDocument "g/a") .empty = .ok net ∧
        net.nodes.map BoundNode.path = ["g/a", "g/a"] := by
  have distinct : EveryScope DistinctIds (besideDocument "g/a") .empty := by decide
  have paths : (ofDocument (besideDocument "g/a") .empty).toOption.map
      (fun net => net.nodes.map BoundNode.path) = some ["g/a", "g/a"] := by
    decide
  obtain ⟨net, found, paths⟩ := Option.map_eq_some_iff.1 paths
  exact ⟨distinct, net, Result.toOption_eq_some.1 found, paths⟩

end MaterialShader.Network
