import MaterialShader.Proofs.Assoc
import MaterialShader.Proofs.Network.Lexical
import MaterialShader.Proofs.Result
import MaterialShader.Proofs.Text.Search

/-!
Paths and redirects of an expansion.
-/

namespace MaterialShader.Network

open List
open Result (bind_ok mapM_ok pure_ok)

namespace Site

def stem : Site → String
  | document => ""
  | inside outer node _ => outer.path node.id ++ "/"

theorem path_eq (site : Site) (id : String) : site.path id = site.stem ++ id := by
  cases site with
  | document => simp [path, ids, stem, Text.join]
  | inside outer node graph =>
    rw [path, ids, Text.join, String.intercalate_append_of_ne_nil (by simp) (by simp)]
    simp [stem, path, Text.join]

theorem stem_inside (site : Site) (node : Node) (graph : NodeGraph) :
    (inside site node graph).stem = site.stem ++ node.id ++ "/" := by
  rw [stem, path_eq]

end Site

def Below (at_ id path : String) : Prop :=
  path = at_ ++ id ∨ ∃ rest, path = at_ ++ id ++ "/" ++ rest

variable {at_ path : String}

theorem Below.unique {a b : String} (ha : '/' ∉ a.toList) (hb : '/' ∉ b.toList)
    (first : Below at_ a path) (second : Below at_ b path) : a = b := by
  have shape : ∀ {id : String}, Below at_ id path → ∃ tail : List Char,
      (tail = [] ∨ tail.head? = some '/') ∧ path.toList = at_.toList ++ (id.toList ++ tail) := by
    rintro id (rfl | ⟨rest, rfl⟩)
    · exact ⟨[], by simp⟩
    · exact ⟨'/' :: rest.toList, by simp⟩
  obtain ⟨s, hs, along⟩ := shape first
  obtain ⟨t, ht, along'⟩ := shape second
  have same : a.toList ++ s = b.toList ++ t := append_cancel_left (along.symm.trans along')
  exact String.toList_inj.1 (Text.eq_of_append ha hb hs ht same)

theorem Below.ne {id : String} (inner : Below (at_ ++ "/") id path) : path ≠ at_ := by
  rintro rfl
  obtain along | ⟨rest, along⟩ := inner
  · simpa using congrArg (fun s => s.toList.length) along
  · simpa using congrArg (fun s => s.toList.length) along

theorem Below.outward {id inner : String} (below : Below (at_ ++ id ++ "/") inner path) :
    Below at_ id path := by
  obtain rfl | ⟨rest, rfl⟩ := below
  · exact .inr ⟨inner, rfl⟩
  · exact .inr ⟨inner ++ "/" ++ rest, by simp only [String.append_assoc]⟩

theorem redirect?_append (front back : List Redirect) (path output : String) :
    redirect? (front ++ back) path output =
      (redirect? back path output).or (redirect? front path output) := by
  simp only [redirect?, reverse_append, Assoc.get?_append]

theorem redirect?_eq_none {redirects : List Redirect} (other : ∀ r ∈ redirects, r.1.1 ≠ path)
    (output : String) : redirect? redirects path output = none := by
  refine Assoc.get?_eq_none fun r member same => ?_
  exact other r (mem_reverse.1 member) (congrArg Prod.fst same)

theorem redirect?_outputRedirects (graph : NodeGraph) (path output : String) :
    redirect? (outputRedirects graph path) path output =
      (graph.outputs.reverse.find? fun o => o.name == output).map fun o =>
        .port (path ++ "/" ++ o.origin.node) o.origin.port := by
  have key (o : GraphOutput) : ((path, o.name) == (path, output)) = (o.name == output) := by
    simp [BEq.beq]
  rw [redirect?, outputRedirects, ← map_reverse, Assoc.get?_map]
  simp only [key]

section

variable {doc : Document} {lib : Library}

inductive Part (doc : Document) (lib : Library) (levels : Nat) (connections : List Connection)
    (at_ : String) (around : Surroundings) (node : Node) : Expansion → Prop where
  | node {bindings} (bound : bindingsOf node connections at_ around = .ok bindings)
      (plain : graphOf? doc lib node = none) :
      Part doc lib levels connections at_ around node ⟨[⟨at_ ++ node.id, node, bindings⟩], []⟩
  | inside {bindings graph inner} (bound : bindingsOf node connections at_ around = .ok bindings)
      (stands : graphOf? doc lib node = some graph)
      (run : expand doc lib levels graph.nodes graph.connections (at_ ++ node.id ++ "/")
        (innerSurroundings graph bindings) = .ok inner) :
      Part doc lib levels connections at_ around node
        ⟨inner.nodes, inner.redirects ++ outputRedirects graph (at_ ++ node.id)⟩

variable {levels : Nat} {nodes : List Node} {connections : List Connection} {at_ : String}
  {around : Surroundings} {e : Expansion} {redirects : List Redirect}

theorem expand_parts (run : expand doc lib (levels + 1) nodes connections at_ around = .ok e) :
    ∃ parts, List.Forall₂ (Part doc lib levels connections at_ around) nodes parts ∧
      e = ⟨parts.flatMap Expansion.nodes, parts.flatMap Expansion.redirects⟩ := by
  obtain ⟨parts, opened, run⟩ := bind_ok.1 run
  refine ⟨parts, (mapM_ok opened).imp ?_, (pure_ok.1 run).symm⟩
  intro node part made
  obtain ⟨bindings, bound, made⟩ := bind_ok.1 made
  cases stands : graphOf? doc lib node with
  | none =>
    simp only [stands] at made
    cases pure_ok.1 made
    exact .node bound stands
  | some graph =>
    simp only [stands] at made
    obtain ⟨inner, within, made⟩ := bind_ok.1 made
    cases pure_ok.1 made
    exact .inside bound stands (Result.inside_ok.1 within)

theorem settleNode_ok {n settled : BoundNode} (run : settleNode redirects n = .ok settled) :
    settled.path = n.path ∧ settled.node = n.node ∧
      List.Forall₂ (fun (old new : String × Binding) => new.1 = old.1 ∧
        follow? redirects (maxNesting + 1) old.2 = some new.2) n.bindings settled.bindings := by
  obtain ⟨_, _, run⟩ := bind_ok.1 run
  obtain ⟨bindings, all, run⟩ := bind_ok.1 run
  cases pure_ok.1 run
  refine ⟨rfl, rfl, (mapM_ok all).imp fun old new made => ?_⟩
  obtain ⟨c, followed, made⟩ := bind_ok.1 made
  cases pure_ok.1 made
  exact ⟨rfl, orFail_ok.1 followed⟩

theorem settleOutput_ok {o : GraphOutput} {settled : BoundOutput}
    (run : settleOutput redirects o = .ok settled) :
    follow? redirects (maxNesting + 1) (.port o.origin.node o.origin.port) =
      some settled.binding := by
  obtain ⟨c, followed, run⟩ := bind_ok.1 run
  cases pure_ok.1 run
  exact orFail_ok.1 followed

theorem ofDocument_ok {net : Network} (run : ofDocument doc lib = .ok net) :
    ∃ whole, expand doc lib (maxNesting + 1) doc.nodes doc.connections ""
        (Assoc.putAll [] (doc.inputs.map fun i => (i.name, some (.socket i.name)))) = .ok whole ∧
      List.Forall₂ (fun n settled => settleNode whole.redirects n = .ok settled) whole.nodes
        net.nodes ∧
      List.Forall₂ (fun o settled => settleOutput whole.redirects o = .ok settled) doc.outputs
        net.outputs := by
  obtain ⟨whole, expanded, run⟩ := bind_ok.1 run
  obtain ⟨nodes, settled, run⟩ := bind_ok.1 run
  obtain ⟨outputs, published, run⟩ := bind_ok.1 run
  cases pure_ok.1 run
  exact ⟨whole, expanded, mapM_ok settled, mapM_ok published⟩

def expansion (doc : Document) (lib : Library) : Result Expansion :=
  expand doc lib (maxNesting + 1) doc.nodes doc.connections ""
    (Assoc.putAll [] (doc.inputs.map fun i => (i.name, some (.socket i.name))))

def TooDeep (redirects : List Redirect) (n : BoundNode) (fault : Fault) : Prop :=
  ∃ entry ∈ n.bindings, follow? redirects (maxNesting + 1) entry.2 = none ∧
    fault = .chainTooDeep (Binding.shown entry.2)

theorem settle_error {b : Binding} {f : Failure} (fails : settle redirects b = .error f) :
    follow? redirects (maxNesting + 1) b = none ∧ f = ⟨[], .chainTooDeep (Binding.shown b)⟩ := by
  unfold settle at fails
  cases followed : follow? redirects (maxNesting + 1) b with
  | some c => simp [followed, orFail] at fails
  | none =>
    rw [followed] at fails
    exact ⟨rfl, (Except.error.inj fails).symm⟩

theorem settleNode_walks (redirects : List Redirect) (n : BoundNode) :
    (∃ settled, ∀ walk, settleNode redirects n walk = .ok settled) ∨
      ∀ walk, ∃ fault, TooDeep redirects n fault ∧
        settleNode redirects n walk = .error ⟨[], fault⟩ := by
  obtain ⟨⟨bindings, all⟩, each⟩ | ⟨entry, member, e, fails, _⟩ :=
    Result.mapM_cases (fun entry => do
      let settled ← settle redirects entry.2
      return (entry.1, settled)) n.bindings
  · refine .inl ⟨{ n with bindings }, fun walk => ?_⟩
    obtain ⟨⟨out, ok⟩, _⟩ | ⟨entry, member, e, fails, _⟩ :=
      Result.mapM_cases (fun entry => settle redirects entry.2) (walk.order n)
    · exact bind_ok.2 ⟨out, ok, bind_ok.2 ⟨bindings, all, rfl⟩⟩
    · obtain ⟨_, ok⟩ := each entry ((walk.perm n).mem_iff.1 member)
      obtain ⟨_, settled, _⟩ := bind_ok.1 ok
      cases settled.symm.trans fails
  · refine .inr fun walk => ?_
    obtain ⟨_, each⟩ | ⟨entry', member', e', fails', error⟩ :=
      Result.mapM_cases (fun entry => settle redirects entry.2) (walk.order n)
    · obtain ⟨b, settled⟩ := each entry ((walk.perm n).mem_iff.2 member)
      cases fails.symm.trans (bind_ok.2 ⟨b, settled, pure_ok.2 rfl⟩)
    · obtain ⟨none, rfl⟩ := settle_error fails'
      refine ⟨_, ⟨entry', (walk.perm n).mem_iff.1 member', none, rfl⟩, ?_⟩
      rw [settleNode, error]
      rfl

/-- Two failures are the same, but for which of the bindings of one node they name that lead too
deep. -/
inductive FailAlike (doc : Document) (lib : Library) : Failure → Failure → Prop
  | same (f : Failure) : FailAlike doc lib f f
  | deep {whole : Expansion} {n : BoundNode} {fault fault' : Fault} (places : List Place)
      (expanded : expansion doc lib = .ok whole) (member : n ∈ whole.nodes)
      (first : TooDeep whole.redirects n fault) (second : TooDeep whole.redirects n fault') :
      FailAlike doc lib ⟨places, fault⟩ ⟨places, fault'⟩

inductive WalksAgree (doc : Document) (lib : Library) {α : Type} : Result α → Result α → Prop
  | ok (a : α) : WalksAgree doc lib (.ok a) (.ok a)
  | error {f f' : Failure} (alike : FailAlike doc lib f f') : WalksAgree doc lib (.error f) (.error f')

namespace WalksAgree

variable {α β : Type} {r r' : Result α}

theorem refl (r : Result α) : WalksAgree doc lib r r := by
  cases r with
  | ok a => exact .ok a
  | error f => exact .error (.same f)

theorem bind (agree : WalksAgree doc lib r r') (next : α → Result β) :
    WalksAgree doc lib (r >>= next) (r' >>= next) := by
  cases agree with
  | ok a => exact .refl _
  | error alike => exact .error alike

theorem inside (agree : WalksAgree doc lib r r') (p : Place) :
    WalksAgree doc lib (r.inside p) (r'.inside p) := by
  cases agree with
  | ok a => exact .ok a
  | error alike =>
    cases alike with
    | same => exact .refl _
    | deep places expanded member first second =>
      exact .error (.deep (p :: places) expanded member first second)

theorem eq_of_ok (agree : WalksAgree doc lib r r') {a : α} (ok : r = .ok a) : r' = .ok a := by
  cases agree with
  | ok => exact ok
  | error => cases ok

end WalksAgree

theorem settleNodes_agree {whole : Expansion} (expanded : expansion doc lib = .ok whole)
    (walk walk' : Walk) {nodes : List BoundNode} (all : nodes ⊆ whole.nodes) :
    WalksAgree doc lib (nodes.mapM fun n => settleNode whole.redirects n walk)
      (nodes.mapM fun n => settleNode whole.redirects n walk') := by
  induction nodes with
  | nil => exact .refl _
  | cons n rest ih =>
    rw [mapM_cons, mapM_cons]
    obtain ⟨settled, ok⟩ | fails := settleNode_walks whole.redirects n
    · rw [ok walk, ok walk']
      exact (ih fun m later => all (.tail _ later)).bind _
    · obtain ⟨fault, first, error⟩ := fails walk
      obtain ⟨fault', second, error'⟩ := fails walk'
      rw [error, error']
      exact .error (.deep [] expanded (all mem_cons_self) first second)

theorem ofDocument_agree (doc : Document) (lib : Library) (walk walk' : Walk) :
    WalksAgree doc lib (ofDocument doc lib walk) (ofDocument doc lib walk') := by
  change WalksAgree doc lib (expansion doc lib >>= _) (expansion doc lib >>= _)
  cases expanded : expansion doc lib with
  | error f => exact .refl _
  | ok whole => exact (settleNodes_agree expanded walk walk' (Subset.refl _)).bind _

theorem not_expand_zero : expand doc lib 0 nodes connections at_ around ≠ .ok e := by
  simp [expand, fail]

theorem redirects_induct {P : Nat → List Node → String → Redirect → Prop}
    (own : ∀ {levels nodes at_ node graph}, node ∈ nodes → graphOf? doc lib node = some graph →
      ∀ r ∈ outputRedirects graph (at_ ++ node.id), P (levels + 2) nodes at_ r)
    (inner : ∀ {levels nodes at_ node graph r}, node ∈ nodes → graphOf? doc lib node = some graph →
      P levels graph.nodes (at_ ++ node.id ++ "/") r → P (levels + 1) nodes at_ r)
    (run : expand doc lib levels nodes connections at_ around = .ok e) :
    ∀ r ∈ e.redirects, P levels nodes at_ r := by
  induction levels generalizing nodes connections at_ around e with
  | zero => exact absurd run not_expand_zero
  | succ levels ih =>
    obtain ⟨parts, made, rfl⟩ := expand_parts run
    intro r member
    obtain ⟨part, listed, member⟩ := mem_flatMap.1 member
    obtain ⟨node, here, of_node⟩ := exists_of_mem_right made listed
    cases of_node with
    | node => cases member
    | inside _ stands run =>
      obtain member | member := mem_append.1 member
      · exact inner here stands (ih run r member)
      · cases levels with
        | zero => exact absurd run not_expand_zero
        | succ => exact own here stands r member

theorem expand_below (run : expand doc lib levels nodes connections at_ around = .ok e) :
    ∀ r ∈ e.redirects, ∃ n ∈ nodes, Below at_ n.id r.1.1 := by
  refine redirects_induct (P := fun _ nodes at_ r => ∃ n ∈ nodes, Below at_ n.id r.1.1) ?_ ?_ run
  · intro _ nodes at_ node graph here _
    exact forall_mem_map.2 fun o _ => ⟨node, here, .inl rfl⟩
  · rintro _ nodes at_ node graph r here _ ⟨_, _, below⟩
    exact ⟨node, here, below.outward⟩

theorem Part.below {node : Node} {part : Expansion}
    (made : Part doc lib levels connections at_ around node part) :
    ∀ r ∈ part.redirects, Below at_ node.id r.1.1 := by
  cases made with
  | node => exact nofun
  | inside _ _ run =>
    refine forall_mem_append.2 ⟨fun r member => ?_, forall_mem_map.2 fun o _ => .inl rfl⟩
    obtain ⟨_, _, below⟩ := expand_below run r member
    exact below.outward

theorem parts_agree {parts : List Expansion}
    (made : List.Forall₂ (Part doc lib levels connections at_ around) nodes parts)
    (plain : ∀ n ∈ nodes, '/' ∉ n.id.toList) (distinct : (nodes.map Node.id).Nodup)
    (agree : ∀ n ∈ nodes, ∀ path, Below at_ n.id path → ∀ output,
      redirect? redirects path output =
        redirect? (parts.flatMap Expansion.redirects) path output) :
    List.Forall₂ (fun n part => Part doc lib levels connections at_ around n part ∧
      ∀ path, Below at_ n.id path → ∀ output,
        redirect? redirects path output = redirect? part.redirects path output) nodes parts := by
  -- The table stays fixed; with every node less the agreement narrows to the nodes that are left.
  induction made with
  | nil => exact .nil
  | @cons n part rest parts here later ih =>
    rw [map_cons, nodup_cons] at distinct
    have apart : ∀ m ∈ rest, ∀ path, Below at_ n.id path → ¬ Below at_ m.id path := by
      intro m member path below below'
      have same := below.unique (plain n mem_cons_self)
        (plain m (.tail _ member)) below'
      exact distinct.1 (same ▸ mem_map_of_mem member)
    simp only [flatMap_cons, redirect?_append] at agree
    refine .cons ⟨here, ?_⟩
      (ih (fun m member => plain m (.tail _ member)) distinct.2 ?_)
    · intro path below output
      have elsewhere : redirect? (parts.flatMap Expansion.redirects) path output = none := by
        refine redirect?_eq_none ?_ output
        rintro r member rfl
        obtain ⟨other, listed, member⟩ := mem_flatMap.1 member
        obtain ⟨m, of_rest, made⟩ := exists_of_mem_right later listed
        exact apart m of_rest _ below (made.below r member)
      rw [agree n mem_cons_self path below, elsewhere, Option.none_or]
    · intro m member path below output
      have elsewhere : redirect? part.redirects path output = none := by
        refine redirect?_eq_none ?_ output
        rintro r of_part rfl
        exact apart m member _ (here.below r of_part) below
      rw [agree m (.tail _ member) path below, elsewhere, Option.or_none]

end

section

variable (doc : Document) (lib : Library) (redirects : List Redirect)

structure Opens (levels : Nat) (site : Site) (around : Surroundings) (e : Expansion) : Prop where
  run : expand doc lib levels (site.nodes doc) (site.connections doc) site.stem around = .ok e
  tidy : Tidy (site.nodes doc) (site.connections doc) (site.outputs doc)
  agree : ∀ n ∈ site.nodes doc, ∀ path, Below site.stem n.id path → ∀ output,
    redirect? redirects path output = redirect? e.redirects path output

inductive Opened (levels : Nat) (site : Site) (around : Surroundings) (n : Node) :
    List BoundNode → Prop where
  | node {bindings} (bound : bindingsOf n (site.connections doc) site.stem around = .ok bindings)
      (plain : graphOf? doc lib n = none)
      (ends : ∀ output, redirect? redirects (site.stem ++ n.id) output = none) :
      Opened levels site around n [⟨site.stem ++ n.id, n, bindings⟩]
  | inside {bindings graph inner}
      (bound : bindingsOf n (site.connections doc) site.stem around = .ok bindings)
      (stands : graphOf? doc lib n = some graph)
      (within : Opens doc lib redirects levels (.inside site n graph)
        (innerSurroundings graph bindings) inner)
      (leads : ∀ output, redirect? redirects (site.stem ++ n.id) output =
        (graph.outputs.reverse.find? fun o => o.name == output).map fun o =>
          .port ((Site.inside site n graph).stem ++ o.origin.node) o.origin.port) :
      Opened levels site around n inner.nodes

end

section

variable {doc : Document} {lib : Library} {redirects : List Redirect} {levels : Nat} {site : Site}
  {around : Surroundings} {e : Expansion}

theorem Part.opened (tidy : TidyScopes doc lib) {n : Node} {part : Expansion}
    (made : Part doc lib levels (site.connections doc) site.stem around n part)
    (agree : ∀ path, Below site.stem n.id path → ∀ output,
      redirect? redirects path output = redirect? part.redirects path output) :
    Opened doc lib redirects levels site around n part.nodes := by
  cases made with
  | node bound plain =>
    refine .node bound plain fun output => ?_
    rw [agree _ (.inl rfl)]
    rfl
  | @inside bindings graph inner bound stands run =>
    rw [← site.stem_inside n graph] at run
    have within : Opens doc lib redirects levels (.inside site n graph)
        (innerSurroundings graph bindings) inner := by
      refine ⟨run, tidy.inside stands, ?_⟩
      intro m _ path below output
      rw [site.stem_inside] at below
      have elsewhere :
          redirect? (outputRedirects graph (site.stem ++ n.id)) path output = none := by
        refine redirect?_eq_none ?_ output
        rintro r member rfl
        obtain ⟨o, _, rfl⟩ := mem_map.1 member
        exact below.ne rfl
      rw [agree path below.outward, redirect?_append, elsewhere, Option.none_or]
    change Opened doc lib redirects levels site around n inner.nodes
    refine .inside bound stands within fun output => ?_
    have elsewhere : redirect? inner.redirects (site.stem ++ n.id) output = none := by
      refine redirect?_eq_none ?_ output
      rintro r member same
      obtain ⟨m, _, below⟩ := expand_below run r member
      rw [site.stem_inside] at below
      exact below.ne same
    rw [agree _ (.inl rfl), redirect?_append, elsewhere, Option.or_none,
      redirect?_outputRedirects, site.stem_inside]

theorem Opens.parts (tidy : TidyScopes doc lib)
    (opens : Opens doc lib redirects (levels + 1) site around e) :
    ∃ parts, List.Forall₂ (Opened doc lib redirects levels site around) (site.nodes doc) parts ∧
      e.nodes = parts.flatten := by
  obtain ⟨parts, made, rfl⟩ := expand_parts opens.run
  refine ⟨parts.map Expansion.nodes, ?_, by simp [flatMap_def]⟩
  rw [forall₂_map_right_iff]
  exact (parts_agree made opens.tidy.plain opens.tidy.distinct opens.agree).imp
    fun _ _ ⟨of_node, agree⟩ => of_node.opened tidy agree

theorem not_opens_zero : ¬ Opens doc lib redirects 0 site around e :=
  fun opens => not_expand_zero opens.run

end

end MaterialShader.Network
