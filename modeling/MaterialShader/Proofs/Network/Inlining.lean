import MaterialShader.Proofs.Network.Redirect

/-!
The network of a document is its nested scopes unrolled:
-/

namespace MaterialShader.Network

open List Result
open Assoc (get? get?_map)

variable {n : Node} {o : Origin}

def Origin.draft : Origin → Binding
  | literal value => .literal value
  | socket name => .socket name
  | output site e => .port (site.stem ++ e.node) e.port

def Surroundings.Fit (doc : Document) (site : Site) (around : Surroundings) : Prop :=
  ∀ name, (Assoc.get? name around).join = (site.input? doc name).map Origin.draft

variable {around : Surroundings} {bindings : List (String × Binding)}

theorem get?_linkBindings {path port : String} {enclosing : String → Option Origin}
    (fit : ∀ name, (get? name around).join = (enclosing name).map Origin.draft)
    {links : List (String × String)} {entries : List (String × Binding)}
    (run : linkBindings path around links = .ok entries) :
    get? port entries.reverse =
      (links.reverse.findSome? fun (p, name) => if p == port then enclosing name else none).map
        Origin.draft := by
  induction links generalizing entries with
  | nil =>
    cases run
    rfl
  | cons link rest ih =>
    obtain ⟨p, name⟩ := link
    have bound := fit name
    rw [linkBindings] at run
    rw [reverse_cons, List.findSome?_append, Option.map_or]
    cases found : get? name around with
    | none =>
      rw [found] at run
      cases run
    | some entry =>
      cases entry with
      | none =>
        simp only [found, Option.join_some, eq_comm, Option.map_eq_none_iff] at bound run
        simp [ih run.symm, bound]
      | some b =>
        simp only [found, Option.join_some] at bound run
        obtain ⟨others, later, rfl⟩ := map_ok.1 run
        rw [reverse_cons, Assoc.get?_append, ih later]
        congr 1
        by_cases here : p = port
        · simp [get?, here, bound]
        · simp [get?, here]

theorem get?_connected (site : Site) (connections : List Connection) (id port : String) :
    get? port ((connections.filter fun c => c.destination.node == id).map fun c =>
        (c.destination.port, Binding.port (site.stem ++ c.origin.node) c.origin.port)) =
      ((connections.find? fun c => c.destination == ⟨id, port⟩).map fun c =>
        Origin.output site c.origin).map Origin.draft := by
  have into (e : Endpoint) :
      (e == ⟨id, port⟩) = decide ((e.node == id) ∧ (e.port == port)) := by
    cases e
    rw [Bool.eq_iff_iff]
    simp
  rw [get?_map, List.find?_filter, Option.map_map]
  simp only [into]
  rfl

theorem get?_bindingsOf {doc : Document} {site : Site} (fit : around.Fit doc site)
    (bound : bindingsOf n (site.connections doc) site.stem around = .ok bindings) (port : String) :
    get? port bindings = (site.origin? doc n port).map Origin.draft := by
  obtain ⟨links, linked, bound⟩ := bind_ok.1 bound
  cases pure_ok.1 bound
  simp only [Assoc.get?_putAll, ← map_reverse, ← filter_reverse, get?_connected,
    Assoc.get?_map_value, get?_linkBindings fit linked, Site.origin?, Site.reads?, Option.map_or,
    Option.map_map]
  simp [get?, Function.comp_def, Origin.draft]

theorem nodup_bindingsOf {connections : List Connection} {at_ : String}
    (bound : bindingsOf n connections at_ around = .ok bindings) :
    (bindings.map Prod.fst).Nodup := by
  obtain ⟨links, _, bound⟩ := bind_ok.1 bound
  cases pure_ok.1 bound
  exact Assoc.nodup_putAll _ (Assoc.nodup_putAll _ (Assoc.nodup_putAll _ .nil))

theorem fit_document (doc : Document) :
    Surroundings.Fit doc .document
      (Assoc.putAll [] (doc.inputs.map fun i => (i.name, some (.socket i.name)))) := by
  intro name
  rw [Assoc.get?_putAll, ← map_reverse, get?_map, Site.input?]
  cases doc.inputs.reverse.find? fun i => i.name == name <;> simp [get?, Origin.draft]

theorem fit_inside {doc : Document} {site : Site}
    (bound : ∀ port, get? port bindings = (site.origin? doc n port).map Origin.draft)
    (graph : NodeGraph) : (innerSurroundings graph bindings).Fit doc (.inside site n graph) := by
  intro name
  rw [innerSurroundings, Assoc.get?_putAll, ← map_reverse, get?_map, Site.input?]
  cases found : graph.inputs.reverse.find? fun i => i.name == name with
  | none => simp [get?]
  | some i =>
    have named : i.name = name := by simpa using List.find?_some found
    have own := bound name
    rw [Site.origin?] at own
    simp only [Option.map_some, Option.some_or, Option.join_some, Option.bind_some, named, own]
    cases site.reads? doc (site.input? doc) n name <;> cases i.value <;> simp [Origin.draft]

section

variable {doc : Document} {lib : Library} {redirects : List Redirect} {levels : Nat} {site : Site}
  {around : Surroundings} {e : Expansion}

theorem Opens.leads (tidy : TidyScopes doc lib)
    (opens : Opens doc lib redirects levels site around e) {endpoint : Endpoint}
    (named : endpoint.node ∈ (site.nodes doc).map Node.id) {steps : Nat} {b : Binding}
    (run : follow? redirects steps (.port (site.stem ++ endpoint.node) endpoint.port) = some b) :
    Leads doc lib site endpoint b := by
  -- One redirect leads one scope further in, so the levels of the expansion carry the induction.
  induction levels generalizing site around e endpoint steps b with
  | zero => exact absurd opens not_opens_zero
  | succ levels ih =>
    cases steps with
    | zero => cases run
    | succ steps =>
      obtain ⟨n, member, id⟩ := mem_map.1 named
      have found : (site.nodes doc).find? (fun m => m.id == endpoint.node) = some n :=
        id ▸ opens.tidy.find?_id member
      obtain ⟨parts, opened, _⟩ := opens.parts tidy
      obtain ⟨part, _, of_node⟩ := exists_of_mem_right opened.flip member
      rw [follow?, ← id] at run
      cases of_node with
      | node _ plain ends =>
        rw [ends] at run
        cases run
        rw [← site.path_eq]
        exact .node found plain
      | @inside bindings graph inner _ stands within leads =>
        rw [leads] at run
        cases declared : graph.outputs.reverse.find? fun o => o.name == endpoint.port with
        | none =>
          rw [declared] at run
          cases run
          rw [← site.path_eq]
          exact .dangling found stands declared
        | some o =>
          rw [declared] at run
          have listed : o ∈ graph.outputs := mem_reverse.1 (mem_of_find?_eq_some declared)
          exact .inside found stands declared (ih within (within.tidy.published o listed) run)

/-- Following redirects from the origin ends where the scopes say. -/
def Settles (doc : Document) (lib : Library) (redirects : List Redirect) (o : Origin) : Prop :=
  ∀ b, follow? redirects (maxNesting + 1) o.draft = some b → Resolves doc lib o b

theorem settles_literal (value : Json) : Settles doc lib redirects (.literal value) := by
  intro b run
  cases run
  exact .literal value

theorem Opens.settles (tidy : TidyScopes doc lib)
    (opens : Opens doc lib redirects levels site around e)
    (inputs : ∀ name o, site.input? doc name = some o → Settles doc lib redirects o) {port : String}
    (reads : site.origin? doc n port = some o) : Settles doc lib redirects o := by
  simp only [Site.origin?, Site.reads?, Option.or_eq_some_iff, Option.map_eq_some_iff] at reads
  obtain ⟨c, connected, rfl⟩ | ⟨_, ⟨value, _, rfl⟩ | ⟨_, linked⟩⟩ := reads
  · have listed : c ∈ site.connections doc :=
      mem_reverse.1 (mem_of_find?_eq_some connected)
    intro b run
    exact .output (opens.leads tidy (opens.tidy.connected c listed) run)
  · exact settles_literal value
  · obtain ⟨⟨p, name⟩, _, bound⟩ := exists_of_findSome?_eq_some linked
    split at bound
    · exact inputs name o bound
    · cases bound

theorem settles_input
    (reads : ∀ n port o, site.origin? doc n port = some o → Settles doc lib redirects o)
    {graph : NodeGraph} {name : String}
    (bound : (Site.inside site n graph).input? doc name = some o) :
    Settles doc lib redirects o := by
  simp only [Site.input?, Option.bind_eq_some_iff, Option.or_eq_some_iff,
    Option.map_eq_some_iff] at bound
  obtain ⟨i, _, own | ⟨_, value, _, rfl⟩⟩ := bound
  · exact reads n name o own
  · exact settles_literal value

theorem settles_socket {name : String} (bound : Site.document.input? doc name = some o) :
    Settles doc lib redirects o := by
  simp only [Site.input?, Option.map_eq_some_iff] at bound
  obtain ⟨i, _, rfl⟩ := bound
  intro b run
  cases run
  exact .socket i.name

structure Drafted (doc : Document) (lib : Library) (redirects : List Redirect)
    (leaf : Site × Node) (n : BoundNode) : Prop where
  path : n.path = leaf.1.path leaf.2.id
  node : n.node = leaf.2
  distinct : (n.bindings.map Prod.fst).Nodup
  bound : ∀ port, Assoc.get? port n.bindings = (leaf.1.origin? doc leaf.2 port).map Origin.draft
  settles : ∀ port o, leaf.1.origin? doc leaf.2 port = some o → Settles doc lib redirects o

theorem Opens.unrolls (tidy : TidyScopes doc lib)
    (opens : Opens doc lib redirects levels site around e) (fit : around.Fit doc site)
    (inputs : ∀ name o, site.input? doc name = some o → Settles doc lib redirects o) :
    ∃ leaves, Unrolls doc lib site (site.nodes doc) leaves ∧
      List.Forall₂ (Drafted doc lib redirects) leaves e.nodes := by
  induction levels generalizing site around e with
  | zero => exact absurd opens not_opens_zero
  | succ levels ih =>
    have reads : ∀ n port o, site.origin? doc n port = some o → Settles doc lib redirects o :=
      fun n port o reads => opens.settles tidy inputs reads
    obtain ⟨parts, opened, whole⟩ := opens.parts tidy
    rw [whole]
    -- The levels are done with; the nodes of the scope come one after the other.
    generalize site.nodes doc = nodes at opened
    clear opens whole
    induction opened with
    | nil => exact ⟨[], .nil, .nil⟩
    | @cons n part rest parts here _ later =>
      obtain ⟨leaves, unrolled, drafted⟩ := later
      cases here with
      | @node bindings bound plain _ =>
        refine ⟨(site, n) :: leaves, .node plain unrolled, .cons ?_ drafted⟩
        exact ⟨(site.path_eq n.id).symm, rfl, nodup_bindingsOf bound, get?_bindingsOf fit bound,
          reads n⟩
      | @inside bindings graph inner bound stands within _ =>
        have fit' := fit_inside (get?_bindingsOf fit bound) graph
        obtain ⟨inside, unrolled', drafted'⟩ :=
          ih within fit' fun _ _ bound => settles_input reads bound
        exact ⟨inside ++ leaves, .inside stands unrolled' unrolled,
          rel_append drafted' drafted⟩

theorem settle_ok {b c : Binding} :
    settle redirects b = .ok c ↔ follow? redirects (maxNesting + 1) b = some c :=
  orFail_ok

theorem Drafted.inlined {leaf : Site × Node} {n settled : BoundNode}
    (drafted : Drafted doc lib redirects leaf n) (run : settleNode redirects n = .ok settled) :
    Inlined doc lib leaf settled := by
  obtain ⟨path, node, each⟩ := settleNode_ok run
  have listed : ∀ port b, (port, b) ∈ n.bindings ↔
      ∃ o, leaf.1.origin? doc leaf.2 port = some o ∧ o.draft = b := by
    intro port b
    rw [Assoc.mem_iff_get? drafted.distinct, drafted.bound, Option.map_eq_some_iff]
  refine ⟨path.trans drafted.path, node.trans drafted.node, fun port b => ⟨fun member => ?_, ?_⟩⟩
  · obtain ⟨⟨_, old⟩, before, rfl, followed⟩ := exists_of_mem_right each member
    obtain ⟨o, reads, rfl⟩ := (listed _ old).1 before
    exact ⟨o, reads, drafted.settles _ o reads b followed⟩
  · rintro ⟨o, reads, resolved⟩
    obtain ⟨⟨_, new⟩, after, rfl, followed⟩ :=
      exists_of_mem_right each.flip ((listed port o.draft).2 ⟨o, reads, rfl⟩)
    rw [resolved.unique (drafted.settles _ o reads new followed)]
    exact after

end

/-- A network holds the nodes of the unrolled document in order, each with what its scope says, and
its outputs lead to where the scopes lead them. -/
theorem ofDocument_inlines {doc : Document} {lib : Library} (tidy : TidyScopes doc lib)
    {net : Network} (run : ofDocument doc lib = .ok net) :
    ∃ leaves, Unrolls doc lib .document doc.nodes leaves ∧
      List.Forall₂ (Inlined doc lib) leaves net.nodes ∧
      List.Forall₂ (fun o b => b.name = o.name ∧ b.typeName = o.typeName ∧
        Leads doc lib .document o.origin b.binding) doc.outputs net.outputs := by
  obtain ⟨whole, expanded, run⟩ := Result.bind_ok.1 run
  obtain ⟨nodes, settled, run⟩ := Result.bind_ok.1 run
  obtain ⟨outputs, published, run⟩ := Result.bind_ok.1 run
  cases Result.pure_ok.1 run
  have opens : Opens doc lib whole.redirects (maxNesting + 1) .document _ whole :=
    ⟨expanded, tidy.document, fun _ _ _ _ _ => rfl⟩
  obtain ⟨leaves, unrolled, drafted⟩ :=
    opens.unrolls tidy (fit_document doc) fun _ _ bound => settles_socket bound
  refine ⟨leaves, unrolled, ?_, ?_⟩
  · exact forall₂_compose (fun _ _ _ drafted run => drafted.inlined run) drafted
      (Result.mapM_ok settled)
  · have listed : List.Forall₂ (fun o b => o ∈ doc.outputs ∧
        settleOutput whole.redirects o = .ok b) doc.outputs outputs :=
      (List.forall₂_and_left _ _).2 ⟨fun _ member => member, Result.mapM_ok published⟩
    refine listed.imp fun o b ⟨member, made⟩ => ?_
    obtain ⟨c, followed, made⟩ := Result.bind_ok.1 made
    cases Result.pure_ok.1 made
    rw [settle_ok, ← o.origin.node.empty_append] at followed
    exact ⟨rfl, rfl, opens.leads tidy (tidy.document.published o member) followed⟩

def nestedLibrary : Library where
  __ := Library.empty
  nodegraphs :=
    [⟨"NG_scaled", "scaled", "float", [⟨"in", "float", none⟩, ⟨"by", "float", some (.int 2)⟩],
      [⟨"out", "float", ⟨"product", "out"⟩⟩],
      [⟨"product", "multiply", "float", none, [], [("in1", "in"), ("in2", "by")], []⟩], []⟩]

def nestedDocument : Document where
  version := "1"
  metadata := ⟨"nested", none, none⟩
  inputs := [⟨"gain", "float", none⟩]
  nodes :=
    [⟨"left", "shifted", "float", none, [], [("in", "gain")], []⟩,
     ⟨"right", "add", "float", none, [("in1", .int 3)], [], []⟩]
  connections :=
    [⟨"a", ⟨"left", "raw"⟩, ⟨"right", "in1"⟩⟩, ⟨"b", ⟨"left", "missing"⟩, ⟨"right", "in2"⟩⟩]
  outputs := [⟨"out", "float", ⟨"right", "out"⟩⟩, ⟨"shift", "float", ⟨"left", "out"⟩⟩]
  nodegraphs :=
    [⟨"NG_shifted", "shifted", "float", [⟨"in", "float", none⟩],
      [⟨"out", "float", ⟨"shift", "out"⟩⟩, ⟨"raw", "float", ⟨"scale", "out"⟩⟩],
      [⟨"scale", "scaled", "float", none, [], [("in", "in")], []⟩,
       ⟨"shift", "add", "float", none, [("in2", .int 1)], [], []⟩],
      [⟨"c", ⟨"scale", "out"⟩, ⟨"shift", "in1"⟩⟩]⟩]

theorem ofDocument_inlines_nested :
    TidyScopes nestedDocument nestedLibrary ∧
      ∃ net, ofDocument nestedDocument nestedLibrary = .ok net ∧
        net.nodes.map BoundNode.path = ["left/scale/product", "left/shift", "right"] ∧
        ∃ leaves, Unrolls nestedDocument nestedLibrary .document nestedDocument.nodes leaves ∧
          List.Forall₂ (Inlined nestedDocument nestedLibrary) leaves net.nodes ∧
          List.Forall₂ (fun o b => b.name = o.name ∧ b.typeName = o.typeName ∧
            Leads nestedDocument nestedLibrary .document o.origin b.binding)
            nestedDocument.outputs net.outputs := by
  have tidy : TidyScopes nestedDocument nestedLibrary := by decide
  have paths : (ofDocument nestedDocument nestedLibrary).toOption.map
      (fun net => net.nodes.map BoundNode.path) =
        some ["left/scale/product", "left/shift", "right"] := by
    decide
  obtain ⟨net, found, paths⟩ := Option.map_eq_some_iff.1 paths
  have run := Result.toOption_eq_some.1 found
  exact ⟨tidy, net, run, paths, ofDocument_inlines tidy run⟩

end MaterialShader.Network
