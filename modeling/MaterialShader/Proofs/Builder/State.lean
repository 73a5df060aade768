import MaterialShader.Graph.Builder
import MaterialShader.Proofs.Graph.Fits
import MaterialShader.Proofs.Network.Literals

/-!
The graph under construction, kept typed:
-/

namespace MaterialShader

variable {types : Registry} {name : String} {t : ShaderType} {d : Definition} {id : NodeId}

namespace Build

section

variable {α β : Type} {b b' b'' : Builder} {f : α → Build β} {items : List α} {out : List β}

@[simp] theorem bind_ok {x : Build α} {c : β} :
    (x >>= f) b = .ok (c, b'') ↔ ∃ a b', x b = .ok (a, b') ∧ f a b' = .ok (c, b'') := by
  cases run : x b with
  | error e => simp [bind, StateT.bind, run, Except.bind]
  | ok p =>
    obtain ⟨a, b'⟩ := p
    constructor
    · intro later
      exact ⟨a, b', rfl, by simpa [bind, StateT.bind, run, Except.bind] using later⟩
    · rintro ⟨_, _, same, later⟩
      cases same
      simpa [bind, StateT.bind, run, Except.bind] using later

@[simp] theorem pure_ok {a c : α} : (pure a : Build α) b = .ok (c, b') ↔ a = c ∧ b = b' := by
  change Except.ok (a, b) = _ ↔ _
  simp

@[simp] theorem map_ok {x : Build α} {f : α → β} {c : β} :
    (f <$> x) b = .ok (c, b') ↔ ∃ a, x b = .ok (a, b') ∧ f a = c := by
  rw [map_eq_pure_bind, bind_ok]
  simp only [pure_ok, exists_eq_right_right]

@[simp] theorem get_bind_ok {f : Builder → Build α} {a : α} :
    (get >>= f) b = .ok (a, b') ↔ f b b = .ok (a, b') := Iff.rfl

@[simp] theorem set_ok {s : Builder} {u : Unit} :
    (set s : Build Unit) b = .ok (u, b') ↔ s = b' := by
  change Except.ok (_, s) = _ ↔ _
  simp

@[simp] theorem modify_ok {f : Builder → Builder} {u : Unit} :
    (modify f : Build Unit) b = .ok (u, b') ↔ f b = b' := by
  simp [modify, modifyGet, MonadStateOf.modifyGet, StateT.modifyGet, pure, Except.pure]

@[simp] theorem lift_ok {r : Result α} {a : α} : Builder.lift r b = .ok (a, b') ↔ r = .ok a ∧ b = b' := by
  cases r <;> simp [Builder.lift]

@[simp] theorem raise_ok {f : Fault} {a : α} : ¬ (Builder.raise f : Build α) b = .ok (a, b') := by
  simp [Builder.raise, Builder.lift, fail]

theorem mapM_induct (P : List α → List β → Builder → Builder → Prop) (nil : ∀ b, P [] [] b b)
    (cons : ∀ a c rest out b b' b'', f a b = .ok (c, b') → P rest out b' b'' →
      P (a :: rest) (c :: out) b b'') (run : items.mapM f b = .ok (out, b')) :
    P items out b b' := by
  induction items generalizing out b with
  | nil =>
    obtain ⟨rfl, rfl⟩ := pure_ok.1 run
    exact nil b
  | cons a rest ih =>
    rw [List.mapM_cons] at run
    obtain ⟨c, b₁, first, run⟩ := bind_ok.1 run
    obtain ⟨others, b₂, later, run⟩ := bind_ok.1 run
    obtain ⟨rfl, rfl⟩ := pure_ok.1 run
    exact cons a c rest others b b₁ b₂ first (ih later)

theorem mapM_reads {Q : α → β → Prop} (run : items.mapM f b = .ok (out, b'))
    (step : ∀ a c b', f a b = .ok (c, b') → b = b' ∧ Q a c) :
    b = b' ∧ List.Forall₂ Q items out := by
  refine mapM_induct (fun items out b b' => (∀ a c b', f a b = .ok (c, b') → b = b' ∧ Q a c) →
    b = b' ∧ List.Forall₂ Q items out) (fun _ _ => ⟨rfl, .nil⟩) ?_ run step
  intro a c rest out b b' b'' first later step
  obtain ⟨rfl, holds⟩ := step a c b' first
  obtain ⟨rfl, all⟩ := later step
  exact ⟨rfl, .cons holds all⟩

theorem forM_induct {f : α → Build Unit} (P : List α → Builder → Builder → Prop)
    (nil : ∀ b, P [] b b)
    (cons : ∀ a rest b b' b'', f a b = .ok ((), b') → P rest b' b'' → P (a :: rest) b b'')
    (run : items.forM f b = .ok ((), b')) : P items b b' := by
  induction items generalizing b with
  | nil =>
    obtain ⟨_, rfl⟩ := pure_ok.1 run
    exact nil b
  | cons a rest ih =>
    change (f a >>= fun _ => rest.forM f) b = _ at run
    obtain ⟨_, b₁, first, run⟩ := bind_ok.1 run
    exact cons a rest b b₁ b' first (ih run)

end

end Build

theorem Registry.find?_knows (found : types.find? name = some t) : types.Knows t := by
  have same : t.name = name := by simpa using List.find?_some found
  rw [Registry.Knows, same]
  exact found

/-- The first output of the definition that converts to a type has that type. -/
def Library.Converts (lib : Library) : Prop :=
  ∀ name d, lib.definition? ("convert_" ++ name) = some d →
    ∃ o, d.outputs.head? = some o ∧ o.typeName = name

theorem Library.mem_of_definition? {lib : Library} (found : lib.definition? name = some d) :
    d ∈ lib.definitions :=
  (definition?_eq_some.1 found).1

theorem Library.mem_of_resolve {lib : Library} {path : String} {node : Node}
    (resolved : lib.resolve path node = .ok d) : d ∈ lib.definitions := by
  unfold Library.resolve at resolved
  split at resolved
  · exact mem_of_definition? (orFail_ok.1 (Result.inside_ok.1 resolved))
  · exact List.mem_of_find?_eq_some (orFail_ok.1 resolved)

def Value.ReadFrom (js : List Json) (t : ShaderType) (v : Value) : Prop :=
  ∃ j ∈ js, Value.ofJson j t = .ok v

namespace Builder

def geometryLiterals : List Json := [.int 0, .str "world", .str "object"]

theorem geometryNode?_mem {definition port : String} {j : Json}
    (found : geometryNode? name = some (definition, port, j)) : j ∈ geometryLiterals := by
  unfold geometryNode? at found
  split_ifs at found <;> (cases found; simp [geometryLiterals])

def draft (b : Builder) : Graph :=
  { nodes := b.nodes, inputSockets := b.sockets, outputSockets := [], order := [],
    classification := .empty }

def Lists (b : Builder) (key : Source × String) (id : NodeId) : Prop :=
  Assoc.get? key b.conversions = some id

structure Grows (changed : List NodeId) (b b' : Builder) : Prop where
  library : b'.library = b.library
  types : b'.types = b.types
  index : b'.index = b.index
  sockets : b'.sockets = b.sockets
  socketIndex : b'.socketIndex = b.socketIndex
  nodes : ∀ (id : NodeId) (n : GraphNode), b.nodes[id]? = some n → ∃ inputs,
    b'.nodes[id]? = some { n with inputs } ∧ (id ∉ changed → inputs = n.inputs)
  conversions : ∀ key id, b.Lists key id → b'.Lists key id
  fresh : ∀ key id, b'.Lists key id → b.Lists key id ∨ b.nodes.length ≤ id

variable {changed changed' : List NodeId} {b b' c : Builder}

theorem Grows.refl (changed : List NodeId) (b : Builder) : b.Grows changed b :=
  ⟨rfl, rfl, rfl, rfl, rfl, fun _ n found => ⟨n.inputs, found, fun _ => rfl⟩,
    fun _ _ listed => listed, fun _ _ listed => .inl listed⟩

theorem Grows.length_le (grows : b.Grows changed b') : b.nodes.length ≤ b'.nodes.length := by
  by_contra short
  have inside : b'.nodes.length < b.nodes.length := by omega
  obtain ⟨_, found, _⟩ := grows.nodes _ _ (List.getElem?_eq_getElem inside)
  have := lt_of_getElem? found
  omega

theorem Grows.trans (first : b.Grows changed c) (second : c.Grows changed' b')
    (sub : ∀ id ∈ changed', id ∈ changed ∨ b.nodes.length ≤ id) : b.Grows changed b' := by
  refine ⟨second.library.trans first.library, second.types.trans first.types,
    second.index.trans first.index, second.sockets.trans first.sockets,
    second.socketIndex.trans first.socketIndex, ?_, ?_, ?_⟩
  · intro id n found
    obtain ⟨inputs, found', kept⟩ := first.nodes id n found
    obtain ⟨inputs', found'', kept'⟩ := second.nodes id _ found'
    refine ⟨inputs', found'', fun other => ?_⟩
    have inside := lt_of_getElem? found
    have other' : id ∉ changed' := by
      intro listed
      obtain listed | new := sub id listed
      · exact other listed
      · omega
    exact (kept' other').trans (kept other)
  · exact fun key id listed => second.conversions key id (first.conversions key id listed)
  · intro key id listed
    have longer := first.length_le
    obtain old | new := second.fresh key id listed
    · exact first.fresh key id old
    · exact .inr (longer.trans new)

theorem Grows.mono (grows : b.Grows changed b') (sub : changed ⊆ changed') : b.Grows changed' b' :=
  (Grows.refl changed' b).trans grows fun _ listed => .inl (sub listed)

theorem Grows.seq (first : b.Grows [] c) (second : c.Grows [] b') : b.Grows [] b' :=
  first.trans second nofun

theorem Grows.retable (grows : b.Grows changed c) (geometry : List (String × NodeId)) :
    b.Grows changed { c with geometry } :=
  { grows with }

theorem Grows.sourceType? (grows : b.Grows changed b') {s : Source}
    (typed : b.draft.sourceType? s = some t) : b'.draft.sourceType? s = some t := by
  cases s with
  | node id k =>
    obtain ⟨n, o, found, at_k, rfl⟩ := Graph.sourceType?_node typed
    obtain ⟨inputs, found', _⟩ := grows.nodes id n found
    have found'' : b'.draft.nodes[id]? = some { n with inputs } := found'
    simp only [Graph.sourceType?, Graph.output?, found'', at_k, Option.map_some]
  | socket k =>
    have same : b'.draft.sourceType? (.socket k) = b.draft.sourceType? (.socket k) := by
      simp only [Graph.sourceType?, draft, grows.sockets]
    exact same.trans typed

/-- A connected input or socket of type `t` reads something of that type, or a conversion to it. -/
def Reads (b : Builder) (t : ShaderType) (s : Option Source) : Prop :=
  ∀ source ∈ s, b.draft.sourceType? source = some t ∨
    ∃ origin id, source = .node id 0 ∧ b.Lists (origin, t.name) id

theorem reads_none (b : Builder) (t : ShaderType) : b.Reads t none := by
  intro source impossible
  cases impossible

theorem Grows.reads (grows : b.Grows changed b') {s : Option Source} (reads : b.Reads t s) :
    b'.Reads t s := by
  intro source member
  obtain typed | ⟨origin, id, same, listed⟩ := reads source member
  · exact .inl (grows.sourceType? typed)
  · exact .inr ⟨origin, id, same, grows.conversions _ id listed⟩

structure Admits (types : Registry) (js : List Json) (b : Builder) (i : Input) : Prop where
  known : types.Knows i.type
  reads : b.Reads i.type i.source
  closed : i.source = none → i.value = none → i.type.isClosure
  literal : ∀ v ∈ i.value, v.ReadFrom js i.type
  static : i.isStatic → i.source = none

theorem Admits.grow {js : List Json} {i : Input} (admits : b.Admits types js i)
    (grows : b.Grows changed b') : b'.Admits types js i :=
  { admits with reads := grows.reads admits.reads }

def OutputsOf (types : Registry) (d : Definition) (outputs : List Output) : Prop :=
  List.Forall₂ (fun p o => types.find? p.typeName = some o.type) d.outputs outputs

theorem OutputsOf.typeNames {outputs : List Output} (typed : OutputsOf types d outputs) :
    (outputs.map fun o => o.type.name) = d.outputs.map Port.typeName := by
  have names : List.Forall₂ (fun p o => o.type.name = p.typeName) d.outputs outputs :=
    typed.imp fun _ _ found => by simpa using List.find?_some found
  rw [← List.forall₂_eq_eq_eq, List.forall₂_map_left_iff, List.forall₂_map_right_iff]
  exact names.flip

def Converted (lib : Library) (types : Registry) (name : String) (n : GraphNode) : Prop :=
  (∃ d, lib.definition? ("convert_" ++ name) = some d ∧ OutputsOf types d n.outputs) ∧
    ∀ i ∈ n.inputs, ¬ i.type.isClosure

structure Sound (lib : Library) (types : Registry) (js : List Json) (waiting : List NodeId)
    (b : Builder) : Prop where
  sameLibrary : b.library = lib
  sameTypes : b.types = types
  written : lib.literals ++ geometryLiterals ⊆ js
  inputs : ∀ n ∈ b.nodes, ∀ i ∈ n.inputs, b.Admits types js i
  outputs : ∀ n ∈ b.nodes, ∀ o ∈ n.outputs, types.Knows o.type
  stems : ∀ (id : NodeId) n, b.nodes[id]? = some n → id ∈ waiting ∨ n.Stems lib
  sockets : ∀ s ∈ b.sockets, types.Knows s.type ∧ ∀ v ∈ s.value, v.ReadFrom js s.type
  conversions : ∀ s name id, b.Lists (s, name) id →
    ∃ n, b.nodes[id]? = some n ∧ Converted lib types name n

section

variable {lib : Library} {js : List Json} {waiting : List NodeId} {b : Builder}

theorem Sound.listed_lt (sound : b.Sound lib types js waiting) {key : Source × String}
    (listed : b.Lists key id) : id < b.nodes.length := by
  obtain ⟨n, found, _⟩ := sound.conversions key.1 key.2 id listed
  exact lt_of_getElem? found

theorem Sound.known (sound : b.Sound lib types js waiting) {s : Source}
    (typed : b.draft.sourceType? s = some t) : types.Knows t := by
  cases s with
  | node id k =>
    obtain ⟨n, o, found, at_k, rfl⟩ := Graph.sourceType?_node typed
    exact sound.outputs n (List.mem_of_getElem? found) o (List.mem_of_getElem? at_k)
  | socket k =>
    obtain ⟨socket, found, rfl⟩ := Option.map_eq_some_iff.1 typed
    exact (sound.sockets socket (List.mem_of_getElem? found)).1

theorem grows_append (b : Builder) (n : GraphNode) :
    b.Grows [] { b with nodes := b.nodes ++ [n] } := by
  refine { Grows.refl [] b with nodes := fun id m found => ⟨m.inputs, ?_, fun _ => rfl⟩ }
  exact (List.getElem?_append_left (lt_of_getElem? found)).trans found

theorem Sound.append (sound : b.Sound lib types js waiting) {n : GraphNode} (bare : n.inputs = [])
    (known : ∀ o ∈ n.outputs, types.Knows o.type) :
    Sound lib types js (b.nodes.length :: waiting) { b with nodes := b.nodes ++ [n] } := by
  have grows := b.grows_append n
  refine ⟨sound.sameLibrary, sound.sameTypes, sound.written, ?_, ?_, ?_, sound.sockets, ?_⟩
  · intro m member i input
    obtain member | member := List.mem_append.1 member
    · exact (sound.inputs m member i input).grow grows
    · rw [List.mem_singleton.1 member, bare] at input
      cases input
  · intro m member
    obtain member | member := List.mem_append.1 member
    · exact sound.outputs m member
    · rw [List.mem_singleton.1 member]
      exact known
  · intro id m found
    by_cases inside : id < b.nodes.length
    · rw [List.getElem?_append_left inside] at found
      exact (sound.stems id m found).imp_left (List.mem_cons_of_mem _)
    · have last : id < (b.nodes ++ [n]).length := lt_of_getElem? found
      rw [List.length_append, List.length_singleton] at last
      have same := Nat.le_antisymm (Nat.lt_succ_iff.1 last) (Nat.le_of_not_lt inside)
      exact .inl (same ▸ (.head _))
  · intro s name id listed
    obtain ⟨m, found, converted⟩ := sound.conversions s name id listed
    have inside := lt_of_getElem? found
    exact ⟨m, (List.getElem?_append_left inside).trans found, converted⟩

theorem grows_rebind (b : Builder) (id : NodeId) (inputs : List Input) :
    b.Grows [id] { b with nodes := b.nodes.modify id fun n => { n with inputs } } := by
  refine { Grows.refl [id] b with nodes := fun k m found => ?_ }
  refine ⟨if id = k then inputs else m.inputs, ?_, fun other => ?_⟩
  · simp only [List.getElem?_modify, found]
    split <;> rfl
  · exact if_neg fun same => other (List.mem_singleton.2 same.symm)

theorem mem_rebind {b : Builder} {inputs : List Input} {m : GraphNode}
    (member : m ∈ b.nodes.modify id fun n => { n with inputs }) :
    m ∈ b.nodes ∨ ∃ n, b.nodes[id]? = some n ∧ m = { n with inputs } := by
  obtain ⟨k, at_k⟩ := List.mem_iff_getElem?.1 member
  rw [List.getElem?_modify] at at_k
  obtain ⟨n, found, rfl⟩ := Option.map_eq_some_iff.1 at_k
  split
  · rename_i same
    exact .inr ⟨n, same ▸ found, rfl⟩
  · exact .inl (List.mem_of_getElem? found)

theorem Sound.rebind (sound : b.Sound lib types js (id :: waiting)) {inputs : List Input}
    (unlisted : ∀ key, ¬ b.Lists key id) (admits : ∀ i ∈ inputs, b.Admits types js i)
    (stems : ∀ n, b.nodes[id]? = some n → GraphNode.Stems lib { n with inputs }) :
    Sound lib types js waiting { b with nodes := b.nodes.modify id fun n => { n with inputs } } := by
  have grows := b.grows_rebind id inputs
  refine ⟨sound.sameLibrary, sound.sameTypes, sound.written, ?_, ?_, ?_, sound.sockets, ?_⟩
  · intro m member i input
    obtain old | ⟨n, found, rfl⟩ := mem_rebind member
    · exact (sound.inputs m old i input).grow grows
    · exact (admits i input).grow grows
  · intro m member
    obtain old | ⟨n, found, rfl⟩ := mem_rebind member
    · exact sound.outputs m old
    · exact sound.outputs n (List.mem_of_getElem? found)
  · intro k m at_k
    simp only [List.getElem?_modify] at at_k
    obtain ⟨n, found, rfl⟩ := Option.map_eq_some_iff.1 at_k
    by_cases same : id = k
    · rw [if_pos same]
      exact .inr (stems n (same ▸ found))
    · rw [if_neg same]
      refine (sound.stems k n found).imp_left fun listed => ?_
      exact (List.mem_cons.1 listed).resolve_left (Ne.symm same)
  · intro s name old listed
    obtain ⟨m, found, converted⟩ := sound.conversions s name old listed
    have other : id ≠ old := by
      rintro rfl
      exact unlisted _ listed
    exact ⟨m, by simp [other, found], converted⟩

end

end Builder

end MaterialShader
