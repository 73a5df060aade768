import MaterialShader.Proofs.Builder.Steps

/-!
Connections of a graph under construction:
-/

namespace MaterialShader

/-- Something of the first type can be read where the second is asked for. -/
def Registry.Connects (types : Registry) (s t : ShaderType) : Prop :=
  s.same t ∨ (¬ s.isClosure ∧ ¬ t.isClosure ∧ (types.conversion? s t).isSome)

def Registry.Takes (types : Registry) (given : Option ShaderType) (s t : ShaderType) : Prop :=
  match given with
  | some own => t = own ∧ types.Connects s own
  | none => t = s

theorem Registry.Takes.own {types : Registry} {given : Option ShaderType} {s t : ShaderType}
    (takes : types.Takes given s t) : ∀ own ∈ given, t = own := by
  rintro own ⟨⟩
  exact takes.1

namespace Builder

section

variable {lib : Library} {types : Registry} {js : List Json} {waiting changed : List NodeId}
  {b b' : Builder} {id : NodeId} {d : Definition} {s : Source} {key : Source × String}

def Stands (lib : Library) (b : Builder) (id : NodeId) (d : Definition) : Prop :=
  (∀ key, ¬ b.Lists key id) ∧ d ∈ lib.definitions ∧ ∃ n, b.nodes[id]? = some n ∧
    n.definition = d.name ∧ n.category = d.category ∧ n.outputTypes = d.outputs.map Port.typeName

theorem Stands.grow (stands : b.Stands lib id d) (grows : b.Grows changed b') :
    b'.Stands lib id d := by
  obtain ⟨unlisted, member, n, found, made⟩ := stands
  obtain ⟨inputs, found', _⟩ := grows.nodes id n found
  refine ⟨?_, member, _, found', made⟩
  intro key listed
  have inside := lt_of_getElem? found
  obtain old | new := grows.fresh key id listed
  · exact unlisted key old
  · omega

theorem Stands.stems (stands : b.Stands lib id d) {inputs : List Input} (takes : d.Takes inputs)
    {n : GraphNode} (found : b.nodes[id]? = some n) : GraphNode.Stems lib { n with inputs } := by
  obtain ⟨_, member, m, at_id, definition, category, outputs⟩ := stands
  rw [found] at at_id
  cases at_id
  exact ⟨d, member, definition, category, outputs, takes⟩

structure Shelled (lib : Library) (types : Registry) (js : List Json) (waiting : List NodeId)
    (b b' : Builder) (id : NodeId) (d : Definition) : Prop where
  sound : b'.Sound lib types js (id :: waiting)
  grows : b.Grows [] b'
  stands : b'.Stands lib id d
  new : b.nodes.length ≤ id
  conversions : b'.conversions = b.conversions
  outputs : ∀ n, b'.nodes[id]? = some n → OutputsOf types d n.outputs

theorem addShell_sound (sound : b.Sound lib types js waiting) {path : String}
    (member : d ∈ lib.definitions) (run : addShell path d b = .ok (id, b')) :
    Shelled lib types js waiting b b' id d := by
  obtain ⟨outputs, shown, rfl, rfl⟩ := addShell_ok run
  rw [sound.sameTypes] at shown
  have outputsOk : OutputsOf types d outputs := shown.imp fun _ _ here => here.2
  have known : ∀ o ∈ outputs, types.Knows o.type := by
    intro o output
    obtain ⟨p, _, found⟩ := exists_of_mem_right outputsOk output
    exact Registry.find?_knows found
  refine ⟨sound.append rfl known, b.grows_append _,
    ⟨?_, member, _, List.getElem?_concat_length, rfl, rfl, OutputsOf.typeNames outputsOk⟩,
    le_refl _, rfl, ?_⟩
  · intro key listed
    exact Nat.lt_irrefl _ (sound.listed_lt listed)
  · intro n found
    cases List.getElem?_concat_length.symm.trans found
    exact outputsOk

theorem Sound.retable (sound : b.Sound lib types js waiting) (library : b'.library = b.library)
    (registry : b'.types = b.types) (nodes : b'.nodes = b.nodes) (sockets : b'.sockets = b.sockets)
    (kept : ∀ key id, b.Lists key id → b'.Lists key id)
    (conversions : ∀ s name id, b'.Lists (s, name) id →
      ∃ n, b.nodes[id]? = some n ∧ Converted lib types name n) : b'.Sound lib types js waiting := by
  have draft : b'.draft = b.draft := by simp only [Builder.draft, nodes, sockets]
  refine ⟨library.trans sound.sameLibrary, registry.trans sound.sameTypes, sound.written, ?_, ?_, ?_,
    ?_, ?_⟩
  · intro n member i input
    rw [nodes] at member
    have admits := sound.inputs n member i input
    refine { admits with reads := fun source read => ?_ }
    rw [draft]
    refine (admits.reads source read).imp_right ?_
    rintro ⟨origin, id, same, listed⟩
    exact ⟨origin, id, same, kept _ id listed⟩
  · rw [nodes]
    exact sound.outputs
  · rw [nodes]
    exact sound.stems
  · rw [sockets]
    exact sound.sockets
  · rw [nodes]
    exact conversions

theorem admits_source (sound : b.Sound lib types js waiting) {i : Input}
    (typed : b.draft.sourceType? s = some i.type) (source : i.source = some s)
    (value : i.value = none) (free : i.isStatic = false) : b.Admits types js i := by
  refine ⟨sound.known typed, ?_, by simp [source], by simp [value], by simp [free]⟩
  intro s' read
  rw [source] at read
  cases read
  exact .inl typed

theorem lists_iff_of_conversions (same : b'.conversions = b.conversions) :
    b'.Lists key id ↔ b.Lists key id := by rw [Lists, Lists, same]

theorem lists_put {key' : Source × String} {id' : NodeId}
    (listed : Lists { b with conversions := Assoc.put key id b.conversions } key' id') :
    (key = key' ∧ id = id') ∨ b.Lists key' id' := by
  rw [Lists, Assoc.get?_put] at listed
  split at listed
  · rename_i same
    exact .inl ⟨same, Option.some.inj listed⟩
  · exact .inr listed

theorem lists_put_of_lists {key' : Source × String} {id' : NodeId} (listed : b.Lists key' id')
    (new : ∀ old, ¬ b.Lists key old) :
    Lists { b with conversions := Assoc.put key id b.conversions } key' id' := by
  rw [Lists, Assoc.get?_put, if_neg]
  · exact listed
  · rintro rfl
    exact new id' listed

theorem Grows.list {c : Builder} (grows : b.Grows changed c) (same : c.conversions = b.conversions)
    (new : b.nodes.length ≤ id) (free : ∀ old, ¬ b.Lists key old) :
    b.Grows changed { c with conversions := Assoc.put key id c.conversions } := by
  refine { grows with conversions := ?_, fresh := ?_ }
  · intro key' id' listed
    apply lists_put_of_lists (grows.conversions key' id' listed)
    exact fun old listed => free old ((lists_iff_of_conversions same).1 listed)
  · intro key' id' listed
    obtain ⟨_, rfl⟩ | listed := lists_put listed
    · exact .inr new
    · exact grows.fresh key' id' listed

theorem Shelled.convert (shelled : Shelled lib types js waiting b b' id d) {i : Input}
    (name : i.name = "in") (admits : b'.Admits types js i) (plain : ¬ i.type.isClosure)
    {result : String} (free : ∀ old, ¬ b.Lists (s, result) old)
    (defined : lib.definition? ("convert_" ++ result) = some d) {b'' : Builder}
    (converted : b'' = { b' with
      nodes := b'.nodes.modify id fun n => { n with inputs := [i] }
      conversions := Assoc.put (s, result) id b'.conversions }) :
    b''.Sound lib types js waiting ∧ b.Grows [] b'' ∧ b''.Lists (s, result) id := by
  subst converted
  have free' : ∀ old, ¬ b'.Lists (s, result) old :=
    fun old listed => free old ((lists_iff_of_conversions shelled.conversions).1 listed)
  have bound : Sound lib types js waiting
      { b' with nodes := b'.nodes.modify id fun n => { n with inputs := [i] } } := by
    apply shelled.sound.rebind shelled.stands.1
    · intro j member
      rwa [List.mem_singleton.1 member]
    · have named := (Library.definition?_eq_some.1 defined).2
      have single : [i].map Input.signature = [("in", i.type)] := by
        rw [List.map_singleton, Input.signature, name]
      exact fun n => shelled.stands.stems (.inr ⟨i.type, result, single, plain, named⟩)
  refine ⟨bound.retable rfl rfl rfl rfl ?_ ?_, ?_, ?_⟩
  · exact fun key old listed => lists_put_of_lists listed free'
  · intro s' name' old listed
    obtain ⟨same, rfl⟩ | listed := lists_put listed
    · cases same
      obtain ⟨_, _, n, found, _⟩ := shelled.stands
      refine ⟨{ n with inputs := [i] }, by simp [found], ⟨d, defined, shelled.outputs n found⟩, ?_⟩
      intro j member
      rwa [List.mem_singleton.1 member]
    · exact bound.conversions s' name' old listed
  · refine Grows.list (shelled.grows.trans (b'.grows_rebind id [i]) fun k listed => .inr ?_)
      shelled.conversions shelled.new free
    exact List.mem_singleton.1 listed ▸ shelled.new
  · rw [Lists, Assoc.get?_put, if_pos rfl]

theorem convertNode_sound (sound : b.Sound lib types js waiting) {info : SourceInfo}
    (source : b.draft.sourceType? s = some info.type) (plain : ¬ info.type.isClosure)
    {t : ShaderType} (run : convertNode s info t b = .ok (id, b')) :
    b'.Sound lib types js waiting ∧ b.Grows [] b' ∧ b'.Lists (s, t.name) id := by
  obtain ⟨rfl, shared⟩ | ⟨d, path, b₁, absent, defined, made, changed⟩ := convertNode_ok run
  · exact ⟨sound, .refl [] b, shared⟩
  · rw [sound.sameLibrary] at defined
    have shelled := addShell_sound sound (Library.mem_of_definition? defined) made
    refine shelled.convert rfl ?_ plain ?_ defined changed
    · exact admits_source shelled.sound (shelled.grows.sourceType? source) rfl rfl rfl
    · intro old listed
      rw [Lists, absent] at listed
      cases listed

theorem connect_sound (sound : b.Sound lib types js waiting) {source : Source} {t : ShaderType}
    (known : types.Knows t) {consumer input : String}
    (run : connect s t consumer input b = .ok (source, b')) :
    b'.Sound lib types js waiting ∧ b.Grows [] b' ∧ b'.Reads t (some source) ∧
      ∃ from_, b.draft.sourceType? s = some from_ ∧ types.Connects from_ t := by
  obtain ⟨info, typed, ⟨rfl, rfl, same⟩ | ⟨id, rfl, plain, plain', conversion, converted⟩⟩ :=
    connect_ok run
  · have equal := (sound.known typed).eq_of_same known same
    refine ⟨sound, .refl [] b, ?_, info.type, typed, .inl same⟩
    rintro _ ⟨⟩
    exact .inl (equal ▸ typed)
  · rw [sound.sameTypes] at conversion
    obtain ⟨sound', grows, listed⟩ := convertNode_sound sound typed plain converted
    refine ⟨sound', grows, ?_, info.type, typed, .inr ⟨plain, plain', conversion⟩⟩
    rintro _ ⟨⟩
    exact .inr ⟨s, id, rfl, listed⟩

end

end Builder

end MaterialShader
