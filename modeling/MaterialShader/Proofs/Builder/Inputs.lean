import MaterialShader.Proofs.Builder.Connect

/-!
Every input of a node is bound to something that fits it, also where binding one node makes and
binds another for a geometric property.
-/

namespace MaterialShader

open List Option

/-- The input has the name of the port and a type that agrees with what it is bound to. -/
structure Input.Suits (types : Registry) (typeOf : Binding → Option ShaderType)
    (bindings : List (String × Binding)) (inputTypes : List (String × String)) (port : Port)
    (i : Input) : Prop where
  name : i.name = port.name
  own : ∀ t ∈ port.givenType? types inputTypes, i.type = t
  source : ∀ binding, Assoc.get? port.name bindings = some binding →
    (∃ json, binding = .literal json) ∨
      ∃ s, typeOf binding = some s ∧ types.Takes (port.givenType? types inputTypes) s i.type

theorem Input.Suits.mono {types : Registry} {typeOf typeOf' : Binding → Option ShaderType}
    {bindings : List (String × Binding)} {inputTypes : List (String × String)} {port : Port}
    {i : Input} (suits : i.Suits types typeOf bindings inputTypes port)
    (more : ∀ binding s, typeOf binding = some s → typeOf' binding = some s) :
    i.Suits types typeOf' bindings inputTypes port := by
  refine ⟨suits.name, suits.own, fun binding bound => ?_⟩
  exact (suits.source binding bound).imp_right fun ⟨s, typed, takes⟩ => ⟨s, more _ _ typed, takes⟩

namespace Builder

section

variable {lib : Library} {types : Registry} {js : List Json} {waiting changed : List NodeId}
  {b b' : Builder} {bind : Binder → Build Unit} {port : Port} {t : ShaderType} {path : String}

theorem Grows.bindingType? (grows : b.Grows changed b') {binding : Binding}
    (typed : b.bindingType? binding = some t) : b'.bindingType? binding = some t := by
  cases binding with
  | literal json => exact typed
  | socket name =>
    rw [Builder.bindingType?, grows.socketIndex, grows.sockets]
    exact typed
  | port path output =>
    obtain ⟨id, place, typed⟩ := bind_eq_some_iff.1 typed
    obtain ⟨n, found, typed⟩ := bind_eq_some_iff.1 typed
    obtain ⟨inputs, found', _⟩ := grows.nodes id n found
    simp only [Builder.bindingType?, grows.index, place, bind_some, found']
    exact typed

def Suited (types : Registry) (b : Builder) (w : Binder) : Prop :=
  ∃ n, b.nodes[w.id]? = some n ∧ List.Forall₂
    (Input.Suits types b.bindingType? w.bindings w.inputTypes) w.definition.inputs n.inputs

theorem Suited.grow {w : Binder} (suited : b.Suited types w) (grows : b.Grows changed b')
    (other : w.id ∉ changed) : b'.Suited types w := by
  obtain ⟨n, found, suits⟩ := suited
  obtain ⟨_, found', kept⟩ := grows.nodes _ n found
  obtain rfl := kept other
  exact ⟨n, found', suits.imp fun _ _ suit => suit.mono fun _ _ => grows.bindingType?⟩

def Binds (lib : Library) (types : Registry) (js : List Json) (bind : Binder → Build Unit) : Prop :=
  ∀ w waiting b b', Sound lib types js (w.id :: waiting) b → b.Stands lib w.id w.definition →
    (∀ e ∈ w.bindings, e.2.From js) → bind w b = .ok ((), b') →
    Sound lib types js waiting b' ∧ b.Grows [w.id] b' ∧ b'.Suited types w

theorem sharedGeometry_sound (binds : Binds lib types js bind)
    (sound : b.Sound lib types js waiting) {name : String} {id : NodeId}
    (run : sharedGeometry bind name b = .ok (id, b')) :
    b'.Sound lib types js waiting ∧ b.Grows [] b' := by
  obtain ⟨rfl, _⟩ | ⟨definition, port, value, d, b₁, property, defined, made, bound⟩ :=
    sharedGeometry_ok run
  · exact ⟨sound, .refl [] b⟩
  · rw [sound.sameLibrary] at defined
    have shelled := addShell_sound sound (Library.mem_of_definition? defined) made
    have sound₂ : Sound lib types js (id :: waiting)
        { b₁ with geometry := Assoc.put name id b₁.geometry } :=
      shelled.sound.retable rfl rfl rfl rfl (fun _ _ listed => listed) shelled.sound.conversions
    have read : ∀ e ∈ [(port, Binding.literal value)], e.2.From js := by
      intro e member j literal
      cases mem_singleton.1 member
      cases literal
      exact sound.written (mem_append_right _ (geometryNode?_mem property))
    obtain ⟨sound₃, grows₃, _⟩ := binds ⟨id, d, _, _⟩ _ _ _ sound₂ shelled.stands read bound
    refine ⟨sound₃, (shelled.grows.retable _).trans grows₃ fun k listed => .inr ?_⟩
    exact mem_singleton.1 listed ▸ shelled.new

theorem Sound.knows_of_given (sound : b.Sound lib types js waiting)
    {inputTypes : List (String × String)} (given : port.givenType? b.types inputTypes = some t) :
    types.Knows t := by
  rw [sound.sameTypes, Port.givenType?] at given
  split_ifs at given
  · obtain ⟨name, _, found⟩ := bind_eq_some_iff.1 given
    exact Registry.find?_knows found
  · exact Registry.find?_knows given

structure Bound.Ok (types : Registry) (js : List Json) (b : Builder) (x : Bound) : Prop where
  known : types.Knows x.type
  reads : b.Reads x.type x.source
  closed : x.source = none → x.value = none → x.type.isClosure
  literal : ∀ v ∈ x.value, v.ReadFrom js x.type

theorem source_ok (known : types.Knows t) {s : Source} (reads : b.Reads t (some s)) :
    Bound.Ok types js b ⟨t, none, some s⟩ :=
  ⟨known, reads, nofun, nofun⟩

theorem literal_ok (known : types.Knows t) {j : Json} (written : j ∈ js) {v : Value}
    (read : Value.ofJson j t = .ok v) : Bound.Ok types js b ⟨t, some v, none⟩ := by
  refine ⟨known, b.reads_none t, nofun, ?_⟩
  rintro _ ⟨⟩
  exact ⟨j, written, read⟩

theorem bindSource_sound (sound : b.Sound lib types js waiting) {d : Definition}
    {declared : Option ShaderType} (known : ∀ t ∈ declared, types.Knows t) {s : Source} {x : Bound}
    (run : bindSource d path port declared s b = .ok (x, b')) :
    b'.Sound lib types js waiting ∧ b.Grows [] b' ∧ x.Ok types js b' ∧
      ∃ from_, b.draft.sourceType? s = some from_ ∧ types.Takes declared from_ x.type := by
  obtain ⟨t, source, type, connected, rfl⟩ := bindSource_ok run
  have known : types.Knows t := type.elim (known t) fun typed => sound.known typed.2
  obtain ⟨sound', grows, reads, from_, typed, connects⟩ := connect_sound sound known connected
  refine ⟨sound', grows, source_ok known reads, ?_⟩
  obtain rfl | ⟨rfl, inferred⟩ := type
  · exact ⟨from_, typed, rfl, connects⟩
  · exact ⟨t, inferred, rfl⟩

theorem Defaults.sound (binds : Binds lib types js bind) (sound : b.Sound lib types js waiting)
    {d : Definition} (member : d ∈ lib.definitions) (listed : port ∈ d.inputs)
    (known : types.Knows t) {x : Bound} (made : Defaults bind path port t b x b') :
    b'.Sound lib types js waiting ∧ b.Grows [] b' ∧ x.Ok types js b' ∧ x.type = t := by
  cases made with
  | closure closure =>
    exact ⟨sound, .refl [] b, ⟨known, b.reads_none t, fun _ _ => closure, nofun⟩, rfl⟩
  | literal value read =>
    have written := mem_append_left geometryLiterals (Definition.mem_literals member listed value)
    exact ⟨sound, .refl [] b, literal_ok known (sound.written written) read, rfl⟩
  | geometry shared connected =>
    obtain ⟨sound₁, grows₁⟩ := sharedGeometry_sound binds sound shared
    obtain ⟨sound₂, grows₂, reads, _⟩ := connect_sound sound₁ known connected
    exact ⟨sound₂, grows₁.seq grows₂, source_ok known reads, rfl⟩

theorem bindPort_sound (binds : Binds lib types js bind) (sound : b.Sound lib types js waiting)
    {w : Binder} (member : w.definition ∈ lib.definitions) (written : ∀ e ∈ w.bindings, e.2.From js)
    (listed : port ∈ w.definition.inputs) {i : Input}
    (run : bindPort bind w path port b = .ok (i, b')) :
    b'.Sound lib types js waiting ∧ b.Grows [] b' ∧ b'.Admits types js i ∧
      i.Suits types b.bindingType? w.bindings w.inputTypes port ∧ port.Allows i.signature := by
  obtain ⟨given, x, rfl, static, made⟩ := bindPort_ok run
  have bound : b'.Sound lib types js waiting ∧ b.Grows [] b' ∧ x.Ok types js b' ∧
      (inputOf path port x).Suits b.types b.bindingType? w.bindings w.inputTypes port := by
    cases made with
    | default unbound given made =>
      obtain ⟨sound', grows, ok, same⟩ :=
        made.sound binds sound member listed (sound.knows_of_given given)
      refine ⟨sound', grows, ok, rfl, ?_, ?_⟩
      · rw [given]
        rintro _ ⟨⟩
        exact same
      · rw [unbound]
        rintro _ ⟨⟩
    | literal bound given read =>
      have literal := written _ (Assoc.mem_of_get? bound) _ rfl
      refine ⟨sound, .refl [] b, literal_ok (sound.knows_of_given given) literal read, rfl, ?_, ?_⟩
      · rw [given]
        rintro _ ⟨⟩
        rfl
      · rw [bound]
        rintro _ ⟨⟩
        exact .inl ⟨_, rfl⟩
    | source bound leads connected =>
      obtain ⟨sound', grows, ok, from_, typed, takes⟩ :=
        bindSource_sound sound (fun t given => sound.knows_of_given given) connected
      refine ⟨sound', grows, ok, rfl, takes.own, ?_⟩
      rw [bound, sound.sameTypes]
      rintro _ ⟨⟩
      exact .inr ⟨from_, leads ▸ typed, sound.sameTypes ▸ takes⟩
  obtain ⟨sound', grows, ok, suits⟩ := bound
  rw [sound.sameTypes] at suits given
  refine ⟨sound', grows, ⟨ok.known, ok.reads, ok.closed, ok.literal, static⟩, suits, suits.name, ?_⟩
  by_cases any : port.typeName = anyType
  · exact .inl any
  · obtain ⟨t, given⟩ := isSome_iff_exists.1 (given any)
    rw [Input.signature, suits.own t given]
    rw [Port.givenType?, if_neg any] at given
    exact .inr (by simpa using List.find?_some given)

theorem bindInputs_binds (depth : Nat) : Binds lib types js (bindInputs depth) := by
  -- An input that a default connects to a new node binds the inputs of that node, one level deeper.
  induction depth with
  | zero =>
    intro w waiting b b' _ _ _ run
    exact absurd run Build.raise_ok
  | succ depth ih =>
    intro w waiting b b' sound stands written run
    obtain ⟨_, path, inputs, b₁, ports, rfl⟩ := bindInputs_ok run
    have all := Build.mapM_induct (fun (ports : List Port) (inputs : List Input) b b' =>
      (∀ port ∈ ports, port ∈ w.definition.inputs) → b.Sound lib types js (w.id :: waiting) →
        b'.Sound lib types js (w.id :: waiting) ∧ b.Grows [] b' ∧
          (∀ i ∈ inputs, b'.Admits types js i) ∧
          List.Forall₂ (fun port i => i.Suits types b'.bindingType? w.bindings w.inputTypes port ∧
            port.Allows i.signature) ports inputs)
      ?_ ?_ ports (fun _ listed => listed) sound
    · obtain ⟨sound₁, grows₁, admits, suits⟩ := all
      have stands₁ := stands.grow grows₁
      have takes : w.definition.Takes inputs :=
        .inl (forall₂_map_right_iff.2 (suits.imp fun _ _ suit => suit.2))
      have last := b₁.grows_rebind w.id inputs
      refine ⟨sound₁.rebind stands₁.1 admits fun n => stands₁.stems takes,
        (grows₁.mono (nil_subset _)).trans last fun _ => .inl, ?_⟩
      obtain ⟨_, _, n, found, _⟩ := stands₁
      refine ⟨{ n with inputs }, by simp [found], suits.imp fun _ _ suit => ?_⟩
      exact suit.1.mono fun _ _ => last.bindingType?
    · intro b _ sound
      exact ⟨sound, .refl [] b, by simp, .nil⟩
    · intro port i ports inputs b b' b'' first later listed sound
      rw [forall_mem_cons] at listed
      obtain ⟨sound', grows', admits, suits, allows⟩ :=
        bindPort_sound ih sound stands.2.1 written listed.1 first
      obtain ⟨sound'', grows'', others, rest⟩ := later listed.2 sound'
      have grows := grows'.seq grows''
      refine ⟨sound'', grows, forall_mem_cons.2 ⟨admits.grow grows'', others⟩, .cons ?_ rest⟩
      exact ⟨suits.mono fun _ _ => grows.bindingType?, allows⟩

theorem bindAll_sound (binds : Binds lib types js bind)
    {binders : List Binder} (sound : b.Sound lib types js (binders.map Binder.id ++ waiting))
    (distinct : (binders.map Binder.id).Nodup)
    (stands : ∀ w ∈ binders, b.Stands lib w.id w.definition ∧ ∀ e ∈ w.bindings, e.2.From js)
    (run : binders.forM bind b = .ok ((), b')) :
    b'.Sound lib types js waiting ∧ b.Grows (binders.map Binder.id) b' ∧
      ∀ w ∈ binders, b'.Suited types w := by
  refine Build.forM_induct (fun (binders : List Binder) b b' =>
    b.Sound lib types js (binders.map Binder.id ++ waiting) → (binders.map Binder.id).Nodup →
      (∀ w ∈ binders, b.Stands lib w.id w.definition ∧ ∀ e ∈ w.bindings, e.2.From js) →
        b'.Sound lib types js waiting ∧ b.Grows (binders.map Binder.id) b' ∧
          ∀ w ∈ binders, b'.Suited types w) ?_ ?_ run sound distinct stands
  · exact fun b sound _ _ => ⟨sound, .refl _ b, by simp⟩
  · intro w rest b b' b'' first later sound distinct stands
    rw [map_cons, nodup_cons] at distinct
    obtain ⟨⟨here, written⟩, others⟩ := forall_mem_cons.1 stands
    obtain ⟨sound', grows, suited⟩ := binds w _ b b' sound here written first
    obtain ⟨sound'', grows', suits⟩ := later sound' distinct.2 fun w' member =>
      ⟨(others w' member).1.grow grows, (others w' member).2⟩
    refine ⟨sound'', (grows.mono (by simp)).trans grows' fun _ listed => .inl (.tail _ listed), ?_⟩
    exact forall_mem_cons.2 ⟨suited.grow grows' distinct.1, suits⟩

end

end Builder

end MaterialShader
