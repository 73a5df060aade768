import MaterialShader.Proofs.Builder.Inputs
import MaterialShader.Proofs.Builder.Placed

/-!
The graph of a document before anything is removed:
-/

namespace MaterialShader

open List

namespace Builder

section

variable {lib : Library} {types : Registry} {js : List Json} {waiting : List NodeId} {b b' : Builder}

theorem declared_ok {i : GraphInput} (written : ∀ j ∈ i.value, j ∈ js) {s : InputSocket}
    (declares : i.Declares types s) : types.Knows s.type ∧ ∀ v ∈ s.value, v.ReadFrom js s.type := by
  refine ⟨Registry.find?_knows declares.type, fun v value => ?_⟩
  have read := declares.value
  rw [Option.mem_def.1 value] at read
  generalize given : i.value = json at read
  cases read with
  | some literal => exact ⟨_, written _ given, literal⟩

structure AdmitsOutput (types : Registry) (js : List Json) (b : Builder) (s : OutputSocket) :
    Prop where
  known : types.Knows s.type
  reads : b.Reads s.type s.source
  literal : ∀ v ∈ s.value, v.ReadFrom js s.type

/-- The socket of an output takes what its binding leads to. -/
structure SuitsOutput (types : Registry) (typeOf : Binding → Option ShaderType) (o : BoundOutput)
    (s : OutputSocket) : Prop where
  name : s.name = o.name
  own : types.find? o.typeName = some s.type
  source : (∃ json, o.binding = .literal json) ∨
    ∃ from_, typeOf o.binding = some from_ ∧ types.Connects from_ s.type

theorem SuitsOutput.mono {typeOf typeOf' : Binding → Option ShaderType} {o : BoundOutput}
    {s : OutputSocket} (suits : SuitsOutput types typeOf o s)
    (more : ∀ binding t, typeOf binding = some t → typeOf' binding = some t) :
    SuitsOutput types typeOf' o s :=
  ⟨suits.name, suits.own, suits.source.imp_right fun ⟨t, typed, connects⟩ =>
    ⟨t, more _ _ typed, connects⟩⟩

theorem outputSocket_sound (sound : b.Sound lib types js waiting) {o : BoundOutput}
    (written : o.binding.From js) {s : OutputSocket} (run : outputSocket o b = .ok (s, b')) :
    b'.Sound lib types js waiting ∧ b.Grows [] b' ∧ b'.AdmitsOutput types js s ∧
      SuitsOutput types b.bindingType? o s := by
  obtain ⟨t, found, ⟨json, v, literal, read, rfl, rfl⟩ | ⟨_, _, source, leads, connected, rfl⟩⟩ :=
    outputSocket_ok run
  all_goals
    rw [sound.sameTypes] at found
    have known := Registry.find?_knows found
  · refine ⟨sound, .refl [] b, ⟨known, b.reads_none t, ?_⟩, rfl, found, .inl ⟨json, literal⟩⟩
    rintro _ ⟨⟩
    exact ⟨json, written json literal, read⟩
  · obtain ⟨sound', grows, reads, from_, typed, connects⟩ := connect_sound sound known connected
    exact ⟨sound', grows, ⟨known, reads, nofun⟩, rfl, found, .inr ⟨from_, leads ▸ typed, connects⟩⟩

theorem outputSockets_sound {outputs : List BoundOutput} (written : ∀ o ∈ outputs, o.binding.From js)
    {sockets : List OutputSocket} (sound : b.Sound lib types js waiting)
    (run : outputs.mapM outputSocket b = .ok (sockets, b')) :
    b'.Sound lib types js waiting ∧ b.Grows [] b' ∧ (∀ s ∈ sockets, b'.AdmitsOutput types js s) ∧
      List.Forall₂ (SuitsOutput types b'.bindingType?) outputs sockets := by
  refine Build.mapM_induct (fun outputs (sockets : List OutputSocket) b b' =>
    (∀ o ∈ outputs, o.binding.From js) → b.Sound lib types js waiting →
      b'.Sound lib types js waiting ∧ b.Grows [] b' ∧ (∀ s ∈ sockets, b'.AdmitsOutput types js s) ∧
        List.Forall₂ (SuitsOutput types b'.bindingType?) outputs sockets) ?_ ?_ run written sound
  · intro b _ sound
    exact ⟨sound, .refl [] b, by simp, .nil⟩
  · intro o s outputs sockets b b' b'' first later written sound
    rw [forall_mem_cons] at written
    obtain ⟨sound', grows', admits, suits⟩ := outputSocket_sound sound written.1 first
    obtain ⟨sound'', grows'', others, rest⟩ := later written.2 sound'
    have grows := grows'.seq grows''
    refine ⟨sound'', grows, forall_mem_cons.2 ⟨?_, others⟩, .cons ?_ rest⟩
    · exact { admits with reads := grows''.reads admits.reads }
    · exact suits.mono fun _ _ => grows.bindingType?

theorem start_sound {doc : Document} {net : Network} {binders : List Binder} {b₁ : Builder}
    (literals : lib.literals ++ geometryLiterals ⊆ js)
    (written : ∀ i ∈ doc.inputs, ∀ j ∈ i.value, j ∈ js)
    (sockets : doc.inputs.forM addSocket (start lib types) = .ok ((), b₁))
    (added : net.nodes.mapM addNode b₁ = .ok (binders, b')) :
    b'.Sound lib types js (binders.map Binder.id) ∧
      ∀ w ∈ binders, b'.Stands lib w.id w.definition := by
  obtain ⟨holds, placed, places, rfl, ids, numbered, state⟩ := start_holds sockets added
  have unlisted (key : Source × String) (id : NodeId) : ¬ b'.Lists key id := by
    rw [state]
    exact nofun
  have bare : ∀ m ∈ b'.nodes, ∃ d ∈ lib.definitions, ∃ path outputs,
      m = shell path d outputs ∧ OutputsOf types d outputs := by
    rw [state, forall_mem_map]
    intro p member
    obtain ⟨n, _, here⟩ := exists_of_mem_right places member
    exact ⟨_, Library.mem_of_resolve here.resolved, _, _, here.node,
      here.outputs.imp fun _ _ shown => shown.2⟩
  refine ⟨⟨by rw [state]; rfl, by rw [state]; rfl, literals, ?_, ?_, ?_, ?_, ?_⟩, ?_⟩
  · intro m member i input
    obtain ⟨d, _, path, outputs, rfl, _⟩ := bare m member
    cases input
  · intro m member o output
    obtain ⟨d, _, path, outputs, rfl, typed⟩ := bare m member
    obtain ⟨p, _, found⟩ := exists_of_mem_right typed output
    exact Registry.find?_knows found
  · intro id m found
    have inside := lt_of_getElem? found
    rw [state, length_map, ← places.length_eq] at inside
    exact .inl (ids ▸ mem_range'_1.2 ⟨id.zero_le, by simpa using inside⟩)
  · intro s member
    obtain ⟨i, listed, declares⟩ := exists_of_mem_right holds.sockets member
    exact declared_ok (written i listed) declares
  · exact fun s name id listed => absurd listed (unlisted _ id)
  · intro w member
    obtain ⟨p, listed, rfl⟩ := mem_map.1 member
    obtain ⟨k, at_k⟩ := mem_iff_getElem?.1 listed
    obtain ⟨n, _, here⟩ := exists_of_mem_right places listed
    have found : b'.nodes[p.1.id]? = some (shell n.path p.1.definition p.2.outputs) := by
      rw [numbered k p at_k, state, ← here.node]
      simp [at_k]
    exact ⟨fun key => unlisted key _, Library.mem_of_resolve here.resolved, _, found, rfl, rfl,
      OutputsOf.typeNames (here.outputs.imp fun _ _ shown => shown.2)⟩

structure Ends (lib : Library) (types : Registry) (js : List Json) (inputs : List GraphInput)
    (b : Builder) (outputSockets : List OutputSocket) : Prop where
  sound : b.Sound lib types js []
  outputs : ∀ s ∈ outputSockets, b.AdmitsOutput types js s
  sockets : List.Forall₂ (GraphInput.Declares types) inputs b.sockets
  fits : Graph.Fits { b.draft with outputSockets }

end

end Builder

/-- The property holds of every literal of the graph. -/
structure Graph.Literals (P : Value → Prop) (g : Graph) : Prop where
  inputs : ∀ n ∈ g.nodes, ∀ i ∈ n.inputs, ∀ v ∈ i.value, P v
  inputSockets : ∀ s ∈ g.inputSockets, ∀ v ∈ s.value, P v
  outputSockets : ∀ s ∈ g.outputSockets, ∀ v ∈ s.value, P v

namespace Graph

section

variable {doc : Document} {lib : Library} {types : Registry} {g : Graph}

/-- What is written in the document and in the library, and what stands for geometry. -/
def written (doc : Document) (lib : Library) : List Json :=
  doc.literals ++ lib.literals ++ Builder.geometryLiterals

theorem bind_eq (doc : Document) (lib : Library) (types : Registry) :
    bind doc lib types = Network.ofDocument doc lib >>= fun net =>
      (Builder.graph doc net (.start lib types)).map Prod.fst := by
  refine congrArg (Network.ofDocument doc lib >>= ·) (funext fun net => ?_)
  change (Builder.graph doc net (.start lib types) >>= fun p => pure p.1) = _
  cases Builder.graph doc net (.start lib types) <;> rfl

theorem bind_reads (run : bind doc lib types = .ok g) : ∃ (b : Builder) (net : Network),
    b.Sound lib types (written doc lib) [] ∧
      (∀ s ∈ g.outputSockets, b.AdmitsOutput types (written doc lib) s) ∧
      g = { b.draft with outputSockets := g.outputSockets } ∧
      Network.ofDocument doc lib = .ok net ∧ b.Holds doc lib types net ∧
      (∀ (k : NodeId) n, net.nodes[k]? = some n → ∃ (d : Definition) (m : GraphNode),
        lib.resolve n.path n.node = .ok d ∧ b.nodes[k]? = some m ∧ m.path = n.path ∧
        List.Forall₂ (Input.Suits types b.bindingType? n.bindings n.node.inputTypes)
          d.inputs m.inputs) ∧
      List.Forall₂ (Builder.SuitsOutput types b.bindingType?) net.outputs g.outputSockets := by
  obtain ⟨net, expanded, run⟩ := Result.bind_ok.1 run
  obtain ⟨⟨_, b⟩, made, rfl⟩ := Result.map_ok.1 run
  obtain ⟨nodesFrom, outputsFrom⟩ := Network.ofDocument_from expanded
  have within {b : Binding} (here : b.From (doc.literals ++ lib.literals)) :
      b.From (written doc lib) :=
    fun j literal => mem_append_left _ (here j literal)
  obtain ⟨b₁, b₂, b₃, binders, outputs, sockets, added, bound, ends, rfl⟩ := Builder.graph_ok made
  have literals : lib.literals ++ Builder.geometryLiterals ⊆ written doc lib := by
    rw [written, append_assoc]
    exact subset_append_right _ _
  obtain ⟨sound₂, stands⟩ := Builder.start_sound literals
    (fun i member j value => mem_append_left _
      (mem_append_left _ (Document.mem_literals_of_input member value))) sockets added
  obtain ⟨holds₂, placed, places, rfl, ids, numbered, _⟩ := Builder.start_holds sockets added
  have bindings : ∀ w ∈ placed.map Prod.fst, ∀ e ∈ w.bindings, e.2.From (written doc lib) := by
    intro w member
    obtain ⟨p, listed, rfl⟩ := mem_map.1 member
    obtain ⟨n, member, here⟩ := exists_of_mem_right places listed
    rw [here.bindings]
    exact fun e listed => within (nodesFrom n member e listed)
  rw [← append_nil (List.map _ _)] at sound₂
  obtain ⟨sound₃, grows₃, suited⟩ := Builder.bindAll_sound
    (Builder.bindInputs_binds (Builder.geometryCount + 2)) sound₂ (ids ▸ nodup_range')
    (fun w member => ⟨stands w member, bindings w member⟩) bound
  obtain ⟨sound, grows₄, admits, suits⟩ := Builder.outputSockets_sound
    (fun o member => within (outputsFrom o member)) sound₃ ends
  have holds := (holds₂.grow grows₃).grow grows₄
  refine ⟨b, net, sound, admits, rfl, expanded, holds, fun k n found => ?_, suits⟩
  obtain ⟨p, at_k, here⟩ := forall₂_getElem? places found
  have listed := mem_map_of_mem (f := Prod.fst) (mem_of_getElem? at_k)
  obtain ⟨m, at_m, inputs⟩ := (suited p.1 listed).grow grows₄ not_mem_nil
  rw [numbered k p at_k] at at_m
  obtain ⟨_, _, _, at_m', path, _⟩ := holds.nodes k n found
  cases at_m.symm.trans at_m'
  rw [here.bindings, here.inputTypes] at inputs
  exact ⟨_, m, here.resolved, at_m, path, inputs⟩

theorem bind_ends (regular : ∀ t, types.Knows t → t.Regular) (run : bind doc lib types = .ok g) :
    ∃ b : Builder, Builder.Ends lib types (written doc lib) doc.inputs b g.outputSockets ∧
      g = { b.draft with outputSockets := g.outputSockets } := by
  obtain ⟨b, _, sound, admits, shape, _, holds, _⟩ := bind_reads run
  refine ⟨b, ⟨sound, admits, holds.sockets, fun n member i input => ?_, fun s member v value => ?_,
    fun s member _ v value => ?_⟩, shape⟩
  all_goals
    have typed {t : ShaderType} (known : types.Knows t) {v : Value} :
        v.ReadFrom (written doc lib) t → v.HasType t :=
      fun ⟨_, _, read⟩ => Value.ofJson_hasType (regular t known) read
  · have admitted := sound.inputs n member i input
    exact ⟨fun _ v value => typed admitted.known (admitted.literal v value), admitted.static⟩
  · have known := sound.sockets s member
    exact typed known.1 (known.2 v value)
  · exact typed (admits s member).known ((admits s member).literal v value)

theorem bind_literals {P : Value → Prop}
    (reads : ∀ j ∈ written doc lib, ∀ t v, Value.ofJson j t = .ok v → P v)
    (run : bind doc lib types = .ok g) : g.Literals P := by
  have holds {t : ShaderType} {v : Value} : v.ReadFrom _ t → P v :=
    fun ⟨j, written, read⟩ => reads j written t v read
  obtain ⟨b, _, sound, admits, shape, _⟩ := bind_reads run
  refine ⟨?_, ?_, fun s member v value => holds ((admits s member).literal v value)⟩
  · rw [shape]
    exact fun n member i input v value => holds ((sound.inputs n member i input).literal v value)
  · rw [shape]
    exact fun s member v value => holds ((sound.sockets s member).2 v value)

end

theorem carries_of_reads {lib : Library} {types : Registry} (converts : lib.Converts) {b : Builder}
    {js : List Json} {waiting : List NodeId} (sound : b.Sound lib types js waiting) {t : ShaderType}
    (known : types.Knows t) {s : Option Source} (reads : b.Reads t s) : b.draft.Carries t s := by
  intro source read
  obtain typed | ⟨origin, id, rfl, listed⟩ := reads source read
  · exact typed
  · obtain ⟨n, found, ⟨d, defined, outputs⟩, _⟩ := sound.conversions origin t.name id listed
    obtain ⟨p, head, name⟩ := converts t.name d defined
    obtain ⟨rest, ports⟩ : ∃ rest, d.outputs = p :: rest := List.head?_eq_some_iff.1 head
    rw [Builder.OutputsOf, ports] at outputs
    obtain ⟨o, others, typed, _, same⟩ := forall₂_cons_left_iff.1 outputs
    rw [name, known] at typed
    have found' : b.draft.nodes[id]? = some n := found
    simp only [sourceType?, output?, found', same, List.getElem?_cons_zero, Option.map_some, typed]

theorem bind_sound {doc : Document} {lib : Library} {types : Registry}
    (regular : ∀ t, types.Knows t → t.Regular) (converts : lib.Converts) {g : Graph}
    (run : bind doc lib types = .ok g) :
    g.WellTyped types ∧ g.Fits ∧ ∀ n ∈ g.nodes, n.Stems lib := by
  obtain ⟨b, ⟨sound, admits, _, fits⟩, shape⟩ := bind_ends regular run
  generalize g.outputSockets = outputs at admits shape fits
  subst shape
  refine ⟨⟨?_, sound.outputs, fun s member => (sound.sockets s member).1, ?_⟩, fits, ?_⟩
  · intro n member i input
    have admitted := sound.inputs n member i input
    exact ⟨admitted.known, carries_of_reads converts sound admitted.known admitted.reads⟩
  · intro s member
    have admitted := admits s member
    exact ⟨admitted.known, carries_of_reads converts sound admitted.known admitted.reads⟩
  · intro n member
    obtain ⟨id, found⟩ := mem_iff_getElem?.1 member
    exact (sound.stems id n found).resolve_left not_mem_nil

end Graph

end MaterialShader
