import MaterialShader.Proofs.Builder.State

/-!
What the steps of binding have done once they succeed, with one statement for each step.
-/

namespace MaterialShader

open Result (inside_ok)
open Assoc (get? put)
open Build (bind_ok get_bind_ok lift_ok modify_ok pure_ok raise_ok)

variable {id : NodeId} {k : Nat} {w : Binder}

def Port.givenType? (types : Registry) (inputTypes : List (String × String)) (port : Port) :
    Option ShaderType :=
  if port.typeName = anyType then (Assoc.get? port.name inputTypes).bind types.find?
  else types.find? port.typeName

namespace Builder

def bindingType? (b : Builder) : Binding → Option ShaderType
  | .port path output =>
    (Assoc.get? path b.index).bind fun id => b.nodes[id]?.bind fun n =>
      (n.outputs.find? fun o => o.name == output).map Output.type
  | .socket name =>
    (Assoc.get? name b.socketIndex).bind fun k => b.sockets[k]?.map InputSocket.type
  | .literal _ => none

def Shows (types : Registry) (d : Definition) (outputs : List Output) : Prop :=
  List.Forall₂ (fun p o => o.name = p.name ∧ types.find? p.typeName = some o.type) d.outputs outputs

def shell (path : String) (d : Definition) (outputs : List Output) : GraphNode :=
  ⟨"", path, d.category, d.name, .empty, [], outputs⟩

def inputOf (path : String) (port : Port) (x : Bound) : Input :=
  { name := port.name, type := x.type, value := x.value, source := x.source,
    isStatic := port.isStatic, path := path ++ "/" ++ port.name }

section

variable {b b' : Builder} {path consumer name : String} {d : Definition} {s : Source}
  {t : ShaderType} {bind : Binder → Build Unit} {port : Port}

theorem addShell_ok (run : addShell path d b = .ok (id, b')) :
    ∃ outputs, Shows b.types d outputs ∧ id = b.nodes.length ∧
      b' = { b with nodes := b.nodes ++ [shell path d outputs] } := by
  have run := get_bind_ok.1 run
  simp only [bind_ok, Build.set_ok, pure_ok] at run
  obtain ⟨outputs, _, made, _, _, rfl, rfl, rfl⟩ := run
  have shown := Build.mapM_reads
    (Q := fun (p : Port) (o : Output) => o.name = p.name ∧ b.types.find? p.typeName = some o.type)
    made ?_
  · obtain ⟨rfl, shown⟩ := shown
    exact ⟨outputs, shown, rfl, rfl⟩
  · intro p o b₁ step
    simp only [bind_ok, lift_ok, inside_ok, Registry.get, orFail_ok,
      pure_ok] at step
    obtain ⟨t, _, ⟨found, rfl⟩, rfl, rfl⟩ := step
    exact ⟨rfl, rfl, found⟩

theorem nodeOutput_ok {port : String} (run : nodeOutput path port b = .ok (s, b')) :
    b = b' ∧ ∃ id n k, get? path b.index = some id ∧ b.nodes[id]? = some n ∧
      n.outputs.findIdx? (fun o => o.name == port) = some k ∧ s = .node id k := by
  have run := get_bind_ok.1 run
  cases place : get? path b.index with
  | none => simp [place] at run
  | some id =>
    cases output : ((b.nodes[id]?.map GraphNode.outputs).getD []).findIdx?
        fun o => o.name == port with
    | none => simp [place, output] at run
    | some k =>
      simp only [place, output, pure_ok] at run
      cases found : b.nodes[id]? with
      | none => simp [found] at output
      | some n =>
        exact ⟨run.2, id, n, k, rfl, found, by simpa [found] using output, run.1.symm⟩

theorem socketNamed_ok (run : socketNamed consumer name b = .ok (k, b')) :
    b = b' ∧ get? name b.socketIndex = some k := by
  have run := get_bind_ok.1 run
  obtain ⟨found, rfl⟩ := lift_ok.1 run
  exact ⟨rfl, orFail_ok.1 found⟩

theorem getElem?_of_findIdx? {α : Type} {p : α → Bool} {items : List α}
    (found : items.findIdx? p = some k) : items[k]? = items.find? p := by
  obtain ⟨inside, here, before⟩ := List.findIdx?_eq_some_iff_getElem.1 found
  rw [List.getElem?_eq_getElem inside, eq_comm, List.find?_eq_some_iff_getElem]
  exact ⟨here, k, inside, rfl, fun j earlier => by simpa using before j earlier⟩

theorem nodeOutput_reads {port : String} (run : nodeOutput path port b = .ok (s, b')) :
    b = b' ∧ b.draft.sourceType? s = b.bindingType? (.port path port) := by
  obtain ⟨rfl, id, n, k, place, found, output, rfl⟩ := nodeOutput_ok run
  have found' : b.draft.nodes[id]? = some n := found
  refine ⟨rfl, ?_⟩
  simp only [Graph.sourceType?, Graph.output?, found', bindingType?, place, Option.bind_some, found]
  exact congrArg (Option.map Output.type) (getElem?_of_findIdx? output)

theorem socketNamed_reads (run : socketNamed consumer name b = .ok (k, b')) :
    b = b' ∧ b.draft.sourceType? (.socket k) = b.bindingType? (.socket name) := by
  obtain ⟨rfl, found⟩ := socketNamed_ok run
  rw [bindingType?, found]
  exact ⟨rfl, rfl⟩

theorem sourceInfo_ok {info : SourceInfo} (run : sourceInfo s b = .ok (info, b')) :
    b = b' ∧ b.draft.sourceType? s = some info.type := by
  have run := get_bind_ok.1 run
  cases s with
  | node id k =>
    cases found : b.nodes[id]? with
    | none => simp [found] at run
    | some n =>
      cases at_k : n.outputs[k]? with
      | none => simp [found, at_k] at run
      | some o =>
        simp only [found, at_k, pure_ok] at run
        have found' : b.draft.nodes[id]? = some n := found
        refine ⟨run.2, ?_⟩
        simp only [Graph.sourceType?, Graph.output?, found', at_k, Option.map_some, ← run.1]
  | socket k =>
    cases found : b.sockets[k]? with
    | none => simp [found] at run
    | some socket =>
      simp only [found, pure_ok] at run
      have found' : b.draft.inputSockets[k]? = some socket := found
      refine ⟨run.2, ?_⟩
      simp only [Graph.sourceType?, found', Option.map_some, ← run.1]

theorem convertNode_ok {info : SourceInfo} (run : convertNode s info t b = .ok (id, b')) :
    (b = b' ∧ get? (s, t.name) b.conversions = some id) ∨
      ∃ d path b₁, get? (s, t.name) b.conversions = none ∧
        b.library.definition? ("convert_" ++ t.name) = some d ∧
        addShell path d b = .ok (id, b₁) ∧
        b' = { b₁ with
          nodes := b₁.nodes.modify id fun n =>
            { n with inputs := [⟨"in", info.type, none, some s, false, path ++ "/in"⟩] }
          conversions := put (s, t.name) id b₁.conversions } := by
  have run := get_bind_ok.1 run
  cases shared : get? (s, t.name) b.conversions with
  | some old =>
    simp only [shared, pure_ok] at run
    exact .inl ⟨run.2, congrArg some run.1⟩
  | none =>
    cases defined : b.library.definition? ("convert_" ++ t.name) with
    | none => simp [shared, defined] at run
    | some d =>
      simp only [shared, defined, bind_ok, modify_ok, pure_ok] at run
      obtain ⟨_, b₁, made, _, _, rfl, rfl, rfl⟩ := run
      exact .inr ⟨d, _, b₁, rfl, rfl, made, rfl⟩

theorem connect_ok {source : Source} {input : String}
    (run : connect s t consumer input b = .ok (source, b')) :
    ∃ info : SourceInfo, b.draft.sourceType? s = some info.type ∧
      ((b = b' ∧ source = s ∧ info.type.same t) ∨
        ∃ id, source = .node id 0 ∧ ¬ info.type.isClosure ∧ ¬ t.isClosure ∧
          (b.types.conversion? info.type t).isSome ∧ convertNode s info t b = .ok (id, b')) := by
  obtain ⟨info, _, read, run⟩ := bind_ok.1 run
  obtain ⟨rfl, typed⟩ := sourceInfo_ok read
  have run := get_bind_ok.1 run
  refine ⟨info, typed, ?_⟩
  split_ifs at run with same convertible
  · obtain ⟨rfl, rfl⟩ := pure_ok.1 run
    exact .inl ⟨rfl, rfl, same⟩
  · obtain ⟨id, _, converted, run⟩ := bind_ok.1 run
    obtain ⟨rfl, rfl⟩ := pure_ok.1 run
    simp only [Bool.and_eq_true, Bool.not_eq_true'] at convertible
    exact .inr ⟨id, rfl, by simp [convertible], by simp [convertible], convertible.2, converted⟩
  · exact absurd run raise_ok

theorem sharedGeometry_ok (run : sharedGeometry bind name b = .ok (id, b')) :
    (b = b' ∧ get? name b.geometry = some id) ∨
      ∃ definition port value d b₁, geometryNode? name = some (definition, port, value) ∧
        b.library.definition? definition = some d ∧
        addShell ("geomprop_" ++ name) d b = .ok (id, b₁) ∧
        bind ⟨id, d, [(port, .literal value)], []⟩
          { b₁ with geometry := put name id b₁.geometry } = .ok ((), b') := by
  have run := get_bind_ok.1 run
  cases shared : get? name b.geometry with
  | some old =>
    simp only [shared, pure_ok] at run
    exact .inl ⟨run.2, congrArg some run.1⟩
  | none =>
    cases property : geometryNode? name with
    | none => simp [shared, property] at run
    | some entry =>
      obtain ⟨definition, port, value⟩ := entry
      cases defined : b.library.definition? definition with
      | none => simp [shared, property, defined] at run
      | some d =>
        simp only [shared, property, defined, bind_ok, modify_ok, pure_ok] at run
        obtain ⟨_, b₁, made, _, _, rfl, _, _, bound, rfl, rfl⟩ := run
        exact .inr ⟨definition, port, value, d, b₁, rfl, defined, made, bound⟩

theorem inferType_reads {input : String} (run : inferType s d consumer input b = .ok (t, b')) :
    b = b' ∧ b.draft.sourceType? s = some t := by
  obtain ⟨info, _, read, run⟩ := bind_ok.1 run
  obtain ⟨rfl, typed⟩ := sourceInfo_ok read
  have run := get_bind_ok.1 run
  split_ifs at run
  · exact absurd run raise_ok
  · obtain ⟨rfl, rfl⟩ := pure_ok.1 run
    exact ⟨rfl, typed⟩

theorem declaredType?_reads {inputTypes : List (String × String)} {declared : Option ShaderType}
    (run : declaredType? path inputTypes port b = .ok (declared, b')) :
    b = b' ∧ declared = port.givenType? b.types inputTypes ∧
      (port.typeName ≠ anyType → declared.isSome) := by
  have run := get_bind_ok.1 run
  rw [Port.givenType?]
  split_ifs at run ⊢ with any
  · cases given : get? port.name inputTypes with
    | some name =>
      simp only [given, Build.map_ok, lift_ok, Registry.get, orFail_ok] at run
      obtain ⟨t, ⟨found, rfl⟩, rfl⟩ := run
      exact ⟨rfl, found.symm, fun _ => rfl⟩
    | none =>
      simp only [given, pure_ok] at run
      exact ⟨run.2, run.1.symm, fun other => absurd any other⟩
  · simp only [Build.map_ok, lift_ok, inside_ok, Registry.get, orFail_ok] at run
    obtain ⟨t, ⟨found, rfl⟩, rfl⟩ := run
    exact ⟨rfl, found.symm, fun _ => rfl⟩

theorem bindSource_ok {declared : Option ShaderType} {x : Bound}
    (run : bindSource d path port declared s b = .ok (x, b')) :
    ∃ t source, (declared = some t ∨ declared = none ∧ b.draft.sourceType? s = some t) ∧
      connect s t path port.name b = .ok (source, b') ∧ x = ⟨t, none, some source⟩ := by
  unfold bindSource at run
  cases declared with
  | some t =>
    simp only [pure_bind, bind_ok, pure_ok] at run
    obtain ⟨source, _, connected, rfl, rfl⟩ := run
    exact ⟨t, source, .inl rfl, connected, rfl⟩
  | none =>
    simp only [bind_ok, pure_ok] at run
    obtain ⟨t, _, inferred, source, _, connected, rfl, rfl⟩ := run
    obtain ⟨rfl, typed⟩ := inferType_reads inferred
    exact ⟨t, source, .inr ⟨rfl, typed⟩, connected, rfl⟩

inductive Defaults (bind : Binder → Build Unit) (path : String) (port : Port) (t : ShaderType)
    (b : Builder) : Bound → Builder → Prop where
  | closure : t.isClosure → Defaults bind path port t b ⟨t, none, none⟩ b
  | literal {json : Json} {v : Value} : port.value = some json → Value.ofJson json t = .ok v →
      Defaults bind path port t b ⟨t, some v, none⟩ b
  | geometry {name : String} {id : NodeId} {b₁ b₂ : Builder} {source : Source} :
      sharedGeometry bind name b = .ok (id, b₁) →
      connect (.node id 0) t path port.name b₁ = .ok (source, b₂) →
      Defaults bind path port t b ⟨t, none, some source⟩ b₂

theorem bindDefault_ok {x : Bound} (run : bindDefault bind d path port t b = .ok (x, b')) :
    Defaults bind path port t b x b' := by
  unfold bindDefault at run
  split_ifs at run with closure
  · obtain ⟨rfl, rfl⟩ := pure_ok.1 run
    exact .closure closure
  · cases default : port.value with
    | some json =>
      simp only [default, bind_ok, lift_ok, inside_ok, pure_ok] at run
      obtain ⟨v, _, ⟨read, rfl⟩, rfl, rfl⟩ := run
      exact .literal default read
    | none =>
      cases property : port.geometry with
      | none => simp [default, property] at run
      | some name =>
        simp only [default, property, bind_ok, pure_ok] at run
        obtain ⟨id, _, shared, source, _, connected, rfl, rfl⟩ := run
        exact .geometry shared connected

inductive BindsTo (bind : Binder → Build Unit) (w : Binder) (path : String) (port : Port)
    (b : Builder) : Bound → Builder → Prop where
  | default {t : ShaderType} {x : Bound} {b' : Builder} : Assoc.get? port.name w.bindings = none →
      port.givenType? b.types w.inputTypes = some t → Defaults bind path port t b x b' →
      BindsTo bind w path port b x b'
  | literal {json : Json} {t : ShaderType} {v : Value} :
      Assoc.get? port.name w.bindings = some (.literal json) →
      port.givenType? b.types w.inputTypes = some t → Value.ofJson json t = .ok v →
      BindsTo bind w path port b ⟨t, some v, none⟩ b
  | source {binding : Binding} {s : Source} {x : Bound} {b' : Builder} :
      Assoc.get? port.name w.bindings = some binding →
      b.draft.sourceType? s = b.bindingType? binding →
      bindSource w.definition path port (port.givenType? b.types w.inputTypes) s b = .ok (x, b') →
      BindsTo bind w path port b x b'

theorem bindPort_ok {i : Input} (run : bindPort bind w path port b = .ok (i, b')) :
    (port.typeName ≠ anyType → (port.givenType? b.types w.inputTypes).isSome) ∧
    ∃ x, i = inputOf path port x ∧ (port.isStatic → x.source = none) ∧
      BindsTo bind w path port b x b' := by
  obtain ⟨declared, _, looked, run⟩ := bind_ok.1 run
  obtain ⟨rfl, rfl, typed⟩ := declaredType?_reads looked
  refine ⟨typed, ?_⟩
  have last {x : Bound} {b₁ : Builder} (bound : BindsTo bind w path port b x b₁)
      (run : (if port.isStatic && x.source.isSome then
        raise (.invalidValue x.type.name
          s!"static input '{port.name}' of node '{path}' must be a literal")
      else pure (inputOf path port x) : Build Input) b₁ = .ok (i, b')) :
      ∃ x, i = inputOf path port x ∧ (port.isStatic → x.source = none) ∧
        BindsTo bind w path port b x b' := by
    split_ifs at run with static
    · exact absurd run raise_ok
    · obtain ⟨rfl, rfl⟩ := pure_ok.1 run
      exact ⟨x, rfl, fun picked => by simpa [picked] using static, bound⟩
  cases given : get? port.name w.bindings with
  | none =>
    simp only [given, bind_ok, lift_ok, orFail_ok] at run
    obtain ⟨t, _, ⟨typed, rfl⟩, x, b₁, defaulted, run⟩ := run
    exact last (.default given typed (bindDefault_ok defaulted)) run
  | some binding =>
    cases binding with
    | literal json =>
      simp only [given, bind_ok, lift_ok, orFail_ok, inside_ok,
        pure_ok] at run
      obtain ⟨t, _, ⟨typed, rfl⟩, v, _, ⟨read, rfl⟩, _, _, ⟨rfl, rfl⟩, run⟩ := run
      exact last (.literal given typed read) run
    | port node output =>
      simp only [given, bind_ok] at run
      obtain ⟨s, _, read, x, b₁, connected, run⟩ := run
      obtain ⟨rfl, leads⟩ := nodeOutput_reads read
      exact last (.source given leads connected) run
    | socket name =>
      simp only [given, bind_ok] at run
      obtain ⟨k, _, read, x, b₁, connected, run⟩ := run
      obtain ⟨rfl, leads⟩ := socketNamed_reads read
      exact last (.source given leads connected) run

theorem bindInputs_ok {depth : Nat} (run : bindInputs (depth + 1) w b = .ok ((), b')) :
    strayBinding? w.definition w.bindings = none ∧ ∃ path inputs b₁,
      w.definition.inputs.mapM (bindPort (bindInputs depth) w path) b = .ok (inputs, b₁) ∧
      b' = { b₁ with nodes := b₁.nodes.modify w.id fun n => { n with inputs } } := by
  have run := get_bind_ok.1 run
  cases stray : strayBinding? w.definition w.bindings with
  | some port => simp [stray] at run
  | none =>
    simp only [stray, bind_ok, modify_ok] at run
    obtain ⟨inputs, b₁, ports, rfl⟩ := run
    exact ⟨rfl, _, inputs, b₁, ports, rfl⟩

theorem addNode_ok {n : BoundNode} (run : addNode n b = .ok (w, b')) :
    ∃ d b₁, b.library.resolve n.path n.node = .ok d ∧ addShell n.path d b = .ok (w.id, b₁) ∧
      w = ⟨w.id, d, n.bindings, n.node.inputTypes⟩ ∧
      b' = { b₁ with index := put n.path w.id b₁.index } := by
  have run := get_bind_ok.1 run
  simp only [bind_ok, lift_ok, modify_ok, pure_ok] at run
  obtain ⟨d, _, ⟨resolved, rfl⟩, id, b₁, made, _, _, rfl, rfl, rfl⟩ := run
  exact ⟨d, b₁, resolved, made, rfl, rfl⟩

theorem outputSocket_ok {o : BoundOutput} {s : OutputSocket}
    (run : outputSocket o b = .ok (s, b')) :
    ∃ t, b.types.find? o.typeName = some t ∧
      ((∃ json v, o.binding = .literal json ∧ Value.ofJson json t = .ok v ∧
          s = ⟨o.name, t, none, some v⟩ ∧ b = b') ∨
        ∃ origin consumer source, b.draft.sourceType? origin = b.bindingType? o.binding ∧
          connect origin t consumer "in" b = .ok (source, b') ∧
          s = ⟨o.name, t, some source, none⟩) := by
  have run := get_bind_ok.1 run
  obtain ⟨t, _, looked, run⟩ := bind_ok.1 run
  simp only [lift_ok, inside_ok, Registry.get, orFail_ok] at looked
  obtain ⟨found, rfl⟩ := looked
  refine ⟨t, found, ?_⟩
  cases binding : o.binding with
  | port node output =>
    simp only [binding, bind_ok, pure_ok] at run
    obtain ⟨origin, _, read, source, _, connected, rfl, rfl⟩ := run
    obtain ⟨rfl, leads⟩ := nodeOutput_reads read
    exact .inr ⟨origin, _, source, leads, connected, rfl⟩
  | socket name =>
    simp only [binding, bind_ok, pure_ok] at run
    obtain ⟨k, _, read, source, _, connected, rfl, rfl⟩ := run
    obtain ⟨rfl, leads⟩ := socketNamed_reads read
    exact .inr ⟨.socket k, _, source, leads, connected, rfl⟩
  | literal json =>
    simp only [binding, bind_ok, lift_ok, inside_ok, pure_ok] at run
    obtain ⟨v, _, ⟨read, rfl⟩, rfl, rfl⟩ := run
    exact .inl ⟨json, v, rfl, read, rfl, rfl⟩

theorem graph_ok {doc : Document} {net : Network} {g : Graph}
    (run : graph doc net b = .ok (g, b')) :
    ∃ b₁ b₂ b₃ binders sockets, doc.inputs.forM addSocket b = .ok ((), b₁) ∧
      net.nodes.mapM addNode b₁ = .ok (binders, b₂) ∧
      binders.forM (bindInputs (geometryCount + 2)) b₂ = .ok ((), b₃) ∧
      net.outputs.mapM outputSocket b₃ = .ok (sockets, b') ∧
      g = { b'.draft with outputSockets := sockets } := by
  simp only [graph, bind_ok, pure_ok] at run
  obtain ⟨_, b₁, added, binders, b₂, placed, _, b₃, bound, sockets, _, ends, run⟩ := run
  obtain ⟨_, _, got, rfl, rfl⟩ := run
  cases got
  exact ⟨b₁, b₂, b₃, binders, sockets, added, placed, bound, ends, rfl⟩

end

end Builder

end MaterialShader
