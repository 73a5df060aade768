import MaterialShader.Proofs.Fault.Basic
import MaterialShader.Proofs.Graph.Build

/-!
What every step of a builder does, whether it works or not.
-/

namespace MaterialShader

open List

variable {b : Builder} {id : NodeId} {path : String} {I : Builder → Prop} {P : Fault → Prop}

def Builder.withGraphs (graphs : List NodeGraph) (b : Builder) : Builder :=
  { b with library := { b.library with nodegraphs := graphs } }

namespace Build

def Moves {α : Type} (graphs : List NodeGraph) (b : Builder) (x y : Build α) : Prop :=
  y (b.withGraphs graphs) = (x b).map fun p => (p.1, p.2.withGraphs graphs)

structure Steps {α : Type} (I : Builder → Prop) (P : Fault → Prop) (act : Build α) : Prop where
  fails : ∀ b, I b → Result.FailsBy P (act.run b)
  keeps : ∀ b a b', I b → act.run b = .ok (a, b') → I b'
  moves : ∀ b graphs, I b → Moves graphs b act act

variable {α β : Type} {x : Build α} {f : α → Build β}

theorem Moves.bind {graphs : List NodeGraph} {y : Build α} {g : α → Build β}
    (first : Moves graphs b x y) (later : ∀ a b', x b = .ok (a, b') → Moves graphs b' (f a) (g a)) :
    Moves graphs b (x >>= f) (y >>= g) := by
  change (y (b.withGraphs graphs)).bind (fun p => g p.1 p.2) =
    ((x b).bind fun p => f p.1 p.2).map fun p => (p.1, p.2.withGraphs graphs)
  rw [first]
  cases ran : x b with
  | error failure => rfl
  | ok p => exact later p.1 p.2 ran

theorem Steps.pure {a : α} : Steps I P (Pure.pure a : Build α) := by
  refine ⟨fun _ _ => .pure, fun _ _ _ holds same => ?_, fun _ _ _ => rfl⟩
  cases same
  exact holds

theorem Steps.bind_of {Q : α → Builder → Prop} (first : x.Steps I P)
    (result : ∀ b a b', I b → x.run b = .ok (a, b') → Q a b')
    (rest : ∀ a, (f a).Steps (fun b => I b ∧ Q a b) P) : (x >>= f).Steps I P := by
  have next {b : Builder} (holds : I b) (a : α) (b' : Builder) (ran : x.run b = .ok (a, b')) :
      I b' ∧ Q a b' := ⟨first.keeps b a b' holds ran, result b a b' holds ran⟩
  refine ⟨fun b holds => ?_, fun b c b'' holds ran => ?_, fun b graphs holds => ?_⟩
  · rw [StateT.run_bind, Result.failsBy_bind]
    exact ⟨first.fails b holds, fun p ran => (rest p.1).fails p.2 (next holds p.1 p.2 ran)⟩
  · obtain ⟨p, ran, later⟩ := Result.bind_ok.1 ran
    exact ((rest p.1).keeps p.2 c b'' (next holds p.1 p.2 ran) later).1
  · exact (first.moves b graphs holds).bind fun a b' ran =>
      (rest a).moves b' graphs (next holds a b' ran)

theorem Steps.and_true (steps : x.Steps I P) : x.Steps (fun b => I b ∧ True) P := by
  simpa using steps

theorem Steps.bind (first : x.Steps I P) (rest : ∀ a, (f a).Steps I P) : (x >>= f).Steps I P :=
  .bind_of (Q := fun _ _ => True) first (fun _ _ _ _ _ => trivial) fun a => (rest a).and_true

theorem Moves.get {graphs : List NodeGraph} {f g : Builder → Build α}
    (moves : Moves graphs b (f b) (g (b.withGraphs graphs))) :
    Moves graphs b ((get : Build Builder) >>= f) ((get : Build Builder) >>= g) := moves

theorem Steps.read {f : Builder → Build α} (same : ∀ b graphs, f (b.withGraphs graphs) = f b)
    (rest : ∀ b, I b → (f b).Steps I P) : ((get : Build Builder) >>= f).Steps I P where
  fails b holds := (rest b holds).fails b holds
  keeps b a b' holds := (rest b holds).keeps b a b' holds
  moves b graphs holds := by
    have moves := (rest b holds).moves b graphs holds
    exact .get (by rwa [same])

theorem steps_modify {f : Builder → Builder} (keeps : ∀ b, I b → I (f b))
    (same : ∀ b graphs, f (b.withGraphs graphs) = (f b).withGraphs graphs) :
    Steps I P (modify f : Build PUnit) := by
  refine ⟨fun _ _ => .pure, fun b _ _ holds changed => ?_, fun b graphs _ => ?_⟩
  · cases changed
    exact keeps b holds
  · exact congrArg (fun b' => Except.ok ((), b')) (same b graphs)

theorem Steps.lift {r : Result α} (fails : r.FailsBy P) : Steps I P (Builder.lift r) := by
  cases r with
  | ok a => exact .pure
  | error f =>
    refine ⟨fun _ _ => ?_, fun _ _ _ _ => nofun, fun _ _ _ => rfl⟩
    rintro _ ⟨⟩
    exact fails f rfl

theorem Steps.raise {f : Fault} (kind : P f) : Steps I P (Builder.raise f : Build α) :=
  .lift (Result.failsBy_fail.2 kind)

theorem Steps.map {f : α → β} (steps : x.Steps I P) : (f <$> x).Steps I P := by
  exact .bind steps fun _ => .pure

theorem Steps.mapM {items : List α} (each : ∀ a ∈ items, (f a).Steps I P) :
    (items.mapM f).Steps I P := by
  induction items with
  | nil => exact .pure
  | cons a rest ih =>
    rw [forall_mem_cons] at each
    rw [mapM_cons]
    exact .bind each.1 fun _ => .bind (ih each.2) fun _ => .pure

theorem Steps.forM {f : α → Build PUnit} {items : List α} (each : ∀ a ∈ items, (f a).Steps I P) :
    (items.forM f).Steps I P := by
  induction items with
  | nil => exact .pure
  | cons a rest ih =>
    rw [forall_mem_cons] at each
    exact .bind each.1 fun _ => ih each.2

end Build

/-- Every definition that stands for a geometric property has an output. -/
def Library.AnswersGeometry (lib : Library) : Prop :=
  ∀ name entry d, Builder.geometryNode? name = some entry → lib.definition? entry.1 = some d →
    d.outputs ≠ []

namespace Builder

open Build

def Readable (P : Fault → Prop) (b : Builder) (s : Source) : Prop :=
  b.draft.Holds s ∨ ∀ node output, P (.danglingReference node output)

structure Located (P : Fault → Prop) (b : Builder) : Prop where
  sockets : ∀ name k, Assoc.get? name b.socketIndex = some k → b.Readable P (.socket k)
  geometry : ∀ name id, Assoc.get? name b.geometry = some id → b.Readable P (.node id 0)

structure Extends (P : Fault → Prop) (b b' : Builder) : Prop where
  library : b'.library = b.library
  index : b'.index = b.index
  readable : ∀ s, b.Readable P s → b'.Readable P s
  located : b.Located P → b'.Located P

section

variable {b' : Builder}

theorem Located.of_dangling (dangling : ∀ node output, P (.danglingReference node output)) :
    b.Located P :=
  ⟨fun _ _ _ => .inr dangling, fun _ _ _ => .inr dangling⟩

theorem extends_of_holds (library : b'.library = b.library) (index : b'.index = b.index)
    (sockets : b'.socketIndex = b.socketIndex) (geometry : b'.geometry = b.geometry)
    (holds : ∀ s, b.draft.Holds s → b'.draft.Holds s) : b.Extends P b' := by
  have readable (s : Source) (old : b.Readable P s) : b'.Readable P s := old.imp_left (holds s)
  refine ⟨library, index, readable, fun located => ⟨?_, ?_⟩⟩
  · exact fun name k listed => readable _ (located.sockets name k (sockets ▸ listed))
  · exact fun name id listed => readable _ (located.geometry name id (geometry ▸ listed))

theorem Grows.holds {changed : List NodeId} (grows : b.Grows changed b') {s : Source}
    (holds : b.draft.Holds s) : b'.draft.Holds s := by
  cases s with
  | node id k =>
    obtain ⟨n, found, inside⟩ := holds
    obtain ⟨inputs, found', _⟩ := grows.nodes id n found
    exact ⟨_, found', inside⟩
  | socket k =>
    have same : b'.draft.inputSockets = b.draft.inputSockets := grows.sockets
    rw [Graph.Holds, same]
    exact holds

theorem extends_addSocket (b : Builder) (name : String) (socket : InputSocket) :
    b.Extends P { b with
      socketIndex := Assoc.put name b.sockets.length b.socketIndex
      sockets := b.sockets ++ [socket] } := by
  have holds (s : Source) (old : b.draft.Holds s) : Graph.Holds (draft { b with
      sockets := b.sockets ++ [socket] }) s := by
    cases s with
    | node id k => exact old
    | socket k =>
      have inside : k < b.sockets.length := old
      simp only [Graph.Holds, draft, length_append]
      omega
  refine ⟨rfl, rfl, fun s old => old.imp_left (holds s), fun located => ⟨?_, ?_⟩⟩
  · intro other k listed
    rw [Assoc.get?_put] at listed
    split at listed
    · cases listed
      exact .inl (by simp [Graph.Holds, draft])
    · exact (located.sockets other k listed).imp_left (holds _)
  · exact fun other id listed => (located.geometry other id listed).imp_left (holds _)

theorem extends_addGeometry (name : String) (readable : b.Readable P (.node id 0)) :
    b.Extends P { b with geometry := Assoc.put name id b.geometry } := by
  refine ⟨rfl, rfl, fun _ old => old, fun located => ⟨located.sockets, ?_⟩⟩
  intro other k listed
  rw [Assoc.get?_put] at listed
  split at listed
  · cases listed
    exact readable
  · exact located.geometry other k listed

theorem addShell_holds {d : Definition} (outputs : d.outputs ≠ [])
    (run : addShell path d b = .ok (id, b')) : b'.draft.Holds (.node id 0) := by
  obtain ⟨made, shown, rfl, rfl⟩ := addShell_ok run
  refine ⟨_, List.getElem?_concat_length, ?_⟩
  rw [← length_pos_iff, shown.length_eq] at outputs
  exact outputs

theorem nodeOutput_holds {port : String} {s : Source} (run : nodeOutput path port b = .ok (s, b')) :
    b'.draft.Holds s := by
  obtain ⟨rfl, id, n, k, _, found, output, rfl⟩ := nodeOutput_ok run
  exact ⟨n, found, (List.findIdx?_eq_some_iff_getElem.1 output).1⟩

end

structure Guards (I : Builder → Prop) (P : Fault → Prop) : Prop where
  frame : ∀ b b', b.Extends P b' → I b → I b'
  common : ∀ f, f.Common → P f
  located : ∀ b, I b → b.Located P
  answers : ∀ b, I b → b.library.AnswersGeometry ∨
    ∀ node output, P (.danglingReference node output)

theorem Guards.of_ordinary
    (frame : ∀ b b', b'.library = b.library → b'.index = b.index → I b → I b')
    (ordinary : ∀ f, f.Ordinary → P f) : Guards I P := by
  have dangling (node output : Nat) : P (.danglingReference node output) :=
    ordinary _ (by simp [Fault.Ordinary, Fault.Usual])
  exact ⟨fun b b' ext => frame b b' ext.library ext.index, fun f common => ordinary f common.1,
    fun _ _ => .of_dangling dangling, fun _ _ => .inr dangling⟩

theorem Guards.reading (guards : Guards I P) (s : Source) :
    Guards (fun b => I b ∧ b.Readable P s) P where
  frame b b' ext holds := ⟨guards.frame b b' ext holds.1, ext.readable s holds.2⟩
  common := guards.common
  located b holds := guards.located b holds.1
  answers b holds := guards.answers b holds.1

def Catches (I : Builder → Prop) (P : Fault → Prop) (binding : Binding) : Prop :=
  ∀ node output, binding = .port node output →
    ∀ b, I b → Assoc.get? node b.index = none → P (.unknownNode node)

section

variable (guards : Guards I P) {s : Source}

include guards

theorem Guards.lift {α : Type} {r : Result α} (fails : r.FailsBy Fault.Common) :
    (lift r).Steps I P :=
  .lift (fails.mono guards.common)

theorem Guards.raise {α : Type} {f : Fault} (common : f.Common) : (raise f : Build α).Steps I P :=
  .raise (guards.common f common)

theorem addShell_steps (path : String) (d : Definition) : (addShell path d).Steps I P := by
  have outputs (types : Registry) : Build.Steps I P (d.outputs.mapM fun o => do
      let type ← Builder.lift ((types.get o.typeName).inside (.definitionOutput o.name d.name))
      return ({ name := o.name, type, variableName := "" } : Output)) :=
    .mapM fun o _ => .bind (guards.lift (by simp)) fun _ => .pure
  refine ⟨fun b holds => ?_, fun b id b' holds run => ?_, fun b graphs holds => ?_⟩
  · exact .bind ((outputs _).fails b holds) fun _ _ => .ok
  · obtain ⟨_, _, _, rfl⟩ := addShell_ok run
    refine guards.frame b _ ?_ holds
    exact extends_of_holds rfl rfl rfl rfl fun _ => (b.grows_append _).holds
  · exact .get (((outputs _).moves b graphs holds).bind fun _ _ _ => rfl)

theorem nodeOutput_steps {port : String} (catches : Catches I P (.port path port)) :
    (nodeOutput path port).Steps I P := by
  refine .read (fun _ _ => rfl) fun b holds => ?_
  split
  · rename_i absent
    exact .raise (catches path port rfl b holds absent)
  · split
    · exact .pure
    · exact guards.raise (by simp)

theorem socketNamed_steps (consumer name : String) : (socketNamed consumer name).Steps I P :=
  .read (fun _ _ => rfl) fun b _ => guards.lift (by simp)

theorem socketNamed_readable {consumer name : String} {b' : Builder} {k : Nat} (holds : I b)
    (run : socketNamed consumer name b = .ok (k, b')) : b'.Readable P (.socket k) := by
  obtain ⟨rfl, listed⟩ := socketNamed_ok run
  exact (guards.located b holds).sockets name k listed

omit guards in
theorem sourceInfo_steps (reads : ∀ b, I b → b.Readable P s) : (sourceInfo s).Steps I P := by
  refine .read (fun _ _ => rfl) fun b holds => ?_
  obtain held | dangling := reads b holds
  · cases s with
    | node id k =>
      obtain ⟨n, found, inside⟩ := held
      have found : b.nodes[id]? = some n := found
      simp only [found, List.getElem?_eq_getElem inside]
      exact .pure
    | socket k =>
      have inside : k < b.sockets.length := held
      simp only [List.getElem?_eq_getElem inside]
      exact .pure
  · split
    · split
      · exact .raise (dangling _ _)
      · split
        · exact .raise (dangling _ _)
        · exact .pure
    · split
      · exact .raise (dangling _ _)
      · exact .pure

theorem convertNode_steps (s : Source) (info : SourceInfo) (result : ShaderType) :
    (convertNode s info result).Steps I P := by
  refine .read (fun _ _ => rfl) fun b _ => ?_
  split
  · exact .pure
  · split
    · exact guards.raise (by simp)
    · refine .bind (addShell_steps guards _ _) fun id => ?_
      refine .bind (steps_modify (fun b holds => guards.frame b _ ?_ holds) fun _ _ => rfl)
        fun _ => .pure
      exact extends_of_holds rfl rfl rfl rfl fun _ => (b.grows_rebind id _).holds

theorem connect_steps (reads : ∀ b, I b → b.Readable P s) (result : ShaderType)
    (consumer input : String) : (connect s result consumer input).Steps I P := by
  refine .bind (sourceInfo_steps reads) fun info =>
    .read (fun _ _ => rfl) fun b _ => ?_
  split
  · exact .pure
  · split
    · exact .bind (convertNode_steps guards _ _ _) fun _ => .pure
    · exact guards.raise (by simp)

theorem inferType_steps (reads : ∀ b, I b → b.Readable P s) (d : Definition)
    (consumer input : String) : (inferType s d consumer input).Steps I P := by
  refine .bind (sourceInfo_steps reads) fun info =>
    .read (fun _ _ => rfl) fun b _ => ?_
  dsimp only
  split
  · exact guards.raise (by simp)
  · exact .pure

theorem declaredType?_steps (path : String) (inputTypes : List (String × String)) (port : Port) :
    (declaredType? path inputTypes port).Steps I P := by
  refine .read (fun _ _ => rfl) fun b _ => ?_
  split
  · split
    · exact .map (guards.lift (by simp))
    · exact .pure
  · exact .map (guards.lift (by simp))

theorem bindSource_steps (reads : ∀ b, I b → b.Readable P s) (d : Definition) (path : String)
    (port : Port) (declared : Option ShaderType) :
    (bindSource d path port declared s).Steps I P := by
  have connected (type : ShaderType) : Build.Steps I P (do
      let source ← connect s type path port.name
      return (⟨type, none, some source⟩ : Bound)) :=
    .bind (connect_steps guards reads _ _ _) fun _ => .pure
  unfold bindSource
  split
  · exact .bind .pure connected
  · exact .bind (inferType_steps guards reads _ _ _) connected

end

def Binder.Caught (I : Builder → Prop) (P : Fault → Prop) (w : Binder) : Prop :=
  ∀ entry ∈ w.bindings, Catches I P entry.2

theorem caught_literal (id : NodeId) (d : Definition) (port : String) (value : Json) :
    Binder.Caught I P ⟨id, d, [(port, .literal value)], []⟩ := by
  intro entry member node output same
  rw [mem_singleton.1 member] at same
  cases same

def BindsGuarded (P : Fault → Prop) (bind : Binder → Build Unit) : Prop :=
  ∀ (I : Builder → Prop) (w : Binder), Guards I P → w.Caught I P → (bind w).Steps I P

section

variable {bind : Binder → Build Unit} (inner : BindsGuarded P bind) (guards : Guards I P)

include inner guards

theorem sharedGeometry_new (name port : String) (value : Json) (d : Definition) :
    Build.Steps (fun b => I b ∧ b.Readable P (.node id 0)) P (do
      modify fun b => { b with geometry := Assoc.put name id b.geometry }
      bind ⟨id, d, [(port, .literal value)], []⟩
      return id) := by
  have reading := guards.reading (.node id 0)
  refine .bind (steps_modify (fun b holds => ?_) fun _ _ => rfl) fun _ => ?_
  · exact reading.frame b _ (extends_addGeometry name holds.2) holds
  · exact .bind (inner _ _ reading (caught_literal id d port value)) fun _ => .pure

theorem sharedGeometry_steps (name : String) : (sharedGeometry bind name).Steps I P := by
  refine .read (fun _ _ => rfl) fun b holds => ?_
  split
  · exact .pure
  · split
    · exact guards.raise (by simp)
    · rename_i definition port value property
      split
      · exact guards.raise (by simp)
      · rename_i d defined
        have answers := (guards.answers b holds).imp_left fun all => all name _ d property defined
        exact .bind_of (addShell_steps guards _ _)
          (fun _ _ _ _ ran => answers.imp_left fun outputs => addShell_holds outputs ran)
          fun id => sharedGeometry_new inner guards name port value d

theorem sharedGeometry_readable {name : String} {b' : Builder} (holds : I b)
    (run : sharedGeometry bind name b = .ok (id, b')) : b'.Readable P (.node id 0) := by
  obtain ⟨rfl, listed⟩ | ⟨definition, port, value, d, b₁, property, defined, made, bound⟩ :=
    sharedGeometry_ok run
  · exact (guards.located b holds).geometry name id listed
  · have answers := (guards.answers b holds).imp_left fun all => all name _ d property defined
    have readable : b₁.Readable P (.node id 0) :=
      answers.imp_left fun outputs => addShell_holds outputs made
    have holds₁ := (addShell_steps guards _ d).keeps b id b₁ holds made
    have reading := guards.reading (.node id 0)
    have listed := reading.frame b₁ _ (extends_addGeometry name readable) ⟨holds₁, readable⟩
    exact ((inner _ _ reading (caught_literal id d port value)).keeps _ _ _ listed bound).2

theorem bindDefault_steps (d : Definition) (path : String) (port : Port) (type : ShaderType) :
    (bindDefault bind d path port type).Steps I P := by
  unfold bindDefault
  split
  · exact .pure
  · split
    · exact .bind (guards.lift (by simp [Value.ofJson_failsBy])) fun _ => .pure
    · refine .bind_of (Q := fun id b => b.Readable P (.node id 0))
        (sharedGeometry_steps inner guards _)
        (fun _ _ _ holds ran => sharedGeometry_readable inner guards holds ran) fun id => ?_
      exact .bind (connect_steps (guards.reading _) (fun _ holds => holds.2) _ _ _) fun _ =>
        .pure
    · exact guards.raise (by simp)

theorem bindPort_steps {w : Binder} (caught : w.Caught I P) (path : String) (port : Port) :
    (bindPort bind w path port).Steps I P := by
  refine .bind (declaredType?_steps guards _ _ _) fun declared => ?_
  have last {J : Builder → Prop} (guards : Guards J P) (bound : Bound) : Build.Steps J P
      (if port.isStatic && bound.source.isSome then
        raise (.invalidValue bound.type.name
          s!"static input '{port.name}' of node '{path}' must be a literal")
      else
        return ({ name := port.name, type := bound.type, value := bound.value,
                  source := bound.source, isStatic := port.isStatic,
                  path := path ++ "/" ++ port.name } : Input)) := by
    split
    · exact guards.raise (by simp)
    · exact .pure
  -- What is read is found first, so that its output or socket is there.
  have reading (s : Source) : Guards (fun b => I b ∧ b.Readable P s) P := guards.reading s
  split
  · rename_i node output given
    have catches := caught _ (Assoc.mem_of_get? given)
    refine .bind_of (Q := fun s b => b.Readable P s) (nodeOutput_steps guards catches)
      (fun _ _ _ _ ran => .inl (nodeOutput_holds ran)) fun s => ?_
    exact .bind (bindSource_steps (reading s) (fun _ holds => holds.2) _ _ _ _)
      (last (reading s))
  · refine .bind_of (Q := fun k b => b.Readable P (.socket k)) (socketNamed_steps guards _ _)
      (fun _ _ _ holds ran => socketNamed_readable guards holds ran) fun index => ?_
    exact .bind (bindSource_steps (reading _) (fun _ holds => holds.2) _ _ _ _)
      (last (reading _))
  · refine .bind (guards.lift (by simp)) fun type => ?_
    refine .bind (guards.lift (by simp [Value.ofJson_failsBy])) fun v => ?_
    exact .bind .pure (last guards)
  · refine .bind (guards.lift (by simp)) fun type => ?_
    exact .bind (bindDefault_steps inner guards _ _ _ _) (last guards)

end

theorem bindInputs_steps (depth : Nat) : BindsGuarded P (bindInputs depth) := by
  induction depth with
  | zero => exact fun I w guards _ => guards.raise (by simp)
  | succ depth ih =>
    intro I w guards caught
    refine .read (fun _ _ => rfl) fun b _ => ?_
    split
    · exact guards.raise (by simp)
    · refine .bind ?_ fun inputs => ?_
      · exact .mapM fun port _ => bindPort_steps ih guards caught _ _
      refine steps_modify (fun b holds => guards.frame b _ ?_ holds) fun _ _ => rfl
      exact extends_of_holds rfl rfl rfl rfl fun _ => (b.grows_rebind w.id inputs).holds

section

variable (guards : Guards I P)

include guards

theorem addSocket_steps (i : GraphInput) : (addSocket i).Steps I P := by
  have value (json : Json) (type : ShaderType) : Build.Steps I P
      (some <$> Builder.lift ((Value.ofJson json type).inside (.graphInput i.name))) :=
    .map (guards.lift (by simp [Value.ofJson_failsBy]))
  have type (types : Registry) : Build.Steps I P
      (Builder.lift ((types.get i.typeName).inside (.graphInput i.name))) := guards.lift (by simp)
  refine ⟨fun b holds => ?_, fun b u b' holds run => ?_, fun b graphs holds => .get ?_⟩
  · refine .bind ((type b.types).fails b holds) fun p ran => ?_
    have holds := (type b.types).keeps b _ _ holds ran
    cases i.value with
    | none => exact .ok
    | some json =>
      exact .bind ((value json _).fails _ holds) fun _ _ => .ok
  · obtain ⟨socket, _, rfl⟩ := addSocket_ok run
    exact guards.frame b _ (extends_addSocket b i.name socket) holds
  · refine ((type b.types).moves b graphs holds).bind fun t b' ran => ?_
    have holds := (type b.types).keeps b _ _ holds ran
    cases i.value with
    | none => rfl
    | some json => exact ((value json t).moves b' graphs holds).bind fun _ _ _ => rfl

theorem addNode_steps {n : BoundNode}
    (places : ∀ b id, I b → I { b with index := Assoc.put n.path id b.index })
    (resolves : ∀ b, I b → (b.library.resolve n.path n.node).FailsBy P) :
    (addNode n).Steps I P := by
  refine .read (fun _ _ => rfl) fun b holds => .bind (.lift (resolves b holds)) fun d => ?_
  refine .bind (addShell_steps guards _ _) fun id => ?_
  exact .bind (steps_modify (fun b holds => places b id holds) fun _ _ => rfl) fun _ =>
    .pure

theorem outputSocket_steps {o : BoundOutput} (catches : Catches I P o.binding) :
    (outputSocket o).Steps I P := by
  refine .read (fun _ _ => rfl) fun b _ => .bind (guards.lift (by simp)) fun type => ?_
  split
  · rename_i node output read
    refine .bind_of (Q := fun s b => b.Readable P s)
      (nodeOutput_steps guards (read ▸ catches))
      (fun _ _ _ _ ran => .inl (nodeOutput_holds ran)) fun s => ?_
    exact .bind (connect_steps (guards.reading s) (fun _ holds => holds.2) _ _ _) fun _ =>
      .pure
  · refine .bind_of (Q := fun k b => b.Readable P (.socket k)) (socketNamed_steps guards _ _)
      (fun _ _ _ holds ran => socketNamed_readable guards holds ran) fun index => ?_
    exact .bind (connect_steps (guards.reading _) (fun _ holds => holds.2) _ _ _) fun _ =>
      .pure
  · exact .bind (guards.lift (by simp [Value.ofJson_failsBy])) fun _ => .pure

end

theorem graph_steps (guards : Guards I P) (nodes : ∀ name, P (.unknownNode name))
    (categories : ∀ node name, P (.unknownCategory node name))
    (places : ∀ b index, I b → I { b with index }) (doc : Document) (net : Network) :
    (graph doc net).Steps I P := by
  have catches (binding : Binding) : Catches I P binding := fun _ _ _ _ _ _ => nodes _
  have resolves (lib : Library) (path : String) (node : Node) :
      (lib.resolve path node).FailsBy P := by
    unfold Library.resolve
    split <;> simp [categories]
  refine .bind (.forM fun i _ => addSocket_steps guards i) fun _ => ?_
  refine .bind (.mapM fun n _ => ?_) fun binders => ?_
  · exact addNode_steps guards (fun b _ => places b _) fun b _ => resolves _ _ _
  refine .bind (.forM fun w _ => ?_) fun _ => ?_
  · exact bindInputs_steps _ _ w guards fun entry _ => catches entry.2
  refine .bind (.mapM fun o _ => outputSocket_steps guards (catches _)) fun sockets => ?_
  exact .read (fun _ _ => rfl) fun b _ => .pure

theorem graph_moves (doc : Document) (net : Network) (b : Builder) (graphs : List NodeGraph) :
    Moves graphs b (graph doc net) (graph doc net) := by
  have guards : Guards (fun _ => True) (fun _ => True) :=
    .of_ordinary (fun _ _ _ _ _ => trivial) fun _ _ => trivial
  have steps := graph_steps guards (fun _ => trivial) (fun _ _ => trivial) (fun _ _ _ => trivial)
    doc net
  exact steps.moves b graphs trivial

end Builder

end MaterialShader
