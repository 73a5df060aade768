import MaterialShader.Proofs.Emission.Assembled
import MaterialShader.Proofs.Fault.Graph
import MaterialShader.Proofs.Fault.Node

/-!
The faults of whole shaders.
-/

namespace MaterialShader

open List
open Result (failsBy_foldlM)
open Fault (Kind)

variable (stage : Stage)

variable {P : Fault → Prop} {s : Session}

/-- Where the emission fails, from whatever progress, its fault has the property. -/
def Emission.FailsBy {α : Type} (P : Fault → Prop) (act : Emission α) : Prop :=
  ∀ p, Result.FailsBy P (act.run.run p).1

namespace Emission

variable {α β : Type} {f : α → Emission β}

@[simp] theorem FailsBy.pure {a : α} : FailsBy P (Pure.pure a : Emission α) := fun _ => .ok

theorem FailsBy.bind_yields {x : Emission α} (first : x.FailsBy P)
    (rest : ∀ a, Yields x a → (f a).FailsBy P) : (x >>= f).FailsBy P := by
  intro p
  have here := first p
  rw [run_bind]
  cases ran : x.run.run p with
  | mk r next =>
    rw [ran] at here
    cases r with
    | ok a => exact rest a ⟨p, next, ran⟩ next
    | error e =>
      rintro _ ⟨⟩
      exact here e rfl

theorem FailsBy.bind {x : Emission α} (first : x.FailsBy P) (rest : ∀ a, (f a).FailsBy P) :
    (x >>= f).FailsBy P :=
  .bind_yields first fun a _ => rest a

theorem FailsBy.lift {r : Result α} (fails : r.FailsBy P) : FailsBy P (liftM r : Emission α) :=
  fun _ => fails

theorem FailsBy.bind_lift {r : Result α} (first : r.FailsBy P)
    (rest : ∀ a, r = .ok a → (f a).FailsBy P) : ((liftM r : Emission α) >>= f).FailsBy P :=
  .bind_yields (.lift first) fun a yields => rest a yields.lift

theorem failsBy_note (entry : LogEntry) : (note entry).FailsBy P := fun _ => .ok

theorem failsBy_mark (stage : String) (id : NodeId) : (mark stage id).FailsBy P :=
  fun _ => .ok

theorem FailsBy.mapM {items : List α} (each : ∀ a ∈ items, (f a).FailsBy P) :
    (items.mapM f).FailsBy P := by
  induction items with
  | nil => exact .pure
  | cons a rest ih =>
    rw [forall_mem_cons] at each
    rw [mapM_cons]
    exact .bind each.1 fun _ => .bind (ih each.2) fun _ => .pure

theorem failsBy_inside {place : Place} {act : Emission α} (fails : act.FailsBy P) :
    (Emission.inside place act).FailsBy P := by
  intro p
  have step :
      ((Emission.inside place act).run.run p).1 = Result.inside place (act.run.run p).1 := by
    rfl
  rw [step, Result.failsBy_inside]
  exact fails p

end Emission

open Emission

structure Run.Allows (P : Fault → Prop) (run : Run) : Prop extends run.Refers P where
  sources : ∀ id ∈ run.graph.order, ∀ code, run.realization id = .source code →
    (code.code run id).FailsBy P

structure Run.Raises (P : Fault → Prop) (run : Run) : Prop where
  usual : ∀ f, f.Usual → P f
  sources : ∀ id code, run.realization id = .source code → (code.code run id).FailsBy P

theorem Run.Raises.allows {run : Run} (raises : run.Raises P) :
    run.Allows P where
  toRefers :=
    have : Kind P := .of_usual raises.usual
    run.refers_of_dangling fun _ _ => raises.usual _ trivial
  sources id _ code realized := raises.sources id code realized

theorem Run.mem_order_of_layout {run : Run} {roots : List NodeId}
    (inside : ∀ id ∈ roots, id ∈ run.graph.order) :
    ∀ id ∈ Placed.idsOfAll (run.layout roots), id ∈ run.graph.order := by
  refine Layout.forall_ids_forest inside fun c a below => ?_
  unfold branchMembers at below
  split at below
  · split at below
    · obtain ⟨members, branch, own⟩ := mem_flatten.1 below
      obtain ⟨k, _, rfl⟩ := mem_map.1 branch
      exact (mem_filter.1 own).1
    · cases below
  · cases below

namespace Run.Allows

variable {run : Run}

theorem simpleCode [Kind P] (allows : run.Allows P) (stage : Stage) {id : NodeId}
    (listed : id ∈ run.graph.order) : (run.simpleCode stage id).FailsBy P := by
  by_cases library : ∃ code, run.realization id = .source code
  · obtain ⟨code, realized⟩ := library
    simpa only [Run.simpleCode, realized] using allows.sources id listed code realized
  · exact allows.builtinCode listed stage fun code realized => library ⟨code, realized⟩

mutual

theorem emitPlaced [Kind P] (allows : run.Allows P) (stage : Stage) (p : Placed)
    (inside : ∀ id ∈ p.ids, id ∈ run.graph.order) : (emitPlaced run stage p).FailsBy P := by
  cases p with
  | node id branches =>
    rw [Placed.ids, forall_mem_cons] at inside
    obtain ⟨listed, below⟩ := inside
    refine .bind (failsBy_mark _ _) fun _ =>
      .bind (.lift (allows.node id listed)) fun n => ?_
    refine failsBy_inside ?_
    split
    · split
      · refine .bind (.lift (allows.conditions listed _)) fun conditions => ?_
        refine .bind_lift (allows.declare listed none) fun declared ok => ?_
        refine .bind (.lift (outputName_failsBy_of_declare ok)) fun out => ?_
        exact .bind (emitBranches allows stage listed conditions out 0 branches below)
          fun _ => .pure
      · exact .lift (allows.simpleCode stage listed)
    · exact .lift (allows.simpleCode stage listed)

theorem emitBranches [Kind P] (allows : run.Allows P) (stage : Stage) {id : NodeId}
    (listed : id ∈ run.graph.order) (conditions : List String) (out : String) (k : Nat)
    (branches : List (List Placed))
    (inside : ∀ id ∈ Placed.idsOfBranches branches, id ∈ run.graph.order) :
    (emitBranches run stage id conditions out k branches).FailsBy P := by
  cases branches with
  | nil => exact .pure
  | cons members rest =>
    rw [Placed.idsOfBranches, forall_mem_append] at inside
    refine .bind (emitAll allows stage members inside.1) fun body => ?_
    refine .bind (.lift (allows.branchText listed k)) fun value => ?_
    exact .bind (emitBranches allows stage listed conditions out (k + 1) rest inside.2)
      fun _ => .pure

theorem emitAll [Kind P] (allows : run.Allows P) (stage : Stage) (placed : List Placed)
    (inside : ∀ id ∈ Placed.idsOfAll placed, id ∈ run.graph.order) :
    (emitAll run stage placed).FailsBy P := by
  cases placed with
  | nil => exact .pure
  | cons p rest =>
    rw [Placed.idsOfAll, forall_mem_append] at inside
    refine .bind (emitPlaced allows stage p inside.1) fun first => ?_
    exact .bind (emitAll allows stage rest inside.2) fun _ => .pure

end

theorem emitEverywhere [Kind P] (allows : run.Allows P) (stage : Stage) :
    (run.emitEverywhere stage).FailsBy P :=
  allows.emitAll stage _ (mem_order_of_layout fun _ member => (mem_filter.1 member).1)

theorem emitClass [Kind P] (allows : run.Allows P) (stage : Stage) (c : Classification) :
    (run.emitClass stage c).FailsBy P :=
  allows.emitAll stage _ (mem_order_of_layout fun _ member => (mem_filter.1 member).1)

end Run.Allows

namespace Hardware

variable [Kind P] (run : Run)

@[simp] theorem memberText_failsBy (v : StageVariable) : (memberText run v).FailsBy P := by
  simp [memberText]

@[simp] theorem memberScope_failsBy (head : String) (vs : List StageVariable) :
    (memberScope run head vs).FailsBy P := by
  simp [memberScope, Result.FailsBy.mapM]

@[simp] theorem uniformBlocks_failsBy (binding : Nat) :
    (uniformBlocks run stage binding).FailsBy P := by
  have block (binding : Nat) (name : String) :
      (uniformBlock run stage binding name).FailsBy P := by
    simp [uniformBlock]
  simp [uniformBlocks, block]

@[simp] theorem vertexInterface_failsBy : (vertexInterface run stage).FailsBy P := by
  simp [vertexInterface, Result.FailsBy.mapM]

@[simp] theorem pixelInterface_failsBy : (pixelInterface run stage).FailsBy P := by
  simp [pixelInterface, Result.FailsBy.mapM]

@[simp] theorem entryPoint_failsBy (lit : Bool) : (entryPoint run stage lit).FailsBy P := by
  have member (access : String) (entry : EntryPoint) (v : StageVariable) :
      (entryVariable run access entry v).FailsBy P := by
    simp [entryVariable]
  have block (entry : EntryPoint) (name : String) :
      (entryBlock run stage entry name).FailsBy P := by
    unfold entryBlock
    split
    · exact .ok
    · simp [failsBy_foldlM, member]
  simp [entryPoint, block]

@[simp] theorem pixelFunctions_failsBy : (pixelFunctions run stage).FailsBy P := by
  have light (entry : Nat × String) : (lightFunction run entry).FailsBy P := by
    refine .bind (by simp [Kind.common (P := P)]) fun d _ => ?_
    split <;> simp [Kind.common (P := P)]
  have lights : (lightFunctions run).FailsBy P := by
    simp [lightFunctions, Result.FailsBy.mapM, light]
  simp [pixelFunctions, transformFunction, lights, srgbFunction, depthFunction,
    Run.functionDefinitions, Run.nodeFunctions_failsBy]

end Hardware

namespace Osl

variable [Kind P] (run : Run)

theorem inputParameter_failsBy (s : InputSocket) (name : String) :
    (inputParameter run s name).FailsBy P := by
  have value : (socketValue run s).FailsBy P := by
    unfold socketValue
    split <;> simp
  simp [inputParameter, value]

end Osl

namespace Run.Refers

variable [Kind P] {run : Run} (refers : run.Refers P)

include refers

theorem declareVariables_order (stages : List Stage) : (run.declareVariables stages).FailsBy P :=
  refers.declareNodes (fun _ listed => listed) stages

theorem declareStages : (Hardware.declareStages run).FailsBy P := by
  have interfaced (stages : List Stage) : (Hardware.declareInterface run stages).FailsBy P := by
    simp [Hardware.declareInterface, Stage.updateNamed_failsBy]
  simp [Hardware.declareStages, interfaced, refers.declareVariables_order]

theorem oslStage (color3 : ShaderType) (entryPoint : String) :
    (Osl.declareStage run color3 entryPoint).FailsBy P := by
  simp [Osl.declareStage, refers.declareVariables_order]

theorem mdlStage (entryPoint : String) : (Mdl.declareStage run entryPoint).FailsBy P := by
  simp [Mdl.declareStage, refers.declareVariables_order]

variable {s : OutputSocket} (socket : s ∈ run.graph.outputSockets)

include socket

theorem hardwareOutput (vector4 name : String) :
    (Hardware.outputCode run vector4 s name).FailsBy P := by
  simp [Hardware.outputCode, Hardware.widened, refers.outputText s socket]

theorem oslOutput (color3 : ShaderType) (name : String) :
    (Osl.outputCode run color3 s name).FailsBy P := by
  cases remapped : Osl.remappedChannels? s.type.name <;>
    simp [Osl.outputCode, refers.outputText s socket, remapped]

theorem mdlOutput : (Mdl.outputMaterial run s).FailsBy P := by
  simp [Mdl.outputMaterial, refers.outputText s socket]

end Run.Refers

theorem Emission.FailsBy.writes {code : List Code} (nested : Code.Nested code) (s : Stage) :
    FailsBy P (liftM (s.writeAll code) : Emission Stage) := by
  obtain ⟨t, ok, _⟩ := s.writeAll_nested nested
  exact ok ▸ .lift .ok

namespace Run.Allows

variable [Kind P] {run : Run} (allows : run.Allows P)

include allows

theorem vertexCode : (Hardware.vertexCode run stage).FailsBy P := by
  refine .bind (.lift (by simp [Hardware.vertexFrame])) fun _ => ?_
  exact .bind (allows.emitClass stage Hardware.vertexClasses) fun _ => .pure

theorem pixelCode (binding : Nat) : (Hardware.pixelCode run stage binding).FailsBy P := by
  have outputs : (Hardware.outputsCode run).FailsBy P := by
    refine .bind (by simp) fun vector4 _ => .bind (.mapM fun entry member => ?_) fun _ _ => .pure
    exact allows.hardwareOutput (of_mem_zip member).1 vector4 _
  refine .bind (.lift (by simp [Hardware.pixelFrame, Hardware.lightStructure])) fun _ => ?_
  exact .bind (allows.emitEverywhere stage) fun _ => .bind (.lift outputs) fun _ => .pure

theorem hardwareStages : (Hardware.stages run).FailsBy P := by
  unfold Hardware.stages
  extract_lets rest
  have later (u : PUnit) : (rest u).FailsBy P := by
    refine .bind (.lift allows.declareStages) fun declared => ?_
    refine .bind (.lift (by simp)) fun vertex => ?_
    refine .bind (.lift (by simp)) fun pixel => ?_
    refine .bind_yields (allows.vertexCode vertex) fun code yields => ?_
    refine .bind (.writes (Hardware.vertexCode_nested run vertex code yields) vertex) fun _ => ?_
    refine .bind_yields (allows.pixelCode pixel _) fun code yields => ?_
    exact .bind (.writes (Hardware.pixelCode_nested run pixel _ code yields) pixel) fun _ => .pure
  split
  · exact .bind (failsBy_note _) later
  · exact later ()

theorem oslCode (color3 : ShaderType) (shaderName : String) :
    (Osl.stageCode run color3 stage shaderName).FailsBy P := by
  refine .bind (.lift (run.nodeFunctions_failsBy _ _)) fun functions => ?_
  refine .bind (.mapM fun entry _ =>
    .lift (Osl.inputParameter_failsBy run _ _)) fun inputs => ?_
  refine .bind (.mapM fun entry _ =>
    .lift (by simp [Osl.outputParameter])) fun results => ?_
  refine .bind (allows.emitEverywhere stage) fun nodes => ?_
  exact .bind (.mapM fun entry member =>
    .lift (allows.oslOutput (of_mem_zip member).1 color3 _)) fun _ => .pure

theorem oslStages (name : String) : (Osl.stages run name).FailsBy P := by
  refine .bind (.lift (by simp)) fun color3 => ?_
  refine .bind (.lift (allows.oslStage _ _)) fun declared => ?_
  refine .bind (.lift (by simp)) fun stage => ?_
  refine .bind_yields (allows.oslCode stage color3 _) fun code yields => ?_
  obtain ⟨_, _, body⟩ := (Osl.stageCode_frames run color3 stage _ code yields).inBody
  exact .bind (.writes body.nested stage) fun _ => .pure

theorem mdlCode (shaderName : String) : (Mdl.stageCode run stage shaderName).FailsBy P := by
  refine .bind (.lift (run.nodeFunctions_failsBy _ _)) fun functions => ?_
  refine .bind (.mapM fun entry _ => .lift ?_) fun parameters => ?_
  · simp [Mdl.parameter, Osl.inputParameter_failsBy]
  refine .bind (allows.emitEverywhere stage) fun nodes => ?_
  refine .bind ?_ fun _ => ?_
  · unfold Mdl.warnOutputs
    dsimp only
    split
    · exact failsBy_note _
    · exact .pure
  · dsimp only
    split
    · rename_i s first
      have socket := mem_of_head? first
      exact .bind (.lift (allows.mdlOutput socket)) fun _ => .pure
    · exact .bind .pure fun _ => .pure

theorem mdlStages (name : String) : (Mdl.stages run name).FailsBy P := by
  refine .bind (.lift (allows.mdlStage _)) fun declared => ?_
  refine .bind (.lift (by simp)) fun stage => ?_
  refine .bind_yields (allows.mdlCode stage _) fun code yields => ?_
  obtain ⟨_, _, body⟩ := (Mdl.stageCode_frames run stage _ code yields).inBody
  exact .bind (.writes body.nested stage) fun _ => .pure

theorem assemble (name : String) : (Generator.assemble run name).FailsBy P := by
  unfold Generator.assemble
  split
  · exact allows.hardwareStages
  · exact allows.hardwareStages
  · exact allows.oslStages name
  · exact allows.mdlStages name

end Run.Allows

theorem Stage.finish_failsBy [Kind P] (s : Stage) (d : Dialect)
    (ends : s.scopes ≠ [] → P (.scopesLeftOpen s.name s.scopes.length)) :
    (s.finish d).FailsBy P := by
  have whole : s.finalize.FailsBy P := by
    simpa [finalize] using ends
  have variable_ (b : Block) (v : StageVariable) :
      (InterfaceVariable.ofVariable d b v).FailsBy P := by
    cases value : v.value <;> simp [InterfaceVariable.ofVariable, value]
  have interface (kind : BlockKind) : (s.interface d kind).FailsBy P := by
    refine .bind (.mapM fun b _ => ?_) fun _ _ => .pure
    exact .mapM fun v _ => variable_ b v
  simp [finish, whole, interface]

namespace Generator

variable [Kind P] {gen : Generator} {name : String}

theorem finishStages_failsBy (name : String) {stages : List Stage}
    (ends : ∀ s ∈ stages, s.scopes ≠ [] → P (.scopesLeftOpen s.name s.scopes.length)) :
    (gen.finishStages name stages).FailsBy P := by
  induction stages with
  | nil => exact .pure
  | cons stage rest ih =>
    rw [forall_mem_cons] at ends
    refine .bind (.lift (stage.finish_failsBy gen.dialect ends.1)) fun _ => ?_
    exact .bind (failsBy_note _) fun _ => .bind (ih ends.2) fun _ => .pure

theorem run_failsBy (g : Graph) (s : Session) : (gen.run g s).FailsBy P := by
  refine .bind (.mapM fun n _ => ?_) fun _ _ => .pure
  unfold realize
  split <;> simp [Kind.common (P := P)]

theorem generateFromGraph_failsBy {g : Graph}
    (allows : ∀ run, gen.run g (s.begin gen.target) = .ok run → run.Allows P)
    (ends : ∀ run stages, gen.run g (s.begin gen.target) = .ok run →
      Yields (assemble run name) stages →
      ∀ stage ∈ stages, stage.scopes ≠ [] → P (.scopesLeftOpen stage.name stage.scopes.length)) :
    (gen.generateFromGraph name g s).result.FailsBy P := by
  have emitted : (gen.emit name g (s.begin gen.target)).FailsBy P := by
    refine .bind_lift (run_failsBy g _) fun run ran => ?_
    refine .bind_yields ((allows run ran).assemble name) fun stages yields => ?_
    refine .bind (finishStages_failsBy name (ends run stages ran yields)) fun shader => ?_
    exact .bind (failsBy_note _) fun _ => .pure
  exact emitted _

omit [Kind P] in
theorem generate_failsBy_of {doc : Document} (build : (gen.buildGraph doc s).FailsBy P)
    (shader : ∀ g log, gen.buildGraph doc s = .ok (g, log) →
      (gen.generateFromGraph name g s).result.FailsBy P) :
    (gen.generate name doc s).result.FailsBy P := by
  unfold generate
  split
  · rename_i f failed
    have building : ((gen.buildGraph doc s).inside (.building name)).FailsBy P :=
      Result.failsBy_inside.2 build
    rintro _ ⟨⟩
    exact building f failed
  · rename_i g log built
    exact shader g log (Result.inside_ok.1 built)

omit [Kind P] in
theorem generate_failsBy (usual : ∀ f, f.Usual → P f)
    (ends : ∀ stage count, P (.scopesLeftOpen stage count)) {gen : Generator} {doc : Document}
    (raises : ∀ g log run, gen.buildGraph doc s = .ok (g, log) →
      gen.run g (s.begin gen.target) = .ok run → run.Raises P) :
    (gen.generate name doc s).result.FailsBy P := by
  have : Kind P := .of_usual usual
  refine generate_failsBy_of ((Graph.build_usual _ _ _ _).mono usual) fun g log built => ?_
  exact generateFromGraph_failsBy (fun run ran => (raises g log run built ran).allows)
    fun _ _ _ _ _ _ _ => ends _ _

end Generator

end MaterialShader
