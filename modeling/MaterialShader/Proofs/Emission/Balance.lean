import MaterialShader.Proofs.Emission.PortNames
import MaterialShader.Proofs.Fault.Assembly
import MaterialShader.Proofs.Stage.Balance

/-!
The scopes of a shader's stages.
-/

namespace MaterialShader

open List Stage
open Result.Ensures

namespace Stage

def Drafted (s : Stage) : Prop := ∃ entryPoint, (start s.name entryPoint).Reaches s

theorem Drafted.reaches {s t : Stage} (drafted : s.Drafted) (reaches : s.Reaches t) :
    t.Drafted := by
  obtain ⟨entryPoint, begun⟩ := drafted
  refine ⟨entryPoint, ?_⟩
  rw [reaches.name]
  exact begun.trans reaches

theorem Drafted.scopes {s : Stage} (drafted : s.Drafted) : s.scopes = [] := by
  obtain ⟨_, begun⟩ := drafted
  exact begun.scopes

theorem start_drafted (name entryPoint : String) : (start name entryPoint).Drafted :=
  ⟨entryPoint, .refl _⟩

theorem declareVariable_reaches (s : Stage) (target : Target) (kind : VariableKind)
    (block token name : String) (t : ShaderType) :
    (s.declareVariable target kind block token name t).Ensures s.Reaches := by
  refine bind fun declared ok => pure ?_
  exact (updateBlock_reaches ok).trans (declared.addToken_reaches _ _)

end Stage

theorem Stage.Written.reaches {s t : Stage} (written : s.Written t) : s.Reaches t := by
  obtain ⟨_, nested, ok⟩ := written
  exact writeAll_reaches nested ok

def Drafted (stages : List Stage) : Prop := ∀ s ∈ stages, s.Drafted

namespace Drafted

variable {stages : List Stage} (drafted : Drafted stages)

include drafted

theorem named {name : String} {stage : Stage} (found : Stage.named stages name = .ok stage) :
    stage.Drafted :=
  drafted stage (mem_of_find?_eq_some (orFail_ok.1 found))

theorem updateNamed (name : String) {f : Stage → Result Stage}
    (each : ∀ s, (f s).Ensures s.Reaches) : (Stage.updateNamed stages name f).Ensures Drafted := by
  induction stages with
  | nil => exact of_fail _
  | cons s rest ih =>
    obtain ⟨first, others⟩ := forall_mem_cons.1 drafted
    rw [Stage.updateNamed]
    split
    · refine bind fun changed ok => pure ?_
      exact forall_mem_cons.2 ⟨first.reaches (each s changed ok), others⟩
    · refine bind fun rest' ok => pure ?_
      exact forall_mem_cons.2 ⟨first, ih others rest' ok⟩

variable (run : Run)

theorem enter (x : HardwareVariable) : (run.enter stages x).Ensures Drafted := by
  cases x with
  | vertexInput | vertexUniform | pixelUniform =>
    exact after fun _ => drafted.updateNamed _ fun s => s.declareVariable_reaches _ _ _ _ _ _
  | connector name typeName =>
    refine after fun t stages' ok s member => ?_
    obtain ⟨old, listed, declared⟩ := exists_of_mem_right (Result.mapM_ok ok) member
    exact (drafted old listed).reaches (old.declareVariable_reaches _ _ _ _ _ _ s declared)

theorem enterAll (vs : List HardwareVariable) : (vs.foldlM run.enter stages).Ensures Drafted :=
  foldlM (fun _ drafted x _ => enter drafted run x) drafted

theorem declareVariables : (run.declareVariables stages).Ensures Drafted := by
  intro stages' ok
  obtain ⟨lists, _, entered⟩ := Run.declareNodes_ok ok
  exact drafted.enterAll run lists.flatten stages' entered

end Drafted

namespace Hardware

variable (run : Run)

theorem withTokens_reaches (target : Target) (s : Stage) : s.Reaches (withTokens target s) := by
  unfold withTokens
  generalize tokens = entries
  induction entries generalizing s with
  | nil => exact .refl s
  | cons entry rest ih => exact (s.addToken_reaches _ _).trans (ih _)

theorem emptyStages_drafted (target : Target) : Drafted (emptyStages target) := by
  have base (name entryPoint : String) : (baseStage target name entryPoint).Drafted :=
    (((start_drafted name entryPoint).reaches (createBlock_reaches _ _ _ _)).reaches
      (createBlock_reaches _ _ _ _)).reaches (withTokens_reaches target _)
  intro s member
  simp only [emptyStages, mem_cons, not_mem_nil, or_false] at member
  obtain rfl | rfl := member
  all_goals
    exact ((base _ _).reaches (createBlock_reaches _ _ _ _)).reaches
      (createBlock_reaches _ _ _ _)

theorem declareStages_drafted : (declareStages run).Ensures Drafted := by
  intro stages ok
  obtain ⟨lists, basics, interfaced, _, first, second, entered⟩ := declareStages_ok ok
  have drafted₁ := (emptyStages_drafted run.target).enterAll run _ basics first
  have drafted₂ : Drafted interfaced := by
    refine after (fun vector4 => drafted₁.updateNamed _ fun s => ?_) interfaced second
    refine bind fun published ok s' ok' => ?_
    exact (updateBlock_reaches ok).trans (updateBlock_reaches ok')
  exact drafted₂.enterAll run _ stages entered

end Hardware

theorem singleStage_drafted (run : Run) (entryPoint : String) (published drawn : Block → Block) :
    (do
      let empty := ((Stage.start pixelStage entryPoint).createBlock .uniform publicUniforms
        "").createBlock .output pixelOutputs ""
      let first ← empty.updateBlock publicUniforms published
      let whole ← first.updateBlock pixelOutputs drawn
      run.declareVariables [whole] : Result (List Stage)).Ensures Drafted := by
  refine bind fun first ok => bind fun whole ok' => ?_
  have begun := ((start_drafted pixelStage entryPoint).reaches
    (createBlock_reaches _ .uniform publicUniforms "")).reaches
    (createBlock_reaches _ .output pixelOutputs "")
  have drafted : whole.Drafted :=
    (begun.reaches (updateBlock_reaches ok)).reaches (updateBlock_reaches ok')
  have all : Drafted [whole] := forall_mem_singleton.2 drafted
  exact all.declareVariables run

theorem Generator.assemble_drafted (run : Run) (name : String) :
    (Generator.assemble run name).Ensures Drafted := by
  have hardware : (Hardware.stages run).Ensures Drafted := by
    intro stages yields
    obtain ⟨declared, vertex, pixel, _, _, ok, first, second, writes, writes', rfl⟩ :=
      Hardware.stages_declared run stages yields
    have drafted := Hardware.declareStages_drafted run declared ok
    rw [Drafted, forall_mem_cons, forall_mem_singleton]
    exact ⟨(drafted.named first).reaches writes.reaches,
      (drafted.named second).reaches writes'.reaches⟩
  unfold Generator.assemble
  split
  · exact hardware
  · exact hardware
  · intro stages yields
    obtain ⟨color3, declared, stage, _, _, _, ok, found, frames, writes, rfl⟩ :=
      Osl.stages_declared run name stages yields
    obtain ⟨_, _, body⟩ := frames.inBody
    have drafted := singleStage_drafted run _ _ _ declared ok
    exact forall_mem_singleton.2
      ((drafted.named found).reaches (writeAll_reaches body.nested writes))
  · intro stages yields
    obtain ⟨declared, stage, _, _, ok, found, frames, writes, rfl⟩ :=
      Mdl.stages_declared run name stages yields
    obtain ⟨_, _, body⟩ := frames.inBody
    obtain ⟨_, _, ok⟩ := Result.bind_ok.1 ok
    have drafted := singleStage_drafted run _ _ _ declared ok
    exact forall_mem_singleton.2
      ((drafted.named found).reaches (writeAll_reaches body.nested writes))

def Fault.IsScope : Fault → Prop
  | .noOpenScope .. | .scopesLeftOpen .. => True
  | _ => False

instance : Fault.Kind fun f => ¬ f.IsScope := by
  refine ⟨fun f common => ?_⟩
  cases f <;> simp_all [Fault.IsScope]

theorem Run.allows_notScope (run : Run) : run.Allows fun f => ¬ f.IsScope := by
  have refers : run.Refers fun f => ¬ f.IsScope := run.refers_of_dangling fun _ _ => id
  exact ⟨refers, fun _ listed code _ => refers.sourceCode listed (fun _ _ => id) code⟩

/-- No scope is at fault, and every stage is written from nothing by operations that work and whose
brackets are nested. -/
structure Result.Balanced (r : Result Shader) : Prop where
  fails : r.FailsBy fun f => ¬ f.IsScope
  stages : ∀ shader, r = .ok shader → ∀ finished ∈ shader.stages, ∃ entryPoint ops s,
    (Stage.start finished.name entryPoint).attemptAll ops = .ok s ∧
      s.finalize = .ok finished.source ∧
      WellNested ((Stage.start finished.name entryPoint).bracketWord ops)

theorem Stage.nested_of_attemptAll {name entryPoint : String} {ops : List Operation} {s : Stage}
    (ran : (start name entryPoint).attemptAll ops = .ok s) (closed : s.scopes = []) :
    WellNested ((start name entryPoint).bracketWord ops) := by
  have pending := start_pending name entryPoint ops
  rw [performAll_ok ran, closed] at pending
  exact (pending.nested_iff (by simp)).2 rfl

theorem Generator.generateFromGraph_balanced (gen : Generator) (name : String) (g : Graph)
    (s : Session) : (gen.generateFromGraph name g s).result.Balanced where
  fails := by
    refine generateFromGraph_failsBy (fun run _ => run.allows_notScope) ?_
    intro run stages _ assembled stage member opened
    exact absurd (assemble_drafted run name stages assembled stage member).scopes opened
  stages shader ok finished member := by
    obtain ⟨run, stages, _, assembled, _, _, finishing⟩ := generateFromGraph_ok ok
    obtain ⟨stage, listed, finish⟩ := exists_of_mem_right finishing member
    obtain ⟨same, final, _⟩ := finish_ok finish
    have drafted := assemble_drafted run name stages assembled stage listed
    obtain ⟨entryPoint, begun⟩ := drafted
    obtain ⟨ops, ran⟩ := begun.operations
    rw [← same] at ran
    exact ⟨entryPoint, ops, stage, ran, final, nested_of_attemptAll ran begun.scopes⟩

theorem Generator.generate_balanced (gen : Generator) (name : String) (doc : Document)
    (s : Session) : (gen.generate name doc s).result.Balanced where
  fails := by
    refine generate_failsBy_of ?_ fun g _ _ => (gen.generateFromGraph_balanced name g s).fails
    refine (Graph.build_usual _ _ _ _).mono fun f usual => ?_
    cases f <;> simp_all [Fault.IsScope, Fault.Usual]
  stages shader ok := by
    obtain ⟨g, _, _, ok⟩ := generate_graph ok
    exact (gen.generateFromGraph_balanced name g s).stages shader ok

/-- Whatever operations a new stage goes through, its indentation is the number of open scopes,
closing fails exactly where no scope is open and changes nothing then, and the brackets
written for scopes begin a nested word. The stage can be finished exactly where no scope is open;
then the word is nested, and it is nested only then if every open scope has brackets. Shaders never
fail for a scope, and their stages are written with nested brackets. -/
theorem scopes_balanced :
    (∀ (name entryPoint : String) (ops : List Stage.Operation),
      let s := (Stage.start name entryPoint).performAll ops
      let opened := ops.foldl Stage.Operation.openAfter 0
      let word := (Stage.start name entryPoint).bracketWord ops
      s.indent = opened ∧ s.scopes.length = opened ∧
      s.beginLine.source = s.source ++ Stage.indentation opened ∧
      (∀ semicolon, ((∃ f, s.closeScope semicolon = .error f) ↔ opened = 0) ∧
        (opened = 0 → s.closeScope semicolon = fail (.noOpenScope s.name) ∧
          s.perform (.closeScope semicolon) = s)) ∧
      (∃ rest, WellNested (word ++ rest)) ∧
      ((∃ text, s.finalize = .ok text) ↔ opened = 0) ∧
      ((∃ text, s.finalize = .ok text) → WellNested word) ∧
      ((∀ b ∈ s.scopes, b ≠ .none) → ((∃ text, s.finalize = .ok text) ↔ WellNested word))) ∧
    ∀ (gen : Generator) (name : String) (s : Session),
      (∀ g, (gen.generateFromGraph name g s).result.Balanced) ∧
      ∀ doc, (gen.generate name doc s).result.Balanced := by
  refine ⟨fun name entryPoint ops => ?_, fun gen name s => ?_⟩
  · intro s opened word
    obtain ⟨count, aligned⟩ := Stage.performAll_scopes (.start name entryPoint) ops
    have level : s.indent = opened := (aligned rfl).trans count
    have pending : Pending s.scopes word := Stage.start_pending name entryPoint ops
    have closed : opened = 0 ↔ s.scopes = [] := by
      rw [← List.length_eq_zero_iff]
      exact Eq.congr count.symm rfl
    have finishes : (∃ text, s.finalize = .ok text) ↔ opened = 0 :=
      s.finalize_works_iff.trans closed.symm
    refine ⟨level, count, by rw [← level]; rfl, fun semicolon => ⟨?_, fun none => ?_⟩,
      ⟨_, pending.completed⟩, finishes, fun works => ?_, fun visible => ?_⟩
    · exact (s.closeScope_fails_iff semicolon).trans closed.symm
    · have empty := closed.1 none
      exact ⟨Stage.closeScope_eq_fail empty semicolon,
        Stage.perform_closeScope_closed empty semicolon⟩
    · have empty := closed.1 (finishes.1 works)
      exact (pending.nested_iff (by simp [empty])).2 empty
    · rw [finishes, closed, pending.nested_iff visible]
  · exact ⟨fun g => gen.generateFromGraph_balanced name g s,
      fun doc => gen.generate_balanced name doc s⟩

/-- A scope without brackets is open although no bracket is written. -/
theorem bracketless_scope_unfinished :
    WellNested ((Stage.start "pixel" "main").bracketWord [.openScope .none]) ∧
      ¬ ∃ text, ((Stage.start "pixel" "main").performAll [.openScope .none]).finalize =
        .ok text := by
  have empty : (Stage.start "pixel" "main").bracketWord [.openScope .none] = [] := by decide
  refine ⟨empty ▸ .nil, ?_⟩
  rintro ⟨text, works⟩
  cases works

end MaterialShader
