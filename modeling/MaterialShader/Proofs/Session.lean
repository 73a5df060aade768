import MaterialShader.Generator
import MaterialShader.Proofs.Emission.Marks
import MaterialShader.Proofs.Graph.Options

/-!
Sessions that are used again.
-/

namespace MaterialShader

/-- A call, with the order in which the bindings of its document are looked at. -/
inductive Call where
  | document (gen : Generator) (name : String) (doc : Document) (walk : Network.Walk)
  | graph (gen : Generator) (name : String) (g : Graph)

namespace Call

def run (call : Call) (s : Session) : Outcome Shader :=
  match call with
  | .document gen name doc walk => gen.generate name doc s walk
  | .graph gen name g => gen.generateFromGraph name g s

/-- The call gets to emission: a document may have no graph. -/
def Begins (call : Call) (s : Session) : Prop :=
  match call with
  | .document gen _ doc walk => ∃ built, gen.buildGraph doc s walk = .ok built
  | .graph .. => True

/-- The call with another order of bindings. -/
def walked (call : Call) (walk : Network.Walk) : Call :=
  match call with
  | .document gen name doc _ => .document gen name doc walk
  | .graph gen name g => .graph gen name g

/-- The results are the same, but for which of the bindings of one node is named that lead too
deep. -/
def Agrees (call : Call) (r r' : Result Shader) : Prop :=
  match call with
  | .document gen _ doc _ => Network.WalksAgree doc gen.library r r'
  | .graph .. => r = r'

end Call

def Session.after (s : Session) (calls : List Call) : Session :=
  calls.foldl (fun now call => (call.run now).session) s

section

variable {s fresh : Session} (options : fresh.options = s.options)
  (lights : fresh.lights = s.lights)

include options lights

theorem Generator.emit_alike (gen : Generator) (name : String) (g : Graph) :
    gen.emit name g (s.begin gen.target) = gen.emit name g (fresh.begin gen.target) := by
  have same : gen.run g (s.begin gen.target) = gen.run g (fresh.begin gen.target) := by
    have optionsBegun : (fresh.begin gen.target).options = (s.begin gen.target).options := options
    have lightsBegun : (fresh.begin gen.target).lights = (s.begin gen.target).lights := lights
    rw [Generator.run, Generator.run, optionsBegun, lightsBegun]
  rw [emit, emit, same]

theorem Generator.generateFromGraph_alike (gen : Generator) (name : String) (g : Graph) :
    (gen.generateFromGraph name g s).result = (gen.generateFromGraph name g fresh).result ∧
    (gen.generateFromGraph name g s).log = (gen.generateFromGraph name g fresh).log ∧
    (gen.generateFromGraph name g s).session =
      { s with target := (gen.generateFromGraph name g fresh).session.target
               emitted := (gen.generateFromGraph name g fresh).session.emitted } := by
  simp only [generateFromGraph, gen.emit_alike options lights name g]
  exact ⟨rfl, rfl, rfl⟩

theorem Call.result_alike (call : Call) :
    (call.run s).result = (call.run fresh).result ∧ (call.run s).log = (call.run fresh).log := by
  cases call with
  | graph gen name g =>
    obtain ⟨result, log, _⟩ := gen.generateFromGraph_alike options lights name g
    exact ⟨result, log⟩
  | document gen name doc walk =>
    have built : gen.buildGraph doc s walk = gen.buildGraph doc fresh walk := by
      rw [Generator.buildGraph, Generator.buildGraph, options]
    simp only [run, Generator.generate, built]
    split
    · exact ⟨rfl, rfl⟩
    · rename_i g log _
      obtain ⟨result, log, _⟩ := gen.generateFromGraph_alike options lights name g
      exact ⟨result, by rw [log]⟩

omit lights in
theorem Call.begins_alike (call : Call) : call.Begins s ↔ call.Begins fresh := by
  cases call with
  | graph gen name g => rfl
  | document gen name doc walk => simp only [Begins, Generator.buildGraph, options]

theorem Call.session_alike (call : Call) (begins : call.Begins fresh) :
    (call.run s).session =
      { s with target := (call.run fresh).session.target
               emitted := (call.run fresh).session.emitted } := by
  cases call with
  | graph gen name g => exact (gen.generateFromGraph_alike options lights name g).2.2
  | document gen name doc walk =>
    obtain ⟨⟨g, log⟩, found⟩ := begins
    have built : gen.buildGraph doc s walk = .ok (g, log) := by
      rw [Generator.buildGraph, ← options]
      exact found
    simp only [run, Generator.generate, built, found]
    exact (gen.generateFromGraph_alike options lights name g).2.2

end

theorem Call.session_of_not_begins {call : Call} {s : Session} (stays : ¬ call.Begins s) :
    (call.run s).session = s := by
  cases call with
  | graph gen name g => exact absurd trivial stays
  | document gen name doc walk =>
    simp only [run, Generator.generate]
    split
    · rfl
    · rename_i g log built
      exact absurd ⟨(g, log), Result.inside_ok.1 built⟩ stays

theorem Generator.generate_agree (gen : Generator) (name : String) (doc : Document) (s : Session)
    (walk walk' : Network.Walk) :
    Network.WalksAgree doc gen.library (gen.generate name doc s walk).result
        (gen.generate name doc s walk').result ∧
      (gen.generate name doc s walk).log = (gen.generate name doc s walk').log := by
  have agree : Network.WalksAgree doc gen.library
      ((gen.buildGraph doc s walk).inside (.building name))
      ((gen.buildGraph doc s walk').inside (.building name)) := by
    rw [buildGraph, buildGraph, Graph.build_eq, Graph.build_eq]
    exact ((Graph.prepare_agree doc gen.library gen.types walk walk').bind _).inside _
  rw [generate, generate]
  generalize (gen.buildGraph doc s walk).inside (.building name) = built at agree
  generalize (gen.buildGraph doc s walk').inside (.building name) = built' at agree
  cases agree with
  | ok a => exact ⟨.refl _, rfl⟩
  | error alike => exact ⟨.error alike, rfl⟩

theorem Call.walked_agrees (call : Call) (walk : Network.Walk) (s : Session) :
    call.Agrees (call.run s).result ((call.walked walk).run s).result ∧
      (call.run s).log = ((call.walked walk).run s).log := by
  cases call with
  | graph gen name g => exact ⟨rfl, rfl⟩
  | document gen name doc own => exact gen.generate_agree name doc s own walk

theorem Call.run_frame (call : Call) (s : Session) :
    (call.run s).session.options = s.options ∧ (call.run s).session.data = s.data := by
  by_cases begins : call.Begins s
  · rw [call.session_alike rfl rfl begins]
    exact ⟨rfl, rfl⟩
  · rw [Call.session_of_not_begins begins]
    exact ⟨rfl, rfl⟩

theorem Session.after_frame (s : Session) (calls : List Call) :
    (s.after calls).options = s.options ∧ (s.after calls).data = s.data := by
  induction calls generalizing s with
  | nil => exact ⟨rfl, rfl⟩
  | cons call rest ih =>
    obtain ⟨options, data⟩ := call.run_frame s
    obtain ⟨options', data'⟩ := ih (call.run s).session
    exact ⟨options'.trans options, data'.trans data⟩

theorem Session.lights_of_data {s t : Session} (data : t.data = s.data) : t.lights = s.lights := by
  simp only [lights, get?, data]

/-- Whatever calls came before in a session, a call gives what it gives in a new session with the
same options and lights, and it changes neither. If it begins a run, it also leaves the marks of the
run in a new session. No mark of an earlier run is left when it begins, so that emission which asks
for them writes what the layout says. In another order of bindings the call may name another of those
that lead too deep at one node, and nothing else changes. -/
theorem session_reuse_invisible {s fresh : Session} (options : fresh.options = s.options)
    (lights : fresh.lights = s.lights) (earlier : List Call) (call : Call) :
    (call.run (s.after earlier)).result = (call.run fresh).result ∧
    (call.run (s.after earlier)).log = (call.run fresh).log ∧
    (∀ walk, call.Agrees (call.run (s.after earlier)).result ((call.walked walk).run fresh).result ∧
      (call.run (s.after earlier)).log = ((call.walked walk).run fresh).log) ∧
    (call.run (s.after earlier)).session.options = s.options ∧
    (call.run (s.after earlier)).session.lights = s.lights ∧
    (call.Begins fresh → (call.run (s.after earlier)).session =
      { s with target := (call.run fresh).session.target
               emitted := (call.run fresh).session.emitted }) ∧
    (¬ call.Begins fresh → (call.run (s.after earlier)).session = s.after earlier) ∧
    ∀ (target : Target) (run : Run) (stage : Stage) (roots : List NodeId) (p : Progress),
      (∀ id, (stage.name, id) ∈ p.emitted →
        ((s.after earlier).begin target).isEmitted stage.name id) →
      (run.emitByMarks stage roots).run.run p =
        (Run.emitAll run stage (run.layout roots)).run.run p := by
  obtain ⟨sameOptions, sameData⟩ := s.after_frame earlier
  have options' : fresh.options = (s.after earlier).options := options.trans sameOptions.symm
  have lights' : fresh.lights = (s.after earlier).lights :=
    lights.trans (Session.lights_of_data sameData).symm
  obtain ⟨result, log⟩ := call.result_alike options' lights'
  obtain ⟨keptOptions, keptData⟩ := call.run_frame (s.after earlier)
  refine ⟨result, log, fun walk => ?_, keptOptions.trans sameOptions,
    Session.lights_of_data (keptData.trans sameData), fun begins => ?_, fun stays => ?_, ?_⟩
  · rw [result, log]
    exact call.walked_agrees walk fresh
  · rw [call.session_alike options' lights' begins, sameOptions, sameData]
  · exact Call.session_of_not_begins (mt (call.begins_alike options').1 stays)
  · intro target run stage roots p marks
    refine Run.emitByMarks_eq roots fun id marked => ?_
    have stale := marks id marked
    simp [Session.isEmitted, Session.begin] at stale

/-- A generator that knows a plain definition, and one whose code needs an input. -/
def sketchGenerator : Generator where
  target := .osl
  dialect := .ofTarget .osl
  types := .standard
  library := .empty
  realizations := [(("plain", none), .source (.inline "1.0")), (("needy", none), .swizzle)]

def sketchGraph (definition : String) : Graph :=
  let float : ShaderType := ⟨"float", .float, .none, 1, true, .float .zero⟩
  { nodes := [⟨"n", "n", "sketch", definition, .ofList [], [], [⟨"out", float, "n_out"⟩]⟩]
    inputSockets := []
    outputSockets := [⟨"o", float, some (.node 0 0), none⟩]
    order := [0]
    classification := .ofList [] }

def sketchSession : Session := Session.bindLight {} 1 "point_light"

def sketchCalls : List Call :=
  [.graph sketchGenerator "needy" (sketchGraph "needy"),
   .document sketchGenerator "sum" sumDocument .listed]

theorem session_reuse_invisible_sketch :
    sketchSession.options = (sketchSession.put "note" (.text "kept")).options ∧
    sketchSession.lights = (sketchSession.put "note" (.text "kept")).lights ∧
    ((sketchSession.put "note" (.text "kept")).after sketchCalls).emitted = [("pixel", 0)] ∧
    ∃ shader, ((Call.graph sketchGenerator "plain" (sketchGraph "plain")).run
        ((sketchSession.put "note" (.text "kept")).after sketchCalls)).result = .ok shader ∧
      ((Call.graph sketchGenerator "plain" (sketchGraph "plain")).run sketchSession).result =
        .ok shader := by
  have options : sketchSession.options = (sketchSession.put "note" (.text "kept")).options := rfl
  have lights : sketchSession.lights = (sketchSession.put "note" (.text "kept")).lights := by
    decide
  have marked : ((sketchSession.put "note" (.text "kept")).after sketchCalls).emitted =
      [("pixel", 0)] := by
    decide
  have works : (((Call.graph sketchGenerator "plain" (sketchGraph "plain")).run
      sketchSession).result.toOption).isSome := by
    decide
  obtain ⟨shader, found⟩ := Option.isSome_iff_exists.1 works
  have ok := Result.toOption_eq_some.1 found
  obtain ⟨result, _⟩ := session_reuse_invisible options lights sketchCalls
    (.graph sketchGenerator "plain" (sketchGraph "plain"))
  exact ⟨options, lights, marked, shader, result.trans ok, ok⟩

end MaterialShader
