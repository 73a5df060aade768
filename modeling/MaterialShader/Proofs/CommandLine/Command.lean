import MaterialShader.CommandLine.Command
import MaterialShader.Proofs.CommandLine.Directory
import MaterialShader.Proofs.Emission.PortNames

/-!
What a command does to the files of a directory, whether or not it fails:
-/

namespace MaterialShader

open List Generator
open Emission.Ensures
open Result (bind_ok pure_ok)

def Target.stageNames : Target → List String
  | .glsl | .msl => [vertexStage, pixelStage]
  | .osl | .mdl => [pixelStage]

theorem Generator.assemble_names (run : Run) (name : String) :
    (Generator.assemble run name).Ensures fun stages =>
      stages.map Stage.name = run.target.stageNames := by
  intro stages yields
  obtain ⟨declared, ok, written⟩ := assemble_writes run name stages yields
  have same : stages.map Stage.name = declared.map Stage.name := by
    refine map_eq_of_forall₂ ?_ written
    exact fun _ _ writes => writes.keeps.name
  rw [same]
  unfold Generator.declared at ok
  cases target : run.target with
  | glsl | msl =>
    simp only [target] at ok
    obtain ⟨_, _, ok⟩ := bind_ok.1 ok
    obtain ⟨vertex, first, ok⟩ := bind_ok.1 ok
    obtain ⟨pixel, second, ok⟩ := bind_ok.1 ok
    cases pure_ok.1 ok
    simp [name_of_named first, name_of_named second, Target.stageNames]
  | osl =>
    simp only [target] at ok
    obtain ⟨_, _, ok⟩ := bind_ok.1 ok
    obtain ⟨_, _, ok⟩ := bind_ok.1 ok
    obtain ⟨stage, found, ok⟩ := bind_ok.1 ok
    cases pure_ok.1 ok
    simp [name_of_named found, Target.stageNames]
  | mdl =>
    simp only [target] at ok
    obtain ⟨_, _, ok⟩ := bind_ok.1 ok
    obtain ⟨stage, found, ok⟩ := bind_ok.1 ok
    cases pure_ok.1 ok
    simp [name_of_named found, Target.stageNames]

section

variable {gen : Generator} {name : String} {doc : Document} {s : Session} {shader : Shader}
  (ok : (gen.generate name doc s).result = .ok shader)

include ok

theorem Generator.generate_heading :
    shader.name = name ∧ shader.target = gen.target := by
  obtain ⟨_, _, _, ok⟩ := generate_graph ok
  obtain ⟨_, _, _, _, named, made, _⟩ := generateFromGraph_ok ok
  exact ⟨named, made⟩

theorem Generator.generate_stageNames :
    shader.stages.map FinishedStage.name = gen.target.stageNames := by
  obtain ⟨g, log, run, stages, _, ran, assembled, finishing⟩ := generate_ok ok
  rw [← (run_graph ran).2.1, ← assemble_names run name stages assembled]
  refine map_eq_of_forall₂ ?_ finishing
  exact fun _ _ finish => (Stage.finish_ports finish).1

end

namespace CommandLine

open Directory (Spares locationOf)

def Keeps {α : Type} (P : Directory → Prop) (act : Command α) : Prop :=
  ∀ c : Console, P c.directory → P (act.run.run c).2.directory

namespace Keeps

variable {α β : Type} {P : Directory → Prop}

theorem run_bind (x : Command α) (f : α → Command β) (c : Console) :
    (x >>= f).run.run c =
      match x.run.run c with
      | (.ok a, c') => (f a).run.run c'
      | (.error e, c') => (.error e, c') := by
  change (match x.run.run c with | (r, c') => (ExceptT.bindCont f r).run c') = _
  rcases x.run.run c with ⟨_ | _, _⟩ <;> rfl

theorem bind {x : Command α} {f : α → Command β} (first : Keeps P x)
    (rest : ∀ a, (∃ c c', x.run.run c = (.ok a, c')) → Keeps P (f a)) : Keeps P (x >>= f) := by
  intro c start
  have kept := first c start
  rw [run_bind]
  rcases ran : x.run.run c with ⟨_ | a, c'⟩ <;> rw [ran] at kept
  · exact kept
  · exact rest a ⟨c, c', ran⟩ c' kept

theorem after {x : Command α} {f : α → Command β} (first : Keeps P x)
    (rest : ∀ a, Keeps P (f a)) : Keeps P (x >>= f) :=
  bind first fun a _ => rest a

theorem pure (a : α) : Keeps P (Pure.pure a : Command α) := fun _ start => start

theorem run_lift (r : Result α) (c : Console) : (liftM r : Command α).run.run c = (r, c) := rfl

theorem lift (r : Result α) : Keeps P (liftM r : Command α) := fun _ start => start

theorem update (fault : Fault) (change : Directory → Option Directory)
    (each : ∀ d d', P d → change d = some d' → P d') :
    Keeps P (do
      let c ← get
      let changed ← orFail fault (change c.directory)
      set { c with directory := changed } : Command Unit) := by
  intro c start
  have current : (get : Command Console).run.run c = (.ok c, c) := rfl
  simp only [run_bind, current, run_lift]
  cases changed : change c.directory with
  | none => exact start
  | some d => exact each c.directory d start changed

end Keeps

section Writing

variable {place : Location} {text : String} {before : Directory} {P : Directory → Prop}

theorem print_keeps (line : String) : Keeps P (print line) :=
  fun _ start => start

theorem noteAll_keeps (log : Log) : Keeps P (noteAll log) :=
  fun _ start => start

theorem readFile_keeps (fault : Fault) (path : String) : Keeps P (readFile fault path) :=
  .after (fun _ start => start) fun _ => .lift _

theorem createFolders_keeps (path : String) :
    Keeps (Spares place text before) (createFolders path) :=
  .update (.uncreatableDirectory path) (fun d => d.createFolders? path)
    fun _ _ spares created => spares.createFolders created

theorem writeFile_keeps {path new : String} (apart : locationOf (Path.steps path) ≠ place) :
    Keeps (Spares place text before) (writeFile path new) :=
  .update (.unwritableFile path) (fun d => d.write? path new)
    fun _ _ spares written => spares.write apart written

theorem writeFiles_keeps {folder : String} {files : List (String × String)}
    (apart : ∀ file ∈ files, locationOf (Path.steps (Path.join folder file.1)) ≠ place) :
    Keeps (Spares place text before) (writeFiles folder files) := by
  induction files with
  | nil => exact .pure _
  | cons file rest ih =>
    rw [forall_mem_cons] at apart
    exact .after (writeFile_keeps apart.1) fun _ => .after (ih apart.2) fun _ => .pure _

theorem printPaths_keeps (target : Target) (paths : List String) :
    Keeps P (printPaths target paths) := by
  induction paths with
  | nil => exact .pure _
  | cons path rest ih => exact .after (print_keeps _) fun _ => ih

end Writing

section Reading

variable {P : Directory → Prop}

theorem loadLibraries_keeps (lib : Library) (paths : List String) :
    Keeps P (loadLibraries lib paths) := by
  induction paths generalizing lib with
  | nil => exact .pure _
  | cons path rest ih =>
    exact .after (readFile_keeps _ _) fun _ => .after (.lift _) fun _ => ih _

theorem load_keeps (a : Arguments) : Keeps P (Task.load a) := by
  refine .after (.lift _) fun path => .after ?_ fun _ => .after ?_ fun _ => .after ?_ fun _ =>
    .after (.lift _) fun _ => .pure _
  · exact .after (readFile_keeps _ _) fun _ => .lift _
  · unfold loadOptions
    split
    · exact .pure _
    · exact .after (readFile_keeps _ _) fun _ => .lift _
  · exact loadLibraries_keeps _ _

end Reading

def Task.outputPaths (task : Task) (target : Target) : List String :=
  (target.stageNames.map fun stage =>
    Path.join task.outputDirectory s!"{task.name}.{stage}.{target.fileExtension}") ++
    [Path.join task.outputDirectory (task.name ++ ".json")] ++
    if target = .glsl ∧ task.arguments.wgsl = true then
      target.stageNames.map fun stage =>
        Path.join task.outputDirectory s!"{task.name}.{stage}.wgsl"
    else []

theorem files_of_generate {gen : Generator} {task : Task} {s : Session} {shader : Shader}
    (ok : (gen.generate task.name task.document s).result = .ok shader) :
    ∀ file ∈ shader.files, Path.join task.outputDirectory file.1 ∈ task.outputPaths gen.target := by
  obtain ⟨name, target⟩ := generate_heading ok
  have stages := generate_stageNames ok
  intro file member
  rw [Shader.files, name, target] at member
  rw [Task.outputPaths, ← stages, map_map]
  apply mem_append_left
  rw [mem_append]
  obtain source | manifest := mem_append.1 member
  · obtain ⟨stage, listed, rfl⟩ := mem_map.1 source
    exact .inl (mem_map.2 ⟨stage, listed, rfl⟩)
  · obtain rfl := mem_singleton.1 manifest
    exact .inr (mem_singleton.2 rfl)

section Command

variable {place : Location} {text : String} {before : Directory} (task : Task)
  (compiler : Option Compiler) (target : Target) (shader : Shader)

theorem Task.validate_keeps {P : Directory → Prop} :
    Keeps P (task.validate compiler target shader) := by
  unfold Task.validate
  split
  · split
    · exact .after (.lift _) fun _ => noteAll_keeps _
    · exact .pure _
    · exact noteAll_keeps _
  · exact .pure _

theorem Task.writeTranslations_keeps (c : Compiler) {stages : List FinishedStage}
    (apart : ∀ stage ∈ stages.map FinishedStage.name, locationOf (Path.steps
      (Path.join task.outputDirectory s!"{task.name}.{stage}.wgsl")) ≠ place) :
    Keeps (Spares place text before) (task.writeTranslations c stages) := by
  induction stages with
  | nil => exact .pure _
  | cons stage rest ih =>
    rw [map_cons, forall_mem_cons] at apart
    unfold Task.writeTranslations
    split
    · exact ih apart.2
    · exact .after (.lift _) fun new => .after (writeFile_keeps apart.1) fun _ =>
        .after (printPaths_keeps _ _) fun _ => ih apart.2

theorem Task.translate_keeps {target : Target} {shader : Shader}
    (stages : shader.stages.map FinishedStage.name = target.stageNames)
    (apart : ∀ path ∈ task.outputPaths target, locationOf (Path.steps path) ≠ place) :
    Keeps (Spares place text before) (task.translate compiler target shader) := by
  unfold Task.translate
  split
  · rename_i c
    split
    · rename_i asked
      refine task.writeTranslations_keeps c ?_
      rw [stages]
      intro stage member
      apply apart
      rw [Task.outputPaths, if_pos ⟨rfl, asked⟩]
      exact mem_append_right _ (mem_map.2 ⟨stage, member, rfl⟩)
    · exact .pure _
  · exact .pure _

theorem Task.runTarget_keeps
    (apart : ∀ path ∈ task.outputPaths target, locationOf (Path.steps path) ≠ place) :
    Keeps (Spares place text before) (task.runTarget compiler target) := by
  refine .bind (.lift _) fun gen made => .after (noteAll_keeps _) fun _ => ?_
  refine .after (noteAll_keeps _) fun _ => .bind (.lift _) fun shader generated => ?_
  obtain ⟨_, _, made⟩ := made
  obtain ⟨_, _, generated⟩ := generated
  have same := (create_ok (congrArg Prod.fst made)).1
  have ok := Result.inside_ok.1 (congrArg Prod.fst generated)
  refine .after (task.validate_keeps compiler target shader) fun _ => ?_
  refine .after (createFolders_keeps _) fun _ => .after (writeFiles_keeps ?_) fun paths => ?_
  · exact fun file member => apart _ (same ▸ files_of_generate ok file member)
  · refine .after (printPaths_keeps target paths) fun _ => ?_
    exact task.translate_keeps compiler (same ▸ generate_stageNames ok) apart

theorem Task.runTargets_keeps (targets : List Target)
    (apart : ∀ path ∈ targets.flatMap task.outputPaths, locationOf (Path.steps path) ≠ place) :
    Keeps (Spares place text before) (task.runTargets compiler targets) := by
  induction targets with
  | nil => exact .pure _
  | cons target rest ih =>
    rw [flatMap_cons, forall_mem_append] at apart
    exact .after (task.runTarget_keeps compiler target apart.1) fun _ => ih apart.2

end Command

def Arguments.outputPaths (a : Arguments) (d : Directory) : List String :=
  match ((Task.load a).run.run ⟨d, [], []⟩).1 with
  | .ok task => a.targets.flatMap task.outputPaths
  | .error _ => []

/-- After a command, whether or not it failed, a file has the text that it had, unless it is in the
place of a file of one of the shaders. -/
theorem run_keeps_files (a : Arguments) (d : Directory) (compiler : Option Compiler)
    {path text : String}
    (readable : d.read? path = some text)
    (apart : ∀ output ∈ a.outputPaths d,
      locationOf (Path.steps output) ≠ locationOf (Path.steps path)) :
    (run a d compiler).2.directory.read? path = some text := by
  have start := Directory.spares_of_read readable
  refine Directory.Spares.read ?_ readable
  have loaded := load_keeps a ⟨d, [], []⟩ start
  rw [run, command, Keeps.run_bind]
  rw [Arguments.outputPaths] at apart
  cases ran : (Task.load a).run.run ⟨d, [], []⟩ with
  | mk r c =>
    rw [ran] at loaded apart
    cases r with
    | error f => exact loaded
    | ok task => exact task.runTargets_keeps compiler a.targets apart c loaded

def emptyDocumentText : String :=
  "\x7b\"version\":\"1\",\"metadata\":\x7b\"name\":\"\"\x7d,\"inputs\":[],\"nodes\":[]," ++
    "\"connections\":[],\"outputs\":[]\x7d"

def documentDirectory : Directory := ⟨[(["doc.json"], emptyDocumentText)], []⟩

theorem run_keeps_files_document :
    documentDirectory.read? "doc.json" = some emptyDocumentText ∧
      (∀ output ∈ Arguments.outputPaths
          { graph := some "doc.json", targets := [.glsl], outputDirectory := some "out" }
          documentDirectory,
        locationOf (Path.steps output) ≠ locationOf (Path.steps "doc.json")) ∧
      (run { graph := some "doc.json", targets := [.glsl], outputDirectory := some "out" }
        documentDirectory).2.directory.read? "doc.json" = some emptyDocumentText := by
  have readable : documentDirectory.read? "doc.json" = some emptyDocumentText := by
    decide
  have apart : ∀ output ∈ Arguments.outputPaths
      { graph := some "doc.json", targets := [.glsl], outputDirectory := some "out" }
      documentDirectory,
      locationOf (Path.steps output) ≠ locationOf (Path.steps "doc.json") := by
    decide +kernel
  exact ⟨readable, apart, run_keeps_files _ _ none readable apart⟩

/-- Without an output directory, a document without a name gives way to the manifest of its
shader. -/
theorem run_overwrites_document :
    (run { graph := some "doc.json", targets := [.glsl] } documentDirectory).1 = .ok () ∧
      documentDirectory.read? "doc.json" = some emptyDocumentText ∧
      (run { graph := some "doc.json", targets := [.glsl] } documentDirectory).2.directory.read?
        "doc.json" ≠ some emptyDocumentText := by
  unfold run command Task.load
  rw [Library.bundled_eq]
  decide +kernel

end CommandLine

end MaterialShader
