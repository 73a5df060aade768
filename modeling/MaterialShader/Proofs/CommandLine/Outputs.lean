import MaterialShader.Proofs.CommandLine.Command

/-!
What a command leaves of the files of its targets.
-/

namespace MaterialShader

open List
open MaterialShader.Path (steps)

def manifestFront (name : String) (target : Target) : String :=
  "\x7b\n  \"name\": " ++ Json.stringText name ++ ",\n  \"target\": " ++
    Json.stringText target.name

theorem Shader.manifest_front (s : Shader) :
    ∃ rest, s.toJson.pretty = manifestFront s.name s.target ++ rest := by
  let stages := Json.stringText "stages" ++ ": " ++
    Json.prettyAt 1 (.arr (s.stages.map FinishedStage.toJson))
  have text : s.toJson.pretty = "\x7b" ++ "\n" ++ String.intercalate ",\n"
      ["  \"name\": " ++ Json.stringText s.name, "  \"target\": " ++ Json.stringText s.target.name,
        "  " ++ stages] ++ "\n" ++ "" ++ "\x7d" := rfl
  refine ⟨",\n  " ++ stages ++ "\n\x7d", ?_⟩
  rw [text, String.intercalate_cons_cons, String.intercalate_cons_cons,
    String.intercalate_singleton, manifestFront]
  apply String.toList_injective
  simp

theorem Shader.manifest_ne {a b : Shader} (names : a.name = b.name) (ne : a.target ≠ b.target) :
    a.toJson.pretty ≠ b.toJson.pretty := by
  obtain ⟨rest, first⟩ := a.manifest_front
  obtain ⟨rest', second⟩ := b.manifest_front
  rw [first, second, names]
  intro same
  have same := congrArg String.toList same
  simp only [manifestFront, String.toList_append, append_assoc] at same
  have quoted : ∀ t : Target, (Json.stringText t.name).toList = '"' :: t.name.toList ++ ['"'] := by
    intro t
    cases t <;> rfl
  rw [quoted, quoted] at same
  revert ne same
  cases a.target <;> cases b.target <;> simp [Target.name]

def Target.sourceEnding (target : Target) (stage : String) : String :=
  s!".{stage}.{target.fileExtension}"

def translationEnding (stage : String) : String := s!".{stage}.wgsl"

def manifestEnding : String := ".json"

theorem name_sourceEnding (name stage : String) (target : Target) :
    s!"{name}.{stage}.{target.fileExtension}" = name ++ target.sourceEnding stage := by
  simp only [Target.sourceEnding, String.append_assoc]
  rfl

theorem name_translationEnding (name stage : String) :
    s!"{name}.{stage}.wgsl" = name ++ translationEnding stage := by
  simp only [translationEnding, String.append_assoc]
  rfl

def Target.shaderEndings (target : Target) : List String :=
  target.stageNames.map target.sourceEnding ++ [manifestEnding]

def Target.endings (target : Target) (wgsl : Bool) : List String :=
  target.shaderEndings ++
    if target = .glsl ∧ wgsl = true then target.stageNames.map translationEnding else []

variable {target : Target}

theorem Target.isEnding {wgsl : Bool} : ∀ x ∈ target.endings wgsl, Path.IsEnding x := by
  have each : ∀ x ∈ target.endings wgsl,
      x.toList.head? = some '.' ∧ '/' ∉ x.toList ∧ 2 < x.length := by
    cases target <;> cases wgsl <;> decide
  exact fun x member => ⟨(each x member).1, (each x member).2.1, (each x member).2.2⟩

theorem Target.endings_nodup (target : Target) (wgsl : Bool) : (target.endings wgsl).Nodup := by
  cases target <;> cases wgsl <;> decide

theorem Target.mem_endings {x : String} (own : x ∈ target.shaderEndings) (wgsl : Bool) :
    x ∈ target.endings wgsl :=
  mem_append_left _ own

theorem Shader.files_names (s : Shader)
    (stages : s.stages.map FinishedStage.name = s.target.stageNames) :
    s.files.map Prod.fst = s.target.shaderEndings.map (s.name ++ ·) := by
  rw [Shader.files, Target.shaderEndings, ← stages]
  simp only [map_append, map_map, name_sourceEnding]
  rfl

theorem Target.sourceEnding_ne (target : Target) :
    ∀ stage ∈ target.stageNames, target.sourceEnding stage ≠ manifestEnding := by
  cases target <;> decide

theorem Target.endings_disjoint {other : Target} (ne : target ≠ other) {wgsl : Bool} :
    ∀ x ∈ target.endings wgsl, x ≠ manifestEnding → x ∉ other.endings wgsl := by
  cases target <;> cases other <;> first | contradiction | (cases wgsl <;> decide)

namespace CommandLine

open Directory (Spares locationOf)

def Task.outputPath (task : Task) (ending : String) : String :=
  Path.join task.outputDirectory (task.name ++ ending)

theorem Task.outputPaths_eq (task : Task) (target : Target) :
    task.outputPaths target = (target.endings task.arguments.wgsl).map task.outputPath := by
  rw [Task.outputPaths, Target.endings, Target.shaderEndings, map_append, map_append,
    map_map]
  simp only [name_sourceEnding, name_translationEnding]
  split
  · rw [map_map]
    rfl
  · rfl

section

variable {α β : Type} {c c' : Console}

theorem run_bind_ok {x : Command α} {f : α → Command β} {b : β}
    (ran : (x >>= f).run.run c = (.ok b, c')) :
    ∃ a between, x.run.run c = (.ok a, between) ∧ (f a).run.run between = (.ok b, c') := by
  rw [Keeps.run_bind] at ran
  rcases first : x.run.run c with ⟨_ | a, between⟩ <;> rw [first] at ran
  · cases ran
  · exact ⟨a, between, rfl, ran⟩

theorem run_lift_ok {r : Result α} {a : α} (ran : (liftM r : Command α).run.run c = (.ok a, c')) :
    r = .ok a ∧ c = c' := by
  cases ran
  exact ⟨rfl, rfl⟩

theorem Keeps.read {x : Command α} {path text : String}
    (each : ∀ before, Keeps (Spares (locationOf (steps path)) text before) x)
    {a : α} (ran : x.run.run c = (.ok a, c')) (readable : c.directory.read? path = some text) :
    c'.directory.read? path = some text := by
  have kept := each c.directory c (Directory.spares_of_read readable)
  rw [ran] at kept
  exact kept.read readable

theorem writeFile_read {path text : String} (ran : (writeFile path text).run.run c = (.ok (), c')) :
    c'.directory.read? path = some text := by
  obtain ⟨_, _, current, ran⟩ := run_bind_ok ran
  obtain ⟨d, _, attempt, ran⟩ := run_bind_ok ran
  obtain ⟨written, rfl⟩ := run_lift_ok attempt
  cases ran
  exact Directory.read?_write (orFail_ok.1 written)

theorem writeFiles_read {folder : String} {files : List (String × String)}
    (apart : files.Pairwise fun a b => locationOf (steps (Path.join folder b.1)) ≠
      locationOf (steps (Path.join folder a.1)))
    {paths : List String} (ran : (writeFiles folder files).run.run c = (.ok paths, c')) :
    ∀ file ∈ files, c'.directory.read? (Path.join folder file.1) = some file.2 := by
  induction files generalizing c paths with
  | nil => simp
  | cons file rest ih =>
    obtain ⟨first, others⟩ := pairwise_cons.1 apart
    obtain ⟨_, between, written, ran⟩ := run_bind_ok ran
    obtain ⟨_, _, writing, last⟩ := run_bind_ok ran
    cases last
    rw [forall_mem_cons]
    exact ⟨Keeps.read (fun _ => writeFiles_keeps first) writing (writeFile_read written),
      ih others writing⟩

end

def Task.session (task : Task) : Session :=
  Session.bindLights { options := task.options } task.arguments.lights

def Task.Generates (task : Task) (target : Target) (shader : Shader) : Prop :=
  ∃ gen, Generator.create target task.library = .ok gen ∧
    (gen.generate task.name task.document task.session).result = .ok shader

/-- The files that a target has for itself can be read: the sources of its shader and, if they were
asked for, their translations. -/
structure Task.Leaves (task : Task) (compiler : Option Compiler) (target : Target) (shader : Shader)
    (d : Directory) : Prop where
  sources : ∀ stage ∈ shader.stages,
    d.read? (task.outputPath (target.sourceEnding stage.name)) = some stage.source
  translations : target = .glsl → task.arguments.wgsl = true → ∀ c, compiler = some c →
    ∀ stage ∈ shader.stages, ∀ p, Program.ofStage? stage.name = some p →
      ∃ text, c.translate p stage.source = .ok text ∧
        d.read? (task.outputPath (translationEnding stage.name)) = some text

section

variable {task : Task} {c c' : Console}

theorem Task.outputPath_apart {target : Target} {x y : String}
    (first : x ∈ target.endings task.arguments.wgsl) {other : Target}
    (second : y ∈ other.endings task.arguments.wgsl) (ne : x ≠ y) :
    locationOf (steps (task.outputPath x)) ≠ locationOf (steps (task.outputPath y)) :=
  Directory.location_ne (Target.isEnding x first) (Target.isEnding y second) ne _ _

theorem Task.writeTranslations_read (compiler : Compiler) {stages : List FinishedStage}
    (apart : (stages.map FinishedStage.name).Pairwise fun a b =>
      locationOf (steps (task.outputPath (translationEnding b))) ≠
        locationOf (steps (task.outputPath (translationEnding a))))
    (ran : (task.writeTranslations compiler stages).run.run c = (.ok (), c')) :
    ∀ stage ∈ stages, ∀ p, Program.ofStage? stage.name = some p →
      ∃ text, compiler.translate p stage.source = .ok text ∧
        c'.directory.read? (task.outputPath (translationEnding stage.name)) = some text := by
  induction stages generalizing c with
  | nil => simp
  | cons stage rest ih =>
    rw [map_cons, pairwise_cons] at apart
    rw [forall_mem_cons]
    unfold Task.writeTranslations at ran
    split at ran
    · rename_i none
      exact ⟨fun p found => (Option.some_ne_none p (found.symm.trans none)).elim,
        ih apart.2 ran⟩
    · rename_i program found
      obtain ⟨text, _, attempt, ran⟩ := run_bind_ok ran
      obtain ⟨translated, rfl⟩ := run_lift_ok attempt
      obtain ⟨_, _, writing, ran⟩ := run_bind_ok ran
      obtain ⟨_, _, printing, ran⟩ := run_bind_ok ran
      refine ⟨fun p found' => ⟨text, ?_, ?_⟩, ih apart.2 ran⟩
      · cases found.symm.trans found'
        exact Result.inside_ok.1 translated
      · rw [name_translationEnding] at writing
        refine Keeps.read (fun _ => task.writeTranslations_keeps compiler ?_) ran
          (Keeps.read (fun _ => printPaths_keeps _ _) printing (writeFile_read writing))
        intro other listed
        rw [name_translationEnding]
        exact apart.1 other listed

variable {compiler : Option Compiler} {target : Target} {shader : Shader} {targets : List Target}

section

variable (stages : shader.stages.map FinishedStage.name = target.stageNames)
  (ran : (task.translate compiler target shader).run.run c = (.ok (), c'))

include stages ran

theorem Task.translate_translations (glsl : target = .glsl)
    (asked : task.arguments.wgsl) {translator : Compiler}
    (given : compiler = some translator) :
    ∀ stage ∈ shader.stages, ∀ p, Program.ofStage? stage.name = some p →
      ∃ text, translator.translate p stage.source = .ok text ∧
        c'.directory.read? (task.outputPath (translationEnding stage.name)) = some text := by
  subst glsl given
  simp only [Task.translate, asked, if_true] at ran
  refine task.writeTranslations_read translator ?_ ran
  have distinct : (Target.glsl.stageNames.map translationEnding).Nodup := by decide
  have listed : ∀ stage ∈ Target.glsl.stageNames,
      translationEnding stage ∈ Target.glsl.endings task.arguments.wgsl := by
    intro stage member
    rw [Target.endings, if_pos ⟨rfl, asked⟩]
    exact mem_append_right _ (mem_map_of_mem member)
  rw [stages]
  refine (pairwise_map.1 distinct).imp_of_mem fun {a b} first second ne => ?_
  exact Task.outputPath_apart (listed b second) (listed a first) (Ne.symm ne)

theorem Task.translate_read {x text : String}
    (own : x ∈ target.shaderEndings)
    (readable : c.directory.read? (task.outputPath x) = some text) :
    c'.directory.read? (task.outputPath x) = some text := by
  unfold Task.translate at ran
  split at ran
  · rename_i translator
    split at ran
    · rename_i asked
      refine Keeps.read (fun _ => task.writeTranslations_keeps translator ?_) ran readable
      rw [stages]
      intro stage member
      have listed : translationEnding stage ∈ Target.glsl.stageNames.map translationEnding :=
        mem_map_of_mem member
      have all : Target.glsl.endings task.arguments.wgsl =
          Target.glsl.shaderEndings ++ Target.glsl.stageNames.map translationEnding :=
        congrArg _ (if_pos ⟨rfl, asked⟩)
      have distinct := Target.glsl.endings_nodup task.arguments.wgsl
      rw [all, nodup_append] at distinct
      rw [name_translationEnding]
      refine Task.outputPath_apart (all ▸ mem_append_right _ listed)
        (all ▸ mem_append_left _ own) ?_
      exact Ne.symm (distinct.2.2 x own _ listed)
    · cases ran
      exact readable
  · cases ran
    exact readable

end

theorem Task.Generates.heading (generates : task.Generates target shader) :
    shader.name = task.name ∧ shader.target = target ∧
      shader.stages.map FinishedStage.name = target.stageNames := by
  obtain ⟨gen, made, ok⟩ := generates
  obtain ⟨name, same⟩ := Generator.generate_heading ok
  have stages := Generator.generate_stageNames ok
  rw [(Generator.create_ok made).1] at same stages
  exact ⟨name, same, stages⟩

theorem Task.writeFiles_leaves (name : shader.name = task.name) (same : shader.target = target)
    (stages : shader.stages.map FinishedStage.name = target.stageNames) {paths : List String}
    (ran : (writeFiles task.outputDirectory shader.files).run.run c = (.ok paths, c')) :
    ∀ file ∈ shader.files, c'.directory.read? (Path.join task.outputDirectory file.1) =
      some file.2 := by
  subst same
  have distinct := shader.target.endings_nodup task.arguments.wgsl
  rw [Target.endings, nodup_append] at distinct
  have apart : (shader.files.map Prod.fst).Pairwise fun a b =>
      locationOf (steps (Path.join task.outputDirectory b)) ≠
        locationOf (steps (Path.join task.outputDirectory a)) := by
    rw [shader.files_names stages, name, pairwise_map]
    refine distinct.1.imp_of_mem fun first second ne => ?_
    exact Task.outputPath_apart (Target.mem_endings second _) (Target.mem_endings first _)
      (Ne.symm ne)
  exact writeFiles_read (pairwise_map.1 apart) ran

theorem Task.runTarget_leaves (ran : (task.runTarget compiler target).run.run c = (.ok (), c')) :
    ∃ shader, task.Generates target shader ∧ task.Leaves compiler target shader c'.directory ∧
      c'.directory.read? (task.outputPath manifestEnding) = some shader.toJson.pretty := by
  obtain ⟨gen, _, creating, ran⟩ := run_bind_ok ran
  obtain ⟨made, rfl⟩ := run_lift_ok creating
  obtain ⟨_, _, _, ran⟩ := run_bind_ok ran
  obtain ⟨_, _, _, ran⟩ := run_bind_ok ran
  obtain ⟨shader, _, generating, ran⟩ := run_bind_ok ran
  obtain ⟨generated, rfl⟩ := run_lift_ok generating
  obtain ⟨_, _, _, ran⟩ := run_bind_ok ran
  obtain ⟨_, _, _, ran⟩ := run_bind_ok ran
  obtain ⟨paths, _, writing, ran⟩ := run_bind_ok ran
  obtain ⟨_, _, printing, ran⟩ := run_bind_ok ran
  have generates : task.Generates target shader := ⟨gen, made, Result.inside_ok.1 generated⟩
  obtain ⟨name, same, stages⟩ := generates.heading
  refine ⟨shader, generates, ?_⟩
  have files : ∀ file ∈ shader.files, ∀ x ∈ target.shaderEndings, file.1 = task.name ++ x →
      c'.directory.read? (task.outputPath x) = some file.2 := by
    intro file member x own path
    have written := Task.writeFiles_leaves name same stages writing file member
    rw [path] at written
    exact Task.translate_read stages ran own
      (Keeps.read (fun _ => printPaths_keeps _ _) printing written)
  refine ⟨⟨fun stage listed => ?_, fun glsl asked _ given => ?_⟩, ?_⟩
  · refine files _ (mem_append_left _ (mem_map_of_mem listed)) _ ?_ ?_
    · rw [Target.shaderEndings, ← stages]
      exact mem_append_left _ (mem_map_of_mem (mem_map_of_mem listed))
    · rw [name_sourceEnding, name, same]
  · exact Task.translate_translations stages ran glsl asked given
  · refine files _ (mem_append_right _ (mem_singleton_self _)) _ ?_ ?_
    · exact mem_append_right _ (mem_singleton_self _)
    · rw [name]
      rfl

theorem Task.Leaves.runTargets (other : target ∉ targets)
    (stages : shader.stages.map FinishedStage.name = target.stageNames)
    (leaves : task.Leaves compiler target shader c.directory)
    (ran : (task.runTargets compiler targets).run.run c = (.ok (), c')) :
    task.Leaves compiler target shader c'.directory := by
  have stays : ∀ x ∈ target.endings task.arguments.wgsl, x ≠ manifestEnding → ∀ text,
      c.directory.read? (task.outputPath x) = some text →
        c'.directory.read? (task.outputPath x) = some text := by
    intro x listed own text readable
    refine Keeps.read (fun _ => task.runTargets_keeps compiler targets ?_) ran readable
    intro path member
    obtain ⟨t, among, member⟩ := mem_flatMap.1 member
    rw [Task.outputPaths_eq] at member
    obtain ⟨y, second, rfl⟩ := mem_map.1 member
    have ne : target ≠ t := by
      rintro rfl
      exact other among
    refine Task.outputPath_apart second listed ?_
    rintro rfl
    exact Target.endings_disjoint ne y listed own second
  refine ⟨fun stage member => ?_, fun glsl asked translator given stage member p found => ?_⟩
  · have name : stage.name ∈ target.stageNames := stages ▸ mem_map_of_mem member
    have own : target.sourceEnding stage.name ∈ target.shaderEndings :=
      mem_append_left _ (mem_map_of_mem name)
    exact stays _ (Target.mem_endings own _) (target.sourceEnding_ne _ name) _
      (leaves.sources stage member)
  · have name : stage.name ∈ target.stageNames := stages ▸ mem_map_of_mem member
    have own : translationEnding stage.name ∈ target.endings task.arguments.wgsl := by
      rw [Target.endings, if_pos ⟨glsl, asked⟩]
      exact mem_append_right _ (mem_map_of_mem name)
    have ne : ∀ s ∈ Target.glsl.stageNames, translationEnding s ≠ manifestEnding := by decide
    obtain ⟨text, translated, readable⟩ :=
      leaves.translations glsl asked translator given stage member p found
    exact ⟨text, translated, stays _ own (ne _ (glsl ▸ name)) text readable⟩

theorem Task.runTargets_split {before after : List Target}
    (ran : (task.runTargets compiler (before ++ target :: after)).run.run c = (.ok (), c')) :
    ∃ between shader, task.Generates target shader ∧
      task.Leaves compiler target shader between.directory ∧
      between.directory.read? (task.outputPath manifestEnding) = some shader.toJson.pretty ∧
      (task.runTargets compiler after).run.run between = (.ok (), c') := by
  induction before generalizing c with
  | nil =>
    obtain ⟨_, between, first, rest⟩ := run_bind_ok ran
    obtain ⟨shader, generates, leaves, manifest⟩ := Task.runTarget_leaves first
    exact ⟨between, shader, generates, leaves, manifest, rest⟩
  | cons _ _ ih =>
    obtain ⟨_, _, _, rest⟩ := run_bind_ok ran
    exact ih rest

theorem Task.runTargets_manifest (last : targets.getLast? = some target)
    (ran : (task.runTargets compiler targets).run.run c = (.ok (), c')) :
    ∃ shader, task.Generates target shader ∧
      c'.directory.read? (task.outputPath manifestEnding) = some shader.toJson.pretty := by
  obtain ⟨before, rfl⟩ := List.getLast?_eq_some_iff.1 last
  obtain ⟨between, shader, generates, _, manifest, rest⟩ := Task.runTargets_split ran
  cases rest
  exact ⟨shader, generates, manifest⟩

theorem Task.runTargets_leaves (distinct : targets.Nodup)
    (ran : (task.runTargets compiler targets).run.run c = (.ok (), c')) (among : target ∈ targets) :
    ∃ shader, task.Generates target shader ∧ task.Leaves compiler target shader c'.directory ∧
      (c'.directory.read? (task.outputPath manifestEnding) = some shader.toJson.pretty ↔
        targets.getLast? = some target) := by
  obtain ⟨before, after, rfl⟩ := append_of_mem among
  obtain ⟨between, shader, generates, leaves, manifest, rest⟩ := Task.runTargets_split ran
  have others : target ∉ after :=
    (nodup_cons.1 (nodup_append.1 distinct).2.1).1
  obtain ⟨name, same, stages⟩ := generates.heading
  refine ⟨shader, generates, leaves.runTargets others stages rest, fun readable => ?_,
    fun last => ?_⟩
  · obtain ⟨final, last⟩ : ∃ final, (before ++ target :: after).getLast? = some final :=
      Option.isSome_iff_exists.1 (by simp)
    obtain ⟨shader', generates', readable'⟩ := Task.runTargets_manifest last ran
    obtain ⟨name', same', _⟩ := generates'.heading
    by_contra other
    refine Shader.manifest_ne (name.trans name'.symm) (fun equal => other ?_)
      (Option.some.inj (readable.symm.trans readable'))
    rw [last, ← same', ← equal, same]
  · obtain ⟨shader', generates', readable'⟩ := Task.runTargets_manifest last ran
    obtain ⟨gen, made, ok⟩ := generates
    obtain ⟨gen', made', ok'⟩ := generates'
    cases made.symm.trans made'
    cases ok.symm.trans ok'
    exact readable'

end

theorem run_ok_split {a : Arguments} {d : Directory} {compiler : Option Compiler}
    (ok : (run a d compiler).1 = .ok ()) :
    ∃ task loaded, (Task.load a).run.run ⟨d, [], []⟩ = (.ok task, loaded) ∧
      (task.runTargets compiler a.targets).run.run loaded = (.ok (), (run a d compiler).2) :=
  run_bind_ok (Prod.ext ok rfl : (command a compiler).run.run ⟨d, [], []⟩ = (.ok (), _))

/-- After a command that works, the directory has all files that a target has for itself, with what
was written for that target; but the manifest is that of the last target. -/
theorem run_leaves_outputs {a : Arguments} {d : Directory} {compiler : Option Compiler}
    (distinct : a.targets.Nodup) (ok : (run a d compiler).1 = .ok ()) :
    ∃ task loaded, (Task.load a).run.run ⟨d, [], []⟩ = (.ok task, loaded) ∧
      ∀ target ∈ a.targets, ∃ shader, task.Generates target shader ∧
        task.Leaves compiler target shader (run a d compiler).2.directory ∧
        ((run a d compiler).2.directory.read? (task.outputPath manifestEnding) =
            some shader.toJson.pretty ↔
          a.targets.getLast? = some target) := by
  obtain ⟨task, loaded, loading, ran⟩ := run_ok_split ok
  exact ⟨task, loaded, loading, fun _ among => Task.runTargets_leaves distinct ran among⟩

def pairArguments : Arguments where
  graph := some "doc.json"
  targets := [.glsl, .osl]
  outputDirectory := some "out"

theorem run_pair : (run pairArguments documentDirectory).1 = .ok () := by
  unfold run command Task.load
  rw [Library.bundled_eq]
  decide +kernel

theorem run_leaves_outputs_pair :
    pairArguments.targets.Nodup ∧ (run pairArguments documentDirectory).1 = .ok () ∧
      ∃ task loaded, (Task.load pairArguments).run.run ⟨documentDirectory, [], []⟩ =
          (.ok task, loaded) ∧
        ∀ target ∈ pairArguments.targets, ∃ shader, task.Generates target shader ∧
          task.Leaves none target shader (run pairArguments documentDirectory).2.directory ∧
          ((run pairArguments documentDirectory).2.directory.read?
              (task.outputPath manifestEnding) = some shader.toJson.pretty ↔
            pairArguments.targets.getLast? = some target) := by
  have distinct : pairArguments.targets.Nodup := by decide
  exact ⟨distinct, run_pair, run_leaves_outputs distinct run_pair⟩

/-- The manifest of the first of two targets gives way to that of the second. -/
theorem run_loses_manifest :
    ∃ task loaded shader, (Task.load pairArguments).run.run ⟨documentDirectory, [], []⟩ =
        (.ok task, loaded) ∧
      (run pairArguments documentDirectory).1 = .ok () ∧ pairArguments.targets = [.glsl, .osl] ∧
      task.Generates .glsl shader ∧
      (run pairArguments documentDirectory).2.directory.read? (task.outputPath manifestEnding) ≠
        some shader.toJson.pretty := by
  obtain ⟨task, loaded, loading, ran⟩ := run_ok_split run_pair
  have distinct : pairArguments.targets.Nodup := by decide
  have among : Target.glsl ∈ pairArguments.targets := by decide
  have notLast : pairArguments.targets.getLast? ≠ some .glsl := by decide
  obtain ⟨shader, generates, _, manifest⟩ := Task.runTargets_leaves distinct ran among
  exact ⟨task, loaded, shader, loading, run_pair, rfl, generates,
    fun readable => notLast (manifest.1 readable)⟩

end CommandLine

end MaterialShader
