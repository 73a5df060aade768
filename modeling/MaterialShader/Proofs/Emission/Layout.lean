import MaterialShader.Proofs.Emission.Resolved
import MaterialShader.Proofs.Stage.Layout

/-!
The layout lines of GLSL stages.
-/

namespace MaterialShader

open List
open Result.Ensures
open Text (isPlain quietFrom)
open Code (Lays)

variable {name text : String} {run : Run}

inductive Slot where
  | block (name : String)
  | sampler (name : String)
  deriving DecidableEq, Repr

namespace Slot

def line (number : Nat) : Slot → String
  | .block name => s!"layout (std140, binding = {number}) uniform {name}"
  | .sampler name => s!"layout (binding = {number}) uniform sampler2D {name};"

/-- The lines of several slots, with numbers from `first` on. -/
def lines (first : Nat) : List Slot → List String
  | [] => []
  | s :: rest => s.line first :: lines (first + 1) rest

theorem lines_append (first : Nat) (a b : List Slot) :
    lines first (a ++ b) = lines first a ++ lines (first + a.length) b := by
  induction a generalizing first with
  | nil => rfl
  | cons s rest ih =>
    have next : first + 1 + rest.length = first + (rest.length + 1) := by omega
    rw [cons_append, lines, lines, ih, length_cons, cons_append, next]

end Slot

def locations (direction : String) (first : Nat) : List String → List String
  | [] => []
  | member :: rest =>
    s!"layout (location = {first}) {direction} {member};" :: locations direction (first + 1) rest

namespace Text

@[simp] theorem toString_text (text : String) : toString text = text := rfl

def binding? (line : String) : Option Nat :=
  ["layout (std140, binding = ", "layout (binding = "].findSome? fun head =>
    (after? head.toList line.toList).map fun rest =>
      Nat.ofDigitChars 10 (rest.takeWhile Char.isDigit) 0

theorem number_bracketed (number : Nat) (back : List Char) :
    Nat.ofDigitChars 10 (((toString number).toList ++ ')' :: back).takeWhile Char.isDigit) 0 =
      number := by
  have digits : ∀ c ∈ Nat.toDigits 10 number, c.isDigit := fun c member =>
    Nat.isDigit_of_mem_toDigits (by decide) (by decide) member
  have shown : (toString number).toList = Nat.toDigits 10 number := Nat.toList_repr
  have stops : (')' :: back).takeWhile Char.isDigit = [] := rfl
  rw [shown, takeWhile_append_of_pos digits, stops, append_nil,
    Nat.ofDigitChars_ten_toDigits]

theorem binding?_block (number : Nat) (name : String) :
    binding? s!"layout (std140, binding = {number}) uniform {name}" = some number := by
  have split : s!"layout (std140, binding = {number}) uniform {name}".toList =
      "layout (std140, binding = ".toList ++
        ((toString number).toList ++ ')' :: (" uniform " ++ name).toList) := by
    simp
  rw [binding?, List.findSome?_cons, after?_eq_some.2 split, Option.map_some, number_bracketed]

theorem binding?_sampler (number : Nat) (name : String) :
    binding? s!"layout (binding = {number}) uniform sampler2D {name};" = some number := by
  have split : s!"layout (binding = {number}) uniform sampler2D {name};".toList =
      "layout (binding = ".toList ++
        ((toString number).toList ++ ')' :: (" uniform sampler2D " ++ name ++ ";").toList) := by
    simp
  have other : after? "layout (std140, binding = ".toList
      s!"layout (binding = {number}) uniform sampler2D {name};".toList = none := by
    rw [split]
    simp [after?]
  rw [binding?, List.findSome?_cons, other, Option.map_none, List.findSome?_cons,
    after?_eq_some.2 split, Option.map_some, number_bracketed]

theorem binding?_slot (number : Nat) (s : Slot) : binding? (s.line number) = some number := by
  cases s with
  | block name => exact binding?_block number name
  | sampler name => exact binding?_sampler number name

theorem binding?_slots (first : Nat) (slots : List Slot) :
    (Slot.lines first slots).filterMap binding? = List.range' first slots.length := by
  induction slots generalizing first with
  | nil => rfl
  | cons s rest ih =>
    rw [Slot.lines, filterMap_cons_some (binding?_slot first s), ih, length_cons,
      List.range'_succ]

theorem binding?_locations (direction : String) (first : Nat) (members : List String) :
    (locations direction first members).filterMap binding? = [] := by
  induction members generalizing first with
  | nil => rfl
  | cons member rest ih =>
    have none : binding? s!"layout (location = {first}) {direction} {member};" = none := by
      simp [binding?, after?]
    rw [locations, filterMap_cons_none none, ih]

theorem isLayout_of_binding? {line : String} {number : Nat} (given : binding? line = some number) :
    isLayout line := by
  obtain ⟨head, listed, found⟩ := exists_of_findSome?_eq_some given
  obtain ⟨rest, begins, _⟩ := Option.map_eq_some_iff.1 found
  have heads : ∀ head ∈ ["layout (std140, binding = ", "layout (binding = "],
      isLayout head := by decide
  have heads := heads head listed
  rw [isLayout, startsWith_iff] at heads ⊢
  exact heads.trans ⟨rest, (after?_eq_some.1 begins).symm⟩

theorem filterMap_binding? (lines : List String) :
    lines.filterMap binding? = (lines.filter isLayout).filterMap binding? := by
  rw [filterMap_filter]
  refine filterMap_congr fun line _ => ?_
  cases given : binding? line with
  | none => split <;> rfl
  | some number => rw [if_pos (isLayout_of_binding? given)]

end Text

def CodeSource.isQuiet : CodeSource → Bool
  | .inline _ => true
  | .function name text =>
    Text.hasOnlyBytes Text.isInnerChar name && (Text.byteChars? text).any fun chars =>
      chars.all (· != '\r') && Text.quietFrom true chars

theorem CodeSource.isQuiet_function (quiet : (CodeSource.function name text).isQuiet) :
    Text.isUnbroken name ∧
      Text.hasOnly (· != '\r') text ∧ quietFrom true text.toList := by
  simp only [isQuiet, Bool.and_eq_true, Option.any_eq_true] at quiet
  obtain ⟨name, chars, read, clean, quiet⟩ := quiet
  rw [Text.hasOnly, Text.byteChars?_eq_some read]
  exact ⟨Text.hasOnly_of_bytes name, clean, quiet⟩

theorem Library.bundled_isQuiet :
    (bundled.implementations.all fun i => i.source.isQuiet) := by
  rw [bundled_eq]
  decide +kernel

theorem Library.implementation?_quiet {d : Definition} {target : Target} {i : Implementation}
    (found : bundled.implementation? d target = some i) : i.source.isQuiet := by
  have member : i ∈ bundled.implementations := by
    unfold Library.implementation? at found
    split at found
    · rename_i own
      cases found
      exact mem_of_find?_eq_some own
    · exact mem_of_find?_eq_some found
    · cases found
  exact all_eq_true.1 bundled_isQuiet i member

theorem SourceCode.substitute_quiet {code : SourceCode} (plain : run.IsPlain)
    (type : code.templateType.all isPlain) (quiet : quietFrom true text.toList) :
    (code.substitute run text).Ensures fun out => quietFrom true out.toList := by
  intro out ok
  obtain ⟨rfl, _⟩ | ⟨_, name, suffix, channels, first, second, third, rfl⟩ :=
    substitute_cases plain type text out ok
  · exact quiet
  · have inner {text : String} (plain : isPlain text) : '\n' ∉ text.toList := by
      intro member
      have := all_eq_true.1 plain _ member
      simp [Text.isPlainChar, Text.isInnerChar] at this
    have step (token : String) (word : '\n' ∉ token.toList) {replacement text : String}
        (plain : isPlain replacement) (quiet : quietFrom true text.toList) :
        quietFrom true (Text.replaceAll ("$" ++ token) replacement text).toList :=
      Text.quietFrom_replaceAll word (inner plain) quiet
    exact step "channels" (by decide) third (step "suffix" (by decide) second
      (step "type" (by decide) first quiet))

structure Run.IsGlsl (run : Run) : Prop where
  plain : run.IsPlain
  target : run.target = .glsl
  dialect : run.dialect = .ofTarget .glsl
  types : run.types = .standard
  library : run.library = .bundled
  sources : ∀ id code, run.realization id = .source code →
    code.IsTame Hardware.tokenNames ∧ code.source.isQuiet = true

theorem Generator.run_isGlsl {gen : Generator} (made : Generator.create .glsl .bundled = .ok gen)
    {g : Graph} {s : Session} (built : g.Built .standard .bundled) (ran : gen.run g s = .ok run) :
    run.IsGlsl := by
  obtain ⟨target, dialect, types, library, _, _⟩ := Generator.run_settings made ran
  refine ⟨Generator.run_isPlain rfl made built ran, target, dialect, types, library,
    fun id code realized => ⟨Generator.run_tame rfl made built ran realized, ?_⟩⟩
  obtain ⟨_, _, _, _, _, here⟩ := Generator.run_source made built ran realized
  obtain ⟨_, implemented, rfl⟩ := Definition.realization?_source here
  exact Library.implementation?_quiet implemented

theorem Run.IsGlsl.typeText (glsl : run.IsGlsl) : run.typeText "vector2" = .ok "vec2" ∧
    run.typeText "vector3" = .ok "vec3" := by
  unfold Run.typeText
  rw [glsl.types, glsl.dialect]
  constructor <;> rfl

namespace Code.Lays

theorem of_forall {code : List Code} (each : ∀ c ∈ code, Lays [c] []) : Lays code [] := by
  induction code with
  | nil => exact nil
  | cons c rest ih =>
    rw [forall_mem_cons] at each
    exact each.1.cons (ih each.2)

end Code.Lays

namespace Hardware

variable {stage : Stage} {vs : List StageVariable}

theorem numbered_lays {line : Nat → String → String} (shown : Nat → List String → List String)
    (nil : ∀ k, shown k [] = [])
    (cons : ∀ k text rest, shown k (text :: rest) = (line k text ++ ";") :: shown (k + 1) rest)
    {texts : List String}
    (each : ∀ text ∈ texts, ∀ k, isPlain (line k text) ∧ Text.isLayout (line k text)) (first : Nat) :
    Lays (numbered line first texts) (shown first texts) := by
  induction texts generalizing first with
  | nil =>
    rw [nil]
    exact .nil
  | cons text rest ih =>
    rw [forall_mem_cons] at each
    obtain ⟨plain, layout⟩ := each.1 first
    rw [cons]
    exact (Lays.statement (Text.isPlain_iff.1 plain).1 layout).cons (ih each.2 (first + 1))

def Bound (binding : Nat) (out : List Code × Nat) : Prop :=
  ∃ slots, Lays out.1 (Slot.lines binding slots) ∧ out.2 = binding + slots.length

theorem Bound.append {binding : Nat} {first second : List Code × Nat} (before : Bound binding first)
    (after : Bound first.2 second) : Bound binding (first.1 ++ second.1, second.2) := by
  obtain ⟨slots, laid, next⟩ := before
  obtain ⟨others, laid', last⟩ := after
  refine ⟨slots ++ others, ?_, ?_⟩
  · rw [Slot.lines_append, ← next]
    exact laid.append laid'
  · simp only [length_append]
    omega

theorem samplers_bound (names : ∀ v ∈ vs, isPlain v.name) (binding : Nat) :
    Bound binding
      (if vs.isEmpty then [] else numbered samplerLine binding (vs.map StageVariable.name) ++ [.blank],
        binding + vs.length) := by
  refine ⟨vs.map fun v => .sampler v.name, ?_, by simp⟩
  split
  · rename_i none
    rw [isEmpty_iff.1 none]
    exact .nil
  · have lines : Lays (numbered samplerLine binding (vs.map StageVariable.name))
        (Slot.lines binding ((vs.map StageVariable.name).map .sampler)) := by
      refine numbered_lays (fun k names => Slot.lines k (names.map .sampler)) (fun _ => rfl)
        (fun _ _ _ => rfl) (forall_mem_map.2 fun v member k => ?_) binding
      refine ⟨samplerLine_plain (names v member) k, ?_⟩
      simp [Text.isLayout, Text.startsWith_iff]
    simpa [Function.comp_def] using lines.append .blank

theorem block_bound (word : isPlain name) (binding : Nat) {members : List Code}
    (nested : Code.Nested members) :
    Bound binding (Code.block s!"layout (std140, binding = {binding}) uniform {name}" members true,
      binding + 1) := by
  have text : isPlain s!"layout (std140, binding = {binding}) uniform {name}" := by
    simp +decide [word]
  have head := Lays.line (Text.isPlain_iff.1 text).1
    (by simp [Text.isLayout, Text.startsWith_iff])
  exact ⟨[.block name], head.block nested true, rfl⟩

theorem memberScope_bound (word : isPlain name) (binding : Nat) (vs : List StageVariable) :
    (memberScope run s!"layout (std140, binding = {binding}) uniform {name}" vs).Ensures fun code =>
      Bound binding (code, binding + 1) :=
  after fun _ => pure (block_bound word binding (Code.nested_map (fun _ => rfl) _))

theorem uniformBlock_bound (glsl : run.target = .glsl) (tame : stage.IsTame run.target)
    (binding : Nat) {block : String} (name : isPlain block) :
    (uniformBlock run stage binding block).Ensures (Bound binding) := by
  have textures : ∀ v ∈ textureUniforms stage block, isPlain v.name :=
    fun v member => tame.members block v (mem_filter.1 member).1
  have whole : isPlain s!"{block}_{stage.name}" := by simp +decide [name, tame.name]
  have other : ¬ run.target = .msl := by simp [glsl]
  unfold uniformBlock
  dsimp only
  rw [if_neg other]
  split
  · exact pure (samplers_bound textures binding)
  · refine bind fun members ok => pure ?_
    exact (memberScope_bound whole binding _ members ok).append (samplers_bound textures (binding + 1))

theorem uniformBlocks_bound (glsl : run.target = .glsl) (tame : stage.IsTame run.target)
    (binding : Nat) : (uniformBlocks run stage binding).Ensures (Bound binding) := by
  refine bind fun generated ok => bind fun published ok' => pure ?_
  exact (uniformBlock_bound glsl tame binding (by decide) generated ok).append
    (uniformBlock_bound glsl tame generated.2 (by decide) published ok')

theorem lightBlock_bound {target : Target} (tame : stage.IsTame target) (binding : Nat) :
    Bound binding (lightBlock stage binding, binding + 1) := by
  have word : isPlain s!"{lightData}_{stage.name}" := by
    simp +decide [lightData, tame.name]
  have inside : Code.Nested [.statement s!"{lightData} u_lightData[MAX_LIGHT_SOURCES]"] :=
    .of_line rfl
  have bound := block_bound word binding inside
  simpa only [lightBlock, Text.toString_text, ← String.append_assoc] using bound

theorem locations_lays {direction : String} (word : isPlain direction) {members : List String}
    (plain : ∀ text ∈ members, isPlain text) (location : Nat) :
    Lays (numbered (locationLine direction) location members)
      (locations direction location members) := by
  refine numbered_lays (locations direction) (fun _ => rfl) (fun _ _ _ => rfl)
    (fun text member k => ?_) location
  refine ⟨locationLine_plain word (plain text member) k, ?_⟩
  simp [Text.isLayout, Text.startsWith_iff]

def LaysInterface (run : Run) (stage : Stage) (first second : String) (code : List Code) : Prop :=
  ∃ ins outs, (stage.members first).mapM (memberText run) = .ok ins ∧
    (stage.members second).mapM (memberText run) = .ok outs ∧
    Lays code (locations "in" 0 ins ++ locations "out" 0 outs)

section

variable (glsl : run.IsGlsl) (tame : stage.IsTame run.target)

include glsl tame

theorem interface_lays {first second : String} {ins outs : List String} {between : List Code}
    (ok : (stage.members first).mapM (memberText run) = .ok ins)
    (ok' : (stage.members second).mapM (memberText run) = .ok outs) (blank : Lays between []) :
    LaysInterface run stage first second (numbered (locationLine "in") 0 ins ++ between ++
      numbered (locationLine "out") 0 outs ++ [.blank]) := by
  have laid : Lays _ (locations "in" 0 ins) := locations_lays (by decide)
    (memberTexts_plain glsl.plain.dialect (tame.members first) ins ok) 0
  have laid' : Lays _ (locations "out" 0 outs) := locations_lays (by decide)
    (memberTexts_plain glsl.plain.dialect (tame.members second) outs ok') 0
  exact ⟨ins, outs, ok, ok', by simpa using ((laid.append blank).append laid').append .blank⟩

theorem vertexInterface_lays :
    (vertexInterface run stage).Ensures (LaysInterface run stage vertexInputs vertexData) := by
  have other : ¬ run.target = .msl := by simp [glsl.target]
  refine bind fun inputs ok => bind fun connectors ok' => ?_
  rw [if_neg other]
  exact pure (interface_lays glsl tame ok ok' .blank)

theorem pixelInterface_lays :
    (pixelInterface run stage).Ensures (LaysInterface run stage vertexData pixelOutputs) := by
  have other : ¬ run.target = .msl := by simp [glsl.target]
  refine bind fun connectors ok => bind fun outputs ok' => ?_
  have between : Lays (if connectors.isEmpty then [] else [.blank]) [] := by
    split
    · exact .nil
    · exact .blank
  rw [if_neg other]
  exact pure (interface_lays glsl tame ok ok' between)

end

theorem transformFunction_lays (glsl : run.IsGlsl) :
    (transformFunction run).Ensures fun code => Lays code [] := by
  refine bind fun vector2 named => pure ((Lays.function _).cons ?_)
  cases glsl.typeText.1.symm.trans named
  exact (Lays.quietLine (by decide)).block (transformBody_nested run (by simp [Code.isFlat])) false

theorem srgbFunction_lays (glsl : run.IsGlsl) :
    (srgbFunction run).Ensures fun code => Lays code [] := by
  refine bind fun vector3 named => pure ?_
  cases glsl.typeText.2.symm.trans named
  exact (Lays.quietLine (by decide)).block (fun _ => rfl) false

theorem depthFunction_lays (glsl : run.IsGlsl) :
    (depthFunction run).Ensures fun code => Lays code [] := by
  refine bind fun vector2 named => pure ?_
  cases glsl.typeText.1.symm.trans named
  exact (Lays.quietLine (by decide)).block (fun _ => rfl) false

theorem lightFunction_quiet (library : run.library = .bundled) (light : Nat × String) :
    (lightFunction run light).Ensures fun f => (CodeSource.function f.1 f.2).isQuiet := by
  refine bind fun d _ => ?_
  split
  · rename_i name source own
    obtain ⟨i, implemented, called⟩ := Option.map_eq_some_iff.1 own
    rw [library] at implemented
    exact pure (called ▸ Library.implementation?_quiet implemented)
  · exact of_fail _

theorem lightFunctions_lays (glsl : run.IsGlsl) :
    (lightFunctions run).Ensures fun out => Lays out.1 [] := by
  refine bind fun functions ok => after fun vector3 => after fun lightshader => ?_
  refine after fun out => pure ?_
  have definitions : Lays (functions.map fun f => Code.definition f.1 f.2) [] := by
    refine .of_forall fun c member => ?_
    obtain ⟨f, listed, rfl⟩ := mem_map.1 member
    obtain ⟨light, _, made⟩ := exists_of_mem_right (Result.mapM_ok ok) listed
    have quiet := CodeSource.isQuiet_function (lightFunction_quiet glsl.library light f made)
    exact .definition quiet.2.2 _
  have head : Text.isQuiet
      s!"void sampleLightSource({lightData} light, {vector3} position, {out} result)" := by
    simp [Text.isQuiet, Text.isQuietChar]
  exact definitions.append ((Lays.quietLine head).block
    (.cons rfl (.cons rfl (lightBranches_nested _))) false)

theorem function?_lays (glsl : run.IsGlsl) {id : NodeId} {code : SourceCode}
    (realized : run.realization id = .source code) (known : List String) :
    (code.function? run known).Ensures fun own => ∀ entry ∈ own, Lays [entry.2] [] := by
  obtain ⟨tame, quiet⟩ := glsl.sources id code realized
  unfold SourceCode.function?
  split
  · exact pure (by simp)
  · rename_i name text source
    rw [source] at quiet
    split
    · exact pure (by simp)
    · refine after fun key => ?_
      split
      · exact pure (by simp)
      · refine bind fun body substituted => pure ?_
        have begins := SourceCode.substitute_quiet glsl.plain tame.type
          (CodeSource.isQuiet_function quiet).2.2 body substituted
        rintro entry ⟨⟩
        exact .definition begins key

theorem pixelFunctions_lays (glsl : run.IsGlsl) :
    (pixelFunctions run stage).Ensures fun code => Lays code [] := by
  refine pixelFunctions_ensures .nil (fun first second => ?_) (transformFunction_lays glsl)
    (lightFunctions_lays glsl) (srgbFunction_lays glsl) (depthFunction_lays glsl) ?_
  · simpa using first.append second
  · intro known code ok
    exact .of_forall (nodeFunctions_forall (fun _ _ => function?_lays glsl) known _ code ok)

theorem header_lays : Lays (header .glsl) [] :=
  (Lays.quietLine (by decide)).cons .blank

theorem typeDefinitions_lays :
    Lays ((Dialect.ofTarget .glsl).typeDefinitions.map Code.line) [] := by
  have quiet : ((Dialect.ofTarget .glsl).typeDefinitions.all Text.isQuiet) := by decide
  refine .of_forall fun c member => ?_
  obtain ⟨text, listed, rfl⟩ := mem_map.1 member
  exact .quietLine (all_eq_true.1 quiet text listed)

theorem lightStructure_lays : (lightStructure run).Ensures fun code => Lays code [] := by
  refine after fun vector3 => pure ?_
  have head : Text.isQuiet s!"#define MAX_LIGHT_SOURCES {Nat.max run.options.maxLights 1}" := by
    simp [Text.isQuiet, Text.isQuietChar]
  exact (Lays.quietLine head).cons
    (Lays.blank.cons ((Lays.quietLine (by decide)).block (fun _ => rfl) true))

theorem Frame.around_lays {f : Frame} {lines : List String} (front : Lays f.front lines)
    (head : f.head = .line text) (quiet : Text.isQuiet text) {nodes : List Code}
    (inside : Code.Nested (f.opening ++ nodes ++ f.closing)) : Lays (f.around nodes) lines := by
  have body := (Lays.quietLine quiet).cons (.scope inside .braces false)
  simpa [Frame.around, head] using front.append body

theorem vertexFrame_lays (glsl : run.IsGlsl) (tame : stage.IsTame run.target) :
    (vertexFrame run stage).Ensures fun out => ∃ slots ins outs,
      (stage.members vertexInputs).mapM (memberText run) = .ok ins ∧
      (stage.members vertexData).mapM (memberText run) = .ok outs ∧ out.2 = slots.length ∧
      ∀ nodes, Code.Nested (out.1.opening ++ nodes ++ out.1.closing) → Lays (out.1.around nodes)
        (Slot.lines 0 slots ++ locations "in" 0 ins ++ locations "out" 0 outs) := by
  refine bind fun (uniforms, binding) ok₁ => bind fun outer ok₂ => after fun vector4 => ?_
  obtain ⟨slots, bound, next⟩ := uniformBlocks_bound glsl.target tame 0 (uniforms, binding) ok₁
  obtain ⟨ins, outs, made, made', interface⟩ := vertexInterface_lays glsl tame outer ok₂
  have other : ¬ run.target = .msl := by simp [glsl.target]
  rw [if_neg other]
  refine pure ⟨slots, ins, outs, made, made', by simpa using next, fun nodes inside => ?_⟩
  refine Frame.around_lays ?_ rfl (by decide) inside
  have front := (header_lays.append bound).append interface
  simpa [glsl.target] using front

theorem pixelFrame_lays (glsl : run.IsGlsl) (tame : stage.IsTame run.target) (binding : Nat) :
    (pixelFrame run stage binding).Ensures fun frame => ∃ slots ins outs,
      (stage.members vertexData).mapM (memberText run) = .ok ins ∧
      (stage.members pixelOutputs).mapM (memberText run) = .ok outs ∧
      ∀ nodes, Code.Nested (frame.opening ++ nodes ++ frame.closing) → Lays (frame.around nodes)
        (Slot.lines binding slots ++ locations "in" 0 ins ++ locations "out" 0 outs) := by
  refine bind fun lightHead ok₁ => bind fun (uniforms, next) ok₂ => bind fun outer ok₃ => ?_
  refine bind fun functions ok₄ => ?_
  have structures : Lays lightHead [] := by
    split at ok₁
    · exact lightStructure_lays lightHead ok₁
    · cases Result.pure_ok.1 ok₁
      exact .nil
  have uniformsBound := uniformBlocks_bound glsl.target tame binding (uniforms, next) ok₂
  obtain ⟨slots, bound⟩ : ∃ slots, Lays (uniforms ++
      (if isLit run && !(run.target = .msl : Bool) then lightBlock stage next else []))
        (Slot.lines binding slots) := by
    split
    · obtain ⟨slots, laid, _⟩ := uniformsBound.append (lightBlock_bound tame next)
      exact ⟨slots, laid⟩
    · obtain ⟨slots, laid, _⟩ := uniformsBound
      exact ⟨slots, by simpa using laid⟩
  obtain ⟨ins, outs, made, made', interface⟩ := pixelInterface_lays glsl tame outer ok₃
  have defined := pixelFunctions_lays glsl functions ok₄
  have other : ¬ run.target = .msl := by simp [glsl.target]
  rw [if_neg other]
  refine pure ⟨slots, ins, outs, made, made', fun nodes inside => ?_⟩
  refine Frame.around_lays ?_ rfl (by decide) inside
  have start := ((header_lays.append typeDefinitions_lays).append .blank).append structures
  have front := ((start.append bound).append interface).append defined
  simpa [glsl.target, glsl.dialect] using front

end Hardware

end MaterialShader
