import MaterialShader.Proofs.Emission.NodeText

/-!
The frames of the stages of a hardware shader fit the tokens of the stages.
-/

namespace MaterialShader

open List Result Token
open Text (isPlain)
open Result.Ensures

theorem Code.fits_closed (tokens : List String) : Closed True (Fits tokens) where
  nil := .nil
  append := .append
  blank := .blank
  line plain := .line (fits_of_plain (plain trivial))
  statement plain := .statement (fits_of_plain (plain trivial))
  block plain inner := .block (fits_of_plain (plain trivial)) inner true

theorem Stage.IsTame.members {target : Target} {s : Stage} (tame : s.IsTame target)
    (block : String) : ∀ v ∈ s.members block, isPlain v.name := by
  intro v member
  unfold Stage.members at member
  split at member
  · rename_i b found
    exact (tame.blocks b (mem_of_find?_eq_some found)).2 v member
  · cases member

namespace Hardware

variable {run : Run} {stage : Stage} {tokens : List String} (plain : run.IsPlain)

section

include plain

variable {entry : EntryPoint}

theorem namesPlainly (tame : stage.IsTame run.target) : stage.NamesPlainly run.dialect :=
  ⟨plain.dialect, tame.name, tame.members⟩

structure EntryPoint.IsPlain (entry : EntryPoint) : Prop where
  parameters : ∀ text ∈ entry.parameters, Text.isPlain text = true
  locals : ∀ text ∈ entry.locals, Text.isPlain text = true

omit plain in
theorem textureEntry_plain (old : entry.IsPlain) {name : String} (own : isPlain name) :
    (textureEntry entry name).IsPlain := by
  constructor
  · rw [textureEntry, forall_mem_append]
    refine ⟨old.parameters, ?_⟩
    simp +decide [own]
  · rw [textureEntry, forall_mem_append]
    refine ⟨old.locals, ?_⟩
    simp +decide [braced, own]

theorem entryVariable_plain {access : String} (reach : isPlain access)
    (old : entry.IsPlain) {v : StageVariable} (name : isPlain v.name) :
    (entryVariable run access entry v).Ensures EntryPoint.IsPlain := by
  unfold entryVariable
  split
  · exact pure (textureEntry_plain old name)
  · refine bind fun member ok => pure ⟨old.parameters, ?_⟩
    have text := memberText_plain plain.dialect name member ok
    rw [forall_mem_append]
    exact ⟨old.locals, by simp +decide [text, reach, name]⟩

omit plain in
theorem entryPoint_induct {P : EntryPoint → Prop} (empty : P ⟨[], [], 0, 0⟩)
    (variable_ : ∀ block ∈ [privateUniforms, publicUniforms], ∀ b, stage.block? block = some b →
      ∀ entry, P entry → ∀ v ∈ b.members, (entryVariable run b.access entry v).Ensures P)
    (buffer : ∀ block ∈ [privateUniforms, publicUniforms], ∀ b, stage.block? block = some b →
      ∀ entry, P entry → P { entry with
        parameters := entry.parameters ++
          [s!"constant {block}_{stage.name}& {b.access} [[buffer({entry.buffers})]]"]
        buffers := entry.buffers + 1 })
    (lights : ∀ entry, P entry → P { entry with
      parameters := entry.parameters ++
        [s!"constant {lightData}* u_lightData [[buffer({entry.buffers})]]"] }) (lit : Bool) :
    (entryPoint run stage lit).Ensures P := by
  have filled {block : String} (listed : block ∈ [privateUniforms, publicUniforms])
      {entry : EntryPoint} (old : P entry) : (entryBlock run stage entry block).Ensures P := by
    unfold entryBlock
    split
    · exact pure old
    · rename_i b found
      refine bind fun filled ok => ?_
      have all := foldlM (variable_ block listed b found) old filled ok
      split
      · exact pure all
      · exact pure (buffer block listed b found filled all)
  refine bind fun generated ok => bind fun all ok' => ?_
  have whole := filled (by simp) (filled (by simp) empty generated ok) all ok'
  split
  · exact pure (lights all whole)
  · exact pure whole

theorem entryPoint_plain (tame : stage.IsTame run.target) (lit : Bool) :
    (entryPoint run stage lit).Ensures EntryPoint.IsPlain := by
  have stageName := tame.name
  have words : ∀ block ∈ [privateUniforms, publicUniforms], isPlain block := by decide
  refine entryPoint_induct ⟨by simp, by simp⟩ ?_ ?_ ?_ lit
  · intro block _ b found entry old v member
    obtain ⟨access, names⟩ := tame.blocks b (mem_of_find?_eq_some found)
    exact entryVariable_plain plain access old (names v member)
  · intro block listed b found entry old
    obtain ⟨access, _⟩ := tame.blocks b (mem_of_find?_eq_some found)
    refine ⟨forall_mem_append.2 ⟨old.parameters, ?_⟩, old.locals⟩
    simp +decide [words block listed, stageName, access]
  · intro entry old
    exact ⟨forall_mem_append.2 ⟨old.parameters, by simp +decide [lightData]⟩, old.locals⟩

omit plain in
theorem entryHead_fits {kind first : String} {target : Target} (tame : stage.IsTame target)
    (all : entry.IsPlain) (word : isPlain kind) (own : isPlain first) :
    Code.Fits tokens [entryHead kind stage first entry] := by
  have parameters : ∀ text ∈ first :: entry.parameters, isPlain text :=
    forall_mem_cons.2 ⟨own, all.parameters⟩
  have call := Dialect.call_plain tame.entryPoint parameters
  exact .line (fits_of_plain (by simp +decide [word, call]))

omit plain in
theorem header_fits (target : Target) : Code.Fits tokens (header target) := by
  cases target <;>
    simp +decide [header, Code.Fits, Code.lineTextsAll, Code.lineTexts, fits_of_plain]

omit plain in
theorem positionCode_fits (general : tokenNames ⊆ tokens)
    (coordinates : run.options.textureSpace → "$inTexcoord_0" ∈ tokens)
    {vector4 position : String} (type : isPlain vector4)
    (target : isPlain position) :
    Code.Fits tokens (positionCode run vector4 position) := by
  have world : Token.fits tokens
      s!"{vector4} hPositionWorld = $worldMatrix * {vector4}($inPosition, 1.0)" := by
    refine fits_append (fits_append_plain (fits_append
      (fits_of_plain type) ?_) type) ?_
    · exact fits_general general (by decide)
    · exact fits_general general (by decide)
  refine .cons (.statement world) (.statement ?_)
  split
  · rename_i space
    have front : isPlain (position ++ " = " ++ vector4) := by
      simp +decide [target, type]
    have only : ["$inTexcoord_0"] ⊆ tokens := by simpa using coordinates space
    refine fits_append (fits_of_plain front) ?_
    exact fits_mono only (by decide)
  · refine fits_append (fits_of_plain target) ?_
    exact fits_general general (by decide)

/-- Code that fits, put into the frame, fits as a whole. -/
def Frame.Fits (tokens : List String) (f : Frame) : Prop :=
  ∀ nodes, Code.Fits tokens nodes → Code.Fits tokens (f.around nodes)

omit plain in
theorem Frame.fits_of_parts {f : Frame} (front : Code.Fits tokens f.front)
    (head : Code.Fits tokens [f.head]) (opening : Code.Fits tokens f.opening)
    (closing : Code.Fits tokens f.closing) : f.Fits tokens := fun _ inner =>
  front.append (.cons head (.scope ((opening.append inner).append closing) .braces false .nil))

theorem vertexFrame_fits (general : tokenNames ⊆ tokens)
    (coordinates : run.options.textureSpace → "$inTexcoord_0" ∈ tokens)
    (tame : stage.IsTame run.target) :
    (vertexFrame run stage).Ensures fun out => out.1.Fits tokens := by
  have start : Code.Fits tokens (header run.target) := header_fits run.target
  refine bind fun (uniforms, binding) ok₁ => bind fun outer ok₂ => bind fun vector4 ok₃ => ?_
  have closed := Code.fits_closed tokens
  have names (_ : True) := namesPlainly plain tame
  have blocks : Code.Fits tokens uniforms :=
    uniformBlocks_closed closed names 0 (uniforms, binding) ok₁
  have interface : Code.Fits tokens outer := vertexInterface_closed closed names outer ok₂
  have type := Run.typeText_plain plain "vector4" vector4 ok₃
  have front := (start.append blocks).append interface
  split
  · refine bind fun entry ok => pure (Frame.fits_of_parts front ?_ ?_ ?_)
    · exact entryHead_fits tame (entryPoint_plain plain tame false entry ok) (by decide) (by decide)
    · have copies := closed.statements fun _ => (entryPoint_plain plain tame false entry ok).locals
      exact (copies.append (closed.statement fun _ => by decide)).append
        (positionCode_fits general coordinates type (by decide))
    · exact closed.statement fun _ => by decide
  · refine pure (Frame.fits_of_parts front (closed.line fun _ => by decide) ?_ .nil)
    exact positionCode_fits general coordinates type (by decide)

theorem lightStructure_fits : (lightStructure run).Ensures (Code.Fits tokens) := by
  refine bind fun vector3 named => pure ?_
  have type := Run.typeText_plain plain "vector3" vector3 named
  simp +decide [Code.Fits, Code.block, Code.lineTexts, fits_of_plain, lightData, type]

omit plain in
theorem lightBlock_fits {target : Target} (tame : stage.IsTame target) (binding : Nat) :
    Code.Fits tokens (lightBlock stage binding) := by
  have stageName := tame.name
  simp +decide [lightBlock, Code.Fits, Code.block, Code.lineTexts, fits_of_plain, lightData,
    stageName]

theorem transformFunction_fits (general : tokenNames ⊆ tokens) :
    (transformFunction run).Ensures (Code.Fits tokens) := by
  refine bind fun vector2 named => pure ?_
  have type := Run.typeText_plain plain "vector2" vector2 named
  have scaled :
      Token.fits tokens "res = res * $udimScaleAndOffset.xy + $udimScaleAndOffset.zw" :=
    fits_general general (by decide)
  refine .cons .function (.block (fits_of_plain (by simp +decide [type])) ?_ false)
  refine ((Code.Fits.append ?_ ?_).append ?_).append ?_
  · exact .statement (fits_of_plain (by simp +decide [type]))
  · split
    · exact .statement scaled
    · exact .nil
  · split
    · exact .statement (fits_of_plain (by decide))
    · exact .nil
  · exact .statement (fits_of_plain (by decide))

theorem srgbFunction_fits : (srgbFunction run).Ensures (Code.Fits tokens) := by
  refine bind fun vector3 named => pure ?_
  have type := Run.typeText_plain plain "vector3" vector3 named
  simp +decide [Code.Fits, Code.block, Code.lineTexts, fits_of_plain, type]

theorem depthFunction_fits : (depthFunction run).Ensures (Code.Fits tokens) := by
  refine bind fun vector2 named => pure ?_
  have type := Run.typeText_plain plain "vector2" vector2 named
  simp +decide [Code.Fits, Code.block, Code.lineTexts, fits_of_plain, type]

def TameLights (tokens : List String) (run : Run) : Prop :=
  ∀ light ∈ run.lights, (lightFunction run light).Ensures fun f => Token.fits tokens f.1 = true ∧
    Code.Fits tokens [.lines f.2]

omit plain in
theorem TameLights.mono {more : List String} (sub : tokens ⊆ more) (lights : TameLights tokens run) :
    TameLights more run := by
  intro light listed f ok
  obtain ⟨name, text⟩ := lights light listed f ok
  exact ⟨fits_mono sub name, text.mono sub⟩

theorem lightFunctions_fits (lights : TameLights tokens run) :
    (lightFunctions run).Ensures fun out => Code.Fits tokens out.1 := by
  refine bind fun functions ok => bind fun vector3 named => after fun lightshader => ?_
  refine bind fun out typed => pure ?_
  have type := Run.typeText_plain plain "vector3" vector3 named
  have result := Dialect.outputTypeName_plain plain.dialect out typed
  have each : ∀ f ∈ functions, Token.fits tokens f.1 ∧ Code.Fits tokens [.lines f.2] := by
    intro f member
    obtain ⟨light, listed, made⟩ := exists_of_mem_right (mapM_ok ok) member
    exact lights light listed f made
  have definitions : Code.Fits tokens (functions.map fun f =>
      Code.definition f.1 f.2) := by
    refine .of_forall fun c member => ?_
    obtain ⟨f, listed, rfl⟩ := mem_map.1 member
    exact (each f listed).2
  have branches : Code.Fits tokens ((run.lights.zip functions).mapIdx fun index entry =>
      lightBranch index entry.1.1 entry.2.1).flatten := by
    refine .flatten fun part member => ?_
    obtain ⟨index, inside, rfl⟩ := mem_mapIdx.1 member
    have listed := getElem_mem inside
    generalize (run.lights.zip functions)[index] = entry at listed
    have name := (each _ (of_mem_zip listed).2).1
    have head : isPlain (if index = 0 then "if" else "else if") := by split <;> decide
    have call : Token.fits tokens s!"{entry.2.1}(light, position, result)" :=
      fits_append_plain name (by decide)
    exact .branch (fits_of_plain (by simp +decide [head])) (.statement call)
  have start : Code.Fits tokens [.statement s!"result.intensity = {vector3}(0.0)",
      .statement s!"result.direction = {vector3}(0.0)"] := by
    simp +decide [Code.Fits, Code.lineTexts, fits_of_plain, type]
  refine definitions.append (.block (fits_of_plain ?_) (start.append branches) false)
  simp +decide [lightData, type, result]

theorem nodeFunctions_fits
    (sources : ∀ id code, run.realization id = .source code → code.IsTame tokenNames)
    (known : List String) (ids : List NodeId) :
    (run.nodeFunctions known ids).Ensures (Code.Fits tokenNames) := by
  intro code ok
  refine .of_forall (nodeFunctions_forall (fun id code realized known => ?_) known ids code ok)
  exact SourceCode.function?_fits plain (sources id code realized)
    (fun t member => (tokenNames_formed member).1) (fun t member => (tokenNames_formed member).2) known

theorem pixelFunctions_fits (general : tokenNames ⊆ tokens) (lights : TameLights tokens run)
    (sources : ∀ id code, run.realization id = .source code → code.IsTame tokenNames) :
    (pixelFunctions run stage).Ensures (Code.Fits tokens) :=
  pixelFunctions_ensures .nil .append (transformFunction_fits plain general)
    (lightFunctions_fits plain lights) (srgbFunction_fits plain) (depthFunction_fits plain)
    fun known code ok => (nodeFunctions_fits plain sources known _ code ok).mono general

theorem widened_plain (typeName : String) {text : String} (own : isPlain text) :
    (widened run typeName text).Ensures (isPlain ·) := by
  refine bind fun vector3 named₃ => bind fun vector4 named₄ => ?_
  have three := Run.typeText_plain plain "vector3" vector3 named₃
  have four := Run.typeText_plain plain "vector4" vector4 named₄
  split_ifs
  all_goals exact pure (by simp +decide [three, four, own])

theorem outputCode_fits {vector4 : String} (type : isPlain vector4) {s : OutputSocket}
    (socket : s ∈ run.graph.outputSockets) {name : String} (own : isPlain name) :
    (outputCode run vector4 s name).Ensures (Code.Fits tokens) := by
  obtain ⟨known, typed⟩ := plain.outputSockets s socket
  have result : isPlain (if run.target = .msl then "po." ++ name else name) := by
    split <;> simp +decide [own]
  have depth : isPlain (if run.target = .msl then "vd.pos.z" else "gl_FragCoord.z") := by
    split <;> decide
  unfold outputCode
  dsimp only
  split
  · exact pure (.statement (fits_of_plain (by simp +decide [result, type, depth])))
  · refine bind fun text ok => bind fun drawn ok' => pure (.cons (.statement ?_) ?_)
    · have source : isPlain text := Run.sourceText_plain plain known typed text ok
      have whole := widened_plain plain s.type.name source drawn ok'
      exact fits_of_plain (by simp +decide [result, whole])
    · split
      · exact .statement (fits_of_plain (by simp +decide [result, type]))
      · exact .nil

theorem outputsCode_fits : (outputsCode run).Ensures (Code.Fits tokens) := by
  refine bind fun vector4 typed => bind fun outputs ok => pure (.flatten fun part member => ?_)
  have type := Run.typeText_plain plain "vector4" vector4 typed
  obtain ⟨⟨s, name⟩, listed, made⟩ := exists_of_mem_right (mapM_ok ok) member
  obtain ⟨socket, named⟩ := of_mem_zip listed
  exact outputCode_fits plain type socket (plain.names name (by simp [Names.all, named])) part made

theorem pixelFrame_fits (general : tokenNames ⊆ tokens) (lights : TameLights tokens run)
    (sources : ∀ id code, run.realization id = .source code → code.IsTame tokenNames)
    (tame : stage.IsTame run.target) (binding : Nat) :
    (pixelFrame run stage binding).Ensures (Frame.Fits tokens) := by
  refine bind fun lightHead ok₁ => bind fun (uniforms, next) ok₂ => bind fun outer ok₃ => ?_
  refine bind fun functions ok₄ => ?_
  have start : Code.Fits tokens (header run.target) := header_fits run.target
  have types : Code.Fits tokens (run.dialect.typeDefinitions.map Code.line) := by
    refine .of_forall fun c member => ?_
    obtain ⟨text, listed, rfl⟩ := mem_map.1 member
    exact .line (fits_of_plain (Dialect.typeDefinitions_plain plain.dialect text listed))
  have structures : Code.Fits tokens lightHead := by
    split at ok₁
    · exact lightStructure_fits plain lightHead ok₁
    · cases pure_ok.1 ok₁
      exact .nil
  have closed := Code.fits_closed tokens
  have names (_ : True) := namesPlainly plain tame
  have blocks : Code.Fits tokens uniforms :=
    uniformBlocks_closed closed names binding (uniforms, next) ok₂
  have sourcesBlock : Code.Fits tokens
      (if isLit run && !(run.target = .msl : Bool) then lightBlock stage next else []) := by
    split
    · exact lightBlock_fits tame next
    · exact .nil
  have interface : Code.Fits tokens outer := pixelInterface_closed closed names outer ok₃
  have defined : Code.Fits tokens functions :=
    pixelFunctions_fits plain general lights sources functions ok₄
  have front := ((((((start.append types).append .blank).append structures).append blocks).append
    sourcesBlock).append interface).append defined
  dsimp only
  split
  · refine bind fun entry ok => pure (Frame.fits_of_parts front ?_ ?_ ?_)
    · exact entryHead_fits tame (entryPoint_plain plain tame _ entry ok) (by decide) (by decide)
    · have copies := closed.statements fun _ => (entryPoint_plain plain tame _ entry ok).locals
      exact copies.append (closed.statement fun _ => by decide)
    · exact closed.statement fun _ => by decide
  · exact pure (Frame.fits_of_parts front (closed.line fun _ => by decide) .nil .nil)

end

end Hardware

end MaterialShader
