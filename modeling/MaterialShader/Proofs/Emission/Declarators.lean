import MaterialShader.Proofs.Emission.PortNames

/-!
How published inputs are declared:
-/

namespace MaterialShader

open List
open Emission.Ensures
open Result (bind_ok pure_ok)

namespace Code

def StandsIn (c : Code) (code : List Code) : Prop :=
  ∃ front b before after semicolon back, (∀ part ∈ [front, before, after], Nested part) ∧
    code = front ++ .openScope b :: (before ++ c :: after ++ .closeScope semicolon :: back)

variable {c : Code} {code : List Code}

theorem StandsIn.append (stands : c.StandsIn code) (rest : List Code) : c.StandsIn (code ++ rest) := by
  obtain ⟨front, b, before, after, semicolon, back, nested, rfl⟩ := stands
  exact ⟨front, b, before, after, semicolon, back ++ rest, nested, by simp⟩

theorem StandsIn.behind (stands : c.StandsIn code) {first : List Code} (nested : Nested first) :
    c.StandsIn (first ++ code) := by
  obtain ⟨front, b, before, after, semicolon, back, parts, rfl⟩ := stands
  obtain ⟨outer, inner⟩ := forall_mem_cons.1 parts
  exact ⟨first ++ front, b, before, after, semicolon, back,
    forall_mem_cons.2 ⟨nested.append outer, inner⟩, by simp⟩

theorem standsIn_scope {body rest : List Code} (flat : ∀ d ∈ body, d.isFlat) (member : c ∈ body)
    (inside : Nested rest) (b : Brackets) (semicolon : Bool) (back : List Code) :
    c.StandsIn (.openScope b :: (body ++ rest ++ .closeScope semicolon :: back)) := by
  obtain ⟨before, after, rfl⟩ := append_of_mem member
  rw [forall_mem_append, forall_mem_cons] at flat
  have parts : ∀ part ∈ [[], before, after ++ rest], Nested part := by
    simp only [forall_mem_cons]
    exact ⟨.nil, .of_flat flat.1, (Nested.of_flat flat.2.2).append inside, by simp⟩
  exact ⟨[], b, before, after ++ rest, semicolon, back, parts, by simp⟩

end Code

namespace Run

def DeclaresInput (run : Run) (code : List Code) (socket : InputSocket) (name declarator : String) :
    Prop :=
  if run.target.isHardware then
    (Code.statement declarator).StandsIn code ∧ (run.target = .msl →
      (Code.statement (declarator ++ " = " ++ "u_pub" ++ "." ++ name)).StandsIn code)
  else ∃ value, Osl.socketValue run socket = .ok value ∧
    ∃ comma ∈ ["", ","], (Code.line (declarator ++ " = " ++ value ++ comma)).StandsIn code

/-- The code declares every published input by type and name, textures aside. -/
def DeclaresPlainly (run : Run) (code : List Code) : Prop :=
  ∀ entry ∈ run.graph.inputSockets.zip run.names.sockets, entry.1.type.isFilename = false →
    ∃ typeName, run.dialect.typeName entry.1.type = .ok typeName ∧
      run.DeclaresInput code entry.1 entry.2 (typeName ++ " " ++ entry.2)

end Run

namespace Hardware

variable {run : Run} {stage : Stage} {v : StageVariable}

theorem memberScope_declares {head : String} {vs : List StageVariable} {code : List Code}
    (ok : memberScope run head vs = .ok code) (member : v ∈ vs) :
    ∃ text, memberText run v = .ok text ∧ (Code.statement text).StandsIn code := by
  obtain ⟨members, texts, ok⟩ := bind_ok.1 ok
  cases pure_ok.1 ok
  obtain ⟨text, listed, made⟩ := exists_of_mem_right (Result.mapM_ok texts).flip member
  have inside := Code.standsIn_scope (forall_mem_map.2 fun _ _ => rfl)
    (mem_map_of_mem (f := Code.statement) listed) .nil .braces true [.blank]
  exact ⟨text, made, by simpa [Code.block] using inside.behind (Code.Nested.of_line rfl)⟩

theorem uniformBlock_declares {binding : Nat} {block : String} {out : List Code × Nat}
    (ok : uniformBlock run stage binding block = .ok out)
    (member : v ∈ plainUniforms stage block) :
    ∃ text, memberText run v = .ok text ∧ (Code.statement text).StandsIn out.1 := by
  have filled : (plainUniforms stage block).isEmpty = false := by
    rw [isEmpty_eq_false_iff_exists_mem]
    exact ⟨v, member⟩
  unfold uniformBlock at ok
  simp only [filled] at ok
  split at ok
  all_goals
    obtain ⟨code, made, ok⟩ := bind_ok.1 ok
    cases pure_ok.1 ok
    obtain ⟨text, written, inside⟩ := memberScope_declares made member
  · exact ⟨text, written, inside⟩
  · exact ⟨text, written, inside.append _⟩

theorem foldlM_entryVariable {access : String} {vs : List StageVariable} {entry out : EntryPoint}
    (ok : vs.foldlM (entryVariable run access) entry = .ok out) :
    entry.locals ⊆ out.locals ∧ ∀ v ∈ vs, v.type.isFilename = false → ∀ text,
      memberText run v = .ok text → text ++ " = " ++ access ++ "." ++ v.name ∈ out.locals := by
  induction vs generalizing entry with
  | nil =>
    cases pure_ok.1 ok
    exact ⟨fun _ => id, by simp⟩
  | cons v rest ih =>
    obtain ⟨next, first, ok⟩ := bind_ok.1 ok
    obtain ⟨kept, others⟩ := ih ok
    unfold entryVariable at first
    split at first
    · rename_i texture
      cases first
      exact ⟨fun _ old => kept (mem_append_left _ old),
        forall_mem_cons.2 ⟨fun plain => by simp [texture] at plain, others⟩⟩
    · obtain ⟨member, made, first⟩ := bind_ok.1 first
      cases pure_ok.1 first
      refine ⟨fun _ old => kept (mem_append_left _ old),
        forall_mem_cons.2 ⟨fun _ text found => ?_, others⟩⟩
      cases made.symm.trans found
      exact kept (mem_append_right _ (mem_singleton.2 rfl))

theorem entryPoint_locals {lit : Bool} {entry : EntryPoint}
    (ok : entryPoint run stage lit = .ok entry) {b : Block}
    (found : stage.block? publicUniforms = some b) (member : v ∈ b.members)
    (plain : v.type.isFilename = false) {text : String} (made : memberText run v = .ok text) :
    text ++ " = " ++ b.access ++ "." ++ v.name ∈ entry.locals := by
  obtain ⟨generated, _, ok⟩ := bind_ok.1 ok
  obtain ⟨all, blocks, ok⟩ := bind_ok.1 ok
  simp only [entryBlock, found] at blocks
  obtain ⟨filled, folded, blocks⟩ := bind_ok.1 blocks
  have listed := (foldlM_entryVariable folded).2 v member plain text made
  have inside : text ++ " = " ++ b.access ++ "." ++ v.name ∈ all.locals := by
    split at blocks <;> cases pure_ok.1 blocks <;> exact listed
  split at ok <;> cases pure_ok.1 ok <;> exact inside

theorem pixelFrame_declares {binding : Nat} {frame : Frame}
    (ok : pixelFrame run stage binding = .ok frame)
    (found : stage.block? publicUniforms =
      some ⟨.uniform, publicUniforms, "u_pub", publicVariables run⟩)
    (hardware : run.target.isHardware) {nodes : List Code} (nested : Code.Nested nodes) :
    run.DeclaresPlainly (frame.around nodes) := by
  have framed := pixelFrame_nested run stage binding frame ok
  rintro ⟨socket, name⟩ member plain
  have listed : (⟨socket.type, name, socket.value, socket.path, false⟩ : StageVariable) ∈
      publicVariables run := mem_map.2 ⟨(socket, name), member, rfl⟩
  obtain ⟨lightHead, lit, ok⟩ := bind_ok.1 ok
  obtain ⟨⟨uniforms, next⟩, blocks, ok⟩ := bind_ok.1 ok
  obtain ⟨outer, _, ok⟩ := bind_ok.1 ok
  obtain ⟨functions, _, ok⟩ := bind_ok.1 ok
  obtain ⟨generated, first, blocks⟩ := bind_ok.1 blocks
  obtain ⟨published, second, blocks⟩ := bind_ok.1 blocks
  cases pure_ok.1 blocks
  obtain ⟨text, made, inside⟩ := uniformBlock_declares second (mem_filter.2
    ⟨by rw [Stage.members, found]; exact listed, by simpa using plain⟩)
  obtain ⟨typeName, named, written⟩ := bind_ok.1 made
  cases pure_ok.1 written
  refine ⟨typeName, named, ?_⟩
  rw [Run.DeclaresInput, if_pos hardware]
  extract_lets front at ok
  have declared (rest : List Code) :
      (Code.statement (typeName ++ " " ++ name)).StandsIn (front ++ rest) := by
    have before := (preamble_nested lightHead lit).append
      (uniformBlock_closed Code.nested_closed nofun _ (by decide) generated first)
    have own : (Code.statement (typeName ++ " " ++ name)).StandsIn published.1 := inside
    simpa [front] using (own.behind before).append ((if isLit run && !(run.target = .msl : Bool) then
      lightBlock stage published.2 else []) ++ outer ++ functions ++ rest)
  split at ok
  · obtain ⟨entry, entered, ok⟩ := bind_ok.1 ok
    cases pure_ok.1 ok
    have copied : typeName ++ " " ++ name ++ " = " ++ "u_pub" ++ "." ++ name ∈ entry.locals :=
      entryPoint_locals entered found listed plain made
    refine ⟨declared _, fun _ => ?_⟩
    have inner : Code.Nested ([.statement "PixelOutputs po"] ++ nodes ++
        [.statement "return po"]) :=
      ((Code.Nested.of_line rfl).append nested).append framed.closing
    have inside := Code.standsIn_scope (forall_mem_map.2 fun _ _ => rfl)
      (mem_map_of_mem (f := Code.statement) copied) inner .braces false []
    simpa [Frame.around] using inside.behind (framed.front.append framed.head)
  · rename_i other
    cases pure_ok.1 ok
    exact ⟨declared _, fun msl => absurd msl other⟩

end Hardware

theorem Osl.mem_commaLines {text : String} {texts : List String} (member : text ∈ texts) :
    ∃ comma ∈ ["", ","], .line (text ++ comma) ∈ commaLines texts := by
  fun_induction commaLines texts with
  | case1 => cases member
  | case2 last =>
    cases mem_singleton.1 member
    exact ⟨"", by simp⟩
  | case3 first rest _ ih =>
    obtain rfl | later := mem_cons.1 member
    · exact ⟨",", by simp⟩
    · obtain ⟨comma, either, inside⟩ := ih later
      exact ⟨comma, either, .tail _ inside⟩

theorem Osl.parameters_declare {run : Run} {parameter : InputSocket → String → Result String}
    (plainly : ∀ s n, s.type.isFilename = false → parameter s n = inputParameter run s n)
    (notHardware : run.target.isHardware = false) {inputs texts : List String} {code : List Code}
    (made : (run.graph.inputSockets.zip run.names.sockets).mapM (fun (s, n) => parameter s n) =
      .ok inputs)
    (all : inputs ⊆ texts) {before : List Code} (nested : Code.Nested before) (head : String) :
    run.DeclaresPlainly (headed before head texts ++ code) := by
  rintro ⟨socket, name⟩ member plain
  obtain ⟨text, listed, written⟩ := exists_of_mem_right (Result.mapM_ok made).flip member
  obtain ⟨value, valued, written⟩ :=
    bind_ok.1 ((plainly socket name plain).symm.trans written)
  obtain ⟨typeName, named, written⟩ := bind_ok.1 written
  cases pure_ok.1 written
  refine ⟨typeName, named, ?_⟩
  rw [Run.DeclaresInput, notHardware, if_neg Bool.false_ne_true]
  obtain ⟨comma, either, line⟩ := mem_commaLines (all listed)
  have inside : (Code.line (typeName ++ " " ++ name ++ " = " ++ value ++ comma)).StandsIn _ :=
    Code.standsIn_scope (commaLines_flat texts) line .nil .parentheses false []
  have whole := (inside.behind (nested.append (.of_line (c := .line head) rfl))).append code
  exact ⟨value, valued, comma, either, by simpa [headed] using whole⟩

/-- The types that the dialects declare with a number of items. -/
def arrayTypes : List String := ["integerarray", "floatarray"]

def LiteralForm.isItems : LiteralForm → Bool
  | .items _ _ => true
  | _ => false

namespace Dialect

theorem ofTarget_items (target : Target) {t : ShaderType} {f : TypeForm}
    (form : (ofTarget target).form t = .ok f) :
    f.literal.isItems = arrayTypes.contains t.name := by
  have all : (ofTarget target).forms.all fun entry =>
      entry.2.literal.isItems == arrayTypes.contains entry.1 := by
    cases target <;> decide
  have found := orFail_ok.1 (Result.inside_ok.1 form)
  exact beq_iff_eq.1 (all_eq_true.1 all _ (Assoc.mem_of_get? found))

theorem declaration_plain_iff {target : Target} {t : ShaderType} {typeName : String}
    (named : (ofTarget target).typeName t = .ok typeName) (name : String) (value : Option Value) :
    (ofTarget target).declaration t name value = .ok (typeName ++ " " ++ name) ↔
      t.name ∉ arrayTypes := by
  obtain ⟨f, form, named⟩ := bind_ok.1 named
  cases pure_ok.1 named
  have numbered (count : String) :
      f.name ++ " " ++ name ++ "[" ++ count ++ "]" ≠ f.name ++ " " ++ name := by
    intro same
    have lengths := congrArg String.length same
    have bracket : "[".length = 1 := rfl
    simp only [String.length_append] at lengths
    omega
  have step (g : TypeForm → Result String) : Except.ok f >>= g = g f := rfl
  rw [← contains_iff_mem, ← ofTarget_items target form, declaration, form, step]
  cases f.literal with
  | items opening closing =>
    refine iff_of_false (fun same => ?_) (by simp [LiteralForm.isItems])
    cases value with
    | none => cases same
    | some v =>
      cases v with
      | floatArray | integerArray => exact numbered _ (Except.ok.inj same)
      | _ => cases same
  | _ => exact iff_of_true rfl (by simp [LiteralForm.isItems])

end Dialect

theorem Generator.assemble_declares {run : Run} (notHardware : run.target.isHardware = false)
    (name : String) : (Generator.assemble run name).Ensures fun stages =>
      ∃ (stage whole : Stage) (code : List Code), stage.writeAll code = .ok whole ∧
        stages = [whole] ∧ run.DeclaresPlainly code := by
  unfold Generator.assemble
  split
  · simp_all [Target.isHardware]
  · simp_all [Target.isHardware]
  · intro stages yields
    obtain ⟨_, _, stage, _, whole, _, _, _, frames, writes, rfl⟩ :=
      Osl.stages_declared run name stages yields
    obtain ⟨before, head, inputs, results, _, _, made, _, _, nested, rfl⟩ := frames
    exact ⟨stage, whole, _, writes, rfl, Osl.parameters_declare (fun _ _ _ => rfl) notHardware made
      (subset_append_left ..) (nested before (.head _)) head⟩
  · have plainly (s : InputSocket) (n : String) (plain : s.type.isFilename = false) :
        Mdl.parameter run s n = Osl.inputParameter run s n := by
      simp [Mdl.parameter, plain]
    intro stages yields
    obtain ⟨_, stage, _, whole, _, _, frames, writes, rfl⟩ :=
      Mdl.stages_declared run name stages yields
    obtain ⟨before, head, parameters, _, _, made, _, nested, rfl⟩ := frames
    exact ⟨stage, whole, _, writes, rfl, Osl.parameters_declare plainly notHardware made
      (fun _ => id) nested head⟩

/-- Every published input that is no texture is declared by its type and name, in a stage of the
shader. That is the declaration that the dialect gives for a variable exactly if it is no array. -/
theorem published_inputs_declared_plainly {target : Target} {lib : Library} {gen : Generator}
    (made : Generator.create target lib = .ok gen) {name : String} {doc : Document} {s : Session}
    {shader : Shader} (ok : (gen.generate name doc s).result = .ok shader) :
    (∃ g log run, ∃ (stage written : Stage) (code : List Code) (finished : FinishedStage),
      gen.buildGraph doc s = .ok (g, log) ∧ gen.run g (s.begin target) = .ok run ∧
      stage.writeAll code = .ok written ∧ written.finish gen.dialect = .ok finished ∧
      finished ∈ shader.stages ∧
      run.names.sockets.length = run.graph.inputSockets.length ∧ run.DeclaresPlainly code) ∧
    ∀ t name value typeName, gen.dialect.typeName t = .ok typeName →
      (gen.dialect.declaration t name value = .ok (typeName ++ " " ++ name) ↔
        t.name ∉ arrayTypes) := by
  constructor
  · by_cases hardware : target.isHardware
    · obtain ⟨g, log, run, p, _, pixel, building, ran, _, finish, shape⟩ :=
        Generator.generate_pieces hardware made ok
      have runs : run.target.isHardware := by
        rw [(Generator.run_graph ran).2.1, (Generator.create_ok made).1]
        exact hardware
      obtain ⟨q, _, blocks, _, published, _⟩ := p.interface runs made ran
      have found : p.pixel.block? publicUniforms =
          some ⟨.uniform, publicUniforms, "u_pub", Hardware.publicVariables run⟩ := by
        rw [Stage.block?, blocks, Ports.pixelBlocks, published]
        rfl
      have nested := p.pixelNested.2.1.append p.pixelNested.2.2
      exact ⟨g, log, run, p.pixel, p.writtenPixel, _, pixel, building, ran, p.writesPixel, finish,
        shape ▸ .tail _ (.head _), Generator.run_sockets made ran,
        Hardware.pixelFrame_declares p.framesPixel found runs nested⟩
    · obtain ⟨g, log, run, stages, building, ran, assembled, finishing⟩ := Generator.generate_ok ok
      have same := (Generator.create_ok made).1
      have notHardware : run.target.isHardware = false := by
        rw [(Generator.run_graph ran).2.1, same]
        simpa using hardware
      obtain ⟨stage, whole, code, writes, rfl, plainly⟩ :=
        Generator.assemble_declares notHardware name stages assembled
      obtain ⟨finished, listed, finish⟩ := exists_of_mem_right finishing.flip (.head _)
      exact ⟨g, log, run, stage, whole, code, finished, building, same ▸ ran, writes, finish, listed,
        Generator.run_sockets made ran, plainly⟩
  · obtain ⟨_, _, made⟩ := Result.bind_ok.1 made
    cases Result.pure_ok.1 made
    exact fun t name value typeName named => Dialect.declaration_plain_iff named name value

/-- Two weights, and nothing that reads them. -/
def weightsDocument : Document where
  version := "1"
  metadata := ⟨"weights", none, none⟩
  inputs := [⟨"weights", "floatarray", some (.arr [.int 1, .int 2])⟩]
  nodes := []
  connections := []
  outputs := []
  nodegraphs := []

theorem published_inputs_declared_plainly_weights : ∃ gen shader g log run code,
    Generator.create .msl .bundled = .ok gen ∧
    (gen.generate "w" weightsDocument {}).result = .ok shader ∧
    gen.buildGraph weightsDocument {} = .ok (g, log) ∧
    gen.run g (Session.begin {} .msl) = .ok run ∧ run.DeclaresPlainly code := by
  have made := Generator.create_bundled .msl
  obtain ⟨shader, ok⟩ : ∃ shader,
      ((Generator.bundled .msl).generate "w" weightsDocument {}).result = .ok shader :=
    Generator.generate_works (by decide)
  obtain ⟨⟨g, log, run, _, _, code, _, building, ran, _, _, _, _, plainly⟩, _⟩ :=
    published_inputs_declared_plainly made ok
  exact ⟨_, shader, g, log, run, code, made, ok, building, ran, plainly⟩

/-- The two weights are not declared as the dialect declares them. -/
theorem weights_lack_their_number : ∃ g log shader,
    (Generator.bundled .osl).buildGraph weightsDocument {} = .ok (g, log) ∧
    ((Generator.bundled .osl).generate "w" weightsDocument {}).result = .ok shader ∧
    g.inputSockets.map (fun s =>
      (Dialect.osl.declaration s.type "weights" s.value).toOption) = [some "float weights[2]"] ∧
    ∀ stage ∈ shader.stages, Text.contains "float weights[2]" stage.source = false := by
  have given : ((Generator.bundled .osl).buildGraph weightsDocument {}).toOption.any fun built =>
      built.1.inputSockets.map (fun s =>
        (Dialect.osl.declaration s.type "weights" s.value).toOption) =
          [some "float weights[2]"] := by
    rw [Generator.bundled, Library.bundled_eq]
    decide
  have written : ((Generator.bundled .osl).generate "w" weightsDocument {}).result.toOption.any
      fun shader => shader.stages.all fun stage =>
        !Text.contains "float weights[2]" stage.source := by
    rw [Generator.bundled, Library.bundled_eq]
    decide +kernel
  obtain ⟨⟨g, log⟩, building, declared⟩ := (Option.any_eq_true _ _).1 given
  obtain ⟨shader, ok, lacks⟩ := (Option.any_eq_true _ _).1 written
  refine ⟨g, log, shader, Result.toOption_eq_some.1 building, Result.toOption_eq_some.1 ok,
    of_decide_eq_true declared, fun stage member => ?_⟩
  simpa using List.all_eq_true.1 lacks stage member

end MaterialShader
