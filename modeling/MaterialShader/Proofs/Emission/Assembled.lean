import MaterialShader.Proofs.Emission.Nesting
import MaterialShader.Proofs.Realization
import MaterialShader.Proofs.Stage.Interface

/-!
Shaders from their parts.
-/

namespace MaterialShader

open List
open Emission (Yields)
open Result (bind_ok)
open Code (Nested)
open Generator (assemble create)
open Stage (named)

variable (run : Run)

def Stage.Written (stage written : Stage) : Prop :=
  ∃ code, Nested code ∧ stage.writeAll code = .ok written

theorem Stage.Written.keeps {stage written : Stage} (writes : stage.Written written) :
    stage.Keeps written := by
  obtain ⟨_, _, ok⟩ := writes
  exact writeAll_keeps ok

def Code.InBody (nodes code : List Code) : Prop :=
  ∃ front opening closing back, (∀ part ∈ [front, opening, nodes, closing, back], Nested part) ∧
    code = front ++ .openScope .braces ::
      (opening ++ nodes ++ closing ++ .closeScope false :: back)

theorem Code.InBody.nested {nodes code : List Code} (body : InBody nodes code) : Nested code := by
  obtain ⟨front, opening, closing, back, nested, rfl⟩ := body
  simp only [forall_mem_cons] at nested
  obtain ⟨before, first, inside, last, behind, _⟩ := nested
  exact before.append (((first.append inside).append last).scope .braces false behind)

/-- The nodes stand in the body of the written stage. -/
def Stage.WrittenWith (written stage : Stage) (nodes : List Code) : Prop :=
  ∃ code, Code.InBody nodes code ∧ stage.writeAll code = .ok written

theorem Stage.WrittenWith.written {written stage : Stage} {nodes : List Code}
    (body : written.WrittenWith stage nodes) : stage.Written written := by
  obtain ⟨code, inside, ok⟩ := body
  exact ⟨code, inside.nested, ok⟩

def Emission.Ensures {α : Type} (P : α → Prop) (act : Emission α) : Prop := ∀ a, Yields act a → P a

namespace Emission.Ensures

variable {α β : Type} {P : α → Prop} {f : β → Emission α}

theorem bind {x : Emission β} (each : ∀ b, Yields x b → (f b).Ensures P) : Ensures P (x >>= f) := by
  intro a yields
  obtain ⟨b, first, yields⟩ := yields.bind
  exact each b first a yields

theorem after {x : Emission β} (each : ∀ b, (f b).Ensures P) : Ensures P (x >>= f) :=
  bind fun b _ => each b

theorem pure {a : α} (holds : P a) : Ensures P (Pure.pure a : Emission α) := by
  intro b yields
  exact yields.pure ▸ holds

end Emission.Ensures

open Emission.Ensures

theorem name_of_named {stages : List Stage} {name : String} {stage : Stage}
    (found : named stages name = .ok stage) : stage.name = name := by
  have picked := List.find?_some (orFail_ok.1 found)
  simpa using picked

theorem named_pair {v x vertex pixel : Stage} (isVertex : v.name = vertexStage)
    (isPixel : x.name = pixelStage) (first : named [v, x] vertexStage = .ok vertex)
    (second : named [v, x] pixelStage = .ok pixel) : v = vertex ∧ x = pixel := by
  have other : ¬ vertexStage = pixelStage := by decide
  constructor
  · simpa [named, isVertex, orFail] using first
  · simpa [named, isVertex, isPixel, other, orFail] using second

theorem Emission.Yields.mapM_lift {α β : Type} {f : α → Result β} {items : List α} {out : List β}
    (yields : Yields (items.mapM fun a => (liftM (f a) : Emission β)) out) :
    items.mapM f = .ok out := by
  induction items generalizing out with
  | nil =>
    rw [yields.pure]
    rfl
  | cons a rest ih =>
    rw [mapM_cons] at yields
    obtain ⟨b, first, yields⟩ := yields.bind
    obtain ⟨others, later, yields⟩ := yields.bind
    rw [mapM_cons, yields.pure]
    exact bind_ok.2 ⟨b, first.lift, bind_ok.2 ⟨others, ih later, rfl⟩⟩

namespace Hardware

theorem vertexCode_framed (stage : Stage) :
    (vertexCode run stage).Ensures fun (code, binding) =>
      ∃ frame nodes, vertexFrame run stage = .ok (frame, binding) ∧
        Yields (run.emitClass stage vertexClasses) nodes ∧ code = frame.around nodes :=
  bind fun (frame, _) made => bind fun nodes yields => pure ⟨frame, nodes, made.lift, yields, rfl⟩

theorem pixelCode_framed (stage : Stage) (binding : Nat) :
    (pixelCode run stage binding).Ensures fun code =>
      ∃ frame nodes outputs, pixelFrame run stage binding = .ok frame ∧
        Yields (run.emitEverywhere stage) nodes ∧ outputsCode run = .ok outputs ∧
        code = frame.around (nodes ++ outputs) :=
  bind fun frame made => bind fun nodes yields => bind fun outputs drawn =>
    pure ⟨frame, nodes, outputs, made.lift, yields, drawn.lift, rfl⟩

structure Frame.IsNested (f : Frame) : Prop where
  front : Nested f.front
  head : Nested [f.head]
  opening : Nested f.opening
  closing : Nested f.closing

theorem vertexFrame_nested (stage : Stage) :
    (vertexFrame run stage).Ensures fun out => out.1.IsNested := by
  refine .bind fun uniforms ok => .bind fun outer ok' => .after fun vector4 => ?_
  have front := ((header_nested run.target).append (uniformBlocks_nested _ uniforms ok)).append
    (vertexInterface_closed Code.nested_closed nofun outer ok')
  have position (name : String) : Nested (positionCode run vector4 name) := fun _ => rfl
  split
  · refine .after fun entry => .pure ⟨front, .of_line rfl, ?_, .of_line rfl⟩
    exact ((Code.nested_map (fun _ => rfl) _).append (.of_line rfl)).append (position _)
  · exact .pure ⟨front, .of_line rfl, position _, .nil⟩

theorem pixelFrame_nested (stage : Stage) (binding : Nat) :
    (pixelFrame run stage binding).Ensures Frame.IsNested := by
  refine .bind fun lightHead lit => .bind fun (uniforms, next) ok₁ => .bind fun outer ok₂ => ?_
  refine .bind fun functions ok₃ => ?_
  have lights : Nested (if isLit run && !(run.target = .msl : Bool) then lightBlock stage next
      else []) := by
    split
    · exact fun _ => rfl
    · exact .nil
  have front := ((((preamble_nested lightHead lit).append
    (uniformBlocks_nested _ (uniforms, next) ok₁)).append lights).append
    (pixelInterface_closed Code.nested_closed nofun outer ok₂)).append
    (pixelFunctions_nested functions ok₃)
  dsimp only
  split
  · refine .after fun entry => .pure ⟨front, .of_line rfl, ?_, .of_line rfl⟩
    exact (Code.nested_map (fun _ => rfl) _).append (.of_line rfl)
  · exact .pure ⟨front, .of_line rfl, .nil, .nil⟩

theorem Frame.IsNested.body {f : Frame} (nested : f.IsNested) {nodes : List Code}
    (inside : Nested nodes) : Nested (f.opening ++ nodes ++ f.closing) :=
  (nested.opening.append inside).append nested.closing

theorem Frame.IsNested.inBody {f : Frame} (nested : f.IsNested) {nodes outputs : List Code}
    (inside : Nested nodes) (last : Nested outputs) :
    Code.InBody nodes (f.around (nodes ++ outputs)) := by
  refine ⟨f.front ++ [f.head], f.opening, outputs ++ f.closing, [], ?_, by simp [Frame.around]⟩
  simp only [forall_mem_cons]
  exact ⟨nested.front.append nested.head, nested.opening, inside, last.append nested.closing, .nil,
    by simp⟩

theorem Frame.IsNested.around {f : Frame} (nested : f.IsNested) {nodes : List Code}
    (inside : Nested nodes) : Nested (f.around nodes) := by
  simpa using (nested.inBody inside .nil).nested

theorem vertexCode_nested (stage : Stage) :
    (vertexCode run stage).Ensures fun out => Nested out.1 := by
  intro out yields
  obtain ⟨frame, nodes, framed, emitted, same⟩ := vertexCode_framed run stage out yields
  rw [same]
  exact (vertexFrame_nested run stage _ framed).around (Run.emitAll_nested _ emitted)

theorem pixelCode_nested (stage : Stage) (binding : Nat) :
    (pixelCode run stage binding).Ensures Nested := by
  intro code yields
  obtain ⟨frame, nodes, outputs, framed, emitted, drawn, rfl⟩ :=
    pixelCode_framed run stage binding code yields
  exact (pixelFrame_nested run stage binding _ framed).around
    ((Run.emitAll_nested _ emitted).append (outputsCode_nested outputs drawn))

structure Pieces (run : Run) where
  declared : List Stage
  vertex : Stage
  pixel : Stage
  vertexFrame : Frame
  /-- The first binding of the pixel stage. -/
  binding : Nat
  vertexNodes : List Code
  writtenVertex : Stage
  pixelFrame : Frame
  pixelNodes : List Code
  outputs : List Code
  writtenPixel : Stage
  declares : declareStages run = .ok declared
  isVertex : named declared vertexStage = .ok vertex
  isPixel : named declared pixelStage = .ok pixel
  framesVertex : Hardware.vertexFrame run vertex = .ok (vertexFrame, binding)
  emitsVertex : Yields (run.emitClass vertex vertexClasses) vertexNodes
  writesVertex : vertex.writeAll (vertexFrame.around vertexNodes) = .ok writtenVertex
  framesPixel : Hardware.pixelFrame run pixel binding = .ok pixelFrame
  emitsPixel : Yields (run.emitEverywhere pixel) pixelNodes
  draws : outputsCode run = .ok outputs
  writesPixel : pixel.writeAll (pixelFrame.around (pixelNodes ++ outputs)) = .ok writtenPixel

namespace Pieces

variable {run : Run} (p : Pieces run)

theorem vertexNested : p.vertexFrame.IsNested ∧ Nested p.vertexNodes :=
  ⟨vertexFrame_nested run p.vertex _ p.framesVertex, Run.emitAll_nested _ p.emitsVertex⟩

theorem pixelNested : p.pixelFrame.IsNested ∧ Nested p.pixelNodes ∧ Nested p.outputs :=
  ⟨pixelFrame_nested run p.pixel p.binding _ p.framesPixel, Run.emitAll_nested _ p.emitsPixel,
    outputsCode_nested _ p.draws⟩

theorem vertexWith : p.writtenVertex.WrittenWith p.vertex p.vertexNodes :=
  ⟨_, by simpa using p.vertexNested.1.inBody p.vertexNested.2 .nil, p.writesVertex⟩

theorem pixelWith : p.writtenPixel.WrittenWith p.pixel p.pixelNodes :=
  ⟨_, p.pixelNested.1.inBody p.pixelNested.2.1 p.pixelNested.2.2, p.writesPixel⟩

theorem eq_of_declared {vertex pixel : Stage} (shape : p.declared = [vertex, pixel])
    (isVertex : vertex.name = vertexStage) (isPixel : pixel.name = pixelStage) :
    vertex = p.vertex ∧ pixel = p.pixel :=
  named_pair isVertex isPixel (shape ▸ p.isVertex) (shape ▸ p.isPixel)

theorem vertex_name {d : Dialect} {vertex : FinishedStage}
    (finish : p.writtenVertex.finish d = .ok vertex) : vertex.name = vertexStage := by
  rw [(Stage.finish_ports finish).1, (Stage.writeAll_keeps p.writesVertex).name,
    name_of_named p.isVertex]

theorem pixel_name {d : Dialect} {pixel : FinishedStage}
    (finish : p.writtenPixel.finish d = .ok pixel) : pixel.name = pixelStage := by
  rw [(Stage.finish_ports finish).1, (Stage.writeAll_keeps p.writesPixel).name,
    name_of_named p.isPixel]

end Pieces

theorem stages_pieces : (Hardware.stages run).Ensures fun stages =>
    ∃ p : Pieces run, stages = [p.writtenVertex, p.writtenPixel] := by
  have last : Emission.Ensures (fun stages => ∃ p : Pieces run,
      stages = [p.writtenVertex, p.writtenPixel]) (do
      let declared ← declareStages run
      let vertex ← named declared vertexStage
      let pixel ← named declared pixelStage
      let (vertexText, binding) ← vertexCode run vertex
      let writtenVertex ← vertex.writeAll vertexText
      let pixelText ← pixelCode run pixel binding
      let writtenPixel ← pixel.writeAll pixelText
      return [writtenVertex, writtenPixel]) := by
    refine bind fun declared declares => bind fun vertex isVertex => bind fun pixel isPixel => ?_
    refine bind fun (vertexText, binding) first => bind fun writtenVertex writesVertex => ?_
    refine bind fun pixelText second => bind fun writtenPixel writesPixel => pure ?_
    obtain ⟨vertexFrame, vertexNodes, framesVertex, emitsVertex, rfl⟩ :=
      vertexCode_framed run vertex _ first
    obtain ⟨pixelFrame, pixelNodes, outputs, framesPixel, emitsPixel, draws, rfl⟩ :=
      pixelCode_framed run pixel binding pixelText second
    exact ⟨⟨declared, vertex, pixel, vertexFrame, binding, vertexNodes, writtenVertex, pixelFrame,
      pixelNodes, outputs, writtenPixel, declares.lift, isVertex.lift, isPixel.lift, framesVertex,
      emitsVertex, writesVertex.lift, framesPixel, emitsPixel, draws, writesPixel.lift⟩, rfl⟩
  unfold Hardware.stages
  split
  · exact after fun _ => last
  · exact last

/-- The stages have the declared variables, and code written into them. -/
def Declared (run : Run) (stages : List Stage) : Prop :=
  ∃ declared vertex pixel writtenVertex writtenPixel, declareStages run = .ok declared ∧
    named declared vertexStage = .ok vertex ∧ named declared pixelStage = .ok pixel ∧
    vertex.Written writtenVertex ∧ pixel.Written writtenPixel ∧
    stages = [writtenVertex, writtenPixel]

theorem stages_declared : (Hardware.stages run).Ensures (Declared run) := by
  intro stages yields
  obtain ⟨p, rfl⟩ := stages_pieces run stages yields
  exact ⟨p.declared, p.vertex, p.pixel, _, _, p.declares, p.isVertex, p.isPixel,
    p.vertexWith.written, p.pixelWith.written, rfl⟩

end Hardware

theorem Hardware.assemble_ensures {run : Run} (hardware : run.target.isHardware)
    {name : String} {P : List Stage → Prop} (holds : (Hardware.stages run).Ensures P) :
    (assemble run name).Ensures P := by
  unfold assemble
  split
  · exact holds
  · exact holds
  · simp_all [Target.isHardware]
  · simp_all [Target.isHardware]

def Osl.headed (before : List Code) (head : String) (parameters : List String) : List Code :=
  before ++ .line head :: .openScope .parentheses :: (commaLines parameters ++ [.closeScope false])

theorem Osl.headed_nested {before : List Code} (nested : Nested before) (head : String)
    (parameters : List String) : Nested (headed before head parameters) :=
  nested.append (.cons rfl ((commaLines_nested parameters).scope .parentheses false .nil))

def Osl.Frames (run : Run) (color3 : ShaderType) (stage : Stage) (code : List Code) : Prop :=
  ∃ before head inputs results nodes written,
    (run.graph.inputSockets.zip run.names.sockets).mapM (fun (s, n) => inputParameter run s n) =
      .ok inputs ∧
    Yields (run.emitEverywhere stage) nodes ∧
    (run.graph.outputSockets.zip run.names.graphOutputs).mapM (fun (s, n) =>
      outputCode run color3 s n) = .ok written ∧
    (∀ part ∈ [before, nodes, written], Nested part) ∧
    code = headed before head (inputs ++ results) ++ .openScope .braces ::
      (emptyClosure run ++ nodes ++ written ++ [.closeScope false])

theorem Osl.stageCode_frames (color3 : ShaderType) (stage : Stage) (shaderName : String) :
    (Osl.stageCode run color3 stage shaderName).Ensures (Osl.Frames run color3 stage) := by
  refine bind fun functions defined => bind fun inputs given => bind fun results _ => ?_
  refine bind fun nodes yields => bind fun written outputs => pure ?_
  have lines : Nested [.line "#include \"mx_funcs.h\"", .blank,
    .line "#define M_FLOAT_EPS 0.000001", .blank] := fun _ => rfl
  have transform : Nested (if Hardware.hasTextures run then Osl.transformFunction run else []) := by
    split
    · exact fun _ => rfl
    · exact .nil
  have before := (lines.append transform).append
    (Hardware.functionDefinitions_nested _ functions defined.lift)
  have drawn : Nested written := by
    refine .of_flat fun c member => ?_
    obtain ⟨socket, _, made⟩ := exists_of_mem_right (Result.mapM_ok outputs.mapM_lift) member
    exact outputCode_flat color3 _ _ c made
  have all : ∀ part ∈ [_, nodes, written], Nested part :=
    forall_mem_cons.2 ⟨before, by simpa using ⟨Run.emitAll_nested _ yields, drawn⟩⟩
  exact ⟨_, s!"{shaderKind run.graph} {shaderName}", inputs, results, nodes, written,
    given.mapM_lift, yields, outputs.mapM_lift, all, by simp [headed]⟩

theorem Osl.Frames.inBody {color3 : ShaderType} {stage : Stage} {code : List Code}
    (frames : Osl.Frames run color3 stage code) :
    ∃ nodes, Yields (run.emitEverywhere stage) nodes ∧ Code.InBody nodes code := by
  obtain ⟨before, head, inputs, results, nodes, written, _, yields, _, nested, rfl⟩ := frames
  simp only [forall_mem_cons] at nested
  obtain ⟨front, inside, outputs, _⟩ := nested
  refine ⟨nodes, yields, headed before head (inputs ++ results), emptyClosure run, written, [], ?_,
    rfl⟩
  simp only [forall_mem_cons]
  exact ⟨headed_nested front head _, emptyClosure_nested run, inside, outputs, .nil, by simp⟩

theorem Osl.stages_declared (name : String) : (Osl.stages run name).Ensures fun stages =>
    ∃ color3 declared stage code whole, run.types.get "color3" = .ok color3 ∧
      Osl.declareStage run color3 (run.dialect.validName name) = .ok declared ∧
      named declared pixelStage = .ok stage ∧ Osl.Frames run color3 stage code ∧
      stage.writeAll code = .ok whole ∧ stages = [whole] := by
  refine bind fun color3 known => bind fun declared ok => bind fun stage found => ?_
  refine bind fun code yields => bind fun whole writes => pure ?_
  exact ⟨color3, declared, stage, code, whole, known.lift, ok.lift, found.lift,
    stageCode_frames run color3 stage _ code yields, writes.lift, rfl⟩

def Mdl.Frames (run : Run) (stage : Stage) (code : List Code) : Prop :=
  ∃ (before : List Code) (head : String) (parameters : List String) (nodes : List Code)
    (final : String),
    (run.graph.inputSockets.zip run.names.sockets).mapM (fun (s, n) => parameter run s n) =
      .ok parameters ∧
    Yields (run.emitEverywhere stage) nodes ∧ Nested before ∧
    code = Osl.headed before head parameters ++ .line "= let" :: .openScope .braces :: (nodes ++
      [.statement s!"material {finalOutput} = {final}", .closeScope false,
       .statement s!"in material({finalOutput})"])

theorem Mdl.stageCode_frames (stage : Stage) (shaderName : String) :
    (Mdl.stageCode run stage shaderName).Ensures (Mdl.Frames run stage) := by
  unfold Mdl.stageCode
  dsimp only
  refine bind fun functions defined => bind fun parameters given => bind fun nodes yields => ?_
  have transform : Nested (if Hardware.hasTextures run then Mdl.transformFunction run else []) := by
    split
    · exact fun _ => rfl
    · exact .nil
  have start : Nested ([.statement "mdl 1.6", .blank] ++
      modules.map (fun m => .statement s!"import ::{m}::*") ++
      [.blank, .lines color4Text, .blank]) := fun _ => rfl
  obtain ⟨before, nested, same⟩ : ∃ before, Nested before ∧ before = _ :=
    ⟨_, (start.append transform).append
      (Hardware.functionDefinitions_nested _ functions defined.lift), rfl⟩
  refine after fun _ => ?_
  split
  all_goals
    exact after fun final => pure ⟨before, s!"export material {shaderName}", parameters, nodes,
      final, given.mapM_lift, yields, nested, by simp [same, Osl.headed]⟩

theorem Mdl.Frames.inBody {stage : Stage} {code : List Code} (frames : Mdl.Frames run stage code) :
    ∃ nodes, Yields (run.emitEverywhere stage) nodes ∧ Code.InBody nodes code := by
  obtain ⟨before, head, parameters, nodes, final, _, yields, nested, rfl⟩ := frames
  refine ⟨nodes, yields, Osl.headed before head parameters ++ [.line "= let"], [],
    [.statement s!"material {finalOutput} = {final}"], [.statement s!"in material({finalOutput})"],
    ?_, by simp⟩
  simp only [forall_mem_cons]
  exact ⟨(Osl.headed_nested nested head _).append (.of_line rfl), .nil,
    Run.emitAll_nested _ yields, .of_line rfl, .of_line rfl, by simp⟩

theorem Mdl.stages_declared (name : String) : (Mdl.stages run name).Ensures fun stages =>
    ∃ declared stage code whole, Mdl.declareStage run (run.dialect.validName name) = .ok declared ∧
      named declared pixelStage = .ok stage ∧ Mdl.Frames run stage code ∧
      stage.writeAll code = .ok whole ∧ stages = [whole] := by
  refine bind fun declared ok => bind fun stage found => ?_
  refine bind fun code yields => bind fun whole writes => pure ?_
  exact ⟨declared, stage, code, whole, ok.lift, found.lift, stageCode_frames run stage _ code yields,
    writes.lift, rfl⟩

section

variable {lib : Library} {target : Target} {gen : Generator} {g : Graph} {s : Session} {run : Run}

theorem Generator.run_graph (ok : gen.run g s = .ok run) :
    run.graph = g ∧ run.target = gen.target ∧ run.scopes = gen.scopes g := by
  obtain ⟨_, _, ok⟩ := bind_ok.1 ok
  cases Result.pure_ok.1 ok
  exact ⟨rfl, rfl, rfl⟩

theorem Generator.create_ok (made : create target lib = .ok gen) :
    gen.target = target ∧ gen.library = lib ∧ gen.types = .standard := by
  obtain ⟨_, _, made⟩ := bind_ok.1 made
  cases Result.pure_ok.1 made
  exact ⟨rfl, rfl, rfl⟩

end

variable {gen : Generator} {name : String} {stages : List Stage} {finished : List FinishedStage}
  {s : Session} {shader : Shader} {doc : Document}

theorem Generator.finishStages_forall₂ (yields : Yields (gen.finishStages name stages) finished) :
    List.Forall₂ (fun s f => s.finish gen.dialect = .ok f) stages finished := by
  induction stages generalizing finished with
  | nil =>
    rw [yields.pure]
    exact .nil
  | cons stage rest ih =>
    obtain ⟨first, done, yields⟩ := yields.bind
    obtain ⟨_, _, yields⟩ := yields.bind
    obtain ⟨others, later, yields⟩ := yields.bind
    rw [yields.pure]
    exact .cons done.lift (ih later)

theorem Generator.generateFromGraph_ok {g : Graph}
    (ok : (gen.generateFromGraph name g s).result = .ok shader) :
    ∃ run stages, gen.run g (s.begin gen.target) = .ok run ∧
      Yields (assemble run name) stages ∧ shader.name = name ∧
      shader.target = gen.target ∧
      List.Forall₂ (fun s f => s.finish gen.dialect = .ok f) stages shader.stages := by
  have yields : Yields (gen.emit name g (s.begin gen.target)) shader :=
    ⟨⟨(s.begin gen.target).emitted, []⟩, _, Prod.ext ok rfl⟩
  obtain ⟨run, ran, yields⟩ := yields.bind
  obtain ⟨stages, assembled, yields⟩ := yields.bind
  obtain ⟨finished, done, yields⟩ := yields.bind
  obtain ⟨_, _, yields⟩ := yields.bind
  have same := yields.pure
  subst same
  exact ⟨run, stages, ran.lift, assembled, rfl, rfl, Generator.finishStages_forall₂ done⟩

theorem Generator.generate_graph (ok : (gen.generate name doc s).result = .ok shader) :
    ∃ g log, gen.buildGraph doc s = .ok (g, log) ∧
      (gen.generateFromGraph name g s).result = .ok shader := by
  unfold Generator.generate at ok
  split at ok
  · cases ok
  · rename_i g log building
    exact ⟨g, log, Result.inside_ok.1 building, ok⟩

theorem Generator.generate_ok (ok : (gen.generate name doc s).result = .ok shader) :
    ∃ g log run stages, gen.buildGraph doc s = .ok (g, log) ∧
      gen.run g (s.begin gen.target) = .ok run ∧ Yields (assemble run name) stages ∧
      List.Forall₂ (fun s f => s.finish gen.dialect = .ok f) stages shader.stages := by
  obtain ⟨g, log, building, ok⟩ := Generator.generate_graph ok
  obtain ⟨run, stages, ran, assembled, _, _, finishing⟩ := Generator.generateFromGraph_ok ok
  exact ⟨g, log, run, stages, building, ran, assembled, finishing⟩

theorem Generator.finishStages_run (name : String)
    (finishing : List.Forall₂ (fun s f => s.finish gen.dialect = .ok f) stages finished)
    (p : Progress) : ∃ next, (gen.finishStages name stages).run.run p = (.ok finished, next) := by
  induction finishing generalizing p with
  | nil => exact ⟨p, rfl⟩
  | @cons s f stages finished first _ ih =>
    obtain ⟨next, others⟩ := ih { p with log := p.log ++ [gen.stageEntry name f] }
    have here : (liftM (s.finish gen.dialect) : Emission FinishedStage).run.run p = (.ok f, p) := by
      rw [first]
      rfl
    refine ⟨next, ?_⟩
    rw [finishStages, Emission.run_bind, here]
    dsimp only
    rw [Emission.run_bind]
    have noted : (Emission.note (gen.stageEntry name f)).run.run p =
        (.ok (), { p with log := p.log ++ [gen.stageEntry name f] }) := rfl
    rw [noted]
    dsimp only
    rw [Emission.run_bind, others]
    rfl

theorem Generator.generate_of_parts {g : Graph} {log : Log} {run : Run} {progress : Progress}
    (building : gen.buildGraph doc s = .ok (g, log))
    (ran : gen.run g (s.begin gen.target) = .ok run)
    (assembled : (assemble run name).run.run ⟨[], []⟩ = (.ok stages, progress))
    (finishing : List.Forall₂ (fun s f => s.finish gen.dialect = .ok f) stages finished) :
    ∃ shader, (gen.generate name doc s).result = .ok shader ∧ shader.stages = finished := by
  obtain ⟨next, done⟩ := finishStages_run name finishing progress
  refine ⟨⟨name, gen.target, finished⟩, ?_, rfl⟩
  have begun : (liftM (gen.run g (s.begin gen.target)) : Emission Run).run.run ⟨[], []⟩ =
      (.ok run, ⟨[], []⟩) := by
    rw [ran]
    rfl
  have emitted : ((gen.emit name g (s.begin gen.target)).run.run ⟨[], []⟩).1 =
      .ok ⟨name, gen.target, finished⟩ := by
    rw [emit, Emission.run_bind, begun]
    dsimp only
    rw [Emission.run_bind, assembled]
    dsimp only
    rw [Emission.run_bind, done]
    rfl
  rw [generate, building]
  exact emitted

def Generator.declared (run : Run) (name : String) : Result (List Stage) :=
  match run.target with
  | .glsl | .msl => do
    let declared ← Hardware.declareStages run
    let vertex ← named declared vertexStage
    let pixel ← named declared pixelStage
    return [vertex, pixel]
  | .osl => do
    let color3 ← run.types.get "color3"
    let declared ← Osl.declareStage run color3 (run.dialect.validName name)
    let stage ← named declared pixelStage
    return [stage]
  | .mdl => do
    let declared ← Mdl.declareStage run (run.dialect.validName name)
    let stage ← named declared pixelStage
    return [stage]

theorem Generator.assemble_writes (name : String) :
    (assemble run name).Ensures fun stages => ∃ declared,
      Generator.declared run name = .ok declared ∧
      List.Forall₂ Stage.Written declared stages := by
  unfold assemble Generator.declared
  have hardware : (Hardware.stages run).Ensures fun stages => ∃ declared,
      (do
        let declared ← Hardware.declareStages run
        let vertex ← named declared vertexStage
        let pixel ← named declared pixelStage
        return [vertex, pixel]) = .ok declared ∧
      List.Forall₂ Stage.Written declared stages := by
    intro stages yields
    obtain ⟨declared, vertex, pixel, _, _, ok, first, second, writes, writes', rfl⟩ :=
      Hardware.stages_declared run stages yields
    refine ⟨[vertex, pixel], ?_, .cons writes (.cons writes' .nil)⟩
    exact bind_ok.2 ⟨declared, ok, bind_ok.2 ⟨vertex, first,
      bind_ok.2 ⟨pixel, second, rfl⟩⟩⟩
  cases run.target with
  | glsl | msl => exact hardware
  | osl =>
    intro stages yields
    obtain ⟨color3, declared, stage, _, _, known, ok, found, frames, writes, rfl⟩ :=
      Osl.stages_declared run name stages yields
    obtain ⟨_, _, body⟩ := frames.inBody
    refine ⟨[stage], ?_, .cons ⟨_, body.nested, writes⟩ .nil⟩
    exact bind_ok.2 ⟨color3, known, bind_ok.2 ⟨declared, ok,
      bind_ok.2 ⟨stage, found, rfl⟩⟩⟩
  | mdl =>
    intro stages yields
    obtain ⟨declared, stage, _, _, ok, found, frames, writes, rfl⟩ :=
      Mdl.stages_declared run name stages yields
    obtain ⟨_, _, body⟩ := frames.inBody
    refine ⟨[stage], ?_, .cons ⟨_, body.nested, writes⟩ .nil⟩
    exact bind_ok.2 ⟨declared, ok, bind_ok.2 ⟨stage, found, rfl⟩⟩

def Stage.finishes (s : Stage) (d : Dialect) : Bool :=
  s.scopes.isEmpty && [BlockKind.uniform, .input, .output].all fun kind =>
    (s.interface d kind).toOption.isSome

theorem Stage.Written.finish {s t : Stage} {d : Dialect} (written : s.Written t)
    (can : s.finishes d) : ∃ f, t.finish d = .ok f := by
  simp only [finishes, Bool.and_eq_true, List.isEmpty_iff, all_cons, all_nil,
    Option.isSome_iff_exists, Result.toOption_eq_some, and_true] at can
  obtain ⟨closed, ⟨uniforms, first⟩, ⟨inputs, second⟩, ⟨outputs, third⟩⟩ := can
  obtain ⟨code, nested, ok⟩ := written
  have scopes : t.scopes = [] := by
    rw [← Option.some_inj, ← writeAll_scopes ok, nested, closed]
  have final : t.finalize = .ok (Token.substitute t.tokens t.source) := by
    rw [finalize, scopes]
    rfl
  rw [Stage.finish, final]
  simp only [(writeAll_keeps ok).interface, first, second, third]
  exact ⟨_, rfl⟩

theorem Stage.finish_all {declared : List Stage} {d : Dialect}
    (written : List.Forall₂ Written declared stages) (can : ∀ s ∈ declared, s.finishes d) :
    ∃ finished, List.Forall₂ (fun s f => s.finish d = .ok f) stages finished ∧
      List.Forall₂ (fun s f => ∃ t, s.Written t ∧ t.finish d = .ok f) declared finished := by
  induction written with
  | nil => exact ⟨[], .nil, .nil⟩
  | cons first _ ih =>
    obtain ⟨here, others⟩ := forall_mem_cons.1 can
    obtain ⟨f, ended⟩ := first.finish here
    obtain ⟨rest, all, coded⟩ := ih others
    exact ⟨f :: rest, .cons ended all, .cons ⟨_, first, ended⟩ coded⟩

def Run.ofLibrary (lib : Library) (target : Target) (g : Graph) (s : Session) : Result Run := do
  let realizations ← g.nodes.mapM fun n =>
    match (lib.definition? n.definition).bind (Definition.realization? lib target) with
    | none => fail (.missingImplementation n.path n.definition target)
    | some .unsupported => fail (.unsupported n.path n.category target)
    | some r => .ok r
  return { target, dialect := .ofTarget target, types := .standard, library := lib,
           options := s.options, lights := s.lights, graph := g,
           names := .ofGraph (.ofTarget target) g,
           scopes := if target.hasBranches then g.scopes
             else List.replicate g.nodes.length .everywhere,
           realizations }

def Generator.bundled (target : Target) : Generator :=
  ⟨target, .ofTarget target, .standard, .bundled, .ofLibrary .bundled target⟩

theorem Generator.create_bundled (target : Target) :
    create target .bundled = .ok (.bundled target) := by
  have valid : (Library.bundled.validate .standard).toOption.isSome := by
    rw [Library.bundled_eq]
    decide +kernel
  obtain ⟨_, found⟩ := Option.isSome_iff_exists.1 valid
  exact bind_ok.2 ⟨_, Result.toOption_eq_some.1 found, rfl⟩

theorem Generator.realize_of_get? {n : GraphNode} {found : Option Realization} :
    gen.realizations.get? n.definition gen.target = found →
    gen.realize n =
      match found with
      | none => fail (.missingImplementation n.path n.definition gen.target)
      | some .unsupported => fail (.unsupported n.path n.category gen.target)
      | some r => .ok r := by
  rintro rfl
  rfl

theorem Generator.run_bundled_eq (target : Target) (g : Graph) (s : Session) :
    (Generator.bundled target).run g s =
      Run.ofLibrary Library.listed target g s := by
  have realize (n : GraphNode) : (Generator.bundled target).realize n =
      match (Library.listed.definition? n.definition).bind
        (Definition.realization? Library.listed target) with
      | none => fail (.missingImplementation n.path n.definition target)
      | some .unsupported => fail (.unsupported n.path n.category target)
      | some r => .ok r := by
    have lookup : (Generator.bundled target).realizations.get? n.definition target =
        (Library.listed.definition? n.definition).bind
          (Definition.realization? Library.listed target) := by
      rw [Generator.bundled, Library.bundled_eq]
      exact RealizationTable.get?_ofLibrary_name Library.listed target n.definition
    exact Generator.realize_of_get? lookup
  rw [Generator.run, funext realize, Generator.bundled, Library.bundled_eq]
  rfl

def Generator.outline (target : Target) (name : String) (doc : Document) (s : Session) :
    Result (List Stage) := do
  let (g, _) ← Graph.build doc Library.listed .standard s.options
  let run ← Run.ofLibrary Library.listed target g (s.begin target)
  let _ ← ((Generator.assemble run name).run.run ⟨[], []⟩).1
  Generator.declared run name

theorem Generator.generate_of_outline {target : Target} {outlined : List Stage}
    (ok : Generator.outline target name doc s = .ok outlined)
    (can : ∀ stage ∈ outlined, stage.finishes (.ofTarget target)) :
    ∃ shader, ((Generator.bundled target).generate name doc s).result = .ok shader ∧
      List.Forall₂ (fun d f => ∃ t, d.Written t ∧ t.finish (.ofTarget target) = .ok f) outlined
        shader.stages := by
  obtain ⟨⟨g, log⟩, building, ok⟩ := bind_ok.1 ok
  obtain ⟨run, ran, ok⟩ := bind_ok.1 ok
  obtain ⟨stages, assembled, declaring⟩ := bind_ok.1 ok
  have yields : Yields (assemble run name) stages := ⟨⟨[], []⟩, _, Prod.ext assembled rfl⟩
  obtain ⟨_, declaring', written⟩ := Generator.assemble_writes run name stages yields
  cases declaring.symm.trans declaring'
  obtain ⟨finished, finishing, coded⟩ := Stage.finish_all written can
  have built : (Generator.bundled target).buildGraph doc s = .ok (g, log) := by
    rw [Generator.buildGraph, Generator.bundled, Library.bundled_eq]
    exact building
  obtain ⟨shader, made, same⟩ := Generator.generate_of_parts built
    ((Generator.run_bundled_eq target g _).trans ran) (Prod.ext assembled rfl) finishing
  exact ⟨shader, made, same ▸ coded⟩

theorem Generator.generate_works {target : Target}
    (works : ((Generator.outline target name doc s).toOption.any fun stages =>
      stages.all (Stage.finishes · (.ofTarget target)))) :
    ∃ shader, ((Generator.bundled target).generate name doc s).result = .ok shader := by
  obtain ⟨outlined, found, can⟩ := (Option.any_eq_true _ _).1 works
  obtain ⟨shader, ok, _⟩ :=
    Generator.generate_of_outline (Result.toOption_eq_some.1 found) (all_eq_true.1 can)
  exact ⟨shader, ok⟩

end MaterialShader
