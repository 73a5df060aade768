import MaterialShader.Proofs.Emission.FrameText
import MaterialShader.Proofs.Emission.VertexStage

/-!
The stages of a hardware shader over the bundled library are written with the tokens that they have.
-/

namespace MaterialShader

open List Generator Result Option

theorem Realization.builtin?_ne_source (d : Definition) (target : Target) (code : SourceCode)
    (specific : Bool) : builtin? d target ≠ some (.source code, specific) := by
  unfold builtin?
  split
  · simp
  · split_ifs with light hardware
    · simp
    · simp
    · simp only [ne_eq, map_eq_some_iff, not_exists, not_and]
      intro r given same
      cases (Prod.ext_iff.1 same).1
      simp only [ofCategory?] at given
      split_ifs at given <;> simp at given

theorem Definition.realization?_source {lib : Library} {target : Target} {d : Definition}
    {code : SourceCode} (realized : d.realization? lib target = some (.source code)) :
    ∃ i, lib.implementation? d target = some i ∧ code = .ofImplementation i d := by
  unfold Definition.realization? at realized
  split at realized
  · rename_i r specific builtin
    cases realized
    exact absurd builtin (Realization.builtin?_ne_source d target code specific)
  · obtain ⟨i, implemented, same⟩ := map_eq_some_iff.1 realized
    cases same
    exact ⟨i, implemented, rfl⟩

section

variable {target : Target} (hardware : target.isHardware = true) {gen : Generator}
  (made : Generator.create target .bundled = .ok gen) {g : Graph} {s : Session} {run : Run}
  (built : g.Built .standard .bundled) (ran : gen.run g s = .ok run)

include made ran

theorem Generator.run_settings : run.target = target ∧ run.dialect = .ofTarget target ∧
    run.types = .standard ∧ run.library = .bundled ∧ run.lights = s.lights ∧ run.graph = g := by
  obtain ⟨_, _, made⟩ := bind_ok.1 made
  cases pure_ok.1 made
  obtain ⟨_, _, ran⟩ := bind_ok.1 ran
  cases pure_ok.1 ran
  exact ⟨rfl, rfl, rfl, rfl, rfl, rfl⟩

omit made in
theorem Generator.run_length : run.realizations.length = g.nodes.length := by
  obtain ⟨realizations, all, ran⟩ := bind_ok.1 ran
  cases pure_ok.1 ran
  exact (mapM_ok all).length_eq.symm

include built

theorem Generator.run_source {id : NodeId} {code : SourceCode}
    (realized : run.realization id = .source code) : ∃ n d, g.nodes[id]? = some n ∧
      d ∈ Library.bundled.definitions ∧ n.definition = d.name ∧
      d.realization? .bundled target = some (.source code) := by
  obtain rfl := (run_graph ran).1
  have inside : id < run.graph.nodes.length := by
    by_contra outside
    have none : run.realizations[id]? = none :=
      List.getElem?_eq_none (run_length ran ▸ Nat.le_of_not_lt outside)
    simp [Run.realization, getD_eq_getElem?_getD, none] at realized
  have found := List.getElem?_eq_getElem inside
  have own := run_realization ran found
  rw [realized] at own
  obtain ⟨d, member, here, named, _⟩ := realize_ok made
    (built.stems _ (getElem_mem inside)) own
  exact ⟨_, d, found, member, named, here⟩

include hardware

theorem Generator.run_isPlain : run.IsPlain := by
  obtain ⟨_, dialect, _, _, _, rfl⟩ := run_settings made ran
  refine ⟨dialect ▸ Dialect.hardware_isPlain hardware, fun name member => ?_, ?_, built.typed.outputs,
    ?_⟩
  · rw [run_names made ran] at member
    exact Text.isPlain_of_isWord (Text.isWord_of_identifier (Names.ofGraph_accepts member).identifier)
  · exact fun n node i input =>
      ⟨(built.typed.inputs n node i input).1, (built.fits.inputs n node i input).1⟩
  · exact fun o socket =>
      ⟨(built.typed.outputSockets o socket).1, built.fits.outputSockets o socket⟩

theorem Generator.run_tame {id : NodeId} {code : SourceCode}
    (realized : run.realization id = .source code) : code.IsTame Hardware.tokenNames := by
  obtain ⟨_, d, _, member, _, here⟩ := run_source made built ran realized
  exact Library.bundled_tame hardware member here

omit built in
theorem Hardware.tameLights (lights : ∀ light ∈ s.lights, light.2 ∈ lightDefinitions) :
    TameLights tokenNames run := by
  obtain ⟨same, _, _, library, bound, _⟩ := run_settings made ran
  have checked : (lightDefinitions.all fun name => (Library.bundled.definition? name).all fun d =>
      d.template.isNone && (Realization.builtin? d target).isNone) := by
    rw [Library.bundled_eq]
    cases target with
    | glsl | msl => decide +kernel
    | osl | mdl => cases hardware
  rintro ⟨number, definition⟩ listed f ok
  have member := lights _ (bound ▸ listed)
  obtain ⟨d, found, ok⟩ := bind_ok.1 ok
  rw [library] at found ok
  have found : Library.bundled.definition? definition = some d := orFail_ok.1 found
  have here := all_eq_true.1 checked definition member
  rw [found, all_some, Bool.and_eq_true] at here
  have single : d.template = none := isNone_iff_eq_none.1 here.1
  have other : Realization.builtin? d target = none := isNone_iff_eq_none.1 here.2
  split at ok
  · rename_i name source own
    cases pure_ok.1 ok
    obtain ⟨i, implemented, called⟩ := map_eq_some_iff.1 own
    rw [same] at implemented
    have realized : d.realization? .bundled target = some (.source (.ofImplementation i d)) := by
      rw [Definition.realization?, other]
      exact congrArg (Option.map _) implemented
    have tame := Library.bundled_tame hardware (Library.mem_of_definition? found) realized
    obtain ⟨short, unbroken, long, clean⟩ := tame.function name source called
    simp only [SourceCode.allows, SourceCode.ofImplementation, single, map_none,
      isSome_none, Bool.false_eq_true, if_false, nil_append] at short long
    refine ⟨Token.fits_of_plain (Text.isPlain_iff.2 ⟨Token.coversChars_nil.1 short, unbroken⟩), ?_⟩
    have lines := Token.lines_fit (fun t member => (tokenNames_formed member).2) clean long
    simpa [Code.Fits, Code.lineTextsAll, Code.lineTexts] using lines
  · cases ok

end

theorem Run.mem_order {run : Run}
    (ordered : run.graph.order.Perm (List.range run.graph.nodes.length)) {id : NodeId}
    {n : GraphNode} (node : run.node id = .ok n) : id ∈ run.graph.order := by
  have found : run.graph.nodes[id]? = some n := orFail_ok.1 node
  exact ordered.mem_iff.2 (mem_range.2 (lt_of_getElem? found))

structure Run.Bundled (run : Run) : Prop where
  plain : run.IsPlain
  hardware : run.target.isHardware = true
  sources : ∀ id code, run.realization id = .source code → code.IsTame Hardware.tokenNames
  ordered : run.graph.order.Perm (List.range run.graph.nodes.length)

theorem Generator.run_bundled {target : Target} (hardware : target.isHardware)
    {gen : Generator} (made : Generator.create target .bundled = .ok gen) {g : Graph} {s : Session}
    {run : Run} (built : g.Built .standard .bundled) (ran : gen.run g s = .ok run) :
    run.Bundled := by
  obtain ⟨same, _, _, _, _, graph⟩ := run_settings made ran
  exact ⟨run_isPlain hardware made built ran, same ▸ hardware,
    fun _ _ => run_tame hardware made built ran, graph ▸ built.order_perm⟩

namespace Hardware.Pieces

variable {run : Run} (known : run.Bundled) (p : Hardware.Pieces run)

include known

theorem tokened : p.vertex.name = vertexStage ∧ p.pixel.name = pixelStage ∧
    p.vertex.IsTame run.target ∧ p.pixel.IsTame run.target ∧
    (∀ t, VertexToken run t → t ∈ p.vertex.tokens.map Prod.fst) ∧
    ∀ t, PixelToken run t → t ∈ p.pixel.tokens.map Prod.fst := by
  obtain ⟨vertex, pixel, shape, isVertex, isPixel, rest⟩ :=
    declareStages_tokened known.plain known.hardware p.declared p.declares
  obtain ⟨rfl, rfl⟩ := p.eq_of_declared shape isVertex isPixel
  exact ⟨isVertex, isPixel, rest⟩

theorem vertex_fits :
    Code.Fits (p.vertex.tokens.map Prod.fst) (p.vertexFrame.around p.vertexNodes) := by
  obtain ⟨isVertex, _, tame, _, tokens, _⟩ := p.tokened known
  have general : tokenNames ⊆ p.vertex.tokens.map Prod.fst := fun t listed => tokens t (.inl listed)
  have ready : run.Ready p.vertex (p.vertex.tokens.map Prod.fst) := by
    refine ⟨known.plain, known.hardware, known.sources, general, fun _ id n node t own => ?_,
      fun other => absurd isVertex other⟩
    exact tokens t (.inr (.inr ⟨id, Run.mem_order known.ordered node, own⟩))
  have framed := vertexFrame_fits known.plain general (fun on => tokens _ (.inr (.inl ⟨on, rfl⟩)))
    tame _ p.framesVertex
  exact framed p.vertexNodes (Run.emitAll_fits ready _ p.vertexNodes p.emitsVertex)

theorem pixelReady : run.Ready p.pixel (p.pixel.tokens.map Prod.fst) := by
  obtain ⟨_, isPixel, _, _, _, tokens⟩ := p.tokened known
  refine ⟨known.plain, known.hardware, known.sources, fun t listed => tokens t (.inl listed),
    fun here => ?_, fun _ id n node t own => ?_⟩
  · rw [isPixel] at here
    exact absurd here (by decide)
  · exact tokens t (.inr ⟨id, Run.mem_order known.ordered node, own⟩)

theorem pixel_fits {tokens : List String} (own : p.pixel.tokens.map Prod.fst ⊆ tokens)
    (lights : TameLights tokens run) :
    Code.Fits tokens (p.pixelFrame.around (p.pixelNodes ++ p.outputs)) := by
  obtain ⟨_, _, _, tame, _, _⟩ := p.tokened known
  have ready := p.pixelReady known
  have framed := pixelFrame_fits known.plain (List.Subset.trans ready.general own) lights
    known.sources tame p.binding _ p.framesPixel
  have nodes := (Run.emitAll_fits ready _ p.pixelNodes p.emitsPixel).mono own
  exact framed _ (nodes.append (outputsCode_fits known.plain _ p.draws))

end Hardware.Pieces

namespace Stage.IsTame

variable {target : Target} {s t : Stage} (tame : s.IsTame target) {code : List Code}
  (ok : s.writeAll code = .ok t) {d : Dialect} {finished : FinishedStage}
  (finish : t.finish d = .ok finished)

include tame ok finish

theorem finish_unmarked (fits : Code.Fits (s.tokens.map Prod.fst) code) :
    Text.Unmarked finished.source :=
  finalize_unmarked tame.blank ok (finish_ok finish).2.1 tame.entries fits

theorem finish_lines (unbroken : ∀ text ∈ Code.lineTextsAll code, Text.isUnbroken text) :
    Text.lines finished.source =
      (Code.rowsAll [] (s.effectiveAll code)).map (Token.substitute s.tokens) :=
  finalize_lines tame.blank ok (finish_ok finish).2.1 tame.entries unbroken

end Stage.IsTame

def Hardware.Frame.Enters (f : Frame) (s : Stage) (nodes : List Code) (before : Stage) : Prop :=
  s.writeAll (f.front ++ [f.head]) = .ok before ∧
    ∃ inner, (before.openScope .braces).writeAll (f.opening ++ nodes ++ f.closing) = .ok inner

theorem Hardware.Frame.IsNested.around_rows {f : Frame} (framed : f.IsNested) {nodes : List Code}
    (nested : Code.Nested nodes) {s t : Stage} (ok : s.writeAll (f.around nodes) = .ok t) :
    ∃ before, f.Enters s nodes before ∧ Code.rowsAll [] (s.effectiveAll (f.around nodes)) =
      Code.rowsAll [] (s.effectiveAll (f.front ++ [f.head])) ++ "\x7b" ::
        Code.rowsAll [.braces] ((before.openScope .braces).effectiveAll
          (f.opening ++ nodes ++ f.closing)) ++ ["\x7d"] := by
  have split : f.around nodes = (f.front ++ [f.head]) ++
      .openScope .braces :: ((f.opening ++ nodes ++ f.closing) ++ [.closeScope false]) := by
    simp [Frame.around]
  have head : Code.Nested (f.front ++ [f.head]) := framed.front.append framed.head
  rw [split] at ok ⊢
  obtain ⟨before, first, later⟩ := Stage.writeAll_append_ok.1 ok
  obtain ⟨inner, last, inside, ended, rows⟩ := Stage.scope_rows (framed.body nested) later []
  refine ⟨before, ⟨first, inner, inside⟩, ?_⟩
  rw [Stage.effectiveAll_append first,
    Code.rowsAll_append ((Stage.effectiveAll_after first []).trans (head [])), rows]
  simp [Code.bracketRows, Stage.indentation, Stage.effectiveAll, Code.rowsAll, Brackets.opening,
    Brackets.closing]

theorem Hardware.Pieces.vertex_rows {run : Run} (p : Pieces run) :
    ∃ before, p.vertexFrame.Enters p.vertex p.vertexNodes before ∧
      Code.rowsAll [] (p.vertex.effectiveAll (p.vertexFrame.around p.vertexNodes)) =
        Code.rowsAll [] (p.vertex.effectiveAll (p.vertexFrame.front ++ [p.vertexFrame.head])) ++
          "\x7b" :: Code.rowsAll [.braces] ((before.openScope .braces).effectiveAll
            (p.vertexFrame.opening ++ p.vertexNodes ++ p.vertexFrame.closing)) ++ ["\x7d"] :=
  p.vertexNested.1.around_rows p.vertexNested.2 p.writesVertex

section

variable {run : Run} (known : run.Bundled) (p : Hardware.Pieces run) {d : Dialect}
  {vertex : FinishedStage} (ok : p.writtenVertex.finish d = .ok vertex)

include known p ok

theorem Hardware.Pieces.vertex_lines :
    Text.lines vertex.source = (Code.rowsAll []
      (p.vertex.effectiveAll (p.vertexFrame.around p.vertexNodes))).map
        (Token.substitute p.vertex.tokens) := by
  obtain ⟨_, _, tame, _⟩ := p.tokened known
  exact tame.finish_lines p.writesVertex ok fun text inside =>
    (Bool.and_eq_true_iff.1 (p.vertex_fits known text inside)).2

theorem Hardware.Pieces.vertex_statement (flat : ∀ c ∈ p.vertexNodes, c.isFlat) {text : String}
    (member : .statement text ∈ p.vertexNodes) (unmarked : Text.Unmarked text) :
    "    " ++ text ++ ";" ∈ Text.lines vertex.source := by
  obtain ⟨_, _, tame, _⟩ := p.tokened known
  obtain ⟨before, ⟨_, inner, body⟩, rows⟩ := p.vertex_rows
  have kept : Token.substitute p.vertex.tokens ("    " ++ text ++ ";") = "    " ++ text ++ ";" :=
    Token.substitute_of_unmarked tame.entries (by simpa [Text.Unmarked] using unmarked)
  obtain ⟨first, others, split⟩ := append_of_mem member
  have nested : Code.Nested (p.vertexFrame.opening ++ first) :=
    p.vertexNested.1.opening.append
      (.of_flat fun c earlier => flat c (by simp [split, earlier]))
  have whole : p.vertexFrame.opening ++ p.vertexNodes ++ p.vertexFrame.closing =
      (p.vertexFrame.opening ++ first) ++ .statement text :: (others ++ p.vertexFrame.closing) := by
    simp [split]
  rw [p.vertex_lines known ok, rows, map_append, map_append, map_cons]
  rw [whole] at body ⊢
  refine mem_append_left _ (mem_append_right _ (.tail _ ?_))
  exact mem_map.2 ⟨_, Stage.statement_row nested body [.braces], kept⟩

end

/-- No token is left in the sources of a hardware shader over the bundled library, where lights are
bound to light shaders of the library only. -/
theorem hardware_sources_unmarked {target : Target} (hardware : target.isHardware = true)
    {gen : Generator} (made : Generator.create target .bundled = .ok gen) {name : String}
    {doc : Document} {s : Session} (lights : ∀ light ∈ s.lights, light.2 ∈ lightDefinitions)
    {shader : Shader} (ok : (gen.generate name doc s).result = .ok shader) :
    ∃ vertex pixel, shader.stages = [vertex, pixel] ∧ vertex.name = vertexStage ∧
      pixel.name = pixelStage ∧ '$' ∉ vertex.source.toList ∧ '$' ∉ pixel.source.toList := by
  obtain ⟨g, log, run, p, vertex, pixel, building, ran, finishVertex, finishPixel, stages⟩ :=
    Generator.generate_pieces hardware made ok
  obtain ⟨built, _⟩ := Generator.buildGraph_ready made building
  have known := Generator.run_bundled hardware made built ran
  obtain ⟨_, _, tameVertex, tamePixel, _, _⟩ := p.tokened known
  have bound := Hardware.tameLights hardware made ran lights
  exact ⟨vertex, pixel, stages, p.vertex_name finishVertex, p.pixel_name finishPixel,
    tameVertex.finish_unmarked p.writesVertex finishVertex (p.vertex_fits known),
    tamePixel.finish_unmarked p.writesPixel finishPixel (p.pixel_fits known (List.Subset.refl _)
      (bound.mono (p.pixelReady known).general))⟩

def litDocument : Document where
  version := "1"
  metadata := ⟨"lit", none, none⟩
  inputs := []
  nodes :=
    [⟨"skin", "mix", "surfaceshader", none, [], [], []⟩,
     ⟨"uv", "texcoord", "vector2", none, [], [], []⟩]
  connections := []
  outputs := [⟨"shade", "surfaceshader", ⟨"skin", "out"⟩⟩, ⟨"place", "vector2", ⟨"uv", "out"⟩⟩]
  nodegraphs := []

def litSession : Session := Session.bindLight {} 1 "point_light"

theorem litShader_ok :
    ∃ shader, ((Generator.bundled .glsl).generate "lit" litDocument litSession).result = .ok shader := by
  apply generate_works
  decide +kernel

theorem hardware_sources_unmarked_lit :
    ∃ gen shader, Target.glsl.isHardware = true ∧ Generator.create .glsl .bundled = .ok gen ∧
      (∀ light ∈ litSession.lights, light.2 ∈ lightDefinitions) ∧
      (gen.generate "lit" litDocument litSession).result = .ok shader ∧
      ∃ vertex pixel, shader.stages = [vertex, pixel] ∧ vertex.name = vertexStage ∧
        pixel.name = pixelStage ∧ '$' ∉ vertex.source.toList ∧ '$' ∉ pixel.source.toList := by
  obtain ⟨shader, ok⟩ := litShader_ok
  have made := Generator.create_bundled .glsl
  have lights : ∀ light ∈ litSession.lights, light.2 ∈ lightDefinitions := by decide
  exact ⟨_, shader, rfl, made, lights, ok, hardware_sources_unmarked rfl made lights ok⟩

end MaterialShader
