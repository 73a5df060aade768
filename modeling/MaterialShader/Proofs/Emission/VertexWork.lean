import MaterialShader.Proofs.Emission.Resolved

/-!
The vertex stage does the work of the geometry and no other.
-/

namespace MaterialShader

open List
open Result (bind_ok)

variable (id : NodeId)

def SameVertex (stages stages' : List Stage) : Prop :=
  ∃ vertex pixel pixel', stages = [vertex, pixel] ∧ stages' = [vertex, pixel'] ∧
    vertex.name = vertexStage ∧ pixel.name = pixelStage ∧ pixel'.name = pixelStage

namespace HardwareVariable.Changes

variable {x : HardwareVariable} {target : Target} {t : ShaderType} {here : Bool} {s s' s'' : Stage}

theorem name (changes : x.Changes target t here s s') : s'.name = s.name := by
  cases here with
  | true => exact (Stage.declareVariable_blocks rfl s rfl s' changes).1
  | false => exact congrArg Stage.name changes

theorem unique (first : x.Changes target t here s s') (second : x.Changes target t here s s'') :
    s' = s'' := by
  cases here with
  | true => exact Except.ok.inj (first.symm.trans second)
  | false => exact first.trans second.symm

end HardwareVariable.Changes

namespace SameVertex

variable {run run' : Run} {stages stages' changed changed' : List Stage}

theorem symm (same : SameVertex stages stages') : SameVertex stages' stages := by
  obtain ⟨vertex, pixel, pixel', first, second, isVertex, isPixel, isPixel'⟩ := same
  exact ⟨vertex, pixel', pixel, second, first, isVertex, isPixel', isPixel⟩

theorem enter (types : run'.types = run.types) (target : run'.target = run.target)
    (same : SameVertex stages stages') {x : HardwareVariable} (ok : run.enter stages x = .ok changed)
    (ok' : run'.enter stages' x = .ok changed') : SameVertex changed changed' := by
  obtain ⟨vertex, pixel, pixel', rfl, rfl, isVertex, isPixel, isPixel'⟩ := same
  obtain ⟨t, vertex₁, pixel₁, known, rfl, first, second⟩ := Run.enter_ok isVertex isPixel ok
  obtain ⟨t', vertex₁', pixel₁', known', rfl, first', second'⟩ := Run.enter_ok isVertex isPixel' ok'
  rw [types] at known'
  rw [target] at first'
  cases known.symm.trans known'
  cases first.unique first'
  exact ⟨vertex₁, pixel₁, pixel₁', rfl, rfl, first.name.trans isVertex, second.name.trans isPixel,
    second'.name.trans isPixel'⟩

theorem enterAll (types : run'.types = run.types) (target : run'.target = run.target)
    (same : SameVertex stages stages') {vs : List HardwareVariable}
    (ok : vs.foldlM run.enter stages = .ok changed)
    (ok' : vs.foldlM run'.enter stages' = .ok changed') : SameVertex changed changed' := by
  induction vs generalizing stages stages' with
  | nil =>
    cases ok
    cases ok'
    exact same
  | cons x rest ih =>
    obtain ⟨next, first, ok⟩ := bind_ok.1 ok
    obtain ⟨next', first', ok'⟩ := bind_ok.1 ok'
    exact ih (same.enter types target first first') ok ok'

theorem enterPixel (same : SameVertex stages stages') {vs : List HardwareVariable}
    (pixel : ∀ x ∈ vs, x.inVertex = false) :
    (vs.foldlM run.enter stages).Ensures fun changed => SameVertex changed stages' := by
  refine .foldlM (fun stages same x member changed ok => ?_) same
  obtain ⟨vertex, pixel₀, pixel', rfl, rfl, isVertex, isPixel, isPixel'⟩ := same
  obtain ⟨t, vertex₁, pixel₁, _, rfl, first, second⟩ := Run.enter_ok isVertex isPixel ok
  rw [pixel x member] at first
  obtain rfl : vertex₁ = vertex := first
  exact ⟨vertex₁, pixel₁, pixel', rfl, rfl, isVertex, second.name.trans isPixel, isPixel'⟩

end SameVertex

/-- The runs have the same nodes and read the geometry alike. -/
structure Run.SharesGeometry (run run' : Run) : Prop where
  target : run'.target = run.target
  dialect : run'.dialect = run.dialect
  types : run'.types = run.types
  options : run'.options = run.options
  nodes : run'.graph.nodes = run.graph.nodes
  order : run'.graph.order = run.graph.order
  geometry : ∀ id, (run.realization id).isGeometry = true ∨ (run'.realization id).isGeometry = true →
    run'.realization id = run.realization id

namespace Run.SharesGeometry

variable {run run' : Run} (shares : run.SharesGeometry run')

include shares

theorem node : run'.node id = run.node id := by
  rw [Run.node, Run.node, shares.nodes]

theorem firstOutput : run'.firstOutput id = run.firstOutput id := by
  rw [Run.firstOutput, Run.firstOutput, shares.node]

theorem typeText (name : String) : run'.typeText name = run.typeText name := by
  rw [Run.typeText, Run.typeText, shares.types, shares.dialect]

theorem nodeVariables : run'.nodeVariables id = run.nodeVariables id := by
  by_cases reads : (run.realization id).isGeometry ∨ (run'.realization id).isGeometry
  · simp only [Run.nodeVariables, shares.geometry id reads, shares.target, shares.node,
      shares.firstOutput, shares.options]
  · rw [not_or] at reads
    have none {run : Run} (other : ¬ (run.realization id).isGeometry) :
        run.nodeVariables id = .ok [] := by
      unfold Run.nodeVariables
      cases realized : run.realization id <;> simp_all [Realization.isGeometry] <;> rfl
    rw [none reads.1, none reads.2]

end Run.SharesGeometry

namespace Hardware

variable {run run' : Run} {stages stages' : List Stage}

theorem emptyStages_sameVertex (target : Target) :
    SameVertex (emptyStages target) (emptyStages target) := by
  obtain ⟨vertex, pixel, shape, isVertex, isPixel, _⟩ := emptyStages_hasPorts target
  exact ⟨vertex, pixel, pixel, shape, shape, isVertex, isPixel, isPixel⟩

theorem declareInterface_sameVertex (same : SameVertex stages stages') :
    (declareInterface run stages).Ensures fun changed => SameVertex changed stages' := by
  obtain ⟨vertex, pixel, pixel', rfl, rfl, isVertex, isPixel, isPixel'⟩ := same
  refine .after fun vector4 changed ok => ?_
  obtain ⟨pixel₁, drawn, rfl⟩ := Stage.updateNamed_pixel isVertex isPixel ok
  obtain ⟨published, first, second⟩ := bind_ok.1 drawn
  cases Stage.updateBlock_ok first
  cases Stage.updateBlock_ok second
  exact ⟨vertex, _, pixel', rfl, rfl, isVertex, isPixel, isPixel'⟩

theorem declareStages_sameVertex (shares : run.SharesGeometry run')
    (ok : declareStages run = .ok stages) (ok' : declareStages run' = .ok stages') :
    SameVertex stages stages' := by
  obtain ⟨lists, basics, interfaced, listed, first, second, entered⟩ := declareStages_ok ok
  obtain ⟨lists', basics', interfaced', listed', first', second', entered'⟩ := declareStages_ok ok'
  have variables_ : run'.nodeVariables = run.nodeVariables := funext shares.nodeVariables
  rw [shares.order, variables_] at listed'
  cases listed.symm.trans listed'
  rw [shares.target, shares.options] at first'
  rw [foldlM_append] at entered entered'
  obtain ⟨uniforms, third, entered⟩ := bind_ok.1 entered
  obtain ⟨uniforms', third', entered'⟩ := bind_ok.1 entered'
  have onlyPixel (run : Run) : ∀ x ∈ pixelUniforms run, x.inVertex = false :=
    fun x member => (pixelUniforms_listed run x member).2
  have same₁ := (emptyStages_sameVertex run.target).enterAll shares.types shares.target first first'
  have left := (declareInterface_sameVertex same₁ _ second).enterPixel (onlyPixel run) _ third
  have same₃ := (declareInterface_sameVertex left.symm _ second').enterPixel (onlyPixel run') _ third'
  exact same₃.symm.enterAll shares.types shares.target entered entered'

theorem vertexFrame_eq (shares : run.SharesGeometry run') (stage : Stage) :
    vertexFrame run' stage = vertexFrame run stage := by
  have reads : vertexFrame run' stage = vertexFrame { run with
      target := run'.target, dialect := run'.dialect, types := run'.types, options := run'.options }
      stage := rfl
  rw [reads, shares.target, shares.dialect, shares.types, shares.options]

end Hardware

variable {run : Run}

theorem Run.SharesGeometry.classNodes {run' : Run} (shares : run.SharesGeometry run')
    (c : Classification) : run'.classNodes c = run.classNodes c := by
  rw [Run.classNodes, Run.classNodes, shares.order, shares.nodes]

theorem Run.SharesGeometry.simpleCode {run' : Run} (shares : run.SharesGeometry run')
    (hardware : run.target.isHardware) {stage : Stage} (vertex : stage.name = vertexStage)
    {id : NodeId} (geometry : (run.realization id).isGeometry) :
    run'.simpleCode stage id = run.simpleCode stage id := by
  have texts (kind : GeometricKind) (n : GraphNode) (typeName : String) :
      kind.vertexCode run' stage n typeName = kind.vertexCode run stage n typeName := by
    simp only [GeometricKind.vertexCode, GeometricKind.connectorText, GeometricKind.bitangentText,
      shares.typeText, shares.options]
  unfold Run.simpleCode
  rw [shares.geometry id (.inl geometry)]
  cases realized : run.realization id with
  | geometric kind =>
    simp only [GeometricKind.code, shares.node, shares.firstOutput, shares.target, vertex, if_true,
      texts]
    cases target : run.target with
    | glsl | msl => rfl
    | osl | mdl => simp [target, Target.isHardware] at hardware
  | light => simp only [Run.lightCode, vertex, if_true]
  | _ => simp [realized, Realization.isGeometry] at geometry

theorem Hardware.Pieces.writtenVertex_eq {run' : Run} (hardware : run.target.isHardware)
    (classed : run.Classed) (unlit : ∀ n ∈ run.graph.nodes, n.definition ∉ lightDefinitions)
    (shares : run.SharesGeometry run') (p : Pieces run) (p' : Pieces run') :
    p'.writtenVertex = p.writtenVertex := by
  have vertex : p'.vertex = p.vertex := by
    obtain ⟨vertex, pixel, pixel', first, second, isVertex, isPixel, isPixel'⟩ :=
      declareStages_sameVertex shares p.declares p'.declares
    have here := (p.eq_of_declared first isVertex isPixel).1
    exact (p'.eq_of_declared second isVertex isPixel').1.symm.trans here
  have geometry : ∀ id ∈ run.classNodes vertexClasses, (run.realization id).isGeometry := by
    intro id listed
    obtain ⟨_, n, found, _⟩ := Run.mem_classNodes.1 listed
    exact ((classed.mem_vertex found).1 listed).resolve_right (unlit n (mem_of_getElem? found))
  have ordered : run.graph.order.Nodup := classed.ordered.nodup_iff.2 nodup_range
  obtain ⟨parts, each, shape⟩ := p.vertexNodes_flat classed
  have ordered' : run'.graph.order.Nodup := shares.order ▸ ordered
  have plain : ∀ id ∈ run'.classNodes vertexClasses, ∀ op,
      run'.realization id ≠ .conditional op := by
    intro id listed op conditional
    rw [shares.classNodes] at listed
    have reads := geometry id listed
    rw [← shares.geometry id (.inl reads), conditional] at reads
    cases reads
  obtain ⟨parts', each', shape'⟩ := Run.emitClass_flat ordered' plain p'.emitsVertex
  have nodes : p'.vertexNodes = p.vertexNodes := by
    have same : parts' = parts := by
      rw [shares.classNodes, vertex] at each'
      have moved := ((forall₂_and_left _ _).2 ⟨geometry, each'⟩).imp fun id own both =>
        (shares.simpleCode hardware (name_of_named p.isVertex) both.1).symm.trans both.2
      have unique : Relator.RightUnique fun id own => run.simpleCode p.vertex id = .ok own :=
        fun id own own' code code' => Except.ok.inj (code.symm.trans code')
      exact unique.forall₂ moved each
    rw [shape, shape', same]
  have frame : p'.vertexFrame = p.vertexFrame := by
    have framed := p'.framesVertex
    rw [vertex, vertexFrame_eq shares, p.framesVertex] at framed
    exact congrArg Prod.fst (Except.ok.inj framed).symm
  have writes := p'.writesVertex
  rw [vertex, frame, nodes, p.writesVertex] at writes
  exact (Except.ok.inj writes).symm

/-- The statements around those of the nodes: the copies of uniforms that MSL makes, and the position
of the vertex. -/
inductive Hardware.VertexBody (run : Run) (stage : Stage) : Frame → Prop
  | glsl (front : List Code) (head : Code) (vector4 : String) (target : run.target ≠ .msl) :
      VertexBody run stage ⟨front, head, positionCode run vector4 "gl_Position", []⟩
  | msl (front : List Code) (head : Code) (vector4 : String) {entry : EntryPoint}
      (target : run.target = .msl) (entered : entryPoint run stage false = .ok entry) :
      VertexBody run stage ⟨front, head, entry.locals.map Code.statement ++
        [.statement "VertexData vd"] ++ positionCode run vector4 "vd.pos", [.statement "return vd"]⟩

theorem Hardware.vertexFrame_body {stage : Stage} {frame : Frame} {binding : Nat}
    (ok : vertexFrame run stage = .ok (frame, binding)) : VertexBody run stage frame := by
  obtain ⟨_, _, ok⟩ := bind_ok.1 ok
  obtain ⟨_, _, ok⟩ := bind_ok.1 ok
  obtain ⟨vector4, _, ok⟩ := bind_ok.1 ok
  split at ok
  · rename_i msl
    obtain ⟨entry, entered, ok⟩ := bind_ok.1 ok
    cases Result.pure_ok.1 ok
    exact .msl _ _ vector4 msl entered
  · rename_i other
    cases Result.pure_ok.1 ok
    exact .glsl _ _ vector4 other

def Stage.AssignsConnector (stage : Stage) (x : Code) : Prop :=
  ∃ v ∈ stage.members vertexData, ∃ text : String,
    x = .assignment vertexData v.name s!"${v.name} = {text}"

theorem Run.Writes.connects {id : NodeId} {c : String} {x : Code} (writes : run.Writes id c x) :
    run.Connects id c := by
  cases writes with
  | geometric realized node output named _ => exact .geometric realized node output named
  | light realized => exact .light realized

theorem Run.Writes.text {id : NodeId} {c : String} {x : Code} (writes : run.Writes id c x) :
    ∃ text : String, x = .assignment vertexData c s!"${c} = {text}" := by
  cases writes with
  | geometric => exact ⟨_, rfl⟩
  | light => exact ⟨"hPositionWorld.xyz", congrArg (Code.assignment _ _) (by rfl)⟩

theorem Hardware.Pieces.vertexNodes_assign_iff (hardware : run.target.isHardware)
    (classed : run.Classed) (p : Pieces run)
    (connectors : ∀ id ∈ run.graph.order, ∀ c, run.Connects id c →
      c ∈ (p.vertex.members vertexData).map StageVariable.name) :
    (∀ x ∈ p.vertexNodes, p.vertex.AssignsConnector x) ↔
      ∀ n ∈ run.graph.nodes, n.definition ∉ lightDefinitions := by
  constructor
  · intro all n member light
    obtain ⟨text, listed⟩ := p.statement_mem_vertexNodes hardware classed member light
    obtain ⟨_, _, _, impossible⟩ := all _ listed
    cases impossible
  · intro unlit x member
    obtain ⟨id, ordered, c, writes⟩ | ⟨_, n, node, light⟩ :=
      p.vertexNodes_cases hardware classed member
    · obtain ⟨v, listed, rfl⟩ := mem_map.1 (connectors id ordered c writes.connects)
      exact ⟨v, listed, writes.text⟩
    · exact absurd light (unlit n node)

/-- The vertex stage of a hardware shader assigns connectors and does nothing else for its nodes,
exactly where no light shader is a function of the library. It has no published inputs. Where it
assigns connectors only, it does not depend on names, on the library or on the code of nodes that do
not read the geometry. -/
theorem vertex_stage_geometric_iff {target : Target} (hardware : target.isHardware = true)
    {gen : Generator} (made : Generator.create target .bundled = .ok gen) {name : String}
    {doc : Document} {s : Session} {shader : Shader}
    (ok : (gen.generate name doc s).result = .ok shader) :
    ∃ g log run, ∃ p : Hardware.Pieces run, ∃ vertex pixel, gen.buildGraph doc s = .ok (g, log) ∧
      gen.run g (s.begin target) = .ok run ∧ shader.stages = [vertex, pixel] ∧
      vertex.name = vertexStage ∧ p.writtenVertex.finish gen.dialect = .ok vertex ∧
      Hardware.VertexBody run p.vertex p.vertexFrame ∧ p.vertex.members publicUniforms = [] ∧
      ((∀ x ∈ p.vertexNodes, p.vertex.AssignsConnector x) ↔
        ∀ n ∈ g.nodes, n.definition ∉ lightDefinitions) ∧
      ((∀ n ∈ g.nodes, n.definition ∉ lightDefinitions) → ∀ run', ∀ p' : Hardware.Pieces run',
        run.SharesGeometry run' → p'.writtenVertex = p.writtenVertex) := by
  obtain ⟨g, log, run, p, vertex, pixel, building, ran, finish, _, shape⟩ :=
    Generator.generate_pieces hardware made ok
  obtain ⟨graph, sameTarget, _⟩ := Generator.run_graph ran
  have runs : run.target.isHardware = true := by
    rw [sameTarget, (Generator.create_ok made).1]
    exact hardware
  obtain ⟨built, settled⟩ := Generator.buildGraph_ready made building
  have classed := Generator.run_classed hardware made built settled ran
  obtain ⟨q, blocks, _, orderly, connectors⟩ := p.ports runs made ran
  have written : p.vertex.members vertexData = q.read := by
    rw [← orderly.same]
    simp [Stage.members, Stage.block?, blocks, Ports.vertexBlocks, vertexData, privateUniforms,
      publicUniforms, vertexInputs]
  refine ⟨g, log, run, p, vertex, pixel, building, ran, shape, p.vertex_name finish, finish,
    Hardware.vertexFrame_body p.framesVertex, ?_, ?_, ?_⟩
  · simp [Stage.members, Stage.block?, blocks, Ports.vertexBlocks, privateUniforms, publicUniforms]
  · rw [← graph]
    refine p.vertexNodes_assign_iff runs classed fun id ordered c connects => ?_
    rw [written]
    exact (connectors c).2 ⟨id, ordered, connects⟩
  · rw [← graph]
    exact fun unlit run' p' shares => p.writtenVertex_eq runs classed unlit shares p'

theorem vertex_stage_geometric_iff_coordinates :
    ∃ gen shader, Target.glsl.isHardware = true ∧ Generator.create .glsl .bundled = .ok gen ∧
      (gen.generate "uv" (coordinatesDocument "scale") {}).result = .ok shader ∧
      ∃ g log run, ∃ p : Hardware.Pieces run, ∃ vertex pixel,
        gen.buildGraph (coordinatesDocument "scale") {} = .ok (g, log) ∧
        gen.run g (Session.begin {} .glsl) = .ok run ∧ shader.stages = [vertex, pixel] ∧
        vertex.name = vertexStage ∧ p.writtenVertex.finish gen.dialect = .ok vertex ∧
        Hardware.VertexBody run p.vertex p.vertexFrame ∧ p.vertex.members publicUniforms = [] ∧
        ((∀ x ∈ p.vertexNodes, p.vertex.AssignsConnector x) ↔
          ∀ n ∈ g.nodes, n.definition ∉ lightDefinitions) ∧
        ((∀ n ∈ g.nodes, n.definition ∉ lightDefinitions) → ∀ run', ∀ p' : Hardware.Pieces run',
          run.SharesGeometry run' → p'.writtenVertex = p.writtenVertex) := by
  obtain ⟨gen, shader, _, _, _, made, ok, _⟩ := coordinatesShaders_ok
  exact ⟨gen, shader, rfl, made, ok, vertex_stage_geometric_iff rfl made ok⟩

def pointLightDocument : Document where
  version := "1"
  metadata := ⟨"", none, none⟩
  inputs := []
  nodes := [⟨"l", "point_light", "lightshader", none, [], [], []⟩]
  connections := []
  outputs := [⟨"o", "lightshader", ⟨"l", "out"⟩⟩]
  nodegraphs := []

/-- The vertex stage calls a function of the library with published inputs and the variable of a
node; none of them is declared there. -/
theorem vertex_stage_calls_point_light :
    ∃ gen shader vertex pixel, Generator.create .glsl .bundled = .ok gen ∧
      (gen.generate "light" pointLightDocument {}).result = .ok shader ∧
      shader.stages = [vertex, pixel] ∧ vertex.name = vertexStage ∧
      "    mx_point_light(l_position, l_color, l_intensity, l_out);" ∈ Text.lines vertex.source := by
  have made := Generator.create_bundled .glsl
  have works : ∃ shader, ((Generator.bundled .glsl).generate "light" pointLightDocument
      {}).result = .ok shader := by
    apply Generator.generate_works
    decide +kernel
  -- The code of the node alone, evaluated in a stage without variables.
  have evaluated : (do
      let built ← (Generator.bundled .glsl).buildGraph pointLightDocument {}
      let run ← (Generator.bundled .glsl).run built.1 (Session.begin {} .glsl)
      let own ← run.simpleCode (Stage.start vertexStage "main") 0
      return ((run.realization 0).isCall, run.classNodes Hardware.vertexClasses,
        Code.lineTextsAll own) : Result (Bool × List NodeId × List String)).toOption =
      some (true, [0], ["lightshader l_out = lightshader(vec3(0.0), vec3(0.0))",
        "mx_point_light(l_position, l_color, l_intensity, l_out)"]) := by
    simp only [Generator.run_bundled_eq]
    rw [Generator.bundled, Library.bundled_eq]
    decide +kernel
  obtain ⟨shader, ok⟩ := works
  obtain ⟨g, log, run, p, vertex, pixel, building, ran, finish, _, shape⟩ :=
    Generator.generate_pieces rfl made ok
  obtain ⟨built, settled⟩ := Generator.buildGraph_ready made building
  have classed := Generator.run_classed rfl made built settled ran
  have known := Generator.run_bundled rfl made built ran
  obtain ⟨⟨g', log'⟩, building', rest⟩ := Result.bind_ok.1 (Result.toOption_eq_some.1 evaluated)
  cases building.symm.trans building'
  obtain ⟨run', ran', rest⟩ := Result.bind_ok.1 rest
  cases ran.symm.trans ran'
  obtain ⟨own, code, rest⟩ := Result.bind_ok.1 rest
  simp only [Result.pure_ok, Prod.mk.injEq] at rest
  obtain ⟨call, nodes, texts⟩ := rest
  have statements := (Run.call_statements known.hardware call code).2
  rw [← Run.simpleCode_call call p.vertex] at code
  obtain ⟨parts, each, flat⟩ := p.vertexNodes_flat classed
  rw [nodes] at each
  obtain ⟨_, _, code', none, rfl⟩ := List.forall₂_cons_left_iff.1 each
  cases List.forall₂_nil_left_iff.1 none
  cases code.symm.trans code'
  rw [List.flatten_singleton] at flat
  have member : .statement "mx_point_light(l_position, l_color, l_intensity, l_out)" ∈
      p.vertexNodes := by
    rw [flat]
    exact Code.statement_mem_of_lineTextsAll statements (by simp [texts])
  have lines : ∀ c ∈ p.vertexNodes, c.isFlat := by
    intro c inside
    obtain ⟨text, rfl⟩ := statements c (flat ▸ inside)
    rfl
  exact ⟨_, shader, vertex, pixel, made, ok, shape, p.vertex_name finish,
    p.vertex_statement known finish lines member (by decide)⟩

end MaterialShader
