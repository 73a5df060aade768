import MaterialShader.Proofs.Emission.PixelStage
import MaterialShader.Proofs.Emission.Ports

/-!
Names in the interface of a hardware shader.
-/

namespace MaterialShader

open List Result Stage
open Emission (Yields)
open Emission.Ensures

def GeometricKind.isAttribute : GeometricKind → Bool
  | .texcoord | .geomColor | .geomPropValue => true
  | _ => false

inductive Run.ReadsAttribute (run : Run) (id : NodeId) (c : String) : Prop
  | intro {kind : GeometricKind} {n : GraphNode} {o : Output}
      (realized : run.realization id = .geometric kind) (attr : kind.isAttribute = true)
      (node : run.node id = .ok n) (output : run.firstOutput id = .ok o)
      (named : kind.connector? n o.type.name = .ok (some c))

def connectorFronts : List String := fixedConnectors ++ ["texcoord_", "color_", "geomprop_"]

namespace Run

variable {run : Run} {id : NodeId} {c : String}

theorem Connects.front (connects : run.Connects id c) :
    ∃ front ∈ connectorFronts, ∃ back, c = front ++ back := by
  cases connects with
  | @geometric kind _ _ _ _ _ _ named =>
    obtain ⟨_, fixed⟩ | ⟨own, front, attr, fronts, _, rfl⟩ := GeometricKind.connector?_ok named
    · exact ⟨c, mem_append_left _ fixed, "", by simp⟩
    · exact ⟨front, by cases kind <;> cases fronts <;> decide, attr, rfl⟩
  | light => exact ⟨"positionWorld", by decide, "", by simp⟩

theorem Connects.fixed_or_attribute (connects : run.Connects id c) :
    c ∈ fixedConnectors ∨ run.ReadsAttribute id c := by
  cases connects with
  | @geometric kind _ _ _ realized node output named =>
    obtain ⟨_, fixed⟩ | ⟨_, _, _, fronts, _⟩ := GeometricKind.connector?_ok named
    · exact .inl fixed
    · exact .inr ⟨realized, by cases kind <;> cases fronts <;> rfl, node, output, named⟩
  | light => exact .inl (by decide)

theorem ReadsAttribute.connects (reads : run.ReadsAttribute id c) : run.Connects id c := by
  obtain ⟨realized, _, node, output, named⟩ := reads
  exact .geometric realized node output named

theorem Connects.start (connects : run.Connects id c) :
    Text.startsWith "u_" c = false ∧ Text.startsWith "i_" c = false := by
  obtain ⟨front, member, back, rfl⟩ := connects.front
  have all : ∀ front ∈ connectorFronts, ∀ start ∈ ["u_", "i_"],
      start.length ≤ front.length ∧ Text.startsWith start front = false := by
    decide
  have other (start : String) (listed : start ∈ ["u_", "i_"]) :
      Text.startsWith start (front ++ back) = false := by
    obtain ⟨short, different⟩ := all front member start listed
    by_contra stands
    rw [Bool.not_eq_false] at stands
    simp [Text.startsWith_of_append short stands] at different
  exact ⟨other "u_" (by decide), other "i_" (by decide)⟩

end Run

theorem nodup_ports_iff {A S C G O : List String} (uniforms : A.Nodup) (connectors : C.Nodup)
    (graph : (S ++ O ++ G).Nodup) (apart : ∀ c ∈ A, c ∉ S ++ O ++ G) (unlike : ∀ c ∈ A, c ∉ C) :
    (A ++ S ++ C ++ G ++ O).Nodup ↔ ∀ c ∈ C, c ∉ S ++ O ++ G := by
  grind

theorem HasPorts.portNames {target : Target} {declared : List Stage} {p : Ports}
    {vertex pixel vertex' pixel' : Stage} {d : Dialect} {finished finished' : FinishedStage} (ports : HasPorts target declared p)
    (first : Stage.named declared vertexStage = .ok vertex)
    (second : Stage.named declared pixelStage = .ok pixel)
    (keeps : vertex.Keeps vertex') (keeps' : pixel.Keeps pixel')
    (finish : vertex'.finish d = .ok finished) (finish' : pixel'.finish d = .ok finished') :
    finished.portNames = p.vertexUniforms.map StageVariable.name ++
      p.attributes.map StageVariable.name ++ p.written.map StageVariable.name ∧
    finished'.portNames = p.pixelUniforms.map StageVariable.name ++
      p.published.map StageVariable.name ++ p.read.map StageVariable.name ++
      p.drawn.map StageVariable.name := by
  obtain ⟨v, x, rfl, isVertex, isPixel, vertexBlocks, pixelBlocks⟩ := ports
  obtain ⟨rfl, rfl⟩ := named_pair isVertex isPixel first second
  rw [(finish_ports finish).2, (finish_ports finish').2]
  simp only [keeps.namesOf, keeps'.namesOf]
  simp only [Stage.namesOf, Stage.blocksOf, vertexBlocks, pixelBlocks]
  simp [Ports.vertexBlocks, Ports.pixelBlocks, Block.names]

theorem Generator.run_names {lib : Library} {target : Target} {gen : Generator} {g : Graph}
    {s : Session} {run : Run} (made : Generator.create target lib = .ok gen)
    (ok : gen.run g s = .ok run) : run.names = .ofGraph (.ofTarget target) g := by
  obtain ⟨_, _, made⟩ := bind_ok.1 made
  cases pure_ok.1 made
  obtain ⟨_, _, ok⟩ := bind_ok.1 ok
  cases pure_ok.1 ok
  rfl

namespace Ports.Orderly

variable {run : Run} {p : Ports}

theorem vertex_nodup (orderly : p.Orderly)
    (connectors : ∀ c, c ∈ p.read.map StageVariable.name ↔
      ∃ id ∈ run.graph.order, run.Connects id c) :
    (p.vertexUniforms.map StageVariable.name ++ p.attributes.map StageVariable.name ++
      p.written.map StageVariable.name).Nodup := by
  have uniforms : ∀ c ∈ generatorUniforms,
      Text.startsWith "u_" c ∧ Text.startsWith "i_" c = false := by
    decide
  rw [orderly.same, nodup_append, nodup_append]
  refine ⟨⟨orderly.distinctVertexUniforms, orderly.distinctAttributes, ?_⟩,
    orderly.distinctConnectors, ?_⟩
  · rintro c first _ second rfl
    have here := (uniforms c (orderly.vertexUniforms c first)).2
    simp [orderly.attributes c second] at here
  · rintro c first _ second rfl
    obtain ⟨id, _, connects⟩ := (connectors c).1 second
    obtain ⟨notUniform, notAttribute⟩ := connects.start
    obtain uniform | vertexInput := mem_append.1 first
    · have here := (uniforms c (orderly.vertexUniforms c uniform)).1
      simp [notUniform] at here
    · have here := orderly.attributes c vertexInput
      simp [notAttribute] at here

theorem pixel_nodup_iff (orderly : p.Orderly) {d : Dialect} {g : Graph}
    (named : run.names = .ofGraph d g)
    (connectors : ∀ c, c ∈ p.read.map StageVariable.name ↔
      ∃ id ∈ run.graph.order, run.Connects id c) :
    (p.pixelUniforms.map StageVariable.name ++ run.names.sockets ++
        p.read.map StageVariable.name ++ run.names.graphOutputs ++
        run.names.outputs.flatten).Nodup ↔
      ∀ id ∈ run.graph.order, ∀ c, run.ReadsAttribute id c → c ∉ run.names.all := by
  have unreserved (c : String) (member : c ∈ run.names.all) : c ∉ reservedWords := by
    rw [named] at member
    exact Names.ofGraph_unreserved member
  have distinct : run.names.all.Nodup := by
    rw [named]
    exact Names.ofGraph_nodup d g
  have apart : ∀ c ∈ p.pixelUniforms.map StageVariable.name, c ∉ run.names.all := by
    intro c uniform member
    have word := (mem_filter.1 (orderly.pixelUniforms c uniform)).1
    exact unreserved c member word
  have unlike : ∀ c ∈ p.pixelUniforms.map StageVariable.name,
      c ∉ p.read.map StageVariable.name := by
    intro c uniform member
    obtain ⟨id, _, connects⟩ := (connectors c).1 member
    have start := (mem_filter.1 (orderly.pixelUniforms c uniform)).2
    simp [connects.start.1] at start
  rw [nodup_ports_iff orderly.distinctPixelUniforms orderly.distinctConnectors distinct apart
    unlike]
  constructor
  · intro free id ordered c reads
    exact free c ((connectors c).2 ⟨id, ordered, reads.connects⟩)
  · intro free c member inGraph
    obtain ⟨id, ordered, connects⟩ := (connectors c).1 member
    obtain fixed | reads := connects.fixed_or_attribute
    · have words : ∀ c ∈ fixedConnectors, c ∈ reservedWords := by decide
      exact unreserved c inGraph (words c fixed)
    · exact free id ordered c reads inGraph

end Ports.Orderly

/-- The names in the vertex stage of a hardware shader are all different. Those in the pixel stage
are, unless a variable of the graph has the name of the connector of an attribute. -/
theorem port_names_distinct_iff {target : Target} (hardware : target.isHardware = true)
    {lib : Library} {gen : Generator} (made : Generator.create target lib = .ok gen)
    {name : String} {doc : Document} {s : Session} {shader : Shader}
    (ok : (gen.generate name doc s).result = .ok shader) :
    ∃ g log run vertex pixel, gen.buildGraph doc s = .ok (g, log) ∧
      gen.run g (s.begin target) = .ok run ∧ shader.stages = [vertex, pixel] ∧
      vertex.name = vertexStage ∧ pixel.name = pixelStage ∧ vertex.portNames.Nodup ∧
      ((pixel.portNames ++ run.names.outputs.flatten).Nodup ↔
        ∀ id ∈ g.order, ∀ c, run.ReadsAttribute id c → c ∉ run.names.all) := by
  obtain ⟨g, log, run, stages, building, ran, assembled, finishing⟩ := Generator.generate_ok ok
  have same := (Generator.create_ok made).1
  obtain ⟨graph, target', _⟩ := Generator.run_graph ran
  have runTarget : run.target = target := target'.trans same
  have names := Generator.run_names made ran
  have distinct := Names.ofGraph_nodup (.ofTarget target) g
  have length : run.names.sockets.length = run.graph.inputSockets.length := by
    simp [names, graph, Names.ofGraph, Dialect.length_reserveAll]
  rw [← names, Names.all, List.nodup_append, List.nodup_append] at distinct
  obtain ⟨declared, vertex, pixel, _, _, declaring, first, second, writes, writes', rfl⟩ :=
    Hardware.assemble_ensures (runTarget ▸ hardware) (Hardware.stages_declared run) stages assembled
  obtain ⟨p, ports, orderly, published, drawn, connectors⟩ := Hardware.declareStages_ports
    (runTarget ▸ hardware) distinct.1.1 distinct.2.1 length declared declaring
  obtain ⟨vertex', _, finishVertex, others, shape⟩ := List.forall₂_cons_left_iff.1 finishing
  obtain ⟨pixel', _, finishPixel, none, rfl⟩ := List.forall₂_cons_left_iff.1 others
  obtain rfl := List.forall₂_nil_left_iff.1 none
  obtain ⟨vertexNames, pixelNames⟩ := ports.portNames first second writes.keeps
    writes'.keeps finishVertex finishPixel
  refine ⟨g, log, run, vertex', pixel', building, same ▸ ran, shape, ?_, ?_, ?_, ?_⟩
  · rw [(Stage.finish_ports finishVertex).1, writes.keeps.name, name_of_named first]
  · rw [(Stage.finish_ports finishPixel).1, writes'.keeps.name, name_of_named second]
  · rw [vertexNames]
    exact orderly.vertex_nodup connectors
  · rw [pixelNames, published, drawn, ← graph]
    exact orderly.pixel_nodup_iff names connectors

/-- Texture coordinates, next to an input of the given name. -/
def coordinatesDocument (input : String) : Document where
  version := "1"
  metadata := ⟨"", none, none⟩
  inputs := [⟨input, "float", none⟩]
  nodes := [⟨"uv", "texcoord", "vector2", none, [], [], []⟩]
  connections := []
  outputs := [⟨"out", "vector2", ⟨"uv", "out"⟩⟩]
  nodegraphs := []

theorem coordinatesShaders_ok :
    ∃ gen clear clashing vertex pixel, Generator.create .glsl .bundled = .ok gen ∧
      (gen.generate "uv" (coordinatesDocument "scale") {}).result = .ok clear ∧
      (gen.generate "uv" (coordinatesDocument "texcoord_0") {}).result = .ok clashing ∧
      clashing.stages = [vertex, pixel] ∧ ¬ pixel.portNames.Nodup := by
  have clear : ∃ shader, ((Generator.bundled .glsl).generate "uv" (coordinatesDocument "scale")
      {}).result = .ok shader := by
    apply Generator.generate_works
    decide +kernel
  -- Names are compared in the outline: code adds none.
  have works : ((Generator.outline .glsl "uv" (coordinatesDocument "texcoord_0")
      {}).toOption.any fun stages => stages.all (Stage.finishes · (.ofTarget .glsl)) &&
        stages.map (fun stage => decide (stage.namesOf .uniform ++ stage.namesOf .input ++
          stage.namesOf .output).Nodup) == [true, false]) := by
    decide +kernel
  obtain ⟨shader, ok⟩ := clear
  obtain ⟨outlined, found, checked⟩ := (Option.any_eq_true _ _).1 works
  rw [Bool.and_eq_true, all_eq_true, beq_iff_eq] at checked
  obtain ⟨can, names⟩ := checked
  obtain ⟨clashing, ok', coded⟩ := Generator.generate_of_outline (toOption_eq_some.1 found) can
  obtain ⟨_, _, rfl, _, rest⟩ := map_eq_cons_iff.1 names
  obtain ⟨_, _, rfl, clash, none⟩ := map_eq_cons_iff.1 rest
  obtain rfl := map_eq_nil_iff.1 none
  obtain ⟨vertex, _, _, others, stages⟩ := forall₂_cons_left_iff.1 coded
  obtain ⟨pixel, _, ⟨_, writes, finish⟩, last, rfl⟩ := forall₂_cons_left_iff.1 others
  obtain rfl := forall₂_nil_left_iff.1 last
  refine ⟨_, shader, clashing, vertex, pixel, Generator.create_bundled .glsl, ok, ok', stages, ?_⟩
  rw [(finish_ports finish).2]
  simp only [writes.keeps.namesOf]
  exact of_decide_eq_false clash

theorem port_names_distinct_iff_coordinates :
    ∃ gen shader, Target.glsl.isHardware = true ∧ Generator.create .glsl .bundled = .ok gen ∧
      (gen.generate "uv" (coordinatesDocument "scale") {}).result = .ok shader ∧
      ∃ g log run vertex pixel, gen.buildGraph (coordinatesDocument "scale") {} = .ok (g, log) ∧
        gen.run g (Session.begin {} .glsl) = .ok run ∧ shader.stages = [vertex, pixel] ∧
        vertex.name = vertexStage ∧ pixel.name = pixelStage ∧ vertex.portNames.Nodup ∧
        ((pixel.portNames ++ run.names.outputs.flatten).Nodup ↔
          ∀ id ∈ g.order, ∀ c, run.ReadsAttribute id c → c ∉ run.names.all) := by
  obtain ⟨gen, shader, _, _, _, made, ok, _⟩ := coordinatesShaders_ok
  exact ⟨gen, shader, rfl, made, ok, port_names_distinct_iff rfl made ok⟩

/-- An input with the name of the connector of the first texture coordinates: the pixel stage has
the name twice. -/
theorem port_names_clash_coordinates :
    ∃ gen shader vertex pixel, Generator.create .glsl .bundled = .ok gen ∧
      (gen.generate "uv" (coordinatesDocument "texcoord_0") {}).result = .ok shader ∧
      shader.stages = [vertex, pixel] ∧ ¬ pixel.portNames.Nodup := by
  obtain ⟨gen, _, shader, vertex, pixel, made, _, ok, stages, clash⟩ := coordinatesShaders_ok
  exact ⟨gen, shader, vertex, pixel, made, ok, stages, clash⟩

open Generator

theorem Generator.generate_pieces {target : Target} (hardware : target.isHardware)
    {lib : Library} {gen : Generator} (made : Generator.create target lib = .ok gen)
    {name : String} {doc : Document} {s : Session} {shader : Shader}
    (ok : (gen.generate name doc s).result = .ok shader) :
    ∃ g log run, ∃ p : Hardware.Pieces run, ∃ vertex pixel, gen.buildGraph doc s = .ok (g, log) ∧
      gen.run g (s.begin target) = .ok run ∧ p.writtenVertex.finish gen.dialect = .ok vertex ∧
      p.writtenPixel.finish gen.dialect = .ok pixel ∧ shader.stages = [vertex, pixel] := by
  obtain ⟨g, log, run, stages, building, ran, assembled, finishing⟩ := generate_ok ok
  have same := (create_ok made).1
  have runTarget : run.target = target := (run_graph ran).2.1.trans same
  obtain ⟨p, rfl⟩ := Hardware.assemble_ensures (runTarget ▸ hardware)
    (Hardware.stages_pieces run) stages assembled
  obtain ⟨vertex, _, finishVertex, others, shape⟩ := forall₂_cons_left_iff.1 finishing
  obtain ⟨pixel, _, finishPixel, none, rfl⟩ := forall₂_cons_left_iff.1 others
  obtain rfl := forall₂_nil_left_iff.1 none
  exact ⟨g, log, run, p, vertex, pixel, building, same ▸ ran, finishVertex, finishPixel, shape⟩

section

variable {lib : Library} {target : Target} {gen : Generator} {g : Graph} {s : Session} {run : Run}

theorem Generator.run_sockets (made : Generator.create target lib = .ok gen)
    (ran : gen.run g s = .ok run) :
    run.names.sockets.length = run.graph.inputSockets.length := by
  rw [run_names made ran, (run_graph ran).1, Names.length_sockets]

variable (hardware : run.target.isHardware) (made : Generator.create target lib = .ok gen)
  (ran : gen.run g s = .ok run) (p : Hardware.Pieces run)

include hardware made ran

theorem Hardware.Pieces.interface : ∃ q : Ports, p.vertex.blocks = q.vertexBlocks ∧
    p.pixel.blocks = q.pixelBlocks run.target ∧ q.Orderly ∧ q.published = publicVariables run ∧
    ∀ c, c ∈ q.read.map StageVariable.name ↔ ∃ id ∈ run.graph.order, run.Connects id c := by
  have distinct := Names.ofGraph_nodup (.ofTarget target) g
  rw [← run_names made ran, Names.all, nodup_append, nodup_append] at distinct
  obtain ⟨q, _, ⟨v, x, shape, isVertex, isPixel, vertexBlocks, pixelBlocks⟩, orderly, _, published,
    _, connectors⟩ := Hardware.declareStages_interface hardware distinct.1.1 distinct.2.1
      (run_sockets made ran) p.declared p.declares
  obtain ⟨rfl, rfl⟩ := p.eq_of_declared shape isVertex isPixel
  exact ⟨q, vertexBlocks, pixelBlocks, orderly, published, connectors⟩

theorem Hardware.Pieces.ports : ∃ q : Ports, p.vertex.blocks = q.vertexBlocks ∧
    p.pixel.blocks = q.pixelBlocks run.target ∧ q.Orderly ∧
    ∀ c, c ∈ q.read.map StageVariable.name ↔ ∃ id ∈ run.graph.order, run.Connects id c := by
  obtain ⟨q, vertex, pixel, orderly, _, connectors⟩ := p.interface hardware made ran
  exact ⟨q, vertex, pixel, orderly, connectors⟩

end

end MaterialShader
