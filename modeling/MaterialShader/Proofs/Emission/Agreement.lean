import MaterialShader.Proofs.Emission.Connectors

/-!
The two stages of a hardware shader agree on what stands between them.
-/

namespace MaterialShader

open List Stage
open Result.Ensures
open Result (bind_ok mapM_ok pure_ok)
open Text (isLayout isPlain lines)

def InterfaceVariable.DeclaredBy (d : Dialect) (v : InterfaceVariable) (text : String) : Prop :=
  ∃ t type, t.name = v.typeName ∧ d.typeName t = .ok type ∧ text = s!"{type} {v.name}"

theorem Hardware.memberTexts_declare {run : Run} {b : Block} {vs : List StageVariable}
    {listed : List InterfaceVariable} {members : List String}
    (shown : vs.mapM (InterfaceVariable.ofVariable run.dialect b) = .ok listed)
    (texts : vs.mapM (memberText run) = .ok members) :
    List.Forall₂ (InterfaceVariable.DeclaredBy run.dialect) listed members := by
  have first := mapM_ok shown
  have second := mapM_ok texts
  clear shown texts
  induction first generalizing members with
  | nil =>
    cases second
    exact .nil
  | @cons v i vs listed own _ ih =>
    cases second with
    | cons text others =>
      refine .cons ?_ (ih others)
      obtain ⟨_, name, typeName⟩ := InterfaceVariable.ofVariable_ok own
      obtain ⟨type, typed, text⟩ := bind_ok.1 text
      cases pure_ok.1 text
      exact ⟨v.type, type, typeName.symm, typed, by rw [name]⟩

namespace Hardware

def dataRows (members : List String) : List String :=
  ["struct VertexData", "\x7b", "    float4 pos [[position]];"] ++
    members.map (fun member => "    " ++ member ++ ";") ++ ["\x7d;"]

variable {run : Run} {stage : Stage} {vs : List StageVariable}

theorem rowsAll_statements (scopes : List Brackets) (texts : List String) :
    Code.rowsAll scopes (texts.map Code.statement) =
      texts.map fun text => Stage.indentation scopes.length ++ text ++ ";" := by
  induction texts with
  | nil => rfl
  | cons text rest ih =>
    rw [map_cons, Code.rowsAll]
    exact congrArg (_ :: ·) ih

theorem vertexDataCode_rows (members : List String) :
    (vertexDataCode members).all Code.isPlain ∧
      Code.rowsAll [] (vertexDataCode members) = dataRows members ++ [""] := by
  have body : Code.Nested (("float4 pos [[position]]" :: members).map Code.statement) :=
    Code.nested_map (fun _ => rfl) _
  have rows := Code.rowsAll_append (body [.braces]) [.closeScope true, .blank]
  rw [rowsAll_statements] at rows
  refine ⟨by simp [vertexDataCode, Code.block, Code.isPlain], ?_⟩
  simpa [vertexDataCode, Code.block, Code.rowsAll, Code.rows, Code.after, Code.bracketRows,
    Brackets.opening, Brackets.closing, Stage.indentation, Stage.indentUnit, dataRows] using rows

def HasData (members : List String) (code : List Code) : Prop :=
  ∃ before after, Code.Nested before ∧ code = before ++ vertexDataCode members ++ after

theorem HasData.around {members : List String} {f : Frame} (has : HasData members f.front)
    (nodes : List Code) : HasData members (f.around nodes) := by
  obtain ⟨before, after, nested, split⟩ := has
  rw [Frame.around, split, append_assoc]
  exact ⟨before, _, nested, rfl⟩

theorem vertexFrame_hasData (msl : run.target = .msl) :
    (vertexFrame run stage).Ensures fun out => ∃ members,
      (stage.members vertexData).mapM (memberText run) = .ok members ∧ HasData members out.1.front := by
  refine bind fun uniforms ok' => bind fun outer ok => after fun vector4 => ?_
  obtain ⟨inputs, _, ok⟩ := bind_ok.1 ok
  obtain ⟨members, texts, ok⟩ := bind_ok.1 ok
  rw [if_pos msl] at ok ⊢
  cases pure_ok.1 ok
  have inner : Code.Nested (numbered (indexedLine "attribute") 0 inputs) :=
    Code.nested_closed.numbered nofun 0
  have before := ((header_nested run.target).append (uniformBlocks_nested _ uniforms ok')).append
    (inner.block "struct VertexInputs" true)
  exact after fun entry => pure ⟨members, texts, _, [], before, by simp⟩

theorem pixelFrame_hasData (msl : run.target = .msl) (binding : Nat) :
    (pixelFrame run stage binding).Ensures fun frame => ∃ members,
      (stage.members vertexData).mapM (memberText run) = .ok members ∧ HasData members frame.front := by
  refine bind fun lightHead lit => bind fun uniforms ok' => bind fun outer ok => ?_
  refine after fun functions => ?_
  obtain ⟨members, texts, ok⟩ := bind_ok.1 ok
  obtain ⟨outputs, _, ok⟩ := bind_ok.1 ok
  rw [if_pos msl] at ok ⊢
  cases pure_ok.1 ok
  have lights : Code.Nested (if isLit run && !(run.target = .msl : Bool) then
      lightBlock stage uniforms.2 else []) := Code.Nested.ite (fun _ => rfl) .nil _
  have before := ((preamble_nested lightHead lit).append
    (uniformBlocks_nested _ uniforms ok')).append lights
  exact after fun entry => pure ⟨members, texts, _,
    Code.block "struct PixelOutputs" (numbered (indexedLine "color") 0 outputs) true ++ functions,
    before, by simp⟩

theorem HasData.rows {members : List String} {code : List Code} (has : HasData members code)
    (own : ∀ text ∈ members, isPlain text) {s t : Stage} (ok : s.writeAll code = .ok t)
    {tokens : List (String × String)} (tame : ∀ entry ∈ tokens, Token.Tame entry) :
    dataRows members <:+: (Code.rowsAll [] (s.effectiveAll code)).map (Token.substitute tokens) := by
  obtain ⟨before, after, nested, rfl⟩ := has
  obtain ⟨allPlain, rows⟩ := vertexDataCode_rows members
  have unmarked : ∀ row ∈ dataRows members, Text.Unmarked row := by
    intro row member
    simp only [dataRows, mem_append, mem_map] at member
    refine (Text.isPlain_iff.1 ?_).1
    obtain (fixed | ⟨text, listed, rfl⟩) | last := member
    · have all : ∀ row ∈ ["struct VertexData", "\x7b", "    float4 pos [[position]];"],
          isPlain row := by decide
      exact all row fixed
    · simp +decide [own text listed]
    · have all : ∀ row ∈ ["\x7d;"], isPlain row := by decide
      exact all row last
  have kept : (dataRows members).map (Token.substitute tokens) = dataRows members :=
    (map_congr_left fun row member =>
      Token.substitute_of_unmarked tame (unmarked row member)).trans (map_id _)
  rw [append_assoc] at ok ⊢
  obtain ⟨next, first, later⟩ := writeAll_append_ok.1 ok
  obtain ⟨last, here, _⟩ := writeAll_append_ok.1 later
  have closed := (effectiveAll_after first []).trans (nested [])
  have data : Code.Nested (vertexDataCode members) :=
    vertexDataCode_closed Code.nested_closed nofun
  rw [effectiveAll_append first, Code.rowsAll_append closed, effectiveAll_append here,
    (writeAll_plain allPlain here).1, Code.rowsAll_append (data []), rows, map_append, map_append,
    map_append, kept, append_assoc]
  exact ⟨_, _, append_assoc _ _ _⟩

theorem covers_of_mark {tokens : List String} (mark : "$" ∈ tokens) (text : String) :
    Token.covers tokens text := by
  unfold Token.covers
  induction text.toList with
  | nil => rfl
  | cons c cs ih =>
    refine Token.coversChars_cons.2 ⟨fun same => ⟨['$'], mem_map.2 ⟨"$", mark, by decide⟩, ?_⟩, ih⟩
    rw [same]
    exact ⟨cs, rfl⟩

namespace Pieces

variable (p : Pieces run)

theorem pixel_unbroken (known : run.Bundled) (library : run.library = .bundled) :
    ∀ text ∈ Code.lineTextsAll (p.pixelFrame.around (p.pixelNodes ++ p.outputs)),
      Text.isUnbroken text := by
  obtain ⟨_, _, _, tame, _, _⟩ := p.tokened known
  have inner : ∀ t ∈ "$" :: p.pixel.tokens.map Prod.fst, '\n' ∉ t.toList := by
    rw [forall_mem_cons]
    refine ⟨by decide, fun t member => ?_⟩
    obtain ⟨entry, listed, rfl⟩ := mem_map.1 member
    obtain ⟨own, split, word⟩ := (tame.entries entry listed).token
    rw [split]
    intro inside
    rw [String.toList_append, mem_append] at inside
    obtain mark | inside := inside
    · exact absurd mark (by decide)
    · have := all_eq_true.1 word _ inside
      simp [Text.isWordChar, Text.isPlainChar, Text.isInnerChar] at this
  have lights : TameLights ("$" :: p.pixel.tokens.map Prod.fst) run := by
    intro light _ f made
    obtain ⟨name, clean, _⟩ := CodeSource.isQuiet_function (lightFunction_quiet library light f made)
    have covered (text : String) : Token.covers ("$" :: p.pixel.tokens.map Prod.fst) text :=
      covers_of_mark mem_cons_self text
    refine ⟨Bool.and_eq_true_iff.2 ⟨covered f.1, name⟩, ?_⟩
    have lines := Token.lines_fit inner clean (covered f.2)
    simpa [Code.Fits, Code.lineTextsAll, Code.lineTexts] using lines
  exact fun text inside => (Bool.and_eq_true_iff.1
    (p.pixel_fits known (subset_cons_self _ _) lights text inside)).2

variable {q : Ports} (orderly : q.Orderly)

theorem vertex_members (blocks : p.vertex.blocks = q.vertexBlocks) :
    p.vertex.members privateUniforms = q.vertexUniforms ∧ p.vertex.members publicUniforms = [] ∧
      p.vertex.members vertexData = q.written := by
  simp [Stage.members, Stage.block?, blocks, Ports.vertexBlocks, vertexData, privateUniforms,
    publicUniforms, vertexInputs]

theorem pixel_members (blocks : p.pixel.blocks = q.pixelBlocks run.target) :
    p.pixel.members vertexData = q.read := by
  simp [Stage.members, Stage.block?, blocks, Ports.pixelBlocks, vertexData, privateUniforms,
    publicUniforms]

include orderly in
theorem interfaces (blocks : p.vertex.blocks = q.vertexBlocks)
    (blocks' : p.pixel.blocks = q.pixelBlocks run.target) {d : Dialect} {vertex pixel : FinishedStage}
    (finishVertex : p.writtenVertex.finish d = .ok vertex)
    (finishPixel : p.writtenPixel.finish d = .ok pixel) :
    q.read.mapM (InterfaceVariable.ofVariable d ⟨.output, vertexData, "vd", q.read⟩) =
        .ok vertex.outputs ∧
      vertex.outputs = pixel.inputs ∧ (∀ v ∈ vertex.outputs, v.block = vertexData) ∧
      vertex.outputs.map InterfaceVariable.name = q.read.map StageVariable.name := by
  obtain ⟨_, _, _, _, outputs, _⟩ := finish_ok finishVertex
  obtain ⟨_, _, _, inputs, _⟩ := finish_ok finishPixel
  rw [(writeAll_keeps p.writesVertex).interface] at outputs
  rw [(writeAll_keeps p.writesPixel).interface] at inputs
  have first : p.vertex.blocksOf .output = [⟨.output, vertexData, "vd", q.read⟩] := by
    simp [Stage.blocksOf, blocks, Ports.vertexBlocks, orderly.same]
  have second : p.pixel.blocksOf .input = [⟨.input, vertexData, "vd", q.read⟩] := by
    simp [Stage.blocksOf, blocks', Ports.pixelBlocks]
  have written := interface_single first outputs
  have read := interface_single second inputs
  refine ⟨written, Except.ok.inj (written.symm.trans read), fun v member => ?_,
    Result.mapM_ok_map (fun _ _ => InterfaceVariable.name_ofVariable) written⟩
  obtain ⟨_, _, listed⟩ := exists_of_mem_right (mapM_ok written) member
  exact (InterfaceVariable.ofVariable_ok listed).1

include orderly in
theorem vertex_named (blocks : p.vertex.blocks = q.vertexBlocks) :
    ∀ block ∈ [privateUniforms, publicUniforms], ∀ v ∈ p.vertex.members block,
      Text.isIdentifier v.name.toList := by
  obtain ⟨uniforms, published, _⟩ := p.vertex_members blocks
  have words : ∀ c ∈ generatorUniforms, Text.isIdentifier c.toList := by decide
  simp only [forall_mem_cons, not_mem_nil, false_imp_iff, implies_true, and_true, uniforms,
    published]
  exact fun v member => words _ (orderly.vertexUniforms _ (mem_map_of_mem member))

end Pieces

end Hardware

def Text.bindings (source : String) : List Nat := (lines source).filterMap binding?

structure StagesAgree (target : Target) (vertex pixel : FinishedStage) : Prop where
  /-- The same variables with the same types in the same order. -/
  same : vertex.outputs = pixel.inputs
  block : ∀ v ∈ vertex.outputs, v.block = vertexData
  distinct : (vertex.outputs.map InterfaceVariable.name).Nodup
  /-- Each of them is assigned once in the entry point of the vertex stage. -/
  assigned : ∃ front head body,
    lines vertex.source = front ++ head :: "\x7b" :: body ++ ["\x7d"] ∧
      Text.startsWith (if target = .msl then "vertex VertexData " else "void main()") head = true ∧
      ∀ v ∈ vertex.outputs,
        body.countP (Text.assigns (VariableKind.connector.reach target v.name)) = 1
  /-- Both sources declare them by the same texts: at the same locations in GLSL, and in the same
  structure in MSL. -/
  declared : ∃ members,
    List.Forall₂ (InterfaceVariable.DeclaredBy (.ofTarget target)) vertex.outputs members ∧
      (target = .glsl → ∃ slots slots' attributes drawn,
        (lines vertex.source).filter isLayout =
          Slot.lines 0 slots ++ locations "in" 0 attributes ++ locations "out" 0 members ∧
        (lines pixel.source).filter isLayout =
          Slot.lines slots.length slots' ++ locations "in" 0 members ++ locations "out" 0 drawn) ∧
      (target = .msl → Hardware.dataRows members <:+: lines vertex.source ∧
        Hardware.dataRows members <:+: lines pixel.source)
  /-- The bindings of GLSL are numbered from zero on, without a gap, through both sources. -/
  numbered : target = .glsl →
    ∃ count, Text.bindings vertex.source ++ Text.bindings pixel.source = List.range count

theorem Text.bindings_range {vertex pixel : String} {slots slots' : List Slot}
    {ins outs ins' outs' : List String}
    (first : (lines vertex).filter isLayout =
      Slot.lines 0 slots ++ locations "in" 0 ins ++ locations "out" 0 outs)
    (second : (lines pixel).filter isLayout =
      Slot.lines slots.length slots' ++ locations "in" 0 ins' ++ locations "out" 0 outs') :
    bindings vertex ++ bindings pixel = List.range (slots.length + slots'.length) := by
  have numbers : bindings vertex = List.range' 0 slots.length := by
    rw [bindings, filterMap_binding?, first]
    simp [filterMap_append, binding?_slots, binding?_locations]
  have numbers' : bindings pixel = List.range' slots.length slots'.length := by
    rw [bindings, filterMap_binding?, second]
    simp [filterMap_append, binding?_slots, binding?_locations]
  rw [numbers, numbers', range_eq_range', ← List.range'_append_1, Nat.zero_add]

namespace Hardware.Pieces

variable {run : Run} (known : run.IsNamed) (p : Pieces run) {q : Ports} (orderly : q.Orderly)
  (blocks : p.vertex.blocks = q.vertexBlocks) {d : Dialect} {vertex pixel : FinishedStage}
  (finishVertex : p.writtenVertex.finish d = .ok vertex)

section

include known finishVertex

include orderly blocks

theorem vertex_assigned : ∃ front head body,
    lines vertex.source = front ++ head :: "\x7b" :: body ++ ["\x7d"] ∧
      Text.startsWith (if run.target = .msl then "vertex VertexData " else "void main()") head ∧
      ∀ id ∈ run.graph.order, ∀ c, run.Connects id c → c ∈ q.read.map StageVariable.name →
        body.countP (Text.assigns (VariableKind.connector.reach run.target c)) = 1 := by
  obtain ⟨_, _, tame, _⟩ := p.tokened known.toBundled
  have parts : VertexParts run p.vertexFrame :=
    vertexFrame_parts known tame (p.vertex_named orderly blocks) _ p.framesVertex
  obtain ⟨text, head, begins, plain⟩ := parts.head
  have kept (row : String) (own : isPlain row) :
      Token.substitute p.vertex.tokens row = row :=
    Token.substitute_of_unmarked tame.entries (Text.isPlain_iff.1 own).1
  obtain ⟨before, ⟨first, _⟩, rows⟩ := p.vertex_rows
  have written := (writeAll_plain parts.plain first).1
  have last : Code.rowsAll [] [p.vertexFrame.head] = [text] := by
    simp [head, Code.rowsAll, Code.rows, Stage.indentation]
  refine ⟨(Code.rowsAll [] p.vertexFrame.front).map (Token.substitute p.vertex.tokens), text, _, ?_,
    begins, fun id ordered c connects read =>
      p.assigned_once known parts first blocks orderly ordered connects read⟩
  rw [p.vertex_lines known.toBundled finishVertex, rows, written,
    Code.rowsAll_append (p.vertexNested.1.front []), last]
  simp [kept text plain, kept "\x7b" (by decide), kept "\x7d" (by decide)]

end

variable (blocks' : p.pixel.blocks = q.pixelBlocks run.target)
  (finishPixel : p.writtenPixel.finish d = .ok pixel) (library : run.library = .bundled)

section

include known finishPixel library

theorem pixel_lines : lines pixel.source =
    (Code.rowsAll [] (p.pixel.effectiveAll
      (p.pixelFrame.around (p.pixelNodes ++ p.outputs)))).map
        (Token.substitute p.pixel.tokens) := by
  obtain ⟨_, _, _, tame, _⟩ := p.tokened known.toBundled
  exact tame.finish_lines p.writesPixel finishPixel (p.pixel_unbroken known.toBundled library)

end

include known orderly blocks blocks' finishVertex finishPixel library

theorem layouts (glsl : run.IsGlsl) : ∃ members slots slots' attributes drawn,
    q.read.mapM (memberText run) = .ok members ∧
      (lines vertex.source).filter isLayout =
        Slot.lines 0 slots ++ locations "in" 0 attributes ++ locations "out" 0 members ∧
      (lines pixel.source).filter isLayout =
        Slot.lines slots.length slots' ++ locations "in" 0 members ++ locations "out" 0 drawn := by
  obtain ⟨_, _, tame, tame', _⟩ := p.tokened known.toBundled
  obtain ⟨slots, attributes, members, _, written, next, lays⟩ :=
    vertexFrame_lays glsl tame _ p.framesVertex
  obtain ⟨slots', members', drawn, read, _, lays'⟩ :=
    pixelFrame_lays glsl tame' p.binding _ p.framesPixel
  obtain ⟨_, _, connectors⟩ := p.vertex_members blocks
  rw [connectors, orderly.same] at written
  rw [p.pixel_members blocks'] at read
  cases written.symm.trans read
  refine ⟨members, slots, slots', attributes, drawn, read, ?_, ?_⟩
  · rw [p.vertex_lines known.toBundled finishVertex]
    exact (lays _ (p.vertexNested.1.body p.vertexNested.2)).rows p.writesVertex _ tame.entries
  · rw [p.pixel_lines known finishPixel library, ← next]
    exact (lays' _ (p.pixelNested.1.body (p.pixelNested.2.1.append p.pixelNested.2.2))).rows
      p.writesPixel _ tame'.entries

theorem structures (msl : run.target = .msl) : ∃ members,
    q.read.mapM (memberText run) = .ok members ∧ dataRows members <:+: lines vertex.source ∧
      dataRows members <:+: lines pixel.source := by
  obtain ⟨_, _, tame, tame', _⟩ := p.tokened known.toBundled
  obtain ⟨_, _, connectors⟩ := p.vertex_members blocks
  obtain ⟨members, texts, written⟩ := vertexFrame_hasData msl _ p.framesVertex
  obtain ⟨members', texts', read⟩ := pixelFrame_hasData msl p.binding _ p.framesPixel
  have plain := memberTexts_plain known.plain.dialect (tame'.members vertexData) _ texts'
  rw [connectors, orderly.same] at texts
  rw [p.pixel_members blocks'] at texts'
  cases texts.symm.trans texts'
  refine ⟨members, texts, ?_, ?_⟩
  · rw [p.vertex_lines known.toBundled finishVertex]
    exact (written.around _).rows plain p.writesVertex tame.entries
  · rw [p.pixel_lines known finishPixel library]
    exact (read.around _).rows plain p.writesPixel tame'.entries

theorem declarations (glsl : run.target = .glsl → run.IsGlsl) : ∃ members,
    q.read.mapM (memberText run) = .ok members ∧
      (run.target = .glsl → ∃ slots slots' attributes drawn,
        (lines vertex.source).filter isLayout =
          Slot.lines 0 slots ++ locations "in" 0 attributes ++ locations "out" 0 members ∧
        (lines pixel.source).filter isLayout =
          Slot.lines slots.length slots' ++ locations "in" 0 members ++ locations "out" 0 drawn) ∧
      (run.target = .msl → dataRows members <:+: lines vertex.source ∧
        dataRows members <:+: lines pixel.source) := by
  have either : run.target = .glsl ∨ run.target = .msl := by
    have hardware := known.hardware
    cases target : run.target <;> simp_all [Target.isHardware]
  obtain isGlsl | isMsl := either
  · obtain ⟨members, slots, slots', attributes, drawn, texts, first, second⟩ :=
      p.layouts known orderly blocks finishVertex blocks' finishPixel library (glsl isGlsl)
    exact ⟨members, texts, fun _ => ⟨slots, slots', attributes, drawn, first, second⟩,
      fun isMsl => by simp [isGlsl] at isMsl⟩
  · obtain ⟨members, texts, both⟩ :=
      p.structures known orderly blocks finishVertex blocks' finishPixel library isMsl
    exact ⟨members, texts, fun isGlsl => by simp [isMsl] at isGlsl, fun _ => both⟩

end Hardware.Pieces

/-- The stages of a hardware shader over the bundled library agree, whatever the document and the
session are. -/
theorem stages_agree {target : Target} (hardware : target.isHardware = true) {gen : Generator}
    (made : Generator.create target .bundled = .ok gen) {name : String} {doc : Document} {s : Session}
    {shader : Shader} (ok : (gen.generate name doc s).result = .ok shader) :
    ∃ vertex pixel, shader.stages = [vertex, pixel] ∧ vertex.name = vertexStage ∧
      pixel.name = pixelStage ∧ StagesAgree target vertex pixel := by
  obtain ⟨g, log, run, p, vertex, pixel, building, ran, finishVertex, finishPixel, stages⟩ :=
    Generator.generate_pieces hardware made ok
  obtain ⟨built, settled⟩ := Generator.buildGraph_ready made building
  have known := Generator.run_isNamed hardware made built settled ran
  obtain ⟨rfl, dialect, _, library, _, _⟩ := Generator.run_settings made ran
  obtain ⟨q, blocks, blocks', orderly, connectors⟩ := p.ports known.hardware made ran
  have own : gen.dialect = run.dialect := by
    cases (Generator.create_bundled run.target).symm.trans made
    exact dialect.symm
  obtain ⟨shown, same, block, names⟩ := p.interfaces orderly blocks blocks' finishVertex finishPixel
  obtain ⟨members, texts, onGlsl, onMsl⟩ :=
    p.declarations known orderly blocks finishVertex blocks' finishPixel library
      fun glsl => Generator.run_isGlsl (glsl ▸ made) built ran
  have declared : List.Forall₂ (InterfaceVariable.DeclaredBy (.ofTarget run.target)) vertex.outputs
      members := dialect ▸ Hardware.memberTexts_declare (own ▸ shown) texts
  refine ⟨vertex, pixel, stages, p.vertex_name finishVertex, p.pixel_name finishPixel, same, block,
    ?_, ?_, ⟨members, declared, onGlsl, onMsl⟩, ?_⟩
  · rw [names]
    exact orderly.distinctConnectors
  · obtain ⟨front, head, body, lines, begins, once⟩ :=
      p.vertex_assigned known orderly blocks finishVertex
    refine ⟨front, head, body, lines, begins, fun v member => ?_⟩
    have read : v.name ∈ q.read.map StageVariable.name := names ▸ List.mem_map_of_mem member
    obtain ⟨id, ordered, connects⟩ := (connectors v.name).1 read
    exact once id ordered v.name connects read
  · intro glsl
    obtain ⟨slots, slots', _, _, first, second⟩ := onGlsl glsl
    exact ⟨_, Text.bindings_range first second⟩

theorem stages_agree_lit :
    ∃ gen shader, Target.glsl.isHardware = true ∧ Generator.create .glsl .bundled = .ok gen ∧
      (gen.generate "lit" litDocument litSession).result = .ok shader ∧
      ∃ vertex pixel, shader.stages = [vertex, pixel] ∧ vertex.name = vertexStage ∧
        pixel.name = pixelStage ∧ StagesAgree .glsl vertex pixel := by
  obtain ⟨shader, ok⟩ := litShader_ok
  have made := Generator.create_bundled .glsl
  exact ⟨_, shader, rfl, made, ok, stages_agree rfl made ok⟩

end MaterialShader
