import MaterialShader.Proofs.Emission.Layout
import MaterialShader.Proofs.Emission.VertexWork

/-!
The variables between the stages of a hardware shader.
-/

namespace MaterialShader

open Generator Token
open Result.Ensures
open Text (isIdentifier startsWith startsWith_iff)
open String (append_right_inj toList_inj)

variable {text c : String} {target : Target} {id : NodeId}

namespace Run

variable {run : Run}

theorem Connects.ne (connects : run.Connects id c)
    (other : connectorFronts.any (startsWith · text) = false) : c ≠ text := by
  rintro rfl
  obtain ⟨front, member, back, rfl⟩ := connects.front
  have stands : startsWith front (front ++ back) := by simp [startsWith_iff]
  simp [List.any_eq_false] at other
  simp [other front member] at stands

theorem Connects.reach (plain : run.IsPlain) (connects : run.Connects id c) (target : Target) :
    Text.isWord (VariableKind.connector.reach target c) ∧
      VariableKind.connector.reach target c ≠
        (if target = .msl then "vd.pos" else "gl_Position") ∧
      (∃ d, (VariableKind.connector.reach target c).toList.head? = some d ∧ d ≠ 'm') := by
  refine ⟨VariableKind.reach_word _ target (connects.word plain), ?_, ?_⟩
  · by_cases msl : target = .msl
    · have other : c ≠ "pos" := connects.ne (by decide)
      have split : "vd.pos" = "vd." ++ "pos" := by decide
      simp only [VariableKind.reach, msl, if_true]
      exact fun same => other (append_right_inj "vd." |>.1 (same.trans split))
    · have other : c ≠ "gl_Position" := connects.ne (by decide)
      simpa [VariableKind.reach, msl] using other
  · by_cases msl : target = .msl
    · exact ⟨'v', by simp [VariableKind.reach, msl], by decide⟩
    · obtain ⟨front, member, back, rfl⟩ := connects.front
      have heads : ∀ front ∈ connectorFronts, front.toList.head?.any (· != 'm') := by decide
      obtain ⟨d, first, other⟩ := (Option.any_eq_true _ _).1 (heads front member)
      refine ⟨d, ?_, by simpa using other⟩
      obtain ⟨ds, chars⟩ := List.head?_eq_some_iff.1 first
      simp [VariableKind.reach, msl, chars]

end Run

theorem VariableKind.connector_inj {c' : String} :
    VariableKind.connector.reach target c = VariableKind.connector.reach target c' ↔ c = c' := by
  by_cases msl : target = .msl
  · simp only [reach, msl, if_true, append_right_inj]
  · simp only [reach, msl, if_false]

theorem Hardware.Stands.connector_eq {run : Run} (connects : run.Connects id c) {token : String}
    (stands : Stands target token text) (own : token = "$" ++ c) :
    text = VariableKind.connector.reach target c := by
  obtain ⟨front, member, back, split⟩ := connects.front
  cases stands with
  | @general _ name kind listed =>
    have table : ∀ entry ∈ tokens, ∀ front ∈ connectorFronts,
        startsWith ("$" ++ front) entry.1 →
          entry.2.1 = .connector ∧ entry.1 = "$" ++ entry.2.2 := by decide
    have begins : startsWith ("$" ++ front) token := by
      rw [own, split, startsWith_iff]
      simp
    obtain ⟨rfl, named⟩ := table _ listed front member begins
    have same : name = c := append_right_inj "$" |>.1 (named.symm.trans own)
    rw [same]
  | @connector name word =>
    have same : name = c := append_right_inj "$" |>.1 own
    rw [same]
  | @vertexInput rest name =>
    have begins : startsWith "in" (front ++ back) := by
      have same : c = "in" ++ rest := by
        have whole : "$" ++ ("in" ++ rest) = "$" ++ c := by
          rw [← own, ← String.append_assoc]
          rfl
        exact (append_right_inj "$" |>.1 whole).symm
      rw [← split, same, startsWith_iff]
      simp
    have fronts : ∀ front ∈ connectorFronts,
        "in".length ≤ front.length ∧ startsWith "in" front = false := by decide
    obtain ⟨short, other⟩ := fronts front member
    rw [Text.startsWith_of_append short begins] at other
    cases other

inductive Run.BodyRow (run : Run) : Code → Prop
  | declaration {type name : String} (back : String)
      (typed : Text.isIdentifier type.toList = true) (named : Text.isIdentifier name.toList = true) :
      BodyRow run (.statement (type ++ " " ++ name ++ back))
  | position (back : String) : BodyRow run
      (.statement ((if run.target = .msl then "vd.pos" else "gl_Position") ++ " = " ++ back))
  | call (back : String) : BodyRow run (.statement ("mx_" ++ back))
  | connector {id : NodeId} {c : String} (text : String) (ordered : id ∈ run.graph.order)
      (connects : run.Connects id c) : BodyRow run (.assignment vertexData c s!"${c} = {text}")

namespace Run.BodyRow

variable {run : Run} {x : Code}

theorem of_split (type name back : String) (split : text = type ++ " " ++ name ++ back)
    (typed : isIdentifier type.toList) (named : isIdentifier name.toList) :
    run.BodyRow (.statement text) := split ▸ .declaration back typed named

theorem single (row : run.BodyRow x) : x.isSingle ∧ x.isFlat := by
  cases row <;> exact ⟨rfl, rfl⟩

theorem assigns (plain : run.IsPlain) {stage : Stage} (tame : stage.IsTame run.target)
    (tokens : ∀ id ∈ run.graph.order, ∀ c, run.Connects id c → "$" ++ c ∈ stage.tokens.map Prod.fst)
    (row : run.BodyRow x) (connects : run.Connects id c) :
    ∃ text, Code.rows 1 (some .braces) x = [text] ∧
      Text.assigns (VariableKind.connector.reach run.target c) (Token.substitute stage.tokens text) =
        Code.assigns vertexData c x := by
  have entries := tame.entries
  obtain ⟨word, apart, d, head, other⟩ := connects.reach plain run.target
  cases row with
  | @declaration type name back typed named =>
    exact ⟨_, rfl, assigns_declaration entries word typed named back⟩
  | position back =>
    have place : Text.isWord (if run.target = .msl then "vd.pos" else "gl_Position") ∧
        (if run.target = .msl then "vd.pos" else "gl_Position") ≠ "" := by
      split <;> decide
    generalize (if run.target = .msl then "vd.pos" else "gl_Position") = position at place apart ⊢
    have split : position ++ " = " ++ back = position ++ " " ++ ("= " ++ back) := by
      simp [← toList_inj]
    refine ⟨"    " ++ (position ++ " = " ++ back) ++ ";", rfl, ?_⟩
    rw [split, assigns_word entries word place.1 place.2, decide_eq_false apart, Bool.false_and]
    rfl
  | call back =>
    refine ⟨"    " ++ ("mx_" ++ back) ++ ";", rfl, ?_⟩
    have split : "    " ++ ("mx_" ++ back) ++ ";" = "    mx_" ++ (back ++ ";") := by
      simp [← toList_inj]
    have regroup (rest : String) : "    mx_" ++ rest = "    " ++ ("mx_" ++ rest) := by
      simp [← toList_inj]
    rw [split, substitute_append entries (by decide), regroup,
      Text.assigns_other (c := 'm') (by simp) (by decide) (by simpa [head] using other)]
    rfl
  | @connector node other text ordered written =>
    refine ⟨"    " ++ s!"${other} = {text}" ++ ";", rfl, ?_⟩
    obtain ⟨word', _, d', head', _⟩ := written.reach plain run.target
    have some_ : VariableKind.connector.reach run.target other ≠ "" := by
      intro none
      simp [none] at head'
    have unmarked : Text.Unmarked other :=
      (Text.isPlain_iff.1 (Text.isPlain_of_isWord (written.word plain))).1
    have split : "    " ++ s!"${other} = {text}" ++ ";" =
        "    " ++ ("$" ++ other ++ " " ++ ("= " ++ (text ++ ";"))) := by
      simp [← toList_inj]
    have sign (rest : String) : startsWith "= " ("= " ++ rest) := by
      simp [startsWith_iff]
    rw [split, substitute_append entries (by decide), substitute_token entries
      (tokens node ordered other written)
      (fun entry member own => (tame.tokens entry member).connector_eq written own) unmarked,
      substitute_append entries (by decide), Text.assigns_word word word' some_, sign,
      Bool.and_true]
    rw [Code.assigns, beq_self_eq_true, Bool.true_and, Bool.eq_iff_iff, decide_eq_true_iff,
      VariableKind.connector_inj, beq_iff_eq, eq_comm]

end Run.BodyRow

theorem Dialect.typeName_identifier (hardware : target.isHardware) (t : ShaderType) :
    ((Dialect.ofTarget target).typeName t).Ensures fun name =>
      isIdentifier name.toList := by
  have all : ∀ target ∈ [Target.glsl, .msl], ∀ entry ∈ (Dialect.ofTarget target).forms,
      isIdentifier entry.2.name.toList := by
    decide
  refine bind fun f formed => pure ?_
  have found : Assoc.get? t.name (Dialect.ofTarget target).forms = some f :=
    orFail_ok.1 (Result.inside_ok.1 formed)
  exact all target (Target.mem_hardware hardware) (t.name, f) (Assoc.mem_of_get? found)

def Definition.callsLibrary (target : Target) (d : Definition) : Bool :=
  !lightDefinitions.contains d.name || d.template.isNone &&
    (Library.bundled.implementation? d target).all fun i =>
      match i.source with
      | .function name _ => Text.startsWith "mx_" name
      | .inline _ => false

theorem Library.bundled_callsLibrary (hardware : target.isHardware) {d : Definition}
    (member : d ∈ bundled.definitions) : d.callsLibrary target := by
  have all : ([Target.glsl, Target.msl].all fun target =>
      bundled.definitions.all (Definition.callsLibrary target)) := by
    unfold Definition.callsLibrary
    rw [bundled_eq]
    decide
  simp only [List.all_eq_true] at all
  exact all target (Target.mem_hardware hardware) d member

structure Run.IsNamed (run : Run) : Prop extends run.Bundled where
  classed : run.Classed
  dialect : run.dialect = .ofTarget run.target
  names : ∀ name ∈ run.names.all, Text.isIdentifier name.toList = true
  calls : ∀ id n code, run.graph.nodes[id]? = some n → n.definition ∈ lightDefinitions →
    run.realization id = .source code → ∀ name text, code.source = .function name text →
      (code.substitute run name).Ensures (Text.startsWith "mx_" ·)

theorem Generator.run_isNamed (hardware : target.isHardware) {gen : Generator}
    (made : Generator.create target .bundled = .ok gen) {g : Graph} {s : Session} {run : Run}
    (built : g.Built .standard .bundled) (settled : ∀ n ∈ g.nodes, n.Settled)
    (ran : gen.run g s = .ok run) : run.IsNamed := by
  have known := run_bundled hardware made built ran
  have classed := run_classed hardware made built settled ran
  obtain ⟨same, dialect, _, _, _, rfl⟩ := run_settings made ran
  refine ⟨known, classed, by rw [dialect, same], fun name member => ?_, ?_⟩
  · rw [run_names made ran] at member
    exact (Names.ofGraph_accepts member).identifier
  · intro id n code found light realized name text source function called
    obtain ⟨n', d, found', member, named, here⟩ := run_source made built ran realized
    cases found.symm.trans found'
    obtain ⟨i, implemented, rfl⟩ := Definition.realization?_source here
    have checked := Library.bundled_callsLibrary hardware member
    rw [named] at light
    have source' : i.source = .function name text := source
    simp only [Definition.callsLibrary, List.contains_iff_mem.2 light, Bool.not_true, Bool.false_or,
      Bool.and_eq_true, implemented, Option.all_some, source'] at checked
    have single : d.template = none := Option.isNone_iff_eq_none.1 checked.1
    have same : (SourceCode.ofImplementation i d).substitute run name = .ok name := by
      simp [SourceCode.substitute, SourceCode.ofImplementation, single]
    cases same.symm.trans called
    exact checked.2

namespace Hardware

variable {run : Run} {stage : Stage}

theorem call_rows (known : run.IsNamed) {n : GraphNode} (found : run.graph.nodes[id]? = some n)
    (light : n.definition ∈ lightDefinitions) {own : List Code}
    (ok : run.simpleCode stage id = .ok own) : ∀ x ∈ own, run.BodyRow x := by
  obtain ⟨code, name, text, function, arguments, declared, realized, source, called, each, rfl⟩ :=
    Run.call_shape known.hardware (known.classed.calls id n found light) ok
  rw [List.forall_mem_append, List.forall_mem_singleton]
  constructor
  · intro x member
    obtain ⟨k, declares⟩ := each x member
    obtain ⟨t, type, variableName, value, typed, named, rfl⟩ := Run.declare_statement declares
    rw [known.dialect] at typed
    have first := Dialect.typeName_identifier known.hardware t type typed
    have second := known.names variableName (Run.outputName_mem id k variableName named)
    exact .of_split type variableName (" = " ++ value) String.append_assoc first second
  · have begins := known.calls id n code found light realized name text source function called
    obtain ⟨back, split⟩ := startsWith_iff.1 begins
    have whole : Dialect.call function arguments =
        "mx_" ++ (String.ofList back ++ "(" ++ Dialect.commaList arguments ++ ")") := by
      simp [Dialect.call, ← toList_inj, ← split]
    rw [whole]
    exact .call _

theorem positionCode_rows {vector4 position : String}
    (typed : isIdentifier vector4.toList)
    (own : position = if run.target = .msl then "vd.pos" else "gl_Position") :
    ∀ x ∈ positionCode run vector4 position, run.BodyRow x := by
  have place (back text : String) (split : text = position ++ " = " ++ back) :
      run.BodyRow (.statement text) := by
    rw [split, own]
    exact .position back
  intro x member
  simp only [positionCode, List.mem_cons, List.not_mem_nil, or_false] at member
  obtain rfl | rfl := member
  · exact .of_split vector4 "hPositionWorld" (" = $worldMatrix * " ++ vector4 ++ "($inPosition, 1.0)")
      (by simp [← toList_inj]) typed (by decide)
  · split
    · exact place (vector4 ++ "($inTexcoord_0 * 2.0 - 1.0, 0.0, 1.0)") _
        (by simp [← toList_inj])
    · exact place "$viewProjectionMatrix * hPositionWorld" _
        (by simp [← toList_inj])

def EntryPoint.Declares (run : Run) (entry : EntryPoint) : Prop :=
  ∀ text ∈ entry.locals, run.BodyRow (.statement text)

theorem entryVariable_declares (known : run.IsNamed) {access : String} {entry : EntryPoint}
    (old : entry.Declares run) {v : StageVariable} (named : isIdentifier v.name.toList) :
    (entryVariable run access entry v).Ensures (EntryPoint.Declares run) := by
  unfold entryVariable
  split
  · refine pure ?_
    rw [EntryPoint.Declares, textureEntry, List.forall_mem_append, List.forall_mem_singleton]
    refine ⟨old, ?_⟩
    exact .of_split "MetalTexture" v.name (" = " ++ braced s!"{v.name}_tex, {v.name}_sampler")
      (by simp [← toList_inj]) (by decide) named
  · refine bind fun member ok => pure ?_
    obtain ⟨type, typed, ok⟩ := Result.bind_ok.1 ok
    cases Result.pure_ok.1 ok
    rw [known.dialect] at typed
    rw [EntryPoint.Declares, List.forall_mem_append, List.forall_mem_singleton]
    refine ⟨old, ?_⟩
    exact .of_split type v.name (" = " ++ access ++ "." ++ v.name)
      (by simp [← toList_inj])
      (Dialect.typeName_identifier known.hardware v.type type typed) named

theorem entryPoint_declares (known : run.IsNamed) (lit : Bool)
    (named : ∀ block ∈ [privateUniforms, publicUniforms], ∀ v ∈ stage.members block,
      isIdentifier v.name.toList) :
    (entryPoint run stage lit).Ensures (EntryPoint.Declares run) := by
  refine entryPoint_induct (by simp [EntryPoint.Declares]) ?_ (fun _ _ _ _ _ old => old)
    (fun _ old => old) lit
  intro block listed b found entry old v member
  refine entryVariable_declares known old (named block listed v ?_)
  simpa [Stage.members, found] using member

theorem isPlain_closed : Code.Closed False fun code => code.all Code.isPlain where
  nil := rfl
  append first second := by rw [List.all_append, first, second, Bool.and_self]
  blank := rfl
  line _ := rfl
  statement _ := rfl
  block _ inner := by simpa [Code.block, Code.isPlain] using inner

structure VertexParts (run : Run) (frame : Frame) : Prop where
  plain : (frame.front ++ [frame.head]).all Code.isPlain = true
  head : ∃ text, frame.head = .line text ∧
    Text.startsWith (if run.target = .msl then "vertex VertexData " else "void main()") text = true ∧
      Text.isPlain text = true
  rows : ∀ x ∈ frame.opening ++ frame.closing, run.BodyRow x

theorem vertexFrame_parts (known : run.IsNamed) (tame : stage.IsTame run.target)
    (named : ∀ block ∈ [privateUniforms, publicUniforms], ∀ v ∈ stage.members block,
      isIdentifier v.name.toList) :
    (vertexFrame run stage).Ensures fun out => VertexParts run out.1 := by
  refine bind fun uniforms ok₁ => bind fun outer ok₂ => bind fun vector4 ok₃ => ?_
  obtain ⟨t, _, typed⟩ := Result.bind_ok.1 ok₃
  rw [known.dialect] at typed
  have type := Dialect.typeName_identifier known.hardware t vector4 typed
  have start : (header run.target).all Code.isPlain := by cases run.target <;> rfl
  have front : (header run.target ++ uniforms.1 ++ outer).all Code.isPlain := by
    have blocks := uniformBlocks_closed isPlain_closed nofun 0 uniforms ok₁
    have interface := vertexInterface_closed isPlain_closed nofun outer ok₂
    exact isPlain_closed.append (isPlain_closed.append start blocks) interface
  split
  · rename_i msl
    refine bind fun entry ok => pure ⟨?_, ?_, ?_⟩
    · rw [List.all_append, front]
      rfl
    · have parameters : ∀ text ∈ "VertexInputs i_vs [[stage_in]]" :: entry.parameters,
          Text.isPlain text :=
        List.forall_mem_cons.2 ⟨by decide, (entryPoint_plain known.plain tame false entry ok).parameters⟩
      have call := Dialect.call_plain tame.entryPoint parameters
      refine ⟨_, rfl, ?_, by simp +decide [call]⟩
      simp [msl, startsWith_iff]
    · have copies := entryPoint_declares known false named entry ok
      have position : ∀ x ∈ positionCode run vector4 "vd.pos", run.BodyRow x :=
        positionCode_rows type (by simp [msl])
      have data : run.BodyRow (.statement "VertexData vd") :=
        .of_split "VertexData" "vd" "" (by decide) (by decide) (by decide)
      have last : run.BodyRow (.statement "return vd") :=
        .of_split "return" "vd" "" (by decide) (by decide) (by decide)
      simp only [List.forall_mem_append, List.forall_mem_map, List.forall_mem_singleton]
      exact ⟨⟨⟨copies, data⟩, position⟩, last⟩
  · rename_i other
    refine pure ⟨?_, ?_, ?_⟩
    · rw [List.all_append, front]
      rfl
    · exact ⟨_, rfl, by simp [other]; decide, by decide⟩
    · rw [List.append_nil]
      exact positionCode_rows type (by simp [other])

namespace Pieces

variable (known : run.IsNamed) (p : Pieces run)

include known

theorem vertexNodes_rows : ∀ x ∈ p.vertexNodes, run.BodyRow x := by
  intro x member
  obtain ⟨parts, each, shape⟩ := p.vertexNodes_flat known.classed
  rw [shape] at member
  obtain ⟨own, part, member⟩ := List.mem_flatten.1 member
  obtain ⟨id, listed, code⟩ := exists_of_mem_right each part
  obtain ⟨ordered, n, found, _⟩ := Run.mem_classNodes.1 listed
  obtain geometry | light := (known.classed.mem_vertex found).1 listed
  · obtain ⟨c, writes⟩ :=
      (Run.geometry_writes known.hardware (name_of_named p.isVertex) geometry code).1 x member
    obtain ⟨text, rfl⟩ := writes.text
    exact .connector text ordered writes.connects
  · exact call_rows known found light code x member

omit known in
theorem inner_unassigned (parts : VertexParts run p.vertexFrame) {before : Stage}
    (first : p.vertex.writeAll (p.vertexFrame.front ++ [p.vertexFrame.head]) = .ok before)
    {q : Ports} (blocks : p.vertex.blocks = q.vertexBlocks) (orderly : q.Orderly)
    (read : c ∈ q.read.map StageVariable.name) :
    (before.openScope .braces).Declares vertexData c ∧
      (before.openScope .braces).isAssigned vertexData c = false := by
  have kept : (before.openScope .braces).blocks = p.vertex.blocks :=
    (Stage.writeAll_plain parts.plain first).2
  have found : (before.openScope .braces).block? vertexData =
      some ⟨.output, vertexData, "vd", q.read⟩ := by
    rw [Stage.block?, kept, blocks, Ports.vertexBlocks, orderly.same]
    rfl
  obtain ⟨v, listed, rfl⟩ := List.mem_map.1 read
  have present : (q.read.find? fun w => w.name == v.name).isSome := by
    rw [List.find?_isSome]
    exact ⟨v, listed, by simp⟩
  refine ⟨⟨_, found, present⟩, ?_⟩
  obtain ⟨w, at_⟩ := Option.isSome_iff_exists.1 present
  have here : Block.find? ⟨.output, vertexData, "vd", q.read⟩ v.name = some w := at_
  simp only [Stage.isAssigned, found, here]
  exact orderly.fresh w (List.mem_of_find?_eq_some at_)

theorem assigned_once (parts : VertexParts run p.vertexFrame) {before : Stage}
    (first : p.vertex.writeAll (p.vertexFrame.front ++ [p.vertexFrame.head]) = .ok before)
    {q : Ports} (blocks : p.vertex.blocks = q.vertexBlocks) (orderly : q.Orderly)
    (ordered : id ∈ run.graph.order) (connects : run.Connects id c)
    (read : c ∈ q.read.map StageVariable.name) :
    ((Code.rowsAll [.braces] ((before.openScope .braces).effectiveAll
      (p.vertexFrame.opening ++ p.vertexNodes ++ p.vertexFrame.closing))).map
        (Token.substitute p.vertex.tokens)).countP
          (Text.assigns (VariableKind.connector.reach run.target c)) = 1 := by
  obtain ⟨_, _, tame, _, tokens, _⟩ := p.tokened known.toBundled
  have marked : ∀ id ∈ run.graph.order, ∀ c, run.Connects id c →
      "$" ++ c ∈ p.vertex.tokens.map Prod.fst :=
    fun id ordered c connects => tokens _ (.inr (.inr ⟨id, ordered, .connector connects⟩))
  have rows : ∀ x ∈ p.vertexFrame.opening ++ p.vertexNodes ++ p.vertexFrame.closing,
      run.BodyRow x := by
    have around := List.forall_mem_append.1 parts.rows
    simp only [List.forall_mem_append]
    exact ⟨⟨around.1, p.vertexNodes_rows known⟩, around.2⟩
  have single : ∀ x ∈ p.vertexFrame.opening ++ p.vertexNodes ++ p.vertexFrame.closing,
      x.isSingle := fun x member => (rows x member).single.1
  have written : (p.vertexFrame.opening ++ p.vertexNodes ++ p.vertexFrame.closing).any
      (Code.assigns vertexData c) := by
    obtain ⟨x, member, writes⟩ :=
      p.writes_vertexNodes known.hardware known.classed ordered connects
    obtain ⟨text, rfl⟩ := writes.text
    exact List.any_eq_true.2 ⟨_, List.mem_append_left _ (List.mem_append_right _ member),
      by simp [Code.assigns]⟩
  obtain ⟨declared, unassigned⟩ := p.inner_unassigned parts first blocks orderly read
  have each (x : Code) (member : x ∈ (before.openScope .braces).effectiveAll
      (p.vertexFrame.opening ++ p.vertexNodes ++ p.vertexFrame.closing)) :=
    rows x (Stage.mem_of_mem_effectiveAll member)
  rw [Code.countP_rows fun x member => ⟨(each x member).single.2,
      (each x member).assigns known.plain tame marked connects⟩,
    Stage.countP_effectiveAll declared single, if_pos ⟨unassigned, written⟩]

end Pieces

end Hardware

end MaterialShader
