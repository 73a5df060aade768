import MaterialShader.Proofs.Emission.PortNames
import MaterialShader.Proofs.Emission.Tokens

/-!
The code of every node fits the tokens of the stage in which it stands.
-/

namespace MaterialShader

open Text (isPlain isWord)
open Token
open Emission (Yields)

variable {tokens : List String}

theorem Code.Fits.mono {more : List String} (sub : tokens ⊆ more) {code : List Code}
    (fits : Fits tokens code) : Fits more code :=
  fun text member => fits_mono sub (fits text member)

@[simp] theorem Token.fits_toString (tokens : List String) (text : String) :
    fits tokens (toString text) = fits tokens text := rfl

theorem Token.fits_append_plain {a b : String} (first : fits tokens a)
    (plain : isPlain b) : fits tokens (a ++ b) :=
  fits_append first (fits_of_plain plain)

theorem Token.fits_general (general : Hardware.tokenNames ⊆ tokens) {text : String}
    (fit : fits Hardware.tokenNames text) : fits tokens text :=
  fits_mono general fit

namespace GeometricKind

open Result.Ensures

variable {run : Run} {tokens : List String} (plain : run.IsPlain)
  (general : Hardware.tokenNames ⊆ tokens) {vector4 typeName : String}

include general

theorem toWorld_fits {token attr : String} (type : isPlain vector4)
    (matrix : Token.fits Hardware.tokenNames token)
    (direction : Token.fits Hardware.tokenNames attr) :
    Token.fits tokens (toWorld vector4 token attr) := by
  have first := fits_general general matrix
  have second := fits_general general direction
  refine fits_append_plain (fits_append ?_ second) (by decide)
  refine fits_append_plain (fits_append_plain (fits_append_plain ?_ ?_) type) ?_
  · exact fits_append (fits_of_plain (by decide)) first
  · decide
  · decide

theorem normalText_fits (type : isPlain vector4) (world : Bool) :
    Token.fits tokens (normalText vector4 world) := by
  unfold normalText
  split
  · exact toWorld_fits general type (by decide) (by decide)
  · exact fits_general general (by decide)

theorem tangentText_fits (type : isPlain vector4) (world : Bool) :
    Token.fits tokens (tangentText vector4 world) := by
  unfold tangentText
  split
  · exact toWorld_fits general type (by decide) (by decide)
  · exact fits_general general (by decide)

theorem bitangentText_fits (type : isPlain vector4) (world : Bool) :
    Token.fits tokens (bitangentText run vector4 world) := by
  have normal := normalText_fits general type world
  have tangent := tangentText_fits general type world
  unfold bitangentText
  split
  · refine fits_append_plain (fits_append (fits_append_plain ?_ ?_) tangent) ?_
    · exact fits_append (fits_of_plain (by decide)) normal
    · decide
    · decide
  · split
    · exact toWorld_fits general type (by decide) (by decide)
    · exact fits_general general (by decide)

include plain

theorem connectorText_fits (kind : GeometricKind) (n : GraphNode)
    (word : isWord typeName) (own : ∀ t, kind.Reads n typeName t → t ∈ tokens) :
    (kind.connectorText run n typeName).Ensures (Token.fits tokens ·) := by
  have indexed {token attr : String} (front : String) (split : token = "$" ++ front)
      (start : isWord front) (named : kind.attributeText n typeName = .ok attr)
      (reads : kind.Reads n typeName (token ++ attr)) : Token.fits tokens (token ++ attr) := by
    have whole : isWord (front ++ attr) := by
      rw [isWord, Text.hasOnly_append, Bool.and_eq_true]
      exact ⟨start, kind.attributeText_word n word attr named⟩
    have listed := own _ reads
    rw [split, String.append_assoc] at listed ⊢
    exact fits_token whole listed
  refine bind fun vector4 named => ?_
  have type := Run.typeText_plain plain "vector4" vector4 named
  cases kind with
  | viewDirection => exact pure (fits_of_plain (by decide))
  | position =>
    refine pure ?_
    split
    · exact fits_of_plain (by decide)
    · exact fits_general general (by decide)
  | normal => exact pure (normalText_fits general type _)
  | tangent => exact pure (tangentText_fits general type _)
  | bitangent => exact pure (bitangentText_fits general type _)
  | texcoord =>
    refine bind fun attr named => pure ?_
    exact indexed "inTexcoord_" rfl (by decide) named (.intro rfl named)
  | geomColor =>
    refine bind fun attr named => pure ?_
    exact indexed "inColor_" rfl (by decide) named (.intro rfl named)
  | geomPropValue =>
    refine bind fun attr named => pure ?_
    exact indexed "inGeomprop_" rfl (by decide) named (.intro rfl named)
  | time | frame => exact pure (fits_of_plain (by decide))

theorem vertexCode_fits (stage : Stage) (kind : GeometricKind) (n : GraphNode)
    (word : isWord typeName) (own : ∀ t, kind.Reads n typeName t → t ∈ tokens)
    (connects : ∀ c, kind.connector? n typeName = .ok (some c) → "$" ++ c ∈ tokens) :
    (kind.vertexCode run stage n typeName).Ensures (Code.Fits tokens) := by
  refine bind fun c named => ?_
  split
  · exact pure .nil
  · rename_i name
    refine bind fun text written => bind fun assigned ok => pure ?_
    have value := connectorText_fits plain general kind n word own text written
    have target := fits_token (kind.connector?_word n word _ named name rfl)
      (connects name named)
    rw [Stage.assignConnector_ok ok]
    refine .assignment ?_ _ name
    exact fits_append (fits_append target (fits_of_plain (by decide))) value

omit plain general in
theorem connector?_isSome (kind : GeometricKind) (n : GraphNode) (typeName : String)
    (notTime : kind ≠ .time) (notFrame : kind ≠ .frame) :
    (kind.connector? n typeName).Ensures (Option.isSome ·) := by
  cases kind with
  | position | normal | tangent | bitangent | viewDirection => exact pure rfl
  | texcoord | geomColor | geomPropValue => exact after fun _ => pure rfl
  | time => exact absurd rfl notTime
  | frame => exact absurd rfl notFrame

omit plain in
theorem pixelText_fits (kind : GeometricKind) (n : GraphNode) (word : isWord typeName)
    (connects : ∀ c, kind.connector? n typeName = .ok (some c) → "$" ++ c ∈ tokens) :
    (kind.pixelText n typeName).Ensures (Token.fits tokens ·) := by
  unfold pixelText
  split
  · exact pure (fits_general general (by decide))
  · exact pure (fits_general general (by decide))
  · exact pure (fits_general general (by decide))
  · rename_i notTime notFrame notView
    refine bind fun connector named => ?_
    obtain ⟨c, rfl⟩ : ∃ c, connector = some c := by
      have exists_ := kind.connector?_isSome n typeName notTime notFrame connector named
      exact Option.isSome_iff_exists.1 exists_
    have token := fits_token (kind.connector?_word n word _ named c rfl) (connects c named)
    dsimp only [Option.getD_some]
    split
    · exact pure (fits_append_plain (fits_append (fits_of_plain (by decide)) token)
        (by decide))
    · exact pure (fits_append_plain (fits_append (fits_of_plain (by decide)) token)
        (by decide))
    · exact pure (fits_append_plain (fits_append (fits_of_plain (by decide)) token)
        (by decide))
    · split
      · exact pure (fits_append_plain token (by decide))
      · split
        · exact pure (fits_append_plain token (by decide))
        · exact pure token
    · exact pure token

end GeometricKind

namespace Run

open Result.Ensures

variable {run : Run} {tokens : List String} (plain : run.IsPlain)

include plain

theorem structureText_fits {t : ShaderType} {fields : List String}
    (all : ∀ text ∈ fields, Token.fits tokens text) :
    (run.structureText t fields).Ensures (Token.fits tokens ·) := by
  refine bind fun name named => ?_
  have type := Dialect.typeName_plain plain.dialect name named
  split
  · have list := Dialect.commaList_fits all
    exact pure (fits_append (fits_of_plain type)
      (fits_append_plain (fits_append (fits_of_plain (by decide)) list) (by decide)))
  · exact pure (Dialect.call_fits type all)

variable (general : Hardware.tokenNames ⊆ tokens)

include general

theorem lightCode_fits (stage : Stage) (id : NodeId) :
    (run.lightCode stage id).Ensures (Code.Fits tokens) := by
  unfold lightCode
  split
  · refine bind fun assigned ok => pure ?_
    rw [Stage.assignConnector_ok ok]
    exact .assignment (fits_general general (by decide)) _ _
  · refine bind fun edf ok₁ => bind fun intensity ok₂ => bind fun exposure ok₃ => after fun o => ?_
    have first := inputText_plain plain id "edf" edf ok₁
    have second := inputText_plain plain id "intensity" intensity ok₂
    have third := inputText_plain plain id "exposure" exposure ok₃
    refine bind fun value made => bind fun declared ok => pure ?_
    refine declare_fits plain id (fun text same => ?_) declared ok
    cases same
    refine structureText_fits plain ?_ value made
    rw [List.forall_mem_cons, List.forall_mem_singleton]
    exact ⟨fits_of_plain (by simp +decide [first, second, third]),
      fits_general general (by decide)⟩

theorem geometricCode_fits (hardware : run.target.isHardware) (stage : Stage) (id : NodeId)
    {kind : GeometricKind} (realized : run.realization id = .geometric kind)
    (vertex : stage.name = vertexStage → ∀ n, run.node id = .ok n →
      ∀ t, run.VertexToken id t → t ∈ tokens)
    (pixel : stage.name ≠ vertexStage → ∀ n, run.node id = .ok n →
      ∀ t, run.PixelToken id t → t ∈ tokens) :
    (kind.code run stage id).Ensures (Code.Fits tokens) := by
  refine bind fun n node => bind fun o output => ?_
  have known := plain.outputs n (node_mem node) o (firstOutput_mem node output)
  have word := Registry.standard_word known
  have both : (if stage.name = vertexStage then kind.vertexCode run stage n o.type.name
      else do
        let text ← kind.pixelText n o.type.name
        let declared ← run.declare id 0 (some text)
        return [declared] : Result (List Code)).Ensures (Code.Fits tokens) := by
    split
    · rename_i here
      refine kind.vertexCode_fits plain general stage n word (fun t reads => ?_) fun c named => ?_
      · exact vertex here n node t (.vertexInput realized node output reads)
      · exact vertex here n node _ (.connector (.geometric realized node output named))
    · rename_i elsewhere
      refine bind fun text read => bind fun declared ok => pure ?_
      refine declare_fits plain id (fun text' same => ?_) declared ok
      cases same
      refine kind.pixelText_fits general n word (fun c named => ?_) text read
      exact pixel elsewhere n node _ ⟨c, .geometric realized node output named, rfl⟩
  cases target : run.target with
  | glsl | msl => exact both
  | osl | mdl => simp [target, Target.isHardware] at hardware

end Run

structure Run.Ready (run : Run) (stage : Stage) (tokens : List String) : Prop where
  plain : run.IsPlain
  hardware : run.target.isHardware = true
  sources : ∀ id code, run.realization id = .source code → code.IsTame Hardware.tokenNames
  general : Hardware.tokenNames ⊆ tokens
  vertex : stage.name = vertexStage → ∀ id n, run.node id = .ok n →
    ∀ t, run.VertexToken id t → t ∈ tokens
  pixel : stage.name ≠ vertexStage → ∀ id n, run.node id = .ok n →
    ∀ t, run.PixelToken id t → t ∈ tokens

namespace Run

open Result.Ensures

variable {run : Run} {stage : Stage} {tokens : List String}

theorem simpleCode_fits (ready : run.Ready stage tokens) (id : NodeId) :
    (run.simpleCode stage id).Ensures (Code.Fits tokens) := by
  have plain := ready.plain
  unfold simpleCode
  split
  · rename_i code realized
    have tame := ready.sources id code realized
    have formed : ∀ t ∈ Hardware.tokenNames, Token.isFormed t.toList :=
      fun t member => (Hardware.tokenNames_formed member).1
    exact fun own ok =>
      (SourceCode.code_fits plain tame formed ready.hardware id own ok).mono ready.general
  · exact closureCode_fits plain id ready.hardware _
  · exact conditionalExpression_fits plain id _
  · exact swizzleCode_fits plain id
  · exact extractCode_fits plain id
  · exact convertCode_fits plain id
  · exact combineCode_fits plain id
  · exact separateCode_fits plain id
  · rename_i kind realized
    exact geometricCode_fits plain ready.general ready.hardware stage id realized
      (fun here => ready.vertex here id) fun elsewhere => ready.pixel elsewhere id
  · exact lightCode_fits plain ready.general stage id
  · exact after fun n => of_fail _

mutual

theorem emitPlaced_fits (ready : run.Ready stage tokens) :
    ∀ p, (emitPlaced run stage p).Ensures (Code.Fits tokens)
  | .node id branches => by
    intro code yields
    obtain ⟨_, simple⟩ | ⟨op, conditions, declared, out, chain, _, _, given, declares, name, chained,
      rfl⟩ := emitPlaced_cases yields
    · exact simpleCode_fits ready id code simple
    · refine .cons (declareEmpty_fits ready.plain id 0 declared declares) ?_
      exact emitBranches_fits ready id (conditions_plain ready.plain id op conditions given)
        (outputName_plain ready.plain id 0 out name) 0 branches chain chained

theorem emitBranches_fits (ready : run.Ready stage tokens) (id : NodeId) {conditions : List String}
    {out : String} (all : ∀ text ∈ conditions, isPlain text)
    (name : isPlain out) (k : Nat) :
    ∀ branches, (emitBranches run stage id conditions out k branches).Ensures (Code.Fits tokens)
  | [] => by
    unfold emitBranches
    exact .pure .nil
  | members :: rest => by
    intro code yields
    obtain ⟨body, value, others, first, text, later, rfl⟩ := emitBranches_cons yields
    have inner := emitAll_fits ready members body first
    have chosen := inputText_plain ready.plain id _ value text
    have result : isPlain s!"{out} = {value}" := by simp +decide [name, chosen]
    have branch := Code.Fits.branch (fits_of_plain (branchHead_plain all k))
      (inner.append (.statement (fits_of_plain result)))
    exact branch.append (emitBranches_fits ready id all name (k + 1) rest others later)

theorem emitAll_fits (ready : run.Ready stage tokens) :
    ∀ ps, (emitAll run stage ps).Ensures (Code.Fits tokens)
  | [] => by
    unfold emitAll
    exact .pure .nil
  | p :: rest => by
    intro code yields
    obtain ⟨first, others, head, later, rfl⟩ := emitAll_cons yields
    exact (emitPlaced_fits ready p first head).append (emitAll_fits ready rest others later)

end

end Run

end MaterialShader
