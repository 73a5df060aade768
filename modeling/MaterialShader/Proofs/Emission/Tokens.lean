import MaterialShader.Proofs.Emission.LibraryText
import MaterialShader.Proofs.Emission.Ports

/-!
The tokens that the stages of a hardware shader have.
-/

namespace MaterialShader

open List Result Stage
open Text (isPlain isWord)

variable (kind : GeometricKind)

variable {name token : String} {t : ShaderType} {target : Target} {s : Stage}

theorem VariableKind.reach_word (kind : VariableKind) (target : Target) (word : isWord name) :
    isWord (kind.reach target name) := by
  cases kind <;> simp only [reach] <;> (try split) <;> simp +decide [word]

theorem Registry.standard_word (known : Registry.standard.Knows t) : isWord t.name := by
  have all : (Registry.standardTypes.all fun t => isWord t.name) := by decide
  exact all_eq_true.1 all t (mem_of_find?_eq_some known)

namespace GeometricKind

open Result.Ensures

variable {typeName : String}

theorem typeSuffix_word (word : isWord typeName) : isWord (kind.typeSuffix typeName) := by
  cases kind <;> simp only [typeSuffix] <;> (try split) <;> simp +decide [word]

theorem attributeText_word (n : GraphNode) (word : isWord typeName) :
    (kind.attributeText n typeName).Ensures (isWord ·) := by
  have suffix := kind.typeSuffix_word word
  unfold attributeText
  split
  · refine after fun name => pure ?_
    rw [isWord, Text.hasOnly_append, Bool.and_eq_true]
    exact ⟨Text.isWord_sanitize name, suffix⟩
  · refine pure ?_
    rw [isWord, Text.hasOnly_append, Bool.and_eq_true]
    exact ⟨Value.isWord_intText _, suffix⟩

theorem connector?_word (n : GraphNode) (word : isWord typeName) :
    (kind.connector? n typeName).Ensures fun c => ∀ name ∈ c, isWord name := by
  rintro _ named c rfl
  obtain ⟨_, fixed⟩ | ⟨own, front, attr, fronts, text, rfl⟩ := connector?_ok named
  · have all : ∀ c ∈ fixedConnectors, isWord c := by decide
    exact all c fixed
  · have start : isWord front := by cases kind <;> cases fronts <;> decide
    rw [isWord, Text.hasOnly_append, Bool.and_eq_true]
    exact ⟨start, kind.attributeText_word n word attr text⟩

end GeometricKind

inductive Hardware.Stands (target : Target) : String → String → Prop
  | general {token name : String} {kind : VariableKind} (listed : (token, kind, name) ∈ tokens) :
      Stands target token (kind.reach target name)
  | connector {name : String} (word : Text.isWord name = true) :
      Stands target ("$" ++ name) (VariableKind.connector.reach target name)
  | vertexInput {own name : String} (token : Text.isWord own = true) (word : Text.isWord name = true) :
      Stands target ("$in" ++ own) (VariableKind.vertexInput.reach target name)

theorem Hardware.tokens_words {kind : VariableKind} (listed : (token, kind, name) ∈ tokens) :
    (∃ own, token = "$" ++ own ∧ isWord own) ∧ isWord name := by
  have all : (tokens.all fun entry => entry.1.toList.head? == some '$' &&
      entry.1.toList.tail.all Text.isWordChar && isWord entry.2.2) := by decide
  have here := all_eq_true.1 all _ listed
  simp only [Bool.and_eq_true, beq_iff_eq] at here
  obtain ⟨⟨mark, own⟩, word⟩ := here
  refine ⟨⟨String.ofList token.toList.tail, ?_, by simpa using own⟩, word⟩
  obtain ⟨rest, split⟩ := List.head?_eq_some_iff.1 mark
  simp [← String.toList_inj, split]

theorem Hardware.Stands.tame {text : String} (stands : Stands target token text) :
    Token.Tame (token, text) := by
  cases stands with
  | general listed =>
    obtain ⟨marked, word⟩ := tokens_words listed
    exact ⟨marked, VariableKind.reach_word _ target word⟩
  | connector word => exact ⟨⟨_, rfl, word⟩, VariableKind.reach_word _ target word⟩
  | @vertexInput own name token word =>
    refine ⟨⟨"in" ++ own, ?_, ?_⟩, VariableKind.reach_word _ target word⟩
    · rw [← String.append_assoc]
      rfl
    · simp +decide [token]

namespace Stage

structure IsTame (target : Target) (s : Stage) : Prop where
  source : s.source = ""
  indent : s.indent = 0
  scopes : s.scopes = []
  name : Text.isPlain s.name = true
  entryPoint : Text.isPlain s.entryPoint = true
  blocks : ∀ b ∈ s.blocks, Text.isPlain b.access = true ∧
    ∀ v ∈ b.members, Text.isPlain v.name = true
  tokens : ∀ entry ∈ s.tokens, Hardware.Stands target entry.1 entry.2

theorem IsTame.entries (tame : s.IsTame target) : ∀ entry ∈ s.tokens, Token.Tame entry :=
  fun entry member => (tame.tokens entry member).tame

theorem IsTame.blank (tame : s.IsTame target) : s.IsBlank := ⟨tame.source, tame.indent, tame.scopes⟩

structure Gains (target : Target) (more : String → Prop) (s s' : Stage) : Prop where
  tame : s'.IsTame target
  name : s'.name = s.name
  kept : ∀ token ∈ s.tokens.map Prod.fst, token ∈ s'.tokens.map Prod.fst
  gained : ∀ token, more token → token ∈ s'.tokens.map Prod.fst

theorem start_tame {entryPoint : String} (plain : isPlain name) (entry : isPlain entryPoint) :
    (start name entryPoint).IsTame target :=
  ⟨rfl, rfl, rfl, plain, entry, by simp [start], by simp [start]⟩

theorem createBlock_gains (tame : s.IsTame target) (kind : BlockKind) (name : String)
    {access : String} (plain : isPlain access) :
    s.Gains target (fun _ => False) (s.createBlock kind name access) := by
  unfold createBlock
  split
  · exact ⟨tame, rfl, fun _ => id, nofun⟩
  · refine ⟨{ tame with blocks := ?_ }, rfl, fun _ => id, nofun⟩
    rw [forall_mem_append, forall_mem_singleton]
    exact ⟨tame.blocks, plain, by simp⟩

theorem addToken_gains (tame : s.IsTame target) {text : String}
    (stands : Hardware.Stands target token text) :
    s.Gains target (· = token) (s.addToken token text) := by
  refine ⟨{ tame with tokens := fun entry member => ?_ }, rfl, fun other old => ?_, ?_⟩
  · obtain rfl | old := Assoc.mem_put member
    · exact stands
    · exact tame.tokens entry old
  · exact (Assoc.keys_put token text s.tokens).2 old
  · rintro _ rfl
    exact (Assoc.keys_put _ text s.tokens).1

theorem Gains.after {more more' : String → Prop} {s₁ s₂ : Stage} (first : s.Gains target more s₁)
    (second : s₁.Gains target more' s₂) : s.Gains target (fun t => more t ∨ more' t) s₂ where
  tame := second.tame
  name := second.name.trans first.name
  kept token old := second.kept token (first.kept token old)
  gained token new := new.elim (fun own => second.kept token (first.gained token own))
    (second.gained token)

theorem updateBlock_gains (tame : s.IsTame target) {block : String} {f : Block → Block}
    (keeps : ∀ b, (f b).access = b.access)
    (plain : ∀ b, (∀ v ∈ b.members, isPlain v.name) →
      ∀ v ∈ (f b).members, isPlain v.name) :
    (s.updateBlock block f).Ensures (s.Gains target fun _ => False) := by
  intro s' ok
  cases updateBlock_ok ok
  refine ⟨{ tame with blocks := fun b member => ?_ }, rfl, fun _ => id, nofun⟩
  obtain ⟨old, listed, rfl⟩ := mem_map.1 member
  have before := tame.blocks old listed
  split
  · exact ⟨keeps old ▸ before.1, plain old before.2⟩
  · exact before

theorem declareVariable_gains (tame : s.IsTame target) {kind : VariableKind} {block : String}
    (word : isWord name) (stands : Hardware.Stands target token (kind.reach target name)) :
    (s.declareVariable target kind block token name t).Ensures (s.Gains target (· = token)) := by
  refine .bind fun s₁ ok => .pure ?_
  have first : s.Gains target (fun _ => False) s₁ := by
    refine updateBlock_gains tame (fun b => ?_) (fun b old => ?_) s₁ ok
    · rw [Block.add_eq]
    · rw [Block.add_eq]
      exact forall_mem_map.1 (Ports.Extends.forall_withVariable
        (P := (isPlain ·)) (forall_mem_map.2 old) (Text.isPlain_of_isWord word))
  have both := first.after (addToken_gains first.tame stands)
  exact { both with gained := fun token new => both.gained token (.inr new) }

end Stage

def Tokened (target : Target) (inVertex inPixel : String → Prop) (stages : List Stage) : Prop :=
  ∃ vertex pixel, stages = [vertex, pixel] ∧ vertex.name = vertexStage ∧ pixel.name = pixelStage ∧
    vertex.IsTame target ∧ pixel.IsTame target ∧
    (∀ token, inVertex token → token ∈ vertex.tokens.map Prod.fst) ∧
    ∀ token, inPixel token → token ∈ pixel.tokens.map Prod.fst

namespace Tokened

variable {V P V' P' : String → Prop} {stages : List Stage}

theorem mono (tokened : Tokened target V P stages) (vertex : ∀ t, V' t → V t)
    (pixel : ∀ t, P' t → P t) : Tokened target V' P' stages := by
  obtain ⟨v, p, shape, isVertex, isPixel, tameVertex, tamePixel, ofVertex, ofPixel⟩ := tokened
  exact ⟨v, p, shape, isVertex, isPixel, tameVertex, tamePixel,
    fun t own => ofVertex t (vertex t own), fun t own => ofPixel t (pixel t own)⟩

end Tokened

namespace HardwareVariable

def Proper (target : Target) (x : HardwareVariable) : Prop :=
  Text.isWord x.name = true ∧ Hardware.Stands target x.token (x.kind.reach target x.name)

variable {x : HardwareVariable}

theorem Proper.general (listed : x.Listed) : x.Proper target :=
  ⟨(Hardware.tokens_words listed.2).2, .general listed.2⟩

theorem eq_connector {c : String} (named : x.connector? = some c) : ∃ t, x = .connector c t := by
  cases x with
  | connector name t =>
    cases named
    exact ⟨t, rfl⟩
  | vertexInput | vertexUniform | pixelUniform => cases named

theorem Changes.gains {here : Bool} {s' : Stage} (proper : x.Proper target) (tame : s.IsTame target)
    (changes : x.Changes target t here s s') :
    s.Gains target (fun token => here ∧ token = x.token) s' := by
  cases here with
  | true =>
    have gains := declareVariable_gains tame proper.1 proper.2 s' changes
    exact { gains with gained := fun token new => gains.gained token new.2 }
  | false =>
    obtain rfl : s' = s := changes
    exact ⟨tame, rfl, fun _ => id, nofun⟩

end HardwareVariable

namespace Run

variable {run : Run} {V P : String → Prop} {stages : List Stage}

theorem enter_tokened (tokened : Tokened run.target V P stages) {x : HardwareVariable}
    (proper : x.Proper run.target) :
    (run.enter stages x).Ensures (Tokened run.target
      (fun t => V t ∨ x.inVertex ∧ t = x.token)
      fun t => P t ∨ x.inPixel ∧ t = x.token) := by
  obtain ⟨v, p, rfl, isVertex, isPixel, tameVertex, tamePixel, ofVertex, ofPixel⟩ := tokened
  intro stages' ok
  obtain ⟨t, v', p', _, rfl, first, second⟩ := enter_ok isVertex isPixel ok
  have gains := first.gains proper tameVertex
  have gains' := second.gains proper tamePixel
  refine ⟨v', p', rfl, gains.name.trans isVertex, gains'.name.trans isPixel, gains.tame,
    gains'.tame, ?_, ?_⟩
  · rintro t (old | new)
    · exact gains.kept t (ofVertex t old)
    · exact gains.gained t new
  · rintro t (old | new)
    · exact gains'.kept t (ofPixel t old)
    · exact gains'.gained t new

theorem enterAll_tokened {vs : List HardwareVariable} (proper : ∀ x ∈ vs, x.Proper run.target)
    (tokened : Tokened run.target V P stages) :
    (vs.foldlM run.enter stages).Ensures (Tokened run.target
      (fun t => V t ∨ ∃ x ∈ vs, x.inVertex ∧ t = x.token)
      fun t => P t ∨ ∃ x ∈ vs, x.inPixel ∧ t = x.token) := by
  induction vs generalizing V P stages with
  | nil => exact .pure (tokened.mono (by simp) (by simp))
  | cons x rest ih =>
    rw [forall_mem_cons] at proper
    refine .bind fun stages₁ first stages' later => ?_
    refine (ih proper.2 (enter_tokened tokened proper.1 stages₁ first) stages' later).mono ?_ ?_
    all_goals
      intro t
      simp only [exists_mem_cons_iff, or_assoc]
      exact fun listed => listed

end Run

/-- The token of the attribute that a node reads by an index or a property. -/
inductive GeometricKind.Reads (kind : GeometricKind) (n : GraphNode) (typeName : String) :
    String → Prop
  | intro {own front attr : String} (fronts : kind.fronts? = some (own, front))
      (named : kind.attributeText n typeName = .ok attr) :
      Reads kind n typeName ("$in" ++ own ++ attr)

inductive Run.VertexToken (run : Run) (id : NodeId) : String → Prop
  | connector {c : String} (connects : run.Connects id c) : VertexToken run id ("$" ++ c)
  | vertexInput {kind : GeometricKind} {n : GraphNode} {o : Output} {token : String}
      (realized : run.realization id = .geometric kind) (node : run.node id = .ok n)
      (output : run.firstOutput id = .ok o) (reads : kind.Reads n o.type.name token) :
      VertexToken run id token

def Run.PixelToken (run : Run) (id : NodeId) (token : String) : Prop :=
  ∃ c, run.Connects id c ∧ token = "$" ++ c

theorem GeometricKind.inputVariables_proper (target : Target) (options : Options)
    (kind : GeometricKind) (n : GraphNode) {typeName : String}
    (word : isWord typeName) :
    (kind.inputVariables options n typeName).Ensures fun vs => (∀ x ∈ vs, x.Proper target) ∧
      ∀ t, kind.Reads n typeName t → ∃ x ∈ vs, x.inVertex ∧ t = x.token := by
  intro vs ok
  obtain ⟨none, listed⟩ | ⟨own, front, attr, t, fronts, named, rfl⟩ := inputVariables_ok ok
  · refine ⟨fun x member => .general (listed x member), fun t reads => ?_⟩
    cases reads with
    | intro fronts _ => simp [none] at fronts
  · have words : isWord own ∧ isWord ("i_" ++ front) := by
      cases kind <;> cases fronts <;> decide
    have whole {a : String} (start : isWord a) : isWord (a ++ attr) := by
      rw [isWord, Text.hasOnly_append, Bool.and_eq_true]
      exact ⟨start, kind.attributeText_word n word attr named⟩
    have stands : Hardware.Stands target ("$in" ++ (own ++ attr))
        (VariableKind.vertexInput.reach target ("i_" ++ front ++ attr)) :=
      .vertexInput (whole words.1) (whole words.2)
    refine ⟨forall_mem_singleton.2 ⟨whole words.2, stands⟩, fun t reads => ?_⟩
    cases reads with
    | intro fronts' named' =>
      cases fronts.symm.trans fronts'
      cases named.symm.trans named'
      exact ⟨_, mem_singleton.2 rfl, rfl, rfl⟩

namespace Run

open Result.Ensures

variable {run : Run} {V P : String → Prop} {stages : List Stage}

theorem firstOutput_mem {id : NodeId} {n : GraphNode} {o : Output} (node : run.node id = .ok n)
    (output : run.firstOutput id = .ok o) : o ∈ n.outputs := by
  obtain ⟨m, node', ok⟩ := bind_ok.1 output
  cases node.symm.trans node'
  exact mem_of_head? (orFail_ok.1 ok)

theorem Connects.word (plain : run.IsPlain) {id : NodeId} {c : String}
    (connects : run.Connects id c) : isWord c := by
  cases connects with
  | @geometric kind n o _ realized node output named =>
    have known := plain.outputs n (node_mem node) o (firstOutput_mem node output)
    exact kind.connector?_word n (Registry.standard_word known) _ named c rfl
  | light => decide

theorem nodeVariables_proper (plain : run.IsPlain) (hardware : run.target.isHardware)
    (id : NodeId) : (run.nodeVariables id).Ensures fun vs => (∀ x ∈ vs, x.Proper run.target) ∧
      (∀ t, run.VertexToken id t → ∃ x ∈ vs, x.inVertex ∧ t = x.token) ∧
      ∀ t, run.PixelToken id t → ∃ x ∈ vs, x.inPixel ∧ t = x.token := by
  intro vs ok
  have connected {c : String} (connects : run.Connects id c) : ∃ t, .connector c t ∈ vs := by
    obtain ⟨x, member, named⟩ :=
      mem_filterMap.1 (((nodeVariables_own hardware id vs ok).2 c).2 connects)
    obtain ⟨t, rfl⟩ := HardwareVariable.eq_connector named
    exact ⟨t, member⟩
  have connectors {c t : String} (member : .connector c t ∈ vs) :
      (HardwareVariable.connector c t).Proper run.target := by
    have connects := ((nodeVariables_own hardware id vs ok).2 c).1
      (mem_filterMap.2 ⟨_, member, rfl⟩)
    exact ⟨connects.word plain, .connector (connects.word plain)⟩
  have shown (t : String) : run.PixelToken id t → ∃ x ∈ vs, x.inPixel ∧ t = x.token := by
    rintro ⟨c, connects, rfl⟩
    obtain ⟨t, member⟩ := connected connects
    exact ⟨_, member, rfl, rfl⟩
  suffices inputs : (∀ x ∈ vs, x.connector? = none → x.Proper run.target) ∧
      ∀ kind n o t, run.realization id = .geometric kind → run.node id = .ok n →
        run.firstOutput id = .ok o → kind.Reads n o.type.name t →
          ∃ x ∈ vs, x.inVertex ∧ t = x.token by
    refine ⟨fun x member => ?_, fun t => ?_, shown⟩
    · cases named : x.connector? with
      | none => exact inputs.1 x member named
      | some c =>
        obtain ⟨t, rfl⟩ := HardwareVariable.eq_connector named
        exact connectors member
    · rintro (connects | ⟨realized, node, output, reads⟩)
      · obtain ⟨t, member⟩ := connected connects
        exact ⟨_, member, rfl, rfl⟩
      · exact inputs.2 _ _ _ t realized node output reads
  unfold nodeVariables at ok
  cases realized : run.realization id with
  | geometric kind =>
    simp only [realized, hardware, if_true] at ok
    obtain ⟨n, node, ok⟩ := bind_ok.1 ok
    obtain ⟨o, output, ok⟩ := bind_ok.1 ok
    obtain ⟨inputs, listed, ok⟩ := bind_ok.1 ok
    obtain ⟨connector, named, ok⟩ := bind_ok.1 ok
    cases pure_ok.1 ok
    have known := plain.outputs n (node_mem node) o (firstOutput_mem node output)
    obtain ⟨proper, reads⟩ := kind.inputVariables_proper run.target run.options n
      (Registry.standard_word known) inputs listed
    refine ⟨fun x member none => ?_, ?_⟩
    · obtain own | ofConnector := mem_append.1 member
      · exact proper x own
      · obtain ⟨c, _, rfl⟩ := mem_map.1 ofConnector
        cases none
    · rintro kind' n' o' t ⟨⟩ node' output' own
      cases node.symm.trans node'
      cases output.symm.trans output'
      obtain ⟨x, member, found⟩ := reads t own
      exact ⟨x, mem_append_left _ member, found⟩
  | light =>
    simp only [realized] at ok
    cases pure_ok.1 ok
    refine ⟨fun x member none => .general ?_, fun _ _ _ _ other => nomatch other⟩
    revert x
    decide
  | _ =>
    simp only [realized] at ok
    cases pure_ok.1 ok
    exact ⟨by simp, fun _ _ _ _ other => nomatch other⟩

theorem mapM_nodeVariables_proper (plain : run.IsPlain) (hardware : run.target.isHardware)
    (ids : List NodeId) : (ids.mapM run.nodeVariables).Ensures fun lists =>
      (∀ x ∈ lists.flatten, x.Proper run.target) ∧
      (∀ t, (∃ id ∈ ids, run.VertexToken id t) →
        ∃ x ∈ lists.flatten, x.inVertex ∧ t = x.token) ∧
      ∀ t, (∃ id ∈ ids, run.PixelToken id t) →
        ∃ x ∈ lists.flatten, x.inPixel ∧ t = x.token := by
  intro lists ok
  have all := mapM_ok ok
  have each := all.imp fun id vs => nodeVariables_proper plain hardware id vs
  refine ⟨fun x member => ?_, ?_, ?_⟩
  · obtain ⟨vs, listed, member⟩ := mem_flatten.1 member
    obtain ⟨id, _, proper, _⟩ := exists_of_mem_right each listed
    exact proper x member
  · rintro t ⟨id, member, own⟩
    obtain ⟨vs, listed, _, vertex, _⟩ := exists_of_mem_right each.flip member
    obtain ⟨x, found, shown⟩ := vertex t own
    exact ⟨x, mem_flatten.2 ⟨vs, listed, found⟩, shown⟩
  · rintro t ⟨id, member, own⟩
    obtain ⟨vs, listed, _, _, pixel⟩ := exists_of_mem_right each.flip member
    obtain ⟨x, found, shown⟩ := pixel t own
    exact ⟨x, mem_flatten.2 ⟨vs, listed, found⟩, shown⟩

end Run

namespace Hardware

open Result.Ensures

variable {run : Run} {V P : String → Prop} {stages : List Stage}

theorem withTokens_gains (tame : s.IsTame target) :
    s.Gains target (· ∈ tokenNames) (withTokens target s) := by
  have all : ∀ (entries : List (String × VariableKind × String)) (s : Stage), s.IsTame target →
      (∀ entry ∈ entries, entry ∈ tokens) → s.Gains target (· ∈ entries.map Prod.fst)
        (entries.foldl (fun acc e => acc.addToken e.1 (e.2.1.reach target e.2.2)) s) := by
    intro entries
    induction entries with
    | nil => exact fun s tame _ => ⟨tame, rfl, fun _ => id, by simp⟩
    | cons entry rest ih =>
      intro s tame listed
      have here := listed entry mem_cons_self
      have first := addToken_gains tame (.general here)
      have both := first.after
        (ih _ first.tame fun entry later => listed entry (.tail _ later))
      exact { both with gained := fun t new => both.gained t (mem_cons.1 new) }
  exact all tokens s tame fun _ => id

theorem emptyStages_tokened (target : Target) :
    Tokened target (· ∈ tokenNames) (· ∈ tokenNames) (emptyStages target) := by
  have base {name entryPoint : String} (plain : isPlain name)
      (entry : isPlain entryPoint) (inputs outputs : String) {access access' : String}
      (first : isPlain access) (second : isPlain access') :
      (Stage.start name entryPoint).Gains target (· ∈ tokenNames)
        (((baseStage target name entryPoint).createBlock .input inputs access).createBlock .output
          outputs access') := by
    have fresh : (Stage.start name entryPoint).IsTame target := start_tame plain entry
    have generator : isPlain "u_prv" := by decide
    have published : isPlain "u_pub" := by decide
    have one := createBlock_gains fresh .uniform privateUniforms generator
    have two := one.after (createBlock_gains one.tame .uniform publicUniforms published)
    have three := two.after (withTokens_gains two.tame)
    have four := three.after (createBlock_gains three.tame .input inputs first)
    have five := four.after (createBlock_gains four.tame .output outputs second)
    exact { five with gained := fun t new => five.gained t (.inl (.inl (.inr new))) }
  have entries : isPlain (entryPoints target).1 ∧
      isPlain (entryPoints target).2 := by
    unfold entryPoints
    split <;> decide
  have access : isPlain (if target = .msl then "po" else "") := by
    split <;> decide
  have isVertex : isPlain vertexStage := by decide
  have isPixel : isPlain pixelStage := by decide
  have attributes : isPlain "i_vs" := by decide
  have connectors : isPlain "vd" := by decide
  have vertex := base isVertex entries.1 vertexInputs vertexData attributes connectors
  have pixel := base isPixel entries.2 vertexData pixelOutputs connectors access
  exact ⟨_, _, rfl, vertex.name, pixel.name, vertex.tame, pixel.tame, vertex.gained, pixel.gained⟩

theorem basicVariables_proper (target : Target) (options : Options) :
    ∀ x ∈ basicVariables options, x.Proper target := by
  have word : isWord "i_texcoord_0" := by decide
  have texcoord : Stands target "$inTexcoord_0"
      (VariableKind.vertexInput.reach target "i_texcoord_0") :=
    .vertexInput (by decide : isWord "Texcoord_0") word
  rw [basicVariables, forall_mem_append]
  refine ⟨fun x member => .general ?_, ?_⟩
  · revert x
    decide
  · split
    · exact forall_mem_singleton.2 ⟨word, texcoord⟩
    · simp

theorem declareInterface_tokened (plain : run.IsPlain) (tokened : Tokened run.target V P stages) :
    (declareInterface run stages).Ensures (Tokened run.target V P) := by
  have adds {vs : List StageVariable} (names : ∀ v ∈ vs, isPlain v.name) (b : Block)
      (old : ∀ v ∈ b.members, isPlain v.name) :
      ∀ v ∈ (b.addAll vs).members, isPlain v.name := by
    rw [Block.addAll_eq]
    generalize b.members = members at old
    induction vs generalizing members with
    | nil => exact old
    | cons v rest ih =>
      refine ih (fun v later => names v (.tail _ later)) _ ?_
      exact forall_mem_map.1 (Ports.Extends.forall_withVariable
        (P := (isPlain ·)) (forall_mem_map.2 old) (names v mem_cons_self))
  have keeps (vs : List StageVariable) (b : Block) : (b.addAll vs).access = b.access := by
    rw [Block.addAll_eq]
  have published : ∀ v ∈ publicVariables run, isPlain v.name := by
    intro v member
    obtain ⟨⟨socket, name⟩, listed, rfl⟩ := mem_map.1 member
    exact plain.names name (by simp [Names.all, (of_mem_zip listed).2])
  have drawn (t : ShaderType) :
      ∀ v ∈ run.names.graphOutputs.map (StageVariable.plain t), isPlain v.name := by
    intro v member
    obtain ⟨name, listed, rfl⟩ := mem_map.1 member
    exact plain.names name (by simp [Names.all, listed])
  obtain ⟨v, p, rfl, isVertex, isPixel, tameVertex, tamePixel, ofVertex, ofPixel⟩ := tokened
  refine after fun vector4 stages' ok => ?_
  obtain ⟨p', changed, rfl⟩ := updateNamed_pixel isVertex isPixel ok
  obtain ⟨s₁, first, second⟩ := bind_ok.1 changed
  have gains := updateBlock_gains tamePixel (keeps _) (adds published) s₁ first
  have gains' := updateBlock_gains gains.tame (keeps _) (adds (drawn vector4)) p' second
  have both := gains.after gains'
  exact ⟨v, p', rfl, isVertex, both.name.trans isPixel, tameVertex, both.tame, ofVertex,
    fun t own => both.kept t (ofPixel t own)⟩

def VertexToken (run : Run) (token : String) : Prop :=
  token ∈ tokenNames ∨ (run.options.textureSpace = true ∧ token = "$inTexcoord_0") ∨
    ∃ id ∈ run.graph.order, run.VertexToken id token

def PixelToken (run : Run) (token : String) : Prop :=
  token ∈ tokenNames ∨ ∃ id ∈ run.graph.order, run.PixelToken id token

theorem declareStages_tokened (plain : run.IsPlain) (hardware : run.target.isHardware) :
    (declareStages run).Ensures (Tokened run.target (VertexToken run) (PixelToken run)) := by
  intro stages ok
  obtain ⟨lists, basics, interfaced, listed, first, second, entered⟩ := declareStages_ok ok
  obtain ⟨proper, ofVertex, ofPixel⟩ := Run.mapM_nodeVariables_proper plain hardware _ lists listed
  have tokened₁ := Run.enterAll_tokened (basicVariables_proper run.target run.options)
    (emptyStages_tokened run.target) basics first
  have tokened₂ := declareInterface_tokened plain tokened₁ interfaced second
  have uniforms : ∀ x ∈ pixelUniforms run, x.Proper run.target :=
    fun x member => .general (pixelUniforms_listed run x member).1
  have all := forall_mem_append.2 ⟨uniforms, proper⟩
  refine (Run.enterAll_tokened all tokened₂ stages entered).mono ?_ ?_
  · rintro t (general | ⟨space, rfl⟩ | node)
    · exact .inl (.inl general)
    · refine .inl (.inr ⟨.vertexInput "$inTexcoord_0" "i_texcoord_0" "vector2", ?_, rfl, rfl⟩)
      simp [basicVariables, space]
    · obtain ⟨x, member, shown⟩ := ofVertex t node
      exact .inr ⟨x, mem_append_right _ member, shown⟩
  · rintro t (general | node)
    · exact .inl (.inl general)
    · obtain ⟨x, member, shown⟩ := ofPixel t node
      exact .inr ⟨x, mem_append_right _ member, shown⟩

end Hardware

end MaterialShader
