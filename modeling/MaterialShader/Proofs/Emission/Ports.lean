import MaterialShader.Proofs.Emission.Names
import MaterialShader.Proofs.Emission.Variables
import MaterialShader.Proofs.Stage.Interface

/-!
The variables of a hardware shader.
-/

namespace MaterialShader

open List Stage

def withVariable (vs : List StageVariable) (v : StageVariable) : List StageVariable :=
  if v.name ∈ vs.map StageVariable.name then vs else vs ++ [v]

theorem Block.add_eq (b : Block) (v : StageVariable) :
    b.add v = { b with members := withVariable b.members v } := by
  have found : b.contains v.name ↔ v.name ∈ b.members.map StageVariable.name := by
    simp only [contains, find?, List.find?_isSome, beq_iff_eq, mem_map]
  rw [add, withVariable]
  by_cases present : v.name ∈ b.members.map StageVariable.name
  · rw [if_pos (found.2 present), if_pos present]
  · rw [if_neg (fun h => present (found.1 h)), if_neg present]

variable {vs : List StageVariable}

theorem mem_names_withVariable {v : StageVariable} {c : String} :
    c ∈ (withVariable vs v).map StageVariable.name ↔
      c ∈ vs.map StageVariable.name ∨ c = v.name := by
  rw [withVariable]
  split
  · rename_i present
    refine ⟨.inl, ?_⟩
    rintro (old | rfl)
    · exact old
    · exact present
  · simp

theorem mem_of_mem_withVariable {v w : StageVariable} (member : w ∈ withVariable vs v) :
    w ∈ vs ∨ w = v := by
  unfold withVariable at member
  split at member
  · exact .inl member
  · simpa using member

theorem nodup_names_withVariable (v : StageVariable)
    (distinct : (vs.map StageVariable.name).Nodup) :
    ((withVariable vs v).map StageVariable.name).Nodup := by
  rw [withVariable]
  split
  · exact distinct
  · rename_i absent
    rw [map_append, map_singleton]
    exact distinct.append (nodup_singleton _) (by simpa using absent)

theorem foldl_withVariable {added : List StageVariable}
    (distinct : ((vs ++ added).map StageVariable.name).Nodup) :
    added.foldl withVariable vs = vs ++ added := by
  induction added generalizing vs with
  | nil => simp
  | cons v rest ih =>
    have absent : v.name ∉ vs.map StageVariable.name := by
      intro present
      rw [map_append, nodup_append] at distinct
      exact distinct.2.2 _ present _ (by simp) rfl
    have split : vs ++ v :: rest = (vs ++ [v]) ++ rest := by simp
    rw [foldl_cons, withVariable, if_neg absent, split]
    exact ih (split ▸ distinct)

theorem Block.addAll_eq (b : Block) (added : List StageVariable) :
    b.addAll added = { b with members := added.foldl withVariable b.members } := by
  unfold addAll
  induction added generalizing b with
  | nil => rfl
  | cons v rest ih => rw [foldl_cons, ih, add_eq, foldl_cons]

structure Ports where
  vertexUniforms : List StageVariable
  attributes : List StageVariable
  /-- The connectors in the vertex stage. -/
  written : List StageVariable
  pixelUniforms : List StageVariable
  published : List StageVariable
  /-- The connectors in the pixel stage. -/
  read : List StageVariable
  drawn : List StageVariable

def Ports.vertexBlocks (p : Ports) : List Block :=
  [⟨.uniform, privateUniforms, "u_prv", p.vertexUniforms⟩, ⟨.uniform, publicUniforms, "u_pub", []⟩,
   ⟨.input, vertexInputs, "i_vs", p.attributes⟩, ⟨.output, vertexData, "vd", p.written⟩]

def Ports.pixelBlocks (p : Ports) (target : Target) : List Block :=
  [⟨.uniform, privateUniforms, "u_prv", p.pixelUniforms⟩,
   ⟨.uniform, publicUniforms, "u_pub", p.published⟩, ⟨.input, vertexData, "vd", p.read⟩,
   ⟨.output, pixelOutputs, if target = .msl then "po" else "", p.drawn⟩]

def HasPorts (target : Target) (stages : List Stage) (p : Ports) : Prop :=
  ∃ vertex pixel, stages = [vertex, pixel] ∧ vertex.name = vertexStage ∧
    pixel.name = pixelStage ∧ vertex.blocks = p.vertexBlocks ∧ pixel.blocks = p.pixelBlocks target

namespace Stage

theorem updateBlock_ok {s s' : Stage} {name : String} {f : Block → Block}
    (ok : s.updateBlock name f = .ok s') :
    s' = { s with blocks := s.blocks.map fun b => if b.name = name then f b else b } := by
  unfold updateBlock at ok
  split at ok
  · cases ok
    rfl
  · cases ok

theorem declareVariable_blocks {target : Target} {kind : VariableKind} {block token name : String}
    {t : ShaderType} {old new : List Block}
    (added : (old.map fun b =>
      if b.name = block then { b with members := withVariable b.members (.plain t name) } else b) =
        new) (s : Stage) (blocks : s.blocks = old) :
    (s.declareVariable target kind block token name t).Ensures fun s' =>
      s'.name = s.name ∧ s'.blocks = new := by
  refine .bind fun declared ok => .pure ?_
  cases updateBlock_ok ok
  simp only [Block.add_eq, ← added, ← blocks]
  exact ⟨rfl, rfl⟩

end Stage

theorem emptyStages_hasPorts (target : Target) :
    HasPorts target (Hardware.emptyStages target) ⟨[], [], [], [], [], [], []⟩ := by
  refine ⟨_, _, rfl, ?_, ?_, ?_, ?_⟩
  all_goals
    rfl

def generatorUniforms : List String := reservedWords.filter (Text.startsWith "u_")

inductive Ports.Extends (p : Ports) : List String → Ports → Prop
  | refl : Extends p [] p
  | vertexUniform {q : Ports} {cs : List String} (rest : Extends p cs q) (t : ShaderType)
      {name : String} (own : name ∈ generatorUniforms) :
      Extends p cs { q with vertexUniforms := withVariable q.vertexUniforms (.plain t name) }
  | pixelUniform {q : Ports} {cs : List String} (rest : Extends p cs q) (t : ShaderType)
      {name : String} (own : name ∈ generatorUniforms) :
      Extends p cs { q with pixelUniforms := withVariable q.pixelUniforms (.plain t name) }
  | vertexInput {q : Ports} {cs : List String} (rest : Extends p cs q) (t : ShaderType)
      {name : String} (own : Text.startsWith "i_" name = true) :
      Extends p cs { q with attributes := withVariable q.attributes (.plain t name) }
  | connector {q : Ports} {cs : List String} (rest : Extends p cs q) (t : ShaderType)
      (name : String) :
      Extends p (cs ++ [name])
        { q with
          written := withVariable q.written (.plain t name)
          read := withVariable q.read (.plain t name) }

def Grown (target : Target) (p : Ports) (cs : List String) (stages : List Stage) : Prop :=
  ∃ q, HasPorts target stages q ∧ p.Extends cs q

def HardwareVariable.isOwn : HardwareVariable → Bool
  | .vertexInput _ name _ => Text.startsWith "i_" name
  | .vertexUniform _ name _ | .pixelUniform _ name _ => decide (name ∈ generatorUniforms)
  | .connector .. => true

namespace Run

open HardwareVariable

variable {run : Run} {stages : List Stage} {p : Ports} {cs : List String}

theorem enter_grown (grown : Grown run.target p cs stages) {x : HardwareVariable} (own : x.isOwn) :
    (run.enter stages x).Ensures (Grown run.target p (cs ++ x.connector?.toList)) := by
  obtain ⟨q, ⟨vertex, pixel, rfl, isVertex, isPixel, vertexBlocks, pixelBlocks⟩, grown⟩ := grown
  intro stages' ok
  obtain ⟨t, vertex', pixel', _, rfl, first, second⟩ := enter_ok isVertex isPixel ok
  cases x with
  | vertexInput token name typeName =>
    obtain ⟨same, blocks⟩ := declareVariable_blocks rfl vertex vertexBlocks vertex' first
    obtain rfl : pixel' = pixel := second
    rw [connector?, Option.toList_none, append_nil]
    refine ⟨_, ?_, grown.vertexInput t own⟩
    exact ⟨vertex', pixel', rfl, same.trans isVertex, isPixel, blocks, pixelBlocks⟩
  | vertexUniform token name typeName =>
    obtain ⟨same, blocks⟩ := declareVariable_blocks rfl vertex vertexBlocks vertex' first
    obtain rfl : pixel' = pixel := second
    rw [connector?, Option.toList_none, append_nil]
    refine ⟨_, ?_, grown.vertexUniform t (of_decide_eq_true own)⟩
    exact ⟨vertex', pixel', rfl, same.trans isVertex, isPixel, blocks, pixelBlocks⟩
  | pixelUniform token name typeName =>
    obtain ⟨same, blocks⟩ := declareVariable_blocks rfl pixel pixelBlocks pixel' second
    obtain rfl : vertex' = vertex := first
    rw [connector?, Option.toList_none, append_nil]
    refine ⟨_, ?_, grown.pixelUniform t (of_decide_eq_true own)⟩
    exact ⟨vertex', pixel', rfl, isVertex, same.trans isPixel, vertexBlocks, blocks⟩
  | connector name typeName =>
    obtain ⟨same, blocks⟩ := declareVariable_blocks rfl vertex vertexBlocks vertex' first
    obtain ⟨same', blocks'⟩ := declareVariable_blocks rfl pixel pixelBlocks pixel' second
    refine ⟨_, ?_, grown.connector t name⟩
    exact ⟨vertex', pixel', rfl, same.trans isVertex, same'.trans isPixel, blocks, blocks'⟩

theorem enterAll_grown {vs : List HardwareVariable} (own : ∀ x ∈ vs, x.isOwn)
    (grown : Grown run.target p cs stages) :
    (vs.foldlM run.enter stages).Ensures (Grown run.target p (cs ++ vs.filterMap connector?)) := by
  induction vs generalizing cs stages with
  | nil => exact .pure (by simpa using grown)
  | cons x rest ih =>
    rw [forall_mem_cons] at own
    refine .bind fun stages₁ first stages' later => ?_
    have grown' := ih own.2 (enter_grown grown own.1 stages₁ first) stages' later
    cases named : x.connector? <;> simpa [named] using grown'

end Run

theorem HardwareVariable.Listed.isOwn {x : HardwareVariable} (listed : x.Listed) :
    x.isOwn := by
  have table : ∀ entry ∈ Hardware.tokens,
      (entry.2.1 = .vertexInput → Text.startsWith "i_" entry.2.2) ∧
        (entry.2.1 = .uniform → entry.2.2 ∈ generatorUniforms) := by
    decide
  have here := table _ listed.2
  cases x with
  | vertexInput => exact here.1 rfl
  | vertexUniform | pixelUniform => exact decide_eq_true (here.2 rfl)
  | connector => rfl

theorem GeometricKind.inputVariables_own (options : Options) (kind : GeometricKind) (n : GraphNode)
    (typeName : String) : (kind.inputVariables options n typeName).Ensures fun vs =>
      ∀ x ∈ vs, x.isOwn ∧ x.connector? = none := by
  intro vs ok
  obtain ⟨_, listed⟩ | ⟨own, front, attr, t, _, _, rfl⟩ := inputVariables_ok ok
  · exact fun x member => ⟨(listed x member).isOwn, (listed x member).1⟩
  · refine forall_mem_singleton.2 ⟨?_, rfl⟩
    exact Text.startsWith_append (Text.startsWith_append (by decide) front) attr

inductive Run.Connects (run : Run) (id : NodeId) : String → Prop
  | geometric {kind : GeometricKind} {n : GraphNode} {o : Output} {c : String}
      (realized : run.realization id = .geometric kind) (node : run.node id = .ok n)
      (output : run.firstOutput id = .ok o) (named : kind.connector? n o.type.name = .ok (some c)) :
      Connects run id c
  | light (realized : run.realization id = .light) : Connects run id "positionWorld"

namespace Run

open Result.Ensures

variable {run : Run} {stages : List Stage} {p : Ports} {cs : List String}

theorem connects_geometric {id : NodeId} {kind : GeometricKind} {n : GraphNode} {o : Output}
    {connector : Option String} (realized : run.realization id = .geometric kind)
    (node : run.node id = .ok n) (output : run.firstOutput id = .ok o)
    (named : kind.connector? n o.type.name = .ok connector) (c : String) :
    c ∈ connector.toList ↔ run.Connects id c := by
  rw [Option.mem_toList]
  constructor
  · rintro rfl
    exact .geometric realized node output named
  · intro connects
    cases connects with
    | geometric realized' node' output' named' =>
      cases realized.symm.trans realized'
      cases node.symm.trans node'
      cases output.symm.trans output'
      cases named.symm.trans named'
      rfl
    | light realized' => cases realized.symm.trans realized'

theorem nodeVariables_own (hardware : run.target.isHardware) (id : NodeId) :
    (run.nodeVariables id).Ensures fun vs => (∀ x ∈ vs, x.isOwn) ∧
      ∀ c, c ∈ vs.filterMap HardwareVariable.connector? ↔ run.Connects id c := by
  unfold nodeVariables
  cases realized : run.realization id with
  | geometric kind =>
    simp only [hardware, if_true]
    refine bind fun n node => bind fun o output => bind fun vs listed => bind fun c named => pure ?_
    have own := kind.inputVariables_own run.options n o.type.name vs listed
    have none : vs.filterMap HardwareVariable.connector? = [] :=
      filterMap_eq_nil_iff.2 fun x member => (own x member).2
    refine ⟨?_, fun c => ?_⟩
    · rw [forall_mem_append]
      refine ⟨fun x member => (own x member).1, fun x member => ?_⟩
      obtain ⟨name, _, rfl⟩ := mem_map.1 member
      rfl
    · rw [filterMap_append, none, nil_append, filterMap_map,
        ← connects_geometric realized node output named]
      exact iff_of_eq (congrArg (c ∈ ·) filterMap_some)
  | light =>
    refine pure ⟨?_, fun c => ?_⟩
    · decide
    · change c ∈ ["positionWorld"] ↔ _
      rw [mem_singleton]
      constructor
      · rintro rfl
        exact .light realized
      · rintro (⟨realized'⟩ | _)
        · cases realized.symm.trans realized'
        · rfl
  | _ =>
    refine pure ⟨by simp, fun c => ⟨by simp, ?_⟩⟩
    rintro (⟨realized'⟩ | ⟨realized'⟩) <;> cases realized.symm.trans realized'

theorem mapM_nodeVariables_own (hardware : run.target.isHardware) (ids : List NodeId) :
    (ids.mapM run.nodeVariables).Ensures fun lists => (∀ x ∈ lists.flatten, x.isOwn) ∧
      ∀ c, c ∈ lists.flatten.filterMap HardwareVariable.connector? ↔
        ∃ id ∈ ids, run.Connects id c := by
  intro lists ok
  have all := Result.mapM_ok ok
  clear ok
  induction all with
  | nil => simp
  | cons here _ ih =>
    obtain ⟨own, exactly⟩ := nodeVariables_own hardware _ _ here
    rw [flatten_cons, forall_mem_append]
    refine ⟨⟨own, ih.1⟩, fun c => ?_⟩
    rw [filterMap_append, mem_append, exactly, ih.2, exists_mem_cons_iff]

end Run

namespace Hardware

open Result.Ensures

variable {run : Run} {stages : List Stage} {p : Ports}

theorem basicVariables_own (options : Options) : ∀ x ∈ basicVariables options, x.isOwn := by
  unfold basicVariables
  split <;> decide

theorem pixelUniforms_listed (run : Run) :
    ∀ x ∈ pixelUniforms run, x.Listed ∧ x.inVertex = false := by
  have lighting : ∀ x ∈ lightingUniforms run.options, x.Listed ∧ x.inVertex = false := by
    simp only [lightingUniforms, forall_mem_append]
    refine ⟨⟨⟨⟨by decide, ?_⟩, ?_⟩, ?_⟩, ?_⟩
    all_goals split <;> decide
  rw [pixelUniforms, forall_mem_append]
  constructor
  · split
    · exact lighting
    · simp
  · split <;> decide

theorem declareInterface_ports {run : Run} (ports : HasPorts run.target stages p) :
    (declareInterface run stages).Ensures fun stages' => ∃ vector4,
      run.types.get "vector4" = .ok vector4 ∧ HasPorts run.target stages'
        { p with
          published := (publicVariables run).foldl withVariable p.published
          drawn := (run.names.graphOutputs.map (StageVariable.plain vector4)).foldl withVariable
            p.drawn } := by
  obtain ⟨vertex, pixel, rfl, isVertex, isPixel, vertexBlocks, pixelBlocks⟩ := ports
  refine bind fun vector4 known stages' ok => ⟨vector4, known, ?_⟩
  obtain ⟨pixel', changed, rfl⟩ := updateNamed_pixel isVertex isPixel ok
  obtain ⟨s, first, second⟩ := Result.bind_ok.1 changed
  cases updateBlock_ok first
  cases updateBlock_ok second
  refine ⟨vertex, _, rfl, isVertex, isPixel, vertexBlocks, ?_⟩
  simp only [Block.addAll_eq, pixelBlocks]
  rfl

end Hardware

structure Ports.Orderly (p : Ports) : Prop where
  vertexUniforms : ∀ c ∈ p.vertexUniforms.map StageVariable.name, c ∈ generatorUniforms
  pixelUniforms : ∀ c ∈ p.pixelUniforms.map StageVariable.name, c ∈ generatorUniforms
  attributes : ∀ c ∈ p.attributes.map StageVariable.name, Text.startsWith "i_" c = true
  same : p.written = p.read
  distinctVertexUniforms : (p.vertexUniforms.map StageVariable.name).Nodup
  distinctPixelUniforms : (p.pixelUniforms.map StageVariable.name).Nodup
  distinctAttributes : (p.attributes.map StageVariable.name).Nodup
  distinctConnectors : (p.read.map StageVariable.name).Nodup
  fresh : ∀ v ∈ p.read, v.assigned = false

namespace Ports.Extends

variable {p q : Ports} {cs : List String}

theorem interface (grown : p.Extends cs q) : q.published = p.published ∧ q.drawn = p.drawn := by
  induction grown with
  | refl => exact ⟨rfl, rfl⟩
  | vertexUniform _ _ _ ih | pixelUniform _ _ _ ih | vertexInput _ _ _ ih | connector _ _ _ ih =>
    exact ih

theorem mem_read (grown : p.Extends cs q) (c : String) :
    c ∈ q.read.map StageVariable.name ↔ c ∈ p.read.map StageVariable.name ∨ c ∈ cs := by
  induction grown with
  | refl => simp
  | vertexUniform _ _ _ ih | pixelUniform _ _ _ ih | vertexInput _ _ _ ih => exact ih
  | connector _ t name ih =>
    rw [mem_names_withVariable, ih, mem_append, mem_singleton, or_assoc]
    rfl

theorem forall_withVariable {P : String → Prop} {vs : List StageVariable} {v : StageVariable}
    (old : ∀ c ∈ vs.map StageVariable.name, P c) (new : P v.name) :
    ∀ c ∈ (withVariable vs v).map StageVariable.name, P c := by
  intro c member
  obtain present | rfl := mem_names_withVariable.1 member
  · exact old c present
  · exact new

theorem orderly (grown : p.Extends cs q) (start : p.Orderly) : q.Orderly := by
  induction grown with
  | refl => exact start
  | vertexUniform _ _ own ih =>
    exact { ih with
      vertexUniforms := forall_withVariable ih.vertexUniforms own
      distinctVertexUniforms := nodup_names_withVariable _ ih.distinctVertexUniforms }
  | pixelUniform _ _ own ih =>
    exact { ih with
      pixelUniforms := forall_withVariable ih.pixelUniforms own
      distinctPixelUniforms := nodup_names_withVariable _ ih.distinctPixelUniforms }
  | vertexInput _ _ own ih =>
    exact { ih with
      attributes := forall_withVariable ih.attributes own
      distinctAttributes := nodup_names_withVariable _ ih.distinctAttributes }
  | connector _ _ _ ih =>
    exact { ih with
      same := by rw [ih.same]
      distinctConnectors := nodup_names_withVariable _ ih.distinctConnectors
      fresh := fun v member =>
        (mem_of_mem_withVariable member).elim (ih.fresh v) fun new => new ▸ rfl }

end Ports.Extends

theorem Hardware.publicVariables_names {run : Run}
    (length : run.names.sockets.length = run.graph.inputSockets.length) :
    (publicVariables run).map StageVariable.name = run.names.sockets := by
  rw [publicVariables, map_map]
  exact map_snd_zip (by omega)

theorem Hardware.drawn_names (names : List String) (t : ShaderType) :
    (names.map (StageVariable.plain t)).map StageVariable.name = names := by
  rw [map_map]
  exact map_id _

section

variable {run : Run} (hardware : run.target.isHardware) (sockets : run.names.sockets.Nodup)
  (graphOutputs : run.names.graphOutputs.Nodup)
  (length : run.names.sockets.length = run.graph.inputSockets.length)

include hardware sockets graphOutputs length

theorem Hardware.declareStages_interface :
    (declareStages run).Ensures fun stages => ∃ p vector4, HasPorts run.target stages p ∧
      p.Orderly ∧ run.types.get "vector4" = .ok vector4 ∧ p.published = publicVariables run ∧
      p.drawn = run.names.graphOutputs.map (StageVariable.plain vector4) ∧
      ∀ c, c ∈ p.read.map StageVariable.name ↔ ∃ id ∈ run.graph.order, run.Connects id c := by
  intro stages ok
  obtain ⟨lists, basics, interfaced, listed, first, second, entered⟩ := declareStages_ok ok
  obtain ⟨own, exactly⟩ := Run.mapM_nodeVariables_own hardware _ lists listed
  have uniforms := pixelUniforms_listed run
  have fixed : (pixelUniforms run).filterMap HardwareVariable.connector? = [] :=
    filterMap_eq_nil_iff.2 fun x member => (uniforms x member).1.1
  have none : (basicVariables run.options).filterMap HardwareVariable.connector? = [] := by
    unfold basicVariables
    split <;> rfl
  obtain ⟨p₁, ports₁, grown₁⟩ := Run.enterAll_grown (basicVariables_own run.options)
    ⟨_, emptyStages_hasPorts run.target, .refl⟩ basics first
  obtain ⟨vector4, known, ports₂⟩ := declareInterface_ports ports₁ interfaced second
  obtain ⟨p, ports, grown⟩ := Run.enterAll_grown
    (forall_mem_append.2 ⟨fun x member => (uniforms x member).1.isOwn, own⟩) ⟨_, ports₂, .refl⟩
    stages entered
  rw [none] at grown₁
  rw [filterMap_append, fixed, nil_append] at grown
  have empty : Ports.Orderly ⟨[], [], [], [], [], [], []⟩ := by
    constructor <;> simp
  have orderly : p.Orderly := grown.orderly { grown₁.orderly empty with }
  have noConnectors (c : String) : c ∉ p₁.read.map StageVariable.name := by
    simp [grown₁.mem_read]
  obtain ⟨published₁, drawn₁⟩ := grown₁.interface
  obtain ⟨published, drawn⟩ := grown.interface
  dsimp only at published published₁ drawn drawn₁
  refine ⟨p, vector4, ports, orderly, known, ?_, ?_, fun c => ?_⟩
  · rw [← publicVariables_names length] at sockets
    rw [published, published₁, foldl_withVariable sockets, nil_append]
  · rw [← drawn_names run.names.graphOutputs vector4] at graphOutputs
    rw [drawn, drawn₁, foldl_withVariable graphOutputs, nil_append]
  · rw [grown.mem_read, nil_append, exactly]
    simp [noConnectors]

theorem Hardware.declareStages_ports :
    (declareStages run).Ensures fun stages => ∃ p, HasPorts run.target stages p ∧ p.Orderly ∧
      p.published.map StageVariable.name = run.names.sockets ∧
      p.drawn.map StageVariable.name = run.names.graphOutputs ∧
      ∀ c, c ∈ p.read.map StageVariable.name ↔ ∃ id ∈ run.graph.order, run.Connects id c := by
  intro stages ok
  obtain ⟨p, vector4, ports, orderly, _, published, drawn, connectors⟩ :=
    declareStages_interface hardware sockets graphOutputs length stages ok
  refine ⟨p, ports, orderly, ?_, ?_, connectors⟩
  · rw [published, publicVariables_names length]
  · rw [drawn, drawn_names]

end

end MaterialShader
