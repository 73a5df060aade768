import MaterialShader.Proofs.Emission.PortNames

/-!
The published interface of a shader.
-/

namespace MaterialShader

open List Stage
open Hardware (publicVariables)
open Emission (Yields)
open Result.Ensures
open Result (bind_ok mapM_ok pure_ok)
open InterfaceVariable (ofVariable ofVariable_ok)

variable {d : Dialect} {s : Stage}

theorem InterfaceVariable.ofVariable_value {b : Block} {v : StageVariable} {i : InterfaceVariable}
    (ok : ofVariable d b v = .ok i) :
    i.path = v.path ∧ (v.value = none → i.value = none) ∧
      ∀ x, v.value = some x → ∃ text, d.literal v.type x true = .ok text ∧ i.value = some text := by
  unfold ofVariable at ok
  split at ok
  · rename_i x given
    obtain ⟨text, written, ok⟩ := bind_ok.1 ok
    cases pure_ok.1 ok
    refine ⟨rfl, by simp [given], ?_⟩
    rintro _ found
    cases given.symm.trans found
    exact ⟨text, written, rfl⟩
  · rename_i missing
    cases pure_ok.1 ok
    exact ⟨rfl, fun _ => rfl, by simp [missing]⟩

theorem filter_entries {blocks : List Block} {lists : List (List InterfaceVariable)}
    (each : List.Forall₂ (fun b vs => b.members.mapM (ofVariable d b) = .ok vs)
      blocks lists) (name : String) :
    ∃ kept, List.Forall₂ (fun b vs => b.members.mapM (ofVariable d b) = .ok vs)
        (blocks.filter fun b => b.name == name) kept ∧
      (lists.flatten.filter fun v => v.block == name) = kept.flatten := by
  induction each with
  | nil => exact ⟨[], .nil, rfl⟩
  | @cons b vs _ _ made _ ih =>
    obtain ⟨kept, others, same⟩ := ih
    have own : ∀ v ∈ vs, v.block = b.name := by
      intro v member
      obtain ⟨_, _, entry⟩ := exists_of_mem_right (mapM_ok made) member
      exact (ofVariable_ok entry).1
    by_cases here : b.name = name
    · refine ⟨vs :: kept, ?_, ?_⟩
      · rw [filter_cons_of_pos (by simpa using here)]
        exact .cons made others
      · have all : (vs.filter fun v => v.block == name) = vs :=
          filter_eq_self.2 fun v member => by simp [own v member, here]
        rw [flatten_cons, filter_append, all, same, flatten_cons]
    · refine ⟨kept, ?_, ?_⟩
      · rwa [filter_cons_of_neg (by simpa using here)]
      · have none : (vs.filter fun v => v.block == name) = [] :=
          filter_eq_nil_iff.2 fun v member => by simp [own v member, here]
        rw [flatten_cons, filter_append, none, same, nil_append]

theorem Stage.interface_filter {kind : BlockKind} {vs : List InterfaceVariable}
    (ok : s.interface d kind = .ok vs) {name : String} {b : Block}
    (only : (s.blocksOf kind).filter (fun b => b.name == name) = [b]) :
    List.Forall₂ (fun v i => ofVariable d b v = .ok i) b.members
      (vs.filter fun v => v.block == name) := by
  obtain ⟨lists, each, ok⟩ := bind_ok.1 ok
  cases pure_ok.1 ok
  obtain ⟨kept, others, same⟩ := filter_entries (mapM_ok each) name
  rw [only] at others
  obtain ⟨own, _, made, rest, rfl⟩ := forall₂_cons_left_iff.1 others
  cases forall₂_nil_left_iff.1 rest
  rw [same, flatten_singleton]
  exact mapM_ok made

structure InputSocket.Published (d : Dialect) (socket : InputSocket) (entry : InterfaceVariable) :
    Prop where
  block : entry.block = publicUniforms
  path : entry.path = socket.path
  type : entry.typeName = socket.type.name
  none : socket.value = none → entry.value = none
  some : ∀ v, socket.value = some v →
    ∃ text, d.literal socket.type v true = .ok text ∧ entry.value = some text

theorem InputSocket.Published.value_isSome {socket : InputSocket} {entry : InterfaceVariable}
    (published : socket.Published d entry) : entry.value.isSome = socket.value.isSome := by
  cases given : socket.value with
  | none =>
    rw [published.none given]
    rfl
  | some v =>
    obtain ⟨text, _, value⟩ := published.some v given
    rw [value, Option.isSome_some, Option.isSome_some]

/-- The two entries are the same but for their names and the texts of their values. -/
def InterfaceVariable.Matches (a b : InterfaceVariable) : Prop :=
  a.block = b.block ∧ a.path = b.path ∧ a.typeName = b.typeName ∧ a.value.isSome = b.value.isSome

def FinishedStage.published (f : FinishedStage) : List InterfaceVariable :=
  f.uniforms.filter fun v => v.block == publicUniforms

def Shader.pixel? (s : Shader) : Option FinishedStage :=
  s.stages.find? fun f => f.name == pixelStage

section

variable {run : Run} (length : run.names.sockets.length = run.graph.inputSockets.length)

include length

theorem Hardware.publicVariables_forall₂ :
    List.Forall₂ (fun (s : InputSocket) v => v.type = s.type ∧ v.value = s.value ∧ v.path = s.path)
      run.graph.inputSockets (publicVariables run) := by
  unfold publicVariables
  generalize run.graph.inputSockets = sockets at length
  generalize run.names.sockets = names at length
  induction sockets generalizing names with
  | nil => exact .nil
  | cons s rest ih =>
    cases names with
    | nil => cases length
    | cons name others => exact .cons ⟨rfl, rfl, rfl⟩ (ih others (by simpa using length))

theorem Stage.finish_published {t : Stage} (keeps : s.Keeps t) {f : FinishedStage}
    (finish : t.finish d = .ok f) {access : String}
    (only : (s.blocksOf .uniform).filter (fun b => b.name == publicUniforms) =
      [⟨.uniform, publicUniforms, access, publicVariables run⟩]) :
    List.Forall₂ (InputSocket.Published d) run.graph.inputSockets f.published := by
  obtain ⟨_, _, uniforms, _⟩ := finish_ok finish
  rw [keeps.interface] at uniforms
  refine forall₂_compose ?_ (Hardware.publicVariables_forall₂ length)
    (interface_filter uniforms only)
  rintro socket v entry ⟨type, value, path⟩ made
  obtain ⟨block, _, typeName⟩ := ofVariable_ok made
  obtain ⟨samePath, none, some⟩ := InterfaceVariable.ofVariable_value made
  rw [type] at typeName some
  rw [value] at none some
  exact ⟨block, samePath.trans path, typeName, none, some⟩

end

theorem Run.declareNodes_single {run : Run} (notHardware : run.target.isHardware = false)
    {stage : Stage} (unconnected : stage.block? vertexData = none) (ids : List NodeId) :
    (run.declareNodes ids [stage]).Ensures (· = [stage]) := by
  induction ids with
  | nil => exact pure rfl
  | cons id rest ih =>
    refine after fun n => bind fun stages ok => ?_
    have same : stages = [stage] := by
      obtain ⟨vs, listed, ok⟩ := bind_ok.1 (Result.inside_ok.1 ok)
      unfold nodeVariables at listed
      split at listed
      · rw [notHardware] at listed
        cases pure_ok.1 listed
        exact (pure_ok.1 ok).symm
      · cases pure_ok.1 listed
        obtain ⟨_, connected, _⟩ := bind_ok.1 ok
        obtain ⟨t, _, connected⟩ := bind_ok.1 connected
        obtain ⟨_, _, declared, _⟩ := forall₂_cons_left_iff.1 (mapM_ok connected)
        obtain ⟨_, updated, _⟩ := bind_ok.1 declared
        rw [Stage.updateBlock, HardwareVariable.block, unconnected] at updated
        cases updated
      · cases pure_ok.1 listed
        exact (pure_ok.1 ok).symm
    rw [same]
    exact ih

def PublishesGraph (run : Run) (stages : List Stage) : Prop :=
  ∃ (pixel written : Stage) (access : String), pixel.Keeps written ∧
    stages.find? (fun s => s.name == pixelStage) = some written ∧
    (pixel.blocksOf .uniform).filter (fun b => b.name == publicUniforms) =
      [⟨.uniform, publicUniforms, access, Hardware.publicVariables run⟩] ∧
    (run.target.isHardware = true → ∃ vector4 access, run.types.get "vector4" = .ok vector4 ∧
      pixel.blocksOf .output =
        [⟨.output, pixelOutputs, access, run.names.graphOutputs.map (StageVariable.plain vector4)⟩])

section

variable {run : Run} (length : run.names.sockets.length = run.graph.inputSockets.length)
  (sockets : run.names.sockets.Nodup)

include length sockets

theorem singleStage_eq (notHardware : run.target.isHardware = false) {entryPoint : String}
    {drawn : Block → Block} (named : ∀ b, (drawn b).name = b.name) {declared : List Stage}
    (ok : (do
      let empty := ((Stage.start pixelStage entryPoint).createBlock .uniform publicUniforms
        "").createBlock .output pixelOutputs ""
      let first ← empty.updateBlock publicUniforms fun b => b.addAll (publicVariables run)
      let whole ← first.updateBlock pixelOutputs drawn
      run.declareVariables [whole] : Result (List Stage)) = .ok declared)
    {stage : Stage} (found : Stage.named declared pixelStage = .ok stage) :
    stage.entryPoint = entryPoint ∧
      stage.blocks = [⟨.uniform, publicUniforms, "", publicVariables run⟩,
        drawn ⟨.output, pixelOutputs, "", []⟩] := by
  obtain ⟨first, ok₁, ok⟩ := bind_ok.1 ok
  obtain ⟨whole, ok₂, ok⟩ := bind_ok.1 ok
  have blocks : whole.entryPoint = entryPoint ∧
      whole.blocks = [⟨.uniform, publicUniforms, "", publicVariables run⟩,
        drawn ⟨.output, pixelOutputs, "", []⟩] := by
    have all : (publicVariables run).foldl withVariable [] =
        publicVariables run :=
      foldl_withVariable (Hardware.publicVariables_names length ▸ sockets)
    cases updateBlock_ok ok₁
    cases updateBlock_ok ok₂
    refine ⟨rfl, ?_⟩
    simp only [Stage.createBlock, Stage.block?, Block.addAll_eq]
    exact congrArg (fun members => [⟨.uniform, publicUniforms, "", members⟩,
      drawn ⟨.output, pixelOutputs, "", []⟩]) all
  have unconnected : whole.block? vertexData = none := by
    simp +decide [Stage.block?, blocks.2, named]
  cases Run.declareNodes_single notHardware unconnected _ declared ok
  have same : stage = whole :=
    mem_singleton.1 (mem_of_find?_eq_some (orFail_ok.1 found))
  exact same ▸ blocks

theorem Generator.assemble_single (notHardware : run.target.isHardware = false) (name : String) :
    (Generator.assemble run name).Ensures fun stages =>
      ∃ (stage whole : Stage) (drawn : Block), stages = [whole] ∧ stage.Keeps whole ∧
        stage.name = pixelStage ∧ stage.entryPoint = run.dialect.validName name ∧
        drawn.kind = .output ∧
        stage.blocks = [⟨.uniform, publicUniforms, "", publicVariables run⟩, drawn] := by
  intro stages yields
  unfold Generator.assemble at yields
  split at yields
  · simp_all [Target.isHardware]
  · simp_all [Target.isHardware]
  · obtain ⟨color3, declared, stage, _, whole, _, ok, found, _, writes, rfl⟩ :=
      Osl.stages_declared run name stages yields
    obtain ⟨entry, blocks⟩ := singleStage_eq length sockets notHardware
      (fun b => by rw [Block.addAll_eq]) ok found
    refine ⟨stage, whole, _, rfl, writeAll_keeps writes, name_of_named found, entry, ?_, blocks⟩
    rw [Block.addAll_eq]
  · obtain ⟨declared, stage, _, whole, ok, found, _, writes, rfl⟩ :=
      Mdl.stages_declared run name stages yields
    obtain ⟨material, _, ok⟩ := bind_ok.1 ok
    obtain ⟨entry, blocks⟩ := singleStage_eq length sockets notHardware
      (fun b => by rw [Block.add_eq]) ok found
    refine ⟨stage, whole, _, rfl, writeAll_keeps writes, name_of_named found, entry, ?_, blocks⟩
    rw [Block.add_eq]

theorem Generator.assemble_publishes (graphOutputs : run.names.graphOutputs.Nodup) (name : String) :
    (Generator.assemble run name).Ensures (PublishesGraph run) := by
  intro stages yields
  by_cases hardware : run.target.isHardware
  · obtain ⟨declared, vertex, pixel, _, written, ok, first, second, writes, writes', rfl⟩ :=
      Hardware.assemble_ensures hardware (Hardware.stages_declared run) stages yields
    obtain ⟨p, vector4, ports, _, known, published, drawn, _⟩ :=
      Hardware.declareStages_interface hardware sockets graphOutputs length declared ok
    obtain ⟨v, q, rfl, isVertex, isPixel, _, blocks⟩ := ports
    have same : q = pixel := by
      have other : (v.name == pixelStage) = false := by simp +decide [isVertex]
      have found := orFail_ok.1 second
      simpa [other, isPixel] using found
    subst same
    refine ⟨q, written, "u_pub", writes'.keeps, ?_, ?_,
      fun _ => ⟨vector4, if run.target = .msl then "po" else "", known, ?_⟩⟩
    · have vertexName := writes.keeps.name.trans (name_of_named first)
      have pixelName := writes'.keeps.name.trans isPixel
      have other : (vertexStage == pixelStage) = false := by decide
      simp [vertexName, pixelName, other]
    · rw [Stage.blocksOf, blocks, ← published]
      rfl
    · rw [Stage.blocksOf, blocks, ← drawn]
      rfl
  · have notHardware : run.target.isHardware = false := by simpa using hardware
    obtain ⟨stage, whole, drawn, rfl, keeps, isPixel, _, last, blocks⟩ :=
      Generator.assemble_single length sockets notHardware name stages yields
    refine ⟨stage, whole, "", keeps, ?_, ?_, fun onHardware => absurd onHardware hardware⟩
    · simp [keeps.name, isPixel]
    · simp +decide [Stage.blocksOf, blocks, last]

end

theorem exists_find?_of_forall₂ {α β : Type} {R : α → β → Prop} {p : α → Bool} {q : β → Bool}
    (same : ∀ a b, R a b → q b = p a) {items : List α} {results : List β}
    (each : List.Forall₂ R items results) {a : α} (found : items.find? p = some a) :
    ∃ b, results.find? q = some b ∧ R a b := by
  induction each with
  | nil => cases found
  | @cons x y _ _ here _ ih =>
    rw [List.find?_cons] at found ⊢
    rw [same x y here]
    cases chosen : p x with
    | true =>
      rw [chosen] at found
      cases found
      exact ⟨y, rfl, here⟩
    | false =>
      rw [chosen] at found
      exact ih found

structure OutputSocket.Drawn (d : Dialect) (socket : OutputSocket) (entry : InterfaceVariable) :
    Prop where
  block : entry.block = pixelOutputs
  type : entry.typeName = "vector4"
  name : entry.name = d.validName socket.name ∨
    ∃ k : Nat, entry.name = d.validName socket.name ++ k.repr

theorem Dialect.Chooses.eq_or_numbered {table : NameTable} {valid chosen : String}
    (chooses : d.Chooses table valid chosen) :
    chosen = valid ∨ ∃ k : Nat, chosen = valid ++ k.repr := by
  cases chooses with
  | itself => exact .inl rfl
  | numbered k => exact .inr ⟨k, rfl⟩

theorem Dialect.reserveAll_forall₂ (d : Dialect) (table : NameTable) (names : List String) :
    List.Forall₂ (fun name chosen => chosen = d.validName name ∨
      ∃ k : Nat, chosen = d.validName name ++ k.repr) names (d.reserveAll table names).1 := by
  induction names generalizing table with
  | nil => exact .nil
  | cons name rest ih => exact .cons (d.reserve_chooses table name).eq_or_numbered (ih _)

theorem Stage.finish_drawn {types : Registry} {vector4 : ShaderType}
    (known : types.get "vector4" = .ok vector4) {t : Stage} (keeps : s.Keeps t) {f : FinishedStage}
    (finish : t.finish d = .ok f) {access : String} {names : List String}
    (only : s.blocksOf .output =
      [⟨.output, pixelOutputs, access, names.map (StageVariable.plain vector4)⟩]) :
    List.Forall₂ (fun name entry => entry.name = name ∧ entry.block = pixelOutputs ∧
      entry.typeName = "vector4") names f.outputs := by
  obtain ⟨_, _, _, _, outputs, _⟩ := finish_ok finish
  rw [keeps.interface] at outputs
  have entries := mapM_ok (interface_single only outputs)
  rw [forall₂_map_left_iff] at entries
  refine entries.imp fun name entry made => ?_
  obtain ⟨block, named, typeName⟩ := ofVariable_ok made
  have vector : vector4.name = "vector4" := by
    simpa using List.find?_some (orFail_ok.1 known)
  exact ⟨named, block, typeName.trans vector⟩

structure Generator.Publishes (gen : Generator) (g : Graph) (pixel : FinishedStage) : Prop where
  inputs : List.Forall₂ (InputSocket.Published gen.dialect) g.inputSockets pixel.published
  outputs : gen.target.isHardware = true →
    List.Forall₂ (OutputSocket.Drawn gen.dialect) g.outputSockets pixel.outputs ∧
      pixel.outputs.map InterfaceVariable.name = (Names.ofGraph gen.dialect g).graphOutputs

theorem Generator.generateFromGraph_publishes {gen : Generator} {name : String} {g : Graph}
    {s : Session} {shader : Shader} (ok : (gen.generateFromGraph name g s).result = .ok shader) :
    ∃ pixel, shader.pixel? = some pixel ∧ gen.Publishes g pixel := by
  obtain ⟨run, stages, ran, assembled, _, _, finishing⟩ := generateFromGraph_ok ok
  obtain ⟨realizations, _, ran⟩ := bind_ok.1 ran
  cases pure_ok.1 ran
  have distinct := Names.ofGraph_nodup gen.dialect g
  rw [Names.all, nodup_append, nodup_append] at distinct
  have length := Names.length_sockets gen.dialect g
  obtain ⟨pixel, written, access, keeps, found, published, drawn⟩ :=
    assemble_publishes length distinct.1.1 distinct.2.1 name stages assembled
  have sameName : ∀ (a : Stage) (f : FinishedStage), a.finish gen.dialect = .ok f →
      (f.name == pixelStage) = (a.name == pixelStage) := by
    intro a f finish
    rw [(finish_ok finish).1]
  obtain ⟨finished, listed, finish⟩ := exists_find?_of_forall₂ sameName finishing found
  refine ⟨finished, listed, finish_published length keeps finish published, fun hardware => ?_⟩
  obtain ⟨vector4, _, known, only⟩ := drawn hardware
  have entries := finish_drawn known keeps finish only
  have sockets : List.Forall₂ (fun (socket : OutputSocket) chosen =>
      chosen = gen.dialect.validName socket.name ∨
        ∃ k : Nat, chosen = gen.dialect.validName socket.name ++ k.repr) g.outputSockets
      (Names.ofGraph gen.dialect g).graphOutputs :=
    forall₂_map_left_iff.1 (gen.dialect.reserveAll_forall₂ _ (g.outputSockets.map OutputSocket.name))
  refine ⟨forall₂_compose ?_ sockets entries, ?_⟩
  · rintro socket _ entry chosen ⟨rfl, block, type⟩
    exact ⟨block, type, chosen⟩
  · rw [← map_id (Names.ofGraph gen.dialect g).graphOutputs]
    exact map_eq_of_forall₂ (fun _ _ same => same.1) entries

theorem InputSocket.Published.matches {d' : Dialect} {socket : InputSocket}
    {a b : InterfaceVariable} (first : socket.Published d a) (second : socket.Published d' b) :
    a.Matches b :=
  ⟨first.block.trans second.block.symm, first.path.trans second.path.symm,
    first.type.trans second.type.symm, first.value_isSome.trans second.value_isSome.symm⟩

/-- The published interface belongs to the graph. Whatever the generator, the name and the session
that turn a graph into a shader, the pixel stage publishes the input sockets of the graph and on
hardware targets draws its output sockets, so two shaders of one graph publish matching inputs. -/
theorem published_interface_agrees {g : Graph} {gen gen' : Generator} {name name' : String}
    {s s' : Session} {shader shader' : Shader}
    (ok : (gen.generateFromGraph name g s).result = .ok shader)
    (ok' : (gen'.generateFromGraph name' g s').result = .ok shader') :
    ∃ pixel pixel', shader.pixel? = some pixel ∧ shader'.pixel? = some pixel' ∧
      gen.Publishes g pixel ∧ gen'.Publishes g pixel' ∧
      List.Forall₂ InterfaceVariable.Matches pixel.published pixel'.published := by
  obtain ⟨pixel, found, publishes⟩ := Generator.generateFromGraph_publishes ok
  obtain ⟨pixel', found', publishes'⟩ := Generator.generateFromGraph_publishes ok'
  refine ⟨pixel, pixel', found, found', publishes, publishes', ?_⟩
  refine forall₂_compose ?_ publishes.inputs.flip publishes'.inputs
  intro a socket b first second
  exact InputSocket.Published.matches first second

/-- A product of a named input without a value and of a default. -/
def scaledDocument : Document where
  version := "1"
  metadata := ⟨"scaled", none, none⟩
  inputs := [⟨"gain", "float", none⟩]
  nodes := [⟨"product", "multiply", "float", none, [], [("in1", "gain")], []⟩]
  connections := []
  outputs := [⟨"out", "float", ⟨"product", "out"⟩⟩]
  nodegraphs := []

theorem published_interface_agrees_scaled :
    ∃ gen gen' g log shader shader', Generator.create .glsl .bundled = .ok gen ∧
      Generator.create .osl .bundled = .ok gen' ∧
      gen.buildGraph scaledDocument {} = .ok (g, log) ∧
      (gen.generateFromGraph "scaled" g {}).result = .ok shader ∧
      (gen'.generateFromGraph "scaled" g {}).result = .ok shader' ∧
      g.inputSockets.map (fun socket => (socket.path, socket.value.isSome)) =
        [("gain", false), ("product/in2", true)] ∧
      ∃ pixel pixel', shader.pixel? = some pixel ∧ shader'.pixel? = some pixel' ∧
        gen.Publishes g pixel ∧ gen'.Publishes g pixel' ∧
        List.Forall₂ InterfaceVariable.Matches pixel.published pixel'.published := by
  have sockets : (((Generator.bundled .glsl).buildGraph scaledDocument {}).toOption.any fun built =>
      built.1.inputSockets.map (fun socket => (socket.path, socket.value.isSome)) =
        [("gain", false), ("product/in2", true)]) = true := by
    rw [Generator.bundled, Library.bundled_eq]
    decide
  have works (target : Target) (listed : target = .glsl ∨ target = .osl) : ∃ shader,
      ((Generator.bundled target).generate "scaled" scaledDocument {}).result = .ok shader := by
    apply Generator.generate_works
    obtain rfl | rfl := listed
    · decide +kernel
    · decide +kernel
  obtain ⟨shader, made⟩ := works .glsl (.inl rfl)
  obtain ⟨shader', made'⟩ := works .osl (.inr rfl)
  obtain ⟨g, log, building, ok⟩ := Generator.generate_graph made
  obtain ⟨_, _, building', ok'⟩ := Generator.generate_graph made'
  -- Graphs do not depend on the target.
  cases building.symm.trans building'
  rw [building] at sockets
  exact ⟨_, _, g, log, shader, shader', Generator.create_bundled .glsl, Generator.create_bundled .osl,
    building, ok, ok', of_decide_eq_true sockets, published_interface_agrees ok ok'⟩

end MaterialShader
