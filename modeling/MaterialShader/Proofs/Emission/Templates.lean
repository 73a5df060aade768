import MaterialShader.Proofs.Dialect.Literal
import MaterialShader.Proofs.Emission.Resolved
import MaterialShader.Proofs.Fault.Assembly

/-!
Templates of the bundled library.
-/

namespace MaterialShader

open List Generator
open Emission (Yields)

variable {n : GraphNode} {id : NodeId} {d : Definition}

namespace Template

def flawFrom (known : String → Bool) : Nat → List Char → Option Flaw
  | 0, _ => none
  | k + 1, rest =>
    match Text.cut? opening rest with
    | none => none
    | some (_, after) =>
      match Text.cut? closing after with
      | none => some .unterminated
      | some (name, others) =>
        let key := Text.trim (String.ofList name)
        if known key then flawFrom known k others else some (.unknownInput key)

def flaw? (known : String → Bool) (template : String) : Option Flaw :=
  flawFrom known template.length template.toList

theorem expandFrom_cases (argument : String → Option String) (k : Nat) (rest : List Char) :
    match flawFrom (fun name => (argument name).isSome) k rest with
    | none => ∃ text, expandFrom argument k rest = .ok text
    | some flaw => expandFrom argument k rest = .error flaw := by
  induction k generalizing rest with
  | zero => exact ⟨_, rfl⟩
  | succ k ih =>
    unfold flawFrom expandFrom
    cases Text.cut? opening rest with
    | none => exact ⟨_, rfl⟩
    | some found =>
      obtain ⟨before, after⟩ := found
      dsimp only
      cases Text.cut? closing after with
      | none => rfl
      | some inner =>
        obtain ⟨name, others⟩ := inner
        dsimp only
        cases given : argument (Text.trim (String.ofList name)) with
        | none => simp
        | some text =>
          have tail := ih others
          cases flawed : flawFrom (fun name => (argument name).isSome) k others with
          | none =>
            simp only [flawed] at tail
            obtain ⟨others', ok⟩ := tail
            exact ⟨_, by rw [ok]; rfl⟩
          | some flaw =>
            simp only [flawed] at tail
            rw [tail]
            rfl

variable {argument : String → Option String}

section

variable {known : String → Bool} (names : ∀ name, (argument name).isSome = known name)
  {template : String}

include names

theorem expand_ok (sound : flaw? known template = none) :
    ∃ text, expand argument template = .ok text := by
  have cases := expandFrom_cases argument template.length template.toList
  simp only [names] at cases
  rw [flaw?] at sound
  rwa [sound] at cases

theorem expand_error {flaw : Flaw} (flawed : flaw? known template = some flaw) :
    expand argument template = .error flaw := by
  have cases := expandFrom_cases argument template.length template.toList
  simp only [names] at cases
  rw [flaw?] at flawed
  rwa [flawed] at cases

end

end Template

section

variable {target : Target} {gen : Generator} (made : Generator.create target .bundled = .ok gen)
  {g : Graph} {s : Session} {run : Run} (built : g.Built .standard .bundled)
  (settled : ∀ n ∈ g.nodes, n.Settled) (ran : gen.run g s = .ok run)

include made ran

theorem Generator.run_socketName {k : Nat} (inside : k < g.inputSockets.length) :
    ∃ text, run.socketName k = .ok text := by
  have length : run.names.sockets.length = g.inputSockets.length := by
    rw [run_names made ran, Names.length_sockets]
  exact ⟨_, orFail_ok.2 (List.getElem?_eq_getElem (length ▸ inside))⟩

include built

theorem Generator.run_outputName {id k : Nat} (found : g.nodes[id]? = some n)
    (inside : k < n.outputs.length) : ∃ text, run.outputName id k = .ok text := by
  have bound := lt_of_getElem? found
  have ordered : id ∈ g.order := built.order_perm.mem_iff.2 (mem_range.2 bound)
  have length : (run.names.outputs.getD id []).length = n.outputs.length := by
    rw [run_names made ran]
    exact Names.length_reserveOutputs found (by simpa using bound) (.inl ordered)
  exact ⟨_, orFail_ok.2 (List.getElem?_eq_getElem (length ▸ inside))⟩

include settled

theorem Generator.run_argument (node : n ∈ g.nodes) {i : Input} (input : i ∈ n.inputs) :
    ∃ text, run.argument i = .ok text := by
  obtain ⟨_, dialect, _⟩ := run_settings made ran
  obtain ⟨known, carries⟩ := built.typed.inputs n node i input
  unfold Run.argument
  cases source : i.source with
  | some source' =>
    have typed := carries source' source
    cases source' with
    | node id k =>
      obtain ⟨m, o, found, output, _⟩ := Graph.sourceType?_node typed
      exact run_outputName made built ran found (lt_of_getElem? output)
    | socket k => exact run_socketName made ran (Graph.inside_of_sourceType? typed)
  | none =>
    cases value : i.value with
    | some v =>
      have typed := (built.fits.inputs n node i input).1 source v value
      have based : i.type.base ≠ .none := by
        cases v <;> simp [typed.1]
      obtain ⟨f, formed, takes⟩ := Dialect.ofTarget_form target known (.inl based)
      rw [← dialect] at formed
      exact Dialect.literal_ok formed takes typed false
    | none =>
      have closure := (settled n node).open_ i input source value
      obtain ⟨f, formed, _⟩ := Dialect.ofTarget_form target known (.inr closure)
      rw [← dialect] at formed
      exact ⟨_, Result.bind_ok.2 ⟨f, formed, rfl⟩⟩

theorem Generator.run_inputText (found : g.nodes[id]? = some n) (name : String) :
    (run.inputText id name).toOption.isSome = (n.input? name).isSome := by
  obtain rfl := (run_graph ran).1
  have node : run.node id = .ok n := orFail_ok.2 found
  have step : run.inputText id name =
      (orFail (.unknownPort n.path name) (n.input? name) >>= run.argument) := by
    rw [Run.inputText, Run.input, node]
    rfl
  rw [step]
  cases input : n.input? name with
  | none => rfl
  | some i =>
    obtain ⟨text, ok⟩ := run_argument made built settled ran
      (mem_of_getElem? found) (GraphNode.mem_of_input? input)
    change (run.argument i).toOption.isSome
    rw [ok]
    rfl

end

namespace Run

variable {run : Run} {stage : Stage}

theorem emitEverywhere_simpleCode (sound : run.Sound) (ordered : run.graph.Ordered)
    (scoping : run.graph.Scoping run.branchOf run.scopes) {code : List Code}
    (yields : Yields (run.emitEverywhere stage) code) (inside : id < run.graph.nodes.length)
    (plain : ∀ op, run.realization id ≠ .conditional op) :
    ∃ own, run.simpleCode stage id = .ok own := by
  obtain ⟨_, follows, _, _⟩ := scoping.forest ordered run.branchTotal
  obtain ⟨root, member, below⟩ := Placed.mem_idsOfAll.1 (scoping.mem_ids ordered sound.covers inside)
  obtain ⟨⟨_, branches⟩, within, rfl⟩ := (follows root member).exists_within below
  rw [← branchMembers_eq] at follows
  rw [emitEverywhere, layout_everywhere] at yields
  obtain ⟨_, emitted, _⟩ := emitAll_mem yields member
  obtain ⟨own, placed, _⟩ := emitPlaced_within within (follows root member) emitted
  obtain ⟨_, simple⟩ | ⟨op, _, _, _, _, _, kind, _⟩ := emitPlaced_cases placed
  · exact ⟨own, simple⟩
  · exact absurd kind (plain op)

end Run

def SourceCode.Expands (code : SourceCode) (run : Run) (id : NodeId) (n : GraphNode) : Prop :=
  match code.source with
  | .inline template =>
    n.outputs.length = 1 ∧ ∃ text expression, code.substitute run template = .ok text ∧
      Template.expand (fun name => (run.inputText id name).toOption) text = .ok expression
  | .function _ _ => run.target = .mdl → n.outputs.length = 1

namespace SourceCode

variable {run : Run} {code : SourceCode}

theorem Expands.code_usual (expands : code.Expands run id n) (node : run.node id = .ok n)
    (listed : id ∈ run.graph.order) : (code.code run id).FailsBy Fault.Usual := by
  have refers : run.Refers Fault.Usual := run.refers_of_dangling fun _ _ => trivial
  unfold Expands at expands
  unfold SourceCode.code
  cases source : code.source with
  | inline template =>
    simp only [source] at expands
    obtain ⟨single, text, expression, substituted, expanded⟩ := expands
    refine refers.inlineCode listed node code template (absurd single) fun text' flaw ok fails => ?_
    cases substituted.symm.trans ok
    cases expanded.symm.trans fails
  | function name text =>
    simp only [source] at expands
    exact refers.callCode listed node code name fun mdl => absurd (expands mdl)

theorem code_flawed {template text : String} {flaw : Template.Flaw}
    (source : code.source = .inline template) (node : run.node id = .ok n)
    (single : n.outputs.length = 1) (substituted : code.substitute run template = .ok text)
    (flawed : Template.expand (fun name => (run.inputText id name).toOption) text = .error flaw) :
    code.code run id = fail (.template n.path (flaw.reason text)) := by
  have step {α β : Type} (a : α) (f : α → Result β) : Except.ok a >>= f = f a := rfl
  rw [SourceCode.code, source]
  dsimp only
  rw [inlineCode, node, step, if_neg (not_not.2 single), substituted, step, flawed]

def expandsFor (d : Definition) (code : SourceCode) : Bool :=
  d.outputs.length == 1 &&
    match code.source with
    | .inline template =>
      (Text.byteChars? template).any fun chars => !chars.contains '$' &&
        (Template.flawFrom (fun name => (d.input? name).isSome) chars.length chars).isNone
    | .function _ _ => true

theorem expandsFor_inline {template : String} (source : code.source = .inline template)
    (expands : code.expandsFor d) : Text.Unmarked template ∧
      Template.flaw? (fun name => (d.input? name).isSome) template = none := by
  simp only [expandsFor, source, Bool.and_eq_true, Option.any_eq_true] at expands
  obtain ⟨_, chars, read, unmarked, sound⟩ := expands
  have same := Text.byteChars?_eq_some read
  rw [Template.flaw?, ← String.length_toList, same]
  exact ⟨by simpa [Text.Unmarked, same] using unmarked, Option.isNone_iff_eq_none.1 sound⟩

end SourceCode

namespace Library

def absorption : String := "absorption_vdf"

/-- The template for absorption on MSL. It starts with the brace of a structure, and then comes the
input. -/
def absorptionTemplate : String := "VDF\x7b\x7b\x7babsorption\x7d\x7d, float3(0.0)\x7d"

def absorptionFlaw : Template.Flaw := .unknownInput "\x7babsorption"

def expandsFor (lib : Library) (d : Definition) (target : Target) : Bool :=
  (lib.implementation? d target).all fun i =>
    !"convert_".toList.isPrefixOf d.name.toList &&
      ((target == .msl && d.name == absorption) || (SourceCode.ofImplementation i d).expandsFor d)

theorem bundled_expandsFor (member : d ∈ bundled.definitions) (target : Target) :
    bundled.expandsFor d target := by
  have all : ((Bundled.document.definitions.flatMap DefinitionEntry.expand).all fun d =>
      Target.all.all (bundled.expandsFor d)) := by
    rw [bundled_eq]
    decide +kernel
  have here := all_eq_true.1 (all_eq_true.1 all d (mem_bundled member)) target
  cases target <;> exact here (by decide)

theorem bundled_absorption (member : d ∈ bundled.definitions) (named : d.name = absorption) :
    d.outputs.length = 1 ∧ d.inputs.map Port.name = ["absorption"] ∧
      Realization.builtin? d .msl = none ∧
      ∃ i, bundled.implementation? d .msl = some i ∧ i.source = .inline absorptionTemplate := by
  have all : ((Bundled.document.definitions.flatMap DefinitionEntry.expand).all fun d =>
      d.name != absorption || (d.outputs.length == 1 && d.inputs.map Port.name == ["absorption"] &&
        (Realization.builtin? d .msl).isNone &&
        (bundled.implementation? d .msl).any fun i => i.source == .inline absorptionTemplate)) =
      true := by
    rw [bundled_eq]
    decide
  have here := all_eq_true.1 all d (mem_bundled member)
  simp only [named, bne_self_eq_false, Bool.false_or, Bool.and_eq_true, beq_iff_eq,
    Option.isNone_iff_eq_none, Option.any_eq_true] at here
  exact ⟨here.1.1.1, here.1.1.2, here.1.2, here.2⟩

theorem absorptionTemplate_flaw :
    Template.flaw? (fun name => decide (name ∈ ["absorption"])) absorptionTemplate =
      some absorptionFlaw := by
  decide

end Library

theorem GraphNode.input?_isSome (n : GraphNode) (name : String) :
    (n.input? name).isSome = decide (name ∈ n.inputs.map Input.name) := by
  rw [Bool.eq_iff_iff]
  simp [GraphNode.input?]

theorem Definition.input?_isSome (d : Definition) (name : String) :
    (d.input? name).isSome = decide (name ∈ d.inputs.map Port.name) := by
  rw [Bool.eq_iff_iff]
  simp [Definition.input?]

theorem GraphNode.Stems.ports (stems : n.Stems .bundled) (member : d ∈ Library.bundled.definitions)
    (named : n.definition = d.name) {target : Target} {i : Implementation}
    (implemented : Library.bundled.implementation? d target = some i) :
    n.outputs.length = d.outputs.length ∧ n.inputs.map Input.name = d.inputs.map Port.name := by
  obtain ⟨d', member', named', _, outputs, takes⟩ := stems
  have same : d' = d := inj_on_of_nodup_map Library.bundled.names_nodup member' member
    (named'.symm.trans named)
  subst same
  refine ⟨by simpa [GraphNode.outputTypes] using congrArg List.length outputs,
    takes.names.resolve_right ?_⟩
  rintro ⟨_, name, converts⟩
  have plain := Library.bundled_expandsFor member target
  rw [Library.expandsFor, implemented, Option.all_some, converts] at plain
  simp at plain

section

variable {target : Target} {gen : Generator} (made : Generator.create target .bundled = .ok gen)
  {g : Graph} {s : Session} {run : Run} (built : g.Built .standard .bundled)
  (settled : ∀ n ∈ g.nodes, n.Settled) (ran : gen.run g s = .ok run) (found : g.nodes[id]? = some n)
  (member : d ∈ Library.bundled.definitions) (named : n.definition = d.name) {i : Implementation}
  (implemented : Library.bundled.implementation? d target = some i)

include made built settled ran found member named implemented

theorem Generator.run_expands (other : ¬ (target = .msl ∧ d.name = Library.absorption)) :
    (SourceCode.ofImplementation i d).Expands run id n := by
  obtain ⟨outputs, inputs⟩ :=
    (built.stems n (mem_of_getElem? found)).ports member named implemented
  have expands : (SourceCode.ofImplementation i d).expandsFor d := by
    have here := Library.bundled_expandsFor member target
    rw [Library.expandsFor, implemented, Option.all_some] at here
    simp only [Bool.and_eq_true, Bool.or_eq_true, beq_iff_eq] at here
    exact here.2.resolve_left other
  have single : n.outputs.length = 1 := by
    rw [SourceCode.expandsFor, Bool.and_eq_true, beq_iff_eq] at expands
    exact outputs.trans expands.1
  unfold SourceCode.Expands
  cases source : (SourceCode.ofImplementation i d).source with
  | inline template =>
    obtain ⟨unmarked, sound⟩ := SourceCode.expandsFor_inline source expands
    have names (name : String) :
        (run.inputText id name).toOption.isSome = (d.input? name).isSome := by
      rw [run_inputText made built settled ran found, GraphNode.input?_isSome,
        Definition.input?_isSome, inputs]
    obtain ⟨expression, expanded⟩ := Template.expand_ok names sound
    exact ⟨single, template, expression, SourceCode.substitute_unmarked _ run unmarked, expanded⟩
  | function name text => exact fun _ => single

theorem Generator.run_absorption (msl : target = .msl) (absorbs : d.name = Library.absorption) :
    ¬ (SourceCode.ofImplementation i d).Expands run id n ∧
      (SourceCode.ofImplementation i d).code run id =
        fail (.template n.path (Library.absorptionFlaw.reason Library.absorptionTemplate)) := by
  subst msl
  obtain ⟨outputs, inputs⟩ :=
    (built.stems n (mem_of_getElem? found)).ports member named implemented
  obtain ⟨single, ports, _, i', implemented', template⟩ := Library.bundled_absorption member absorbs
  cases implemented.symm.trans implemented'
  have source : (SourceCode.ofImplementation i d).source = .inline Library.absorptionTemplate :=
    template
  have names (name : String) :
      (run.inputText id name).toOption.isSome = decide (name ∈ ["absorption"]) := by
    rw [run_inputText made built settled ran found, GraphNode.input?_isSome, inputs, ports]
  have flawed := Template.expand_error names Library.absorptionTemplate_flaw
  have unmarked : Text.Unmarked Library.absorptionTemplate := by
    decide
  have substituted := SourceCode.substitute_unmarked (.ofImplementation i d) run unmarked
  have node : run.node id = .ok n := by
    obtain rfl := (run_graph ran).1
    exact orFail_ok.2 found
  refine ⟨?_, SourceCode.code_flawed source node (outputs.trans single) substituted flawed⟩
  intro expands
  rw [SourceCode.Expands, source] at expands
  obtain ⟨_, text, expression, substituted', expanded⟩ := expands
  cases substituted.symm.trans substituted'
  cases flawed.symm.trans expanded

end

section

variable {target : Target} {gen : Generator} (made : Generator.create target .bundled = .ok gen)
  {g : Graph} {s : Session} {run : Run} (built : g.Built .standard .bundled)
  (settled : ∀ n ∈ g.nodes, n.Settled) (ran : gen.run g s = .ok run)

include made built settled ran

theorem Generator.run_source_failsBy {code : SourceCode}
    (realized : run.realization id = .source code) : (code.code run id).FailsBy fun f => f.Usual ∨
      target = .msl ∧ ∃ n ∈ g.nodes, n.definition = Library.absorption ∧
        f = .template n.path (Library.absorptionFlaw.reason Library.absorptionTemplate) := by
  obtain rfl := (run_graph ran).1
  obtain ⟨n, d, found, member, named, here⟩ := run_source made built ran realized
  have listed := mem_of_getElem? found
  obtain ⟨i, implemented, rfl⟩ := Definition.realization?_source here
  by_cases absorbs : target = .msl ∧ d.name = Library.absorption
  · obtain ⟨_, fault⟩ := run_absorption made built settled ran found member named
      implemented absorbs.1 absorbs.2
    rw [fault, Result.failsBy_fail]
    exact .inr ⟨absorbs.1, n, listed, named.trans absorbs.2, rfl⟩
  · have expands := run_expands made built settled ran found member named implemented
      absorbs
    have order := built.ordered.mem_order.2 (lt_of_getElem? found)
    exact (expands.code_usual (orFail_ok.2 found) order).mono fun _ usual => .inl usual

theorem Generator.run_absorption_stuck (msl : target = .msl) (listed : n ∈ g.nodes)
    (absorbs : n.definition = Library.absorption) (stage : Stage) (code : List Code) :
    ¬ Yields (run.emitEverywhere stage) code := by
  intro yields
  subst msl
  obtain rfl := (run_graph ran).1
  obtain ⟨id, inside, rfl⟩ := getElem_of_mem listed
  have found := List.getElem?_eq_getElem inside
  obtain ⟨d, member, here, named, _⟩ := realize_ok made
    (built.stems _ listed) (run_realization ran found)
  have same : d.name = Library.absorption := named.symm.trans absorbs
  obtain ⟨_, _, other, i, implemented, _⟩ := Library.bundled_absorption member same
  rw [Definition.realization?, other, implemented] at here
  have realized : run.realization id = .source (.ofImplementation i d) := (Option.some.inj here).symm
  obtain ⟨own, simple⟩ := Run.emitEverywhere_simpleCode
    (run_sound Library.bundled_orderly made built ran) built.ordered
    (run_scoping built.ordered ran) yields inside (by simp [realized])
  obtain ⟨_, fault⟩ := run_absorption made built settled ran found member named
    implemented rfl same
  rw [Run.simpleCode, realized] at simple
  cases fault.symm.trans simple

end

/-- Over the bundled library a template is at fault only on MSL, at a node of absorption, where no
shader is made. Everywhere else the code of the library for a node can be written with the inputs
that the node has. -/
theorem template_faults {target : Target} {gen : Generator}
    (made : Generator.create target .bundled = .ok gen) (name : String) (doc : Document)
    (s : Session) :
    ((gen.generate name doc s).result.FailsBy fun f => ∀ path reason, f = .template path reason →
      target = .msl ∧ reason = Library.absorptionFlaw.reason Library.absorptionTemplate ∧
        ∃ g log, gen.buildGraph doc s = .ok (g, log) ∧
          ∃ n ∈ g.nodes, n.definition = Library.absorption ∧ n.path = path) ∧
    ∀ g log, gen.buildGraph doc s = .ok (g, log) →
      (target = .msl → (∃ n ∈ g.nodes, n.definition = Library.absorption) →
        ∀ shader, (gen.generate name doc s).result ≠ .ok shader) ∧
      ∀ run, gen.run g (s.begin target) = .ok run → ∀ (id : NodeId) n d i,
        g.nodes[id]? = some n → Library.bundled.definition? n.definition = some d →
        Library.bundled.implementation? d target = some i →
        ((SourceCode.ofImplementation i d).Expands run id n ↔
          ¬ (target = .msl ∧ n.definition = Library.absorption)) := by
  obtain ⟨same, _, _⟩ := Generator.create_ok made
  refine ⟨?_, fun g log building => ?_⟩
  · refine Generator.generate_failsBy ?_ ?_ fun g log run building ran => ⟨?_, ?_⟩
    · rintro _ usual _ _ rfl
      exact usual.elim
    · simp
    · rintro _ usual _ _ rfl
      exact usual.elim
    · intro id code realized
      obtain ⟨built, settled⟩ := Generator.buildGraph_ready made building
      refine (Generator.run_source_failsBy made built settled ran realized).mono ?_
      rintro _ (usual | ⟨msl, n, listed, absorbs, rfl⟩) path reason fault
      · subst fault
        exact usual.elim
      · cases fault
        exact ⟨msl, rfl, g, log, building, n, listed, absorbs, rfl⟩
  · obtain ⟨built, settled⟩ := Generator.buildGraph_ready made building
    refine ⟨?_, fun run ran id n d i found defined implemented => ?_⟩
    · rintro msl ⟨n, listed, absorbs⟩ shader ok
      obtain ⟨g', log', run, stages, building', ran, assembled, _⟩ := Generator.generate_ok ok
      cases building.symm.trans building'
      obtain ⟨stage, _, code, _, _, yields, _⟩ :=
        Generator.assemble_ensures run name stages assembled
      exact Generator.run_absorption_stuck made built settled ran msl listed absorbs stage code yields
    · obtain ⟨member, named⟩ := Library.definition?_eq_some.1 defined
      by_cases absorbs : target = .msl ∧ n.definition = Library.absorption
      · have stuck := (Generator.run_absorption made built settled ran found member named.symm
          implemented absorbs.1 (named.trans absorbs.2)).1
        exact ⟨fun expands => absurd expands stuck, fun free => absurd absorbs free⟩
      · refine ⟨fun _ => absorbs, fun _ => ?_⟩
        exact Generator.run_expands made built settled ran found member named.symm implemented
          (named ▸ absorbs)

def hazeDocument : Document where
  version := "1"
  metadata := ⟨"haze", none, none⟩
  inputs := []
  nodes := [⟨"vol", "absorption_vdf", "VDF", none, [], [], []⟩]
  connections := []
  outputs := [⟨"out", "VDF", ⟨"vol", "out"⟩⟩]
  nodegraphs := []

theorem hazeGraph_absorbs : ∃ g log, (Generator.bundled .msl).buildGraph hazeDocument {} =
    .ok (g, log) ∧ ∃ n ∈ g.nodes, n.definition = Library.absorption := by
  have works : (((Generator.bundled .msl).buildGraph hazeDocument {}).toOption.any fun built =>
      built.1.nodes.any fun n => n.definition == Library.absorption) := by
    rw [Generator.bundled, Library.bundled_eq]
    decide
  obtain ⟨⟨g, log⟩, found, absorbs⟩ := (Option.any_eq_true _ _).1 works
  simp only [any_eq_true, beq_iff_eq] at absorbs
  exact ⟨g, log, Result.toOption_eq_some.1 found, absorbs⟩

theorem template_faults_haze : ∃ gen, Generator.create .msl .bundled = .ok gen ∧
    ∀ shader, (gen.generate "haze" hazeDocument {}).result ≠ .ok shader := by
  have made := Generator.create_bundled .msl
  obtain ⟨g, log, building, absorbs⟩ := hazeGraph_absorbs
  exact ⟨_, made, ((template_faults made "haze" hazeDocument {}).2 g log building).1 rfl absorbs⟩

/-- On MSL absorption is a fault of its own template. -/
theorem haze_template_fails :
    ∃ f, ((Generator.bundled .msl).generate "haze" hazeDocument {}).result = .error f ∧
      f.fault = .template "vol" (Library.absorptionFlaw.reason Library.absorptionTemplate) := by
  have fails : (match ((Generator.bundled .msl).generate "haze" hazeDocument {}).result with
      | .ok _ => false
      | .error f => f.fault ==
        .template "vol" (Library.absorptionFlaw.reason Library.absorptionTemplate)) = true := by
    rw [Generator.bundled, Library.bundled_eq]
    decide +kernel
  split at fails
  · cases fails
  · rename_i f failed
    exact ⟨f, failed, by simpa using fails⟩

end MaterialShader
