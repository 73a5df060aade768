import MaterialShader.Proofs.Dialect.Plain
import MaterialShader.Proofs.Emission.Names
import MaterialShader.Proofs.Stage.Rows

/-!
The code of nodes on hardware targets is plain, but for what the geometry and the library bring in.
-/

namespace MaterialShader

open List Result
open Text (isPlain)

/-- Every line of the code fits the tokens. -/
def Code.Fits (tokens : List String) (code : List Code) : Prop :=
  ∀ text ∈ lineTextsAll code, Token.fits tokens text = true

namespace Code.Fits

variable {tokens : List String} {text : String}

theorem nil : Fits tokens [] := by simp [Fits]

theorem append {a b : List Code} (first : Fits tokens a) (second : Fits tokens b) :
    Fits tokens (a ++ b) := by
  rw [Fits, lineTextsAll_append, forall_mem_append]
  exact ⟨first, second⟩

theorem cons {c : Code} {rest : List Code} (first : Fits tokens [c]) (others : Fits tokens rest) :
    Fits tokens (c :: rest) :=
  append first others

theorem of_forall {code : List Code} (all : ∀ c ∈ code, Fits tokens [c]) : Fits tokens code := by
  induction code with
  | nil => exact nil
  | cons c rest ih =>
    exact cons (all c mem_cons_self) (ih fun c later => all c (.tail _ later))

theorem flatten {parts : List (List Code)} (all : ∀ part ∈ parts, Fits tokens part) :
    Fits tokens parts.flatten := by
  induction parts with
  | nil => exact nil
  | cons part rest ih =>
    exact append (all part mem_cons_self)
      (ih fun part later => all part (.tail _ later))

theorem statement (fit : Token.fits tokens text) : Fits tokens [.statement text] := by
  simpa [Fits, lineTexts] using fit

theorem line (fit : Token.fits tokens text) : Fits tokens [.line text] := by
  simpa [Fits, lineTexts] using fit

theorem blank : Fits tokens [.blank] := by simp [Fits, lineTexts]

theorem function {key : String} : Fits tokens [.function key] := by simp [Fits, lineTexts]

theorem scope {body rest : List Code} (fit : Fits tokens body) (b : Brackets) (semicolon : Bool)
    (later : Fits tokens rest) :
    Fits tokens (.openScope b :: (body ++ .closeScope semicolon :: rest)) := by
  simpa [Fits, lineTexts, or_imp, forall_and] using ⟨fit, later⟩

theorem branch {body : List Code} (first : Token.fits tokens text) (fit : Fits tokens body) :
    Fits tokens (Code.branch text body) := by
  simpa [Fits, Code.branch, lineTexts] using ⟨first, fit⟩

theorem block {body : List Code} (first : Token.fits tokens text) (fit : Fits tokens body)
    (semicolon : Bool) : Fits tokens (Code.block text body semicolon) := by
  simpa [Fits, Code.block, lineTexts] using ⟨first, fit⟩

theorem assignment (fit : Token.fits tokens text) (block name : String) :
    Fits tokens [.assignment block name text] := by
  simpa [Fits, lineTexts] using fit

end Code.Fits

structure Run.IsPlain (run : Run) : Prop where
  dialect : run.dialect.IsPlain
  names : ∀ name ∈ run.names.all, Text.isPlain name = true
  inputs : ∀ n ∈ run.graph.nodes, ∀ i ∈ n.inputs, Registry.standard.Knows i.type ∧
    (i.source = none → ∀ v ∈ i.value, v.HasType i.type)
  outputs : ∀ n ∈ run.graph.nodes, ∀ o ∈ n.outputs, Registry.standard.Knows o.type
  outputSockets : ∀ s ∈ run.graph.outputSockets, Registry.standard.Knows s.type ∧
    (s.source = none → ∀ v ∈ s.value, v.HasType s.type)

namespace Run

open Result.Ensures

variable {run : Run} (plain : run.IsPlain) (id : NodeId) {n : GraphNode} {tokens : List String}

include plain

omit plain in
theorem outputName_mem (index : Nat) : (run.outputName id index).Ensures (· ∈ run.names.all) := by
  intro name ok
  have found : (run.names.outputs.getD id [])[index]? = some name := orFail_ok.1 ok
  have member : name ∈ run.names.outputs.flatten := by
    rw [getD_eq_getElem?_getD] at found
    cases own : run.names.outputs[id]? with
    | none => simp [own] at found
    | some names =>
      rw [own, Option.getD_some] at found
      exact mem_flatten.2 ⟨names, mem_of_getElem? own, mem_of_getElem? found⟩
  simp [Names.all, member]

theorem outputName_plain (index : Nat) : (run.outputName id index).Ensures (isPlain ·) :=
  fun name ok => plain.names name (outputName_mem id index name ok)

theorem socketName_plain (index : Nat) : (run.socketName index).Ensures (isPlain ·) := by
  intro name ok
  have member := mem_of_getElem? (orFail_ok.1 ok)
  exact plain.names name (by simp [Names.all, member])

theorem typeText_plain (name : String) : (run.typeText name).Ensures (isPlain ·) :=
  after fun _ => Dialect.typeName_plain plain.dialect

theorem sourceText_plain {source : Option Source} {value : Option Value} {t : ShaderType}
    (known : Registry.standard.Knows t) (typed : source = none → ∀ v ∈ value, v.HasType t) :
    (run.sourceText source value t).Ensures (isPlain ·) := by
  unfold sourceText
  split
  · exact outputName_plain plain _ _
  · exact socketName_plain plain _
  · exact Dialect.literal_plain plain.dialect known (typed rfl _ rfl) false
  · exact Dialect.initialValue_plain plain.dialect false

theorem argument_plain (node : n ∈ run.graph.nodes) {i : Input} (member : i ∈ n.inputs) :
    (run.argument i).Ensures (isPlain ·) := by
  obtain ⟨known, typed⟩ := plain.inputs n node i member
  exact sourceText_plain plain known typed

omit plain in
theorem node_mem {id : NodeId} (ok : run.node id = .ok n) : n ∈ run.graph.nodes :=
  mem_of_getElem? (orFail_ok.1 ok)

omit plain in
theorem input_mem {id : NodeId} {name : String} {i : Input} (ok : run.input id name = .ok i) :
    ∃ n ∈ run.graph.nodes, i ∈ n.inputs := by
  obtain ⟨n, node, ok⟩ := bind_ok.1 ok
  exact ⟨n, node_mem node, mem_of_find?_eq_some (orFail_ok.1 ok)⟩

theorem input_plain {name : String} {i : Input} (ok : run.input id name = .ok i) :
    (run.argument i).Ensures (isPlain ·) := by
  obtain ⟨n, node, member⟩ := input_mem ok
  exact argument_plain plain node member

theorem inputText_plain (name : String) : (run.inputText id name).Ensures (isPlain ·) :=
  bind fun _ ok => input_plain plain id ok

theorem arguments_plain (node : run.node id = .ok n) :
    (n.inputs.mapM run.argument).Ensures fun texts => ∀ text ∈ texts, isPlain text := by
  intro texts ok text member
  obtain ⟨i, input, argued⟩ := exists_of_mem_right (mapM_ok ok) member
  exact argument_plain plain (node_mem node) input text argued

theorem structureText_plain {t : ShaderType} {fields : List String}
    (all : ∀ text ∈ fields, isPlain text) :
    (run.structureText t fields).Ensures (isPlain ·) := by
  refine bind fun name named => ?_
  have type := Dialect.typeName_plain plain.dialect name named
  have list : isPlain (Text.join ", " fields) := Dialect.commaList_plain all
  split
  · exact pure (by simp +decide [Dialect.bracedStructure, braced, type, list])
  · exact pure (Dialect.call_plain type all)

theorem declare_fits {k : Nat} {value : Option String}
    (fit : ∀ text ∈ value, Token.fits tokens text) :
    (run.declare id k value).Ensures fun c => Code.Fits tokens [c] := by
  refine bind fun n _ => bind fun o _ => bind fun name named => ?_
  have variableName := outputName_plain plain id k name named
  have last (text : String) (fits : Token.fits tokens text) :
      (do
        let typeName ← run.dialect.typeName o.type
        return .statement s!"{typeName} {name} = {text}" : Result Code).Ensures fun c =>
          Code.Fits tokens [c] := by
    refine bind fun typeName typed => pure (.statement ?_)
    have type := Dialect.typeName_plain plain.dialect typeName typed
    exact Token.fits_append (Token.fits_of_plain (by simp +decide [type, variableName])) fits
  cases value with
  | some text =>
    refine bind fun same ok => ?_
    cases pure_ok.1 ok
    exact last text (fit text rfl)
  | none =>
    refine bind fun text ok => last text (Token.fits_of_plain ?_)
    exact Dialect.initialValue_plain plain.dialect false text ok

theorem declare_plain (k : Nat) {text : String} (value : isPlain text) :
    (run.declare id k (some text)).Ensures fun c => Code.Fits tokens [c] := by
  refine declare_fits plain id fun text' same => ?_
  cases same
  exact Token.fits_of_plain value

theorem declareOnly_plain {text : String} (value : isPlain text) :
    (run.declareOnly id text).Ensures (Code.Fits tokens) :=
  bind fun c declared => pure (declare_plain plain id 0 value c declared)

theorem declareEmpty_fits (k : Nat) :
    (run.declare id k none).Ensures fun c => Code.Fits tokens [c] :=
  declare_fits plain id nofun

omit plain in
theorem mapM_fits {count : Nat} {act : Nat → Result Code}
    (each : ∀ k, (act k).Ensures fun c => Code.Fits tokens [c]) :
    ((List.range count).mapM act).Ensures (Code.Fits tokens) := by
  intro code ok
  refine .of_forall fun c member => ?_
  obtain ⟨k, _, here⟩ := exists_of_mem_right (mapM_ok ok) member
  exact each k c here

theorem swizzleCode_fits : (run.swizzleCode id).Ensures (Code.Fits tokens) := by
  refine bind fun i found => bind fun text argued => ?_
  have source := input_plain plain id found text argued
  refine after fun n => after fun channels => after fun o => ?_
  split
  · refine bind fun picked ok => declareOnly_plain plain id ?_
    cases pure_ok.1 ok
    exact source
  · refine bind fun picked ok => declareOnly_plain plain id ?_
    exact Dialect.swizzle_plain plain.dialect source channels picked ok

theorem extractCode_fits : (run.extractCode id).Ensures (Code.Fits tokens) := by
  refine after fun n => bind fun i found => bind fun text argued => after fun index => ?_
  have source := input_plain plain id found text argued
  refine bind fun component ok => declareOnly_plain plain id ?_
  exact Dialect.member_plain plain.dialect source index component ok

theorem convertCode_fits : (run.convertCode id).Ensures (Code.Fits tokens) := by
  refine bind fun i found => bind fun text argued => after fun o => ?_
  have source := input_plain plain id found text argued
  split
  · refine bind fun converted ok => declareOnly_plain plain id ?_
    cases pure_ok.1 ok
    exact source
  · refine after fun c => bind fun converted ok => declareOnly_plain plain id ?_
    exact Dialect.convert_plain plain.dialect source c converted ok

theorem combineCode_fits : (run.combineCode id).Ensures (Code.Fits tokens) := by
  refine bind fun n node => bind fun parts argued => after fun o => bind fun whole ok => ?_
  have all := arguments_plain plain id node parts argued
  exact declareOnly_plain plain id (Dialect.construct_plain plain.dialect all whole ok)

theorem separateCode_fits : (run.separateCode id).Ensures (Code.Fits tokens) := by
  refine after fun n => bind fun i found => bind fun text argued => ?_
  have source := input_plain plain id found text argued
  refine mapM_fits fun k => bind fun component ok => ?_
  exact declare_plain plain id k (Dialect.member_plain plain.dialect source k component ok)

theorem closureText_plain (op : ClosureOperator) (t : ShaderType) {x : ClosureOperator.Operands}
    (first : isPlain x.first) (second : isPlain x.second)
    (weight : isPlain x.weight) :
    (op.hardwareText run t x).Ensures (isPlain ·) := by
  unfold ClosureOperator.hardwareText
  split
  · refine pure ?_
    cases op <;> simp +decide [ClosureOperator.bareText, first, second, weight]
  · rename_i m0 m1 members
    have names : isPlain m0 ∧ isPlain m1 := by
      unfold ClosureOperator.structureMembers? at members
      split_ifs at members <;> cases members <;> decide
    refine bind fun vector3 named => structureText_plain plain ?_
    have type := typeText_plain plain "vector3" vector3 named
    cases op <;> simp only [ClosureOperator.memberTexts] <;> (try split) <;>
      simp +decide [first, second, weight, names, type]

theorem closureCode_fits (hardware : run.target.isHardware) (op : ClosureOperator) :
    (op.code run id).Ensures (Code.Fits tokens) := by
  refine after fun n => after fun o => ?_
  split
  · exact bind fun c declared => pure (declareEmpty_fits plain id 0 c declared)
  · refine bind fun first ok => bind fun second ok' => after fun secondInput => ?_
    have left := inputText_plain plain id _ first ok
    have right := inputText_plain plain id _ second ok'
    have last (weight : String) (weighs : isPlain weight) :
        (do
          let text ← op.hardwareText run o.type ⟨first, second, secondInput.type.name, weight⟩
          let declared ← run.declare id 0 (some text)
          return [declared] : Result (List Code)).Ensures (Code.Fits tokens) :=
      bind fun text made => declareOnly_plain plain id
        (closureText_plain plain op o.type left right weighs text made)
    have one : isPlain "1.0" := by decide
    cases target : run.target with
    | glsl | msl =>
      cases op
      case mix =>
        exact bind fun weight weighed => last weight (inputText_plain plain id "mix" weight weighed)
      all_goals
        refine bind fun weight same => ?_
        cases pure_ok.1 same
        exact last _ one
    | osl | mdl => simp [target, Target.isHardware] at hardware

theorem conditions_plain (op : ConditionalOperator) :
    (run.conditions id op).Ensures fun texts => ∀ text ∈ texts, isPlain text := by
  cases op with
  | switch =>
    refine bind fun which ok => after fun n => pure ?_
    have selector := inputText_plain plain id "which" which ok
    simp +decide [selector]
  | compare =>
    refine bind fun intest ok => bind fun cutoff ok' => pure ?_
    have left := inputText_plain plain id "intest" intest ok
    have right := inputText_plain plain id "cutoff" cutoff ok'
    simp +decide [left, right]
  | ifGreater =>
    refine bind fun value1 ok => bind fun value2 ok' => pure ?_
    have left := inputText_plain plain id "value1" value1 ok
    have right := inputText_plain plain id "value2" value2 ok'
    simp +decide [left, right]

theorem conditionalChain_plain {conditions : List String}
    (all : ∀ text ∈ conditions, isPlain text) (k : Nat) {otherwise : String}
    (rest : isPlain otherwise) :
    (run.conditionalChain id conditions k otherwise).Ensures (isPlain ·) := by
  induction k generalizing otherwise with
  | zero => exact pure rest
  | succ k ih =>
    refine bind fun value ok => ih ?_
    have chosen := inputText_plain plain id _ value ok
    have condition : isPlain (conditions[k]?.getD "") := by
      cases found : conditions[k]? with
      | some text => exact all text (mem_of_getElem? found)
      | none => rfl
    simp +decide [chosen, condition, rest]

theorem conditionalExpression_fits (op : ConditionalOperator) :
    (run.conditionalExpression id op).Ensures (Code.Fits tokens) := by
  refine bind fun conditions ok => after fun n => bind fun otherwise last => ?_
  have all := conditions_plain plain id op conditions ok
  have rest := inputText_plain plain id _ otherwise last
  refine bind fun text chained => declareOnly_plain plain id ?_
  exact conditionalChain_plain plain id all _ rest text chained

omit plain in
theorem branchHead_plain {conditions : List String}
    (all : ∀ text ∈ conditions, isPlain text) (k : Nat) :
    isPlain (branchHead conditions k) := by
  unfold branchHead
  split
  · rename_i c found
    simp +decide [all c (mem_of_getElem? found)]
  · rename_i c _ found
    simp +decide [all c (mem_of_getElem? found)]
  · decide

end Run

end MaterialShader
