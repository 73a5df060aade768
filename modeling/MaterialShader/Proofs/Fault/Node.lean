import MaterialShader.Emission.Node
import MaterialShader.Proofs.Fault.Basic

/-!
The faults of the code of nodes:
-/

namespace MaterialShader

open List
open Result
open Fault (Kind)

variable (s : Stage)

variable {name : String} {i : Input} {k : Nat} {n : GraphNode}

structure Run.Refers (P : Fault → Prop) (run : Run) : Prop where
  node : ∀ id ∈ run.graph.order, (run.node id).FailsBy P
  firstOutput : ∀ id ∈ run.graph.order, (run.firstOutput id).FailsBy P
  outputName : ∀ id ∈ run.graph.order, ∀ n, run.node id = .ok n → ∀ k < n.outputs.length,
    (run.outputName id k).FailsBy P
  argument : ∀ id ∈ run.graph.order, ∀ n, run.node id = .ok n → ∀ i ∈ n.inputs,
    (run.argument i).FailsBy P
  outputText : ∀ s ∈ run.graph.outputSockets, (run.outputText s).FailsBy P

variable {P : Fault → Prop} [Kind P]

theorem Run.refers_of_dangling (dangling : ∀ node output, P (.danglingReference node output))
    (run : Run) : run.Refers P := by
  have source (s : Option Source) (v : Option Value) (t : ShaderType) :
      (run.sourceText s v t).FailsBy P := by
    unfold sourceText
    split <;> simp [Run.outputName, socketName, dangling]
  have node (id : NodeId) : (run.node id).FailsBy P := by simp [Run.node, dangling]
  constructor
  · exact fun id _ => node id
  · simp [Run.firstOutput, node, dangling]
  · simp [Run.outputName, dangling]
  · exact fun _ _ _ _ i _ => source _ _ _
  · exact fun s _ => source _ _ _

namespace Run

variable {run : Run} {id : NodeId}

@[simp] theorem typeText_failsBy (name : String) : (run.typeText name).FailsBy P := by
  simp [typeText]

@[simp] theorem structureText_failsBy (t : ShaderType) (fields : List String) :
    (run.structureText t fields).FailsBy P := by
  refine .bind (run.dialect.typeName_failsBy t) fun name _ => ?_
  split <;> exact .pure

theorem input_ok (ok : run.input id name = .ok i) : ∃ n, run.node id = .ok n ∧ i ∈ n.inputs := by
  obtain ⟨n, node, found⟩ := bind_ok.1 ok
  exact ⟨n, node, mem_of_find?_eq_some (orFail_ok.1 found)⟩

theorem outputName_of_declare {value : Option String} {c : Code}
    (ok : run.declare id k value = .ok c) : ∃ name, run.outputName id k = .ok name := by
  obtain ⟨_, _, ok⟩ := bind_ok.1 ok
  obtain ⟨_, _, ok⟩ := bind_ok.1 ok
  obtain ⟨name, named, _⟩ := bind_ok.1 ok
  exact ⟨name, named⟩

omit [Kind P] in
theorem outputName_failsBy_of_declare {value : Option String} {c : Code}
    (ok : run.declare id k value = .ok c) : (run.outputName id k).FailsBy P := by
  obtain ⟨name, named⟩ := outputName_of_declare ok
  rw [named]
  exact .ok

namespace Refers

variable (refers : run.Refers P) (listed : id ∈ run.graph.order)

include refers listed

omit [Kind P] in
theorem argument_of_input (ok : run.input id name = .ok i) : (run.argument i).FailsBy P := by
  obtain ⟨n, node, member⟩ := input_ok ok
  exact refers.argument id listed n node i member

theorem input (name : String) : (run.input id name).FailsBy P := by
  simp [Run.input, refers.node id listed, Kind.common (P := P)]

theorem inputText (name : String) : (run.inputText id name).FailsBy P :=
  .bind (refers.input listed name) fun _ ok => refers.argument_of_input listed ok

theorem declare_inside (node : run.node id = .ok n) (inside : k < n.outputs.length)
    (value : Option String) : (run.declare id k value).FailsBy P := by
  have named := refers.outputName id listed n node k inside
  unfold Run.declare
  rw [node]
  cases value <;> simp [named, Nat.not_le.2 inside]

theorem declare (value : Option String) : (run.declare id 0 value).FailsBy P := by
  refine .bind (refers.node id listed) fun n node => ?_
  by_cases inside : 0 < n.outputs.length
  · have whole := refers.declare_inside listed node inside value
    rw [Run.declare, node] at whole
    exact whole
  · have none : n.outputs = [] := by simpa using inside
    have missing := refers.firstOutput id listed
    simp only [Run.firstOutput, node, failsBy_bind, failsBy_orFail] at missing
    refine .bind (failsBy_orFail.2 fun _ => missing.2 n rfl (by simp [none])) ?_
    intro o found
    simp [none, orFail, fail] at found

theorem declareOnly (text : String) : (run.declareOnly id text).FailsBy P := by
  simp [Run.declareOnly, refers.declare listed]

theorem swizzleCode : (run.swizzleCode id).FailsBy P := by
  refine .bind (refers.input listed _) fun i found => ?_
  refine .bind (refers.argument_of_input listed found) fun text _ => ?_
  simp [refers.node id listed, refers.firstOutput id listed, refers.declareOnly listed,
    Kind.common (P := P)]

theorem extractCode : (run.extractCode id).FailsBy P := by
  refine .bind (refers.node id listed) fun n _ => ?_
  refine .bind (refers.input listed _) fun i found => ?_
  refine .bind (refers.argument_of_input listed found) fun text _ => ?_
  simp [extractIndex, refers.declareOnly listed, Kind.common (P := P)]

theorem convertCode : (run.convertCode id).FailsBy P := by
  refine .bind (refers.input listed _) fun i found => ?_
  refine .bind (refers.argument_of_input listed found) fun text _ => ?_
  simp [refers.firstOutput id listed, refers.declareOnly listed, Kind.common (P := P)]

theorem combineCode : (run.combineCode id).FailsBy P := by
  refine .bind (refers.node id listed) fun n node => ?_
  refine .bind (.mapM (refers.argument id listed n node)) fun parts _ => ?_
  simp [refers.firstOutput id listed, refers.declareOnly listed]

theorem separateCode : (run.separateCode id).FailsBy P := by
  refine .bind (refers.node id listed) fun n node => ?_
  refine .bind (refers.input listed _) fun i found => ?_
  refine .bind (refers.argument_of_input listed found) fun text _ => ?_
  refine .mapM fun k inside => ?_
  simp [refers.declare_inside listed node (mem_range.1 inside)]

theorem closureCode (op : ClosureOperator) : (op.code run id).FailsBy P := by
  have hardware (t : ShaderType) (x : ClosureOperator.Operands) :
      (op.hardwareText run t x).FailsBy P := by
    unfold ClosureOperator.hardwareText
    split <;> simp
  cases op <;> cases target : run.target <;>
    simp [ClosureOperator.code, ClosureOperator.isEmptyLayer, target, hardware,
      refers.node id listed, refers.firstOutput id listed, refers.declare listed,
      refers.input listed, refers.inputText listed]

theorem conditions (op : ConditionalOperator) : (run.conditions id op).FailsBy P := by
  cases op <;> simp [Run.conditions, refers.inputText listed, refers.node id listed]

theorem branchText (k : Nat) : (run.branchText id k).FailsBy P := refers.inputText listed _

theorem conditionalChain (conditions : List String) (k : Nat) (otherwise : String) :
    (run.conditionalChain id conditions k otherwise).FailsBy P := by
  induction k generalizing otherwise with
  | zero => exact .ok
  | succ k ih => simp [Run.conditionalChain, refers.branchText listed, ih]

theorem conditionalExpression (op : ConditionalOperator) :
    (run.conditionalExpression id op).FailsBy P := by
  simp [Run.conditionalExpression, refers.conditions listed, refers.node id listed,
    refers.branchText listed, refers.conditionalChain listed, refers.declare listed]

end Refers

end Run

namespace Stage

@[simp] theorem updateBlock_failsBy (name : String) (f : Block → Block) :
    (s.updateBlock name f).FailsBy P := by
  simp [updateBlock, Kind.common (P := P)]

@[simp] theorem declareVariable_failsBy (target : Target) (kind : VariableKind)
    (block token name : String) (t : ShaderType) :
    (s.declareVariable target kind block token name t).FailsBy P := by
  simp [declareVariable]

theorem updateNamed_failsBy (stages : List Stage) (name : String) {f : Stage → Result Stage}
    (each : ∀ s, (f s).FailsBy P) : (updateNamed stages name f).FailsBy P := by
  induction stages with
  | nil => simp [updateNamed, Kind.common (P := P)]
  | cons s rest ih => simp [updateNamed, each, ih]

@[simp] theorem assignConnector_failsBy (name text : String) :
    (s.assignConnector name text).FailsBy P := by
  unfold assignConnector
  split <;> simp [Kind.common (P := P)]

@[simp] theorem named_failsBy (stages : List Stage) (name : String) :
    (named stages name).FailsBy P := by
  simp [named, Kind.common (P := P)]

end Stage

namespace Run

theorem enter_failsBy (run : Run) (stages : List Stage) (x : HardwareVariable) :
    (run.enter stages x).FailsBy P := by
  cases x <;> simp [enter, Stage.updateNamed_failsBy, FailsBy.mapM]

@[simp] theorem enterAll_failsBy (run : Run) (vs : List HardwareVariable) (stages : List Stage) :
    (vs.foldlM run.enter stages).FailsBy P :=
  failsBy_foldlM (fun stages x _ => run.enter_failsBy stages x) stages

end Run

namespace GeometricKind

@[simp] theorem property_failsBy (n : GraphNode) : (property n).FailsBy P := by
  unfold property
  split <;> simp [Kind.common (P := P)]

@[simp] theorem attributeText_failsBy (kind : GeometricKind) (n : GraphNode) (typeName : String) :
    (kind.attributeText n typeName).FailsBy P := by
  cases kind <;> simp [attributeText]

@[simp] theorem inputVariables_failsBy (options : Options) (kind : GeometricKind) (n : GraphNode)
    (typeName : String) : (kind.inputVariables options n typeName).FailsBy P := by
  cases kind <;> simp [inputVariables]

@[simp] theorem connector?_failsBy (kind : GeometricKind) (n : GraphNode) (typeName : String) :
    (kind.connector? n typeName).FailsBy P := by
  cases kind <;> simp [connector?]

@[simp] theorem connectorText_failsBy (run : Run) (kind : GeometricKind) (n : GraphNode)
    (typeName : String) : (kind.connectorText run n typeName).FailsBy P := by
  cases kind <;> simp [connectorText]

@[simp] theorem pixelText_failsBy (kind : GeometricKind) (n : GraphNode) (typeName : String) :
    (kind.pixelText n typeName).FailsBy P := by
  cases kind <;> simp [pixelText]

end GeometricKind

namespace Run.Refers

variable {run : Run} {id : NodeId} (refers : run.Refers P) (listed : id ∈ run.graph.order)

include refers listed

theorem nodeVariables : (run.nodeVariables id).FailsBy P := by
  unfold Run.nodeVariables
  split
  · split
    · refine .bind (refers.node id listed) fun n _ => ?_
      refine .bind (refers.firstOutput id listed) fun o _ => ?_
      simp
    · exact .pure
  · exact .pure
  · exact .pure

omit [Kind P] in
theorem argument_of_input? (node : run.node id = .ok n) (found : n.input? name = some i) :
    (run.argument i).FailsBy P :=
  refers.argument id listed n node i (mem_of_find?_eq_some found)

theorem oslCode (node : run.node id = .ok n) (kind : GeometricKind) (typeName : String) :
    (kind.oslCode run n id typeName).FailsBy P := by
  cases fallback : n.input? "default" with
  | none =>
    cases kind <;> simp [GeometricKind.oslCode, fallback, refers.declare listed] <;> intros <;>
      exact outputName_failsBy_of_declare (by assumption)
  | some i =>
    have read := refers.argument_of_input? listed node fallback
    cases kind <;> simp [GeometricKind.oslCode, fallback, refers.declare listed, read] <;> intros <;>
      exact outputName_failsBy_of_declare (by assumption)

theorem mdlText (node : run.node id = .ok n) (kind : GeometricKind) (o : Output) :
    (kind.mdlText run n o).FailsBy P := by
  cases fallback : n.input? "default" with
  | none => cases kind <;> simp [GeometricKind.mdlText, fallback]
  | some i =>
    have read := refers.argument_of_input? listed node fallback
    cases kind <;> simp [GeometricKind.mdlText, fallback, read]

theorem geometricCode (stage : Stage) (kind : GeometricKind) :
    (kind.code run stage id).FailsBy P := by
  have vertex (n : GraphNode) (typeName : String) :
      (kind.vertexCode run stage n typeName).FailsBy P := by
    refine .bind (kind.connector?_failsBy _ _) fun connector _ => ?_
    cases connector <;> simp
  refine .bind (refers.node id listed) fun n node => ?_
  refine .bind (refers.firstOutput id listed) fun o _ => ?_
  cases run.target <;>
    simp [vertex, refers.oslCode listed node, refers.mdlText listed node, refers.declare listed]

theorem lightCode (stage : Stage) : (run.lightCode stage id).FailsBy P := by
  simp [Run.lightCode, refers.inputText listed, refers.firstOutput id listed,
    refers.declare listed]

end Run.Refers

namespace SourceCode

@[simp] theorem substitute_failsBy (code : SourceCode) (run : Run) (text : String) :
    (code.substitute run text).FailsBy P := by
  unfold substitute
  split <;> simp

theorem function?_failsBy (code : SourceCode) (run : Run) (known : List String) :
    (code.function? run known).FailsBy P := by
  unfold function?
  split <;> simp

end SourceCode

namespace Run.Refers

variable {run : Run} (refers : run.Refers P) {id : NodeId}

include refers

theorem inlineCode (listed : id ∈ run.graph.order) (node : run.node id = .ok n) (code : SourceCode)
    (template : String) (several : n.outputs.length ≠ 1 → ∀ reason, P (.template n.path reason))
    (flawed : ∀ text flaw, code.substitute run template = .ok text →
      Template.expand (fun name => (run.inputText id name).toOption) text = .error flaw →
      P (.template n.path (flaw.reason text))) : (code.inlineCode run id template).FailsBy P := by
  refine .bind (refers.node id listed) fun m found => ?_
  cases node.symm.trans found
  split
  · rename_i other
    exact failsBy_fail.2 (several other _)
  · refine .bind (code.substitute_failsBy run template) fun text substituted => ?_
    split
    · rename_i flaw fails
      exact failsBy_fail.2 (flawed text flaw substituted fails)
    · simp [refers.declare listed]

theorem callCode (listed : id ∈ run.graph.order) (node : run.node id = .ok n) (code : SourceCode)
    (name : String)
    (several : run.target = .mdl → n.outputs.length ≠ 1 → ∀ reason, P (.template n.path reason)) :
    (code.callCode run id name).FailsBy P := by
  refine .bind (refers.node id listed) fun m found => ?_
  cases node.symm.trans found
  refine .bind (code.substitute_failsBy run name) fun function _ => ?_
  refine .bind (.mapM (refers.argument id listed n node)) fun inputs _ => ?_
  refine .bind (.mapM fun _ _ => code.substitute_failsBy run _) fun extra _ => ?_
  have inside {k : Nat} (member : k ∈ List.range n.outputs.length) : k < n.outputs.length :=
    mem_range.1 member
  split
  · rename_i mdl
    split
    · rename_i other
      exact failsBy_fail.2 (several mdl other _)
    · simp [refers.declare listed]
  · refine .bind (.mapM fun k member =>
      refers.declare_inside listed node (inside member) none) fun _ _ => ?_
    refine .bind (.mapM fun k member =>
      refers.outputName id listed n node k (inside member)) fun _ _ => ?_
    exact .pure

theorem sourceCode (listed : id ∈ run.graph.order)
    (templates : ∀ path reason, P (.template path reason)) (code : SourceCode) :
    (code.code run id).FailsBy P := by
  by_cases found : ∃ n, run.node id = .ok n
  · obtain ⟨n, node⟩ := found
    unfold SourceCode.code
    split
    · exact refers.inlineCode listed node code _ (fun _ => templates _) fun _ _ _ _ => templates _ _
    · exact refers.callCode listed node code _ fun _ _ => templates _
  · have lost {α : Type} {rest : GraphNode → Result α} : (run.node id >>= rest).FailsBy P :=
      .bind (refers.node id listed) fun n node => absurd ⟨n, node⟩ found
    unfold SourceCode.code
    split
    · exact lost
    · exact lost

theorem declareNodes {ids : List NodeId} (listed : ∀ id ∈ ids, id ∈ run.graph.order)
    (stages : List Stage) : (run.declareNodes ids stages).FailsBy P := by
  induction ids generalizing stages with
  | nil => exact .ok
  | cons id rest ih =>
    rw [forall_mem_cons] at listed
    refine .bind (refers.node id listed.1) fun n _ => .bind ?_ fun _ _ => ih listed.2 _
    rw [failsBy_inside]
    exact .bind (refers.nodeVariables listed.1) fun vs _ => run.enterAll_failsBy vs stages

theorem builtinCode (listed : id ∈ run.graph.order) (stage : Stage)
    (builtin : ∀ code, run.realization id ≠ .source code) :
    (run.simpleCode stage id).FailsBy P := by
  unfold simpleCode
  split
  · rename_i code realized
    exact absurd realized (builtin code)
  · exact refers.closureCode listed _
  · exact refers.conditionalExpression listed _
  · exact refers.swizzleCode listed
  · exact refers.extractCode listed
  · exact refers.convertCode listed
  · exact refers.combineCode listed
  · exact refers.separateCode listed
  · exact refers.geometricCode listed stage _
  · exact refers.lightCode listed stage
  · simp [refers.node id listed, Kind.common (P := P)]

end Run.Refers

theorem Run.nodeFunctions_failsBy (run : Run) (known : List String) (ids : List NodeId) :
    (run.nodeFunctions known ids).FailsBy P := by
  induction ids generalizing known with
  | nil => exact .ok
  | cons id rest ih =>
    unfold nodeFunctions
    split
    · refine .bind (SourceCode.function?_failsBy _ run known) fun own _ => ?_
      cases own <;> simp [ih]
    · simp [ih]

end MaterialShader
