import MaterialShader.Emission.Node
import MaterialShader.Proofs.Stage.Written

/-!
The code of a node opens no scope and declares its outputs:
-/

namespace MaterialShader

open List

def Result.Ensures {α : Type} (P : α → Prop) (x : Result α) : Prop := ∀ a, x = .ok a → P a

namespace Result.Ensures

variable {α β : Type} {P : α → Prop} {x : Result β} {f : β → Result α}

theorem bind (each : ∀ b, x = .ok b → (f b).Ensures P) : (x >>= f).Ensures P := by
  intro a ok
  obtain ⟨b, first, ok⟩ := Result.bind_ok.1 ok
  exact each b first a ok

theorem after (each : ∀ b, (f b).Ensures P) : (x >>= f).Ensures P :=
  bind fun b _ => each b

theorem of_fail (f : Fault) : (fail f : Result α).Ensures P := by
  intro a ok
  cases ok

theorem pure {a : α} (holds : P a) : (Pure.pure a : Result α).Ensures P := by
  intro b ok
  cases Result.pure_ok.1 ok
  exact holds

theorem optional {Q : β → Prop} {c : Prop} [Decidable c] {default : β} (holds : x.Ensures Q)
    (none : Q default) (each : ∀ b, Q b → (f b).Ensures P) :
    (if c then x >>= f else Pure.pure default >>= f).Ensures P := by
  split
  · exact bind fun b ok => each b (holds b ok)
  · exact each default none

theorem foldlM {f : α → β → Result α} {items : List β}
    (step : ∀ a, P a → ∀ b ∈ items, (f a b).Ensures P) {start : α} (first : P start) :
    (items.foldlM f start).Ensures P := by
  induction items generalizing start with
  | nil => exact pure first
  | cons b rest ih =>
    exact bind fun next ok => ih (fun a old b later => step a old b (.tail _ later))
      (step start first b mem_cons_self next ok)

end Result.Ensures

theorem Stage.assignConnector_ok {s : Stage} {name text : String} {x : Code}
    (ok : s.assignConnector name text = .ok x) : x = .assignment vertexData name text := by
  unfold Stage.assignConnector at ok
  split at ok
  · cases ok
  · split at ok
    · cases ok
      rfl
    · cases ok

namespace Run

/-- The statement declares output `k` of the node by its type and its name, with the value. -/
def DeclaresAs (run : Run) (id : NodeId) (k : Nat) (value : String) (c : Code) : Prop :=
  ∃ n o typeName name, run.graph.nodes[id]? = some n ∧ n.outputs[k]? = some o ∧
    run.dialect.typeName o.type = .ok typeName ∧ run.outputName id k = .ok name ∧
    c = .statement s!"{typeName} {name} = {value}"

def Declares (run : Run) (id : NodeId) (k : Nat) (c : Code) : Prop :=
  ∃ value, run.DeclaresAs id k value c

/-- One of the statements declares output `k` of the node. -/
def Declared (run : Run) (code : List Code) (id : NodeId) (k : Nat) : Prop :=
  ∃ c ∈ code, run.Declares id k c

theorem Declared.mono {run : Run} {code code' : List Code} {id : NodeId} {k : Nat}
    (declared : run.Declared code id k) (sub : code ⊆ code') : run.Declared code' id k := by
  obtain ⟨c, member, declares⟩ := declared
  exact ⟨c, sub member, declares⟩

theorem declare_declaresAs {run : Run} {id : NodeId} {k : Nat} {value : Option String} {c : Code}
    (ok : run.declare id k value = .ok c) :
    ∃ text, (∀ v, value = some v → text = v) ∧ run.DeclaresAs id k text c := by
  obtain ⟨n, node, ok⟩ := Result.bind_ok.1 ok
  obtain ⟨o, output, ok⟩ := Result.bind_ok.1 ok
  obtain ⟨name, named, ok⟩ := Result.bind_ok.1 ok
  have last {text : String} (ok : (do
      let typeName ← run.dialect.typeName o.type
      return .statement s!"{typeName} {name} = {text}" : Result Code) = .ok c) :
      run.DeclaresAs id k text c := by
    obtain ⟨typeName, typed, ok⟩ := Result.bind_ok.1 ok
    exact ⟨n, o, typeName, name, orFail_ok.1 node, orFail_ok.1 output, typed, named,
      (Result.pure_ok.1 ok).symm⟩
  cases value with
  | some v => exact ⟨v, fun _ same => Option.some.inj same, last ok⟩
  | none =>
    obtain ⟨text, _, ok⟩ := Result.bind_ok.1 ok
    exact ⟨text, nofun, last ok⟩

theorem DeclaresAs.isFlat {run : Run} {id : NodeId} {k : Nat} {value : String} {c : Code}
    (declares : run.DeclaresAs id k value c) : c.isFlat := by
  obtain ⟨_, _, _, _, _, _, _, _, rfl⟩ := declares
  rfl

theorem declare_declares {run : Run} {id : NodeId} {k : Nat} {value : Option String} {c : Code}
    (ok : run.declare id k value = .ok c) : run.Declares id k c := by
  obtain ⟨text, _, declares⟩ := declare_declaresAs ok
  exact ⟨text, declares⟩

structure DeclaresFirst (run : Run) (id : NodeId) (code : List Code) : Prop where
  flat : ∀ c ∈ code, c.isFlat = true
  declared : run.Declared code id 0

open Result.Ensures

variable (run : Run) (id : NodeId) {n : GraphNode} {stage : Stage}

theorem declare_ensures (value : Option String) :
    (do
      let declared ← run.declare id 0 value
      return [declared] : Result (List Code)).Ensures (run.DeclaresFirst id) := by
  refine bind fun c ok => pure ⟨?_, c, mem_singleton_self c, declare_declares ok⟩
  obtain ⟨_, _, declares⟩ := declare_declaresAs ok
  exact forall_mem_singleton.2 declares.isFlat

theorem declareOnly_ensures (text : String) :
    (run.declareOnly id text).Ensures (run.DeclaresFirst id) :=
  run.declare_ensures id (some text)

def DeclaresEach (run : Run) (id : NodeId) (count : Nat) (code : List Code) : Prop :=
  (∀ c ∈ code, c.isFlat = true) ∧ ∀ k < count, run.Declared code id k

theorem declareAll_ensures {count : Nat} {act : Nat → Result Code}
    (each : ∀ k, (act k).Ensures fun c => ∃ value, run.declare id k value = .ok c) :
    ((List.range count).mapM act).Ensures (run.DeclaresEach id count) := by
  intro code ok
  refine ⟨fun c member => ?_, fun k inside => ?_⟩
  · obtain ⟨k, _, made⟩ := exists_of_mem_right (Result.mapM_ok ok) member
    obtain ⟨_, declared⟩ := each k c made
    obtain ⟨_, _, declares⟩ := declare_declaresAs declared
    exact declares.isFlat
  · obtain ⟨length, at_⟩ := forall₂_iff_get.1 (Result.mapM_ok ok)
    have bound : k < (List.range count).length := by simpa using inside
    have made := at_ k bound (length ▸ bound)
    simp only [get_eq_getElem, getElem_range] at made
    obtain ⟨_, declared⟩ := each k _ made
    exact ⟨_, getElem_mem _, declare_declares declared⟩

theorem swizzleCode_ensures : (run.swizzleCode id).Ensures (run.DeclaresFirst id) := by
  refine after fun _ => after fun _ => after fun _ => after fun _ => after fun _ => ?_
  split_ifs
  · exact after fun _ => run.declareOnly_ensures id _
  · exact after fun _ => run.declareOnly_ensures id _

theorem extractCode_ensures : (run.extractCode id).Ensures (run.DeclaresFirst id) := by
  refine after fun _ => after fun _ => after fun _ => after fun _ => after fun _ => ?_
  exact run.declareOnly_ensures id _

theorem convertCode_ensures : (run.convertCode id).Ensures (run.DeclaresFirst id) := by
  refine after fun _ => after fun _ => after fun _ => ?_
  split_ifs
  · exact after fun _ => run.declareOnly_ensures id _
  · exact after fun _ => after fun _ => run.declareOnly_ensures id _

theorem combineCode_ensures : (run.combineCode id).Ensures (run.DeclaresFirst id) := by
  refine after fun _ => after fun _ => after fun _ => after fun _ => ?_
  exact run.declareOnly_ensures id _

theorem conditionalExpression_ensures (op : ConditionalOperator) :
    (run.conditionalExpression id op).Ensures (run.DeclaresFirst id) := by
  refine after fun _ => after fun _ => after fun _ => after fun _ => ?_
  exact run.declare_ensures id _

theorem closureCode_ensures (op : ClosureOperator) :
    (op.code run id).Ensures (run.DeclaresFirst id) := by
  refine after fun _ => after fun _ => ?_
  split_ifs
  · exact run.declare_ensures id none
  · refine after fun _ => after fun _ => after fun _ => ?_
    have last : ∀ x : Result String, (do
        let text ← x
        let declared ← run.declare id 0 (some text)
        return [declared] : Result (List Code)).Ensures (run.DeclaresFirst id) :=
      fun _ => after fun _ => run.declare_ensures id _
    cases op <;> cases run.target
    all_goals exact after fun _ => last _

theorem inlineCode_ensures (code : SourceCode) (template : String) :
    (code.inlineCode run id template).Ensures (run.DeclaresFirst id) := by
  refine after fun _ => ?_
  split_ifs
  · exact of_fail _
  · refine after fun _ => ?_
    split
    · exact of_fail _
    · exact run.declare_ensures id _

variable {run id} in
theorem node_eq (found : run.graph.nodes[id]? = some n) {m : GraphNode}
    (node : run.node id = .ok m) : m = n :=
  Option.some.inj ((orFail_ok.1 node).symm.trans found)

variable {run id} in
theorem DeclaresFirst.each {code : List Code} (first : run.DeclaresFirst id code) {count : Nat}
    (single : count = 1) : run.DeclaresEach id count code := by
  refine ⟨first.flat, fun k inside => ?_⟩
  have zero : k = 0 := by omega
  exact zero ▸ first.declared

theorem callCode_ensures (code : SourceCode) (name : String) :
    (code.callCode run id name).Ensures fun code =>
      ∃ n, run.node id = .ok n ∧ run.DeclaresEach id n.outputs.length code := by
  refine bind fun n node => after fun _ => after fun _ => after fun _ => ?_
  split_ifs with mdl several
  · exact of_fail _
  · intro code ok
    exact ⟨n, node, (run.declare_ensures id _ code ok).each (not_not.1 several)⟩
  · refine bind fun declared ok => after fun _ => pure ⟨n, node, ?_⟩
    obtain ⟨flat, all⟩ := run.declareAll_ensures id (fun _ _ made => ⟨none, made⟩) declared ok
    refine ⟨forall_mem_append.2 ⟨flat, forall_mem_singleton.2 rfl⟩, fun k inside => ?_⟩
    exact (all k inside).mono (subset_append_left _ _)

theorem separateCode_ensures : (run.separateCode id).Ensures fun code =>
    ∃ n, run.node id = .ok n ∧ run.DeclaresEach id n.outputs.length code := by
  refine bind fun n node => after fun _ => after fun _ code ok => ⟨n, node, ?_⟩
  exact run.declareAll_ensures id (fun k => after fun component _ made => ⟨some component, made⟩)
    code ok

theorem oslCode_ensures (kind : GeometricKind) (n : GraphNode) (typeName : String) :
    (kind.oslCode run n id typeName).Ensures (run.DeclaresFirst id) := by
  unfold GeometricKind.oslCode
  have assigned : ∀ (initial : Option String) (text : String → String), (do
      let declared ← run.declare id 0 initial
      let out ← run.outputName id 0
      return [declared, .statement (text out)] : Result (List Code)).Ensures
        (run.DeclaresFirst id) := by
    intro initial text
    refine bind fun c ok => after fun _ => pure ⟨?_, c, .head _, declare_declares ok⟩
    obtain ⟨_, _, declares⟩ := declare_declaresAs ok
    exact forall_mem_cons.2 ⟨declares.isFlat, forall_mem_singleton.2 rfl⟩
  cases kind
  case geomColor | frame =>
    dsimp only
    split
    · exact after fun _ => assigned _ _
    · exact after fun _ => assigned _ _
  case geomPropValue =>
    refine after fun _ => ?_
    split
    · exact after fun _ => assigned _ _
    · exact after fun _ => assigned _ _
  all_goals exact run.declare_ensures id _

def DeclaresPixel (run : Run) (stage : Stage) (id : NodeId) (code : List Code) : Prop :=
  (∀ c ∈ code, c.isFlat = true) ∧ (stage.name = pixelStage → run.DeclaresFirst id code)

variable {run id} in
theorem DeclaresFirst.pixel {code : List Code} (first : run.DeclaresFirst id code) (stage : Stage) :
    run.DeclaresPixel stage id code := ⟨first.flat, fun _ => first⟩

theorem assigned_ensures (vertex : stage.name = vertexStage) (name text : String) :
    (do
      let assigned ← stage.assignConnector name text
      return [assigned] : Result (List Code)).Ensures (run.DeclaresPixel stage id) := by
  refine bind fun x ok => pure ⟨?_, fun pixel => ?_⟩
  · rw [Stage.assignConnector_ok ok]
    exact forall_mem_singleton.2 rfl
  · exact absurd (vertex.symm.trans pixel) (by decide)

theorem geometricCode_ensures (kind : GeometricKind) :
    (kind.code run stage id).Ensures (run.DeclaresPixel stage id) := by
  have first {x : Result (List Code)} (ensures : x.Ensures (run.DeclaresFirst id)) :
      x.Ensures (run.DeclaresPixel stage id) := fun code ok => (ensures code ok).pixel stage
  have hardware : ∀ n o, (do
      if stage.name = vertexStage then kind.vertexCode run stage n o
      else
        let text ← kind.pixelText n o
        let declared ← run.declare id 0 (some text)
        return [declared] : Result (List Code)).Ensures (run.DeclaresPixel stage id) := by
    intro n o
    split
    · rename_i vertex
      refine after fun connector => ?_
      cases connector with
      | none =>
        refine pure ⟨by simp, fun pixel => ?_⟩
        exact absurd (vertex.symm.trans pixel) (by decide)
      | some name => exact after fun _ => run.assigned_ensures id vertex name _
    · exact first (after fun _ => run.declare_ensures id _)
  refine after fun n => after fun o => ?_
  cases run.target
  · exact hardware n o.type.name
  · exact first (run.oslCode_ensures id kind _ _)
  · exact first (after fun _ => run.declare_ensures id _)
  · exact hardware n o.type.name

theorem lightCode_ensures : (run.lightCode stage id).Ensures (run.DeclaresPixel stage id) := by
  unfold lightCode
  split
  · rename_i vertex
    exact run.assigned_ensures id vertex _ _
  · refine after fun _ => after fun _ => after fun _ => after fun _ => after fun _ => ?_
    exact fun code ok => (run.declare_ensures id _ code ok).pixel stage

structure DeclaresOutputs (run : Run) (stage : Stage) (id : NodeId) (code : List Code) : Prop where
  flat : ∀ c ∈ code, c.isFlat = true
  declared : stage.name = pixelStage → ∀ n, run.graph.nodes[id]? = some n →
    n.outputs.length = 1 ∨ run.realization id = .separate →
    ∀ k < n.outputs.length, run.Declared code id k

theorem simpleCode_ensures (stage : Stage) :
    (run.simpleCode stage id).Ensures (run.DeclaresOutputs stage id) := by
  have each {x : Result (List Code)} (ensures : x.Ensures fun code => ∃ n, run.node id = .ok n ∧
      run.DeclaresEach id n.outputs.length code) : x.Ensures (run.DeclaresOutputs stage id) := by
    intro code ok
    obtain ⟨m, node, flat, all⟩ := ensures code ok
    refine ⟨flat, fun _ n found _ => ?_⟩
    rwa [node_eq found node] at all
  have only {x : Result (List Code)} (other : run.realization id ≠ .separate)
      (ensures : x.Ensures (run.DeclaresPixel stage id)) :
      x.Ensures (run.DeclaresOutputs stage id) := by
    intro code ok
    obtain ⟨flat, first⟩ := ensures code ok
    exact ⟨flat, fun pixel n _ outputs => ((first pixel).each (outputs.resolve_right other)).2⟩
  have first {x : Result (List Code)} (ensures : x.Ensures (run.DeclaresFirst id)) :
      x.Ensures (run.DeclaresPixel stage id) := fun code ok => (ensures code ok).pixel stage
  unfold simpleCode
  cases kind : run.realization id with
  | source code =>
    cases source : code.source with
    | inline template =>
      simp only [SourceCode.code, source]
      exact only (by simp [kind]) (first (run.inlineCode_ensures id code template))
    | function name text =>
      simp only [SourceCode.code, source]
      exact each (run.callCode_ensures id code name)
  | closure op => exact only (by simp [kind]) (first (run.closureCode_ensures id op))
  | conditional op => exact only (by simp [kind]) (first (run.conditionalExpression_ensures id op))
  | swizzle => exact only (by simp [kind]) (first (run.swizzleCode_ensures id))
  | extract => exact only (by simp [kind]) (first (run.extractCode_ensures id))
  | convert => exact only (by simp [kind]) (first (run.convertCode_ensures id))
  | combine => exact only (by simp [kind]) (first (run.combineCode_ensures id))
  | separate => exact each (run.separateCode_ensures id)
  | geometric kind' => exact only (by simp [kind]) (run.geometricCode_ensures id kind')
  | light => exact only (by simp [kind]) (run.lightCode_ensures id)
  | unsupported => exact after fun _ => of_fail _

end Run

end MaterialShader
