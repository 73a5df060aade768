import Mathlib.Logic.Function.Basic
import MaterialShader.Graph.Fold
import MaterialShader.Proofs.Graph.WellFormed
import MaterialShader.Proofs.Numeric.Order

/-!
The meaning of a graph under an interpretation of its nodes.
-/

namespace MaterialShader

open List
open Numeric

variable {id : NodeId} {g : Graph}

structure Signature where
  definition : String
  category : String
  outputs : List ShaderType

structure Argument (D : Type) where
  name : String
  type : ShaderType
  value : D
  deriving DecidableEq

/-- Values of literals, and the outputs of every definition as functions of its inputs. -/
structure Interpretation (D : Type) where
  literal : ShaderType → Value → D
  apply : Signature → List (Argument D) → Nat → D

def GraphNode.signature (n : GraphNode) : Signature :=
  ⟨n.definition, n.category, n.outputs.map Output.type⟩

abbrev Valuation (D : Type) := NodeId → Nat → D

section

variable {D : Type}

def argument? (args : List (Argument D)) (name : String) : Option (Argument D) :=
  args.find? fun a => a.name == name

namespace Interpretation

def HasLiteral (I : Interpretation D) (args : List (Argument D)) (name : String)
    (t : ShaderType) (v : Value) : Prop :=
  ∃ a, argument? args name = some a ∧ a.type = t ∧ a.value = I.literal t v

def HasNumber (I : Interpretation D) (args : List (Argument D)) (name : String)
    (x : Single) : Prop :=
  ∃ t v, I.HasLiteral args name t v ∧ v.number? = some x

def Returns (I : Interpretation D) (sig : Signature) (args : List (Argument D))
    (name : String) : Prop :=
  ∀ t a, sig.outputs = [t] → argument? args name = some a → a.type = t →
    I.apply sig args 0 = a.value

def branches (args : List (Argument D)) : Nat :=
  Nat.max 1 (args.countP fun a => Text.startsWith "in" a.name)

/-- The only laws that folding rests on. -/
structure Lawful (types : Registry) (I : Interpretation D) : Prop where
  constant : ∀ sig args, sig.category = "constant" → I.Returns sig args "value"
  dot : ∀ sig args, sig.category = "dot" → I.Returns sig args "in"
  mix_zero : ∀ sig args w, sig.category = "mix" → I.HasNumber args "mix" w → w.eq .zero →
    I.Returns sig args "bg"
  mix_one : ∀ sig args w, sig.category = "mix" → I.HasNumber args "mix" w → w.eq .one →
    I.Returns sig args "fg"
  switch : ∀ sig args which (k : Nat), sig.category = "switch" → I.HasNumber args "which" which →
    k = which.reading.clampedFloor (branches args - 1) → I.Returns sig args s!"in{k + 1}"
  compare : ∀ sig args intest cutoff, sig.category = "compare" →
    I.HasNumber args "intest" intest → I.HasNumber args "cutoff" cutoff →
    I.Returns sig args (if intest.le cutoff then "in1" else "in2")
  ifgreater : ∀ sig args value1 value2, sig.category = "ifgreater" →
    I.HasNumber args "value1" value1 → I.HasNumber args "value2" value2 →
    I.Returns sig args (if value2.lt value1 then "in1" else "in2")
  convert : ∀ sig args s t v c r, sig.category = "convert" → sig.outputs = [t] →
    I.HasLiteral args "in" s v → types.conversion? s t = some c →
    Fold.convertValue? v c t = some r → I.apply sig args 0 = I.literal t r
  arithmetic : ∀ sig args op t t1 t2 v1 v2 xs ys r,
    Fold.Operator.ofCategory? sig.category = some op → sig.outputs = [t] → t.isFloatBased →
    t.semantic ≠ .matrix → I.HasLiteral args "in1" t1 v1 → v1.components? = some xs →
    I.HasLiteral args "in2" t2 v2 → v2.components? = some ys →
    Fold.arithmetic? op xs ys t = some r → I.apply sig args 0 = I.literal t r

/-- The value that an input or socket of type `t` reads: that of its source, else its literal, else
the initial value of the type. -/
def read (I : Interpretation D) (sockets : Nat → D) (v : Valuation D) (t : ShaderType) :
    Option Source → Option Value → D
  | some (.node id k), _ => v id k
  | some (.socket k), _ => sockets k
  | none, some x => I.literal t x
  | none, none => I.literal t t.initial

def argumentOf (I : Interpretation D) (sockets : Nat → D) (v : Valuation D) (i : Input) :
    Argument D :=
  ⟨i.name, i.type, I.read sockets v i.type i.source i.value⟩

def arguments (I : Interpretation D) (sockets : Nat → D) (v : Valuation D) (n : GraphNode) :
    List (Argument D) :=
  n.inputs.map (I.argumentOf sockets v)

def results (I : Interpretation D) (sockets : Nat → D) (v : Valuation D) (n : GraphNode) :
    Nat → D :=
  I.apply n.signature (I.arguments sockets v n)

def assign (I : Interpretation D) (sockets : Nat → D) (nodes : List GraphNode) (v : Valuation D)
    (id : NodeId) : Valuation D :=
  match nodes[id]? with
  | some n => Function.update v id (I.results sockets v n)
  | none => v

def evaluateFrom (I : Interpretation D) (sockets : Nat → D) (nodes : List GraphNode) :
    List NodeId → Valuation D → Valuation D
  | [], v => v
  | id :: rest, v => evaluateFrom I sockets nodes rest (I.assign sockets nodes v id)

section

variable (I : Interpretation D) (sockets : Nat → D)

include I sockets

theorem read_congr {v w : Valuation D}
    (t : ShaderType) (source : Option Source) (value : Option Value)
    (agree : ∀ id k, source = some (.node id k) → v id k = w id k) :
    I.read sockets v t source value = I.read sockets w t source value := by
  match source, value with
  | some (.node id k), _ => exact agree id k rfl
  | some (.socket k), _ => rfl
  | none, some x => rfl
  | none, none => rfl

theorem results_congr {v w : Valuation D}
    (n : GraphNode) (agree : ∀ id ∈ n.readNodes, v id = w id) :
    I.results sockets v n = I.results sockets w n := by
  have same : I.arguments sockets v n = I.arguments sockets w n := by
    apply map_congr_left
    intro i member
    simp only [argumentOf, Argument.mk.injEq, true_and]
    apply read_congr
    intro id k source
    rw [agree id (GraphNode.mem_readNodes.2 ⟨i, member, k, source⟩)]
  rw [results, results, same]

theorem assign_self {nodes : List GraphNode} (v : Valuation D) {n : GraphNode}
    (found : nodes[id]? = some n) : I.assign sockets nodes v id id = I.results sockets v n := by
  rw [assign, found]
  exact Function.update_self _ _ _

theorem assign_of_ne (nodes : List GraphNode) (v : Valuation D) {other : NodeId}
    (different : other ≠ id) : I.assign sockets nodes v id other = v other := by
  cases found : nodes[id]? with
  | none => simp only [assign, found]
  | some n =>
    simp only [assign, found]
    exact Function.update_of_ne different _ _

theorem evaluateFrom_of_notMem (nodes : List GraphNode) (order : List NodeId) (v : Valuation D)
    (absent : id ∉ order) : I.evaluateFrom sockets nodes order v id = v id := by
  induction order generalizing v with
  | nil => rfl
  | cons first rest ih =>
    obtain ⟨other, absent⟩ := not_or.1 (mt mem_cons.2 absent)
    rw [evaluateFrom, ih _ absent, I.assign_of_ne sockets nodes v other]

theorem evaluateFrom_solves (nodes : List GraphNode) (order : List NodeId) (v : Valuation D)
    (nodup : order.Nodup)
    (late : ∀ before id after, order = before ++ id :: after → ∀ n, nodes[id]? = some n →
      ∀ a ∈ n.readNodes, a ∉ id :: after) (member : id ∈ order) {n : GraphNode}
    (found : nodes[id]? = some n) :
    I.evaluateFrom sockets nodes order v id =
      I.results sockets (I.evaluateFrom sockets nodes order v) n := by
  induction order generalizing v with
  | nil => cases member
  | cons first rest ih =>
    obtain ⟨fresh, nodup⟩ := nodup_cons.1 nodup
    obtain rfl | member := mem_cons.1 member
    · rw [evaluateFrom, evaluateFrom_of_notMem I sockets nodes rest _ fresh,
        I.assign_self sockets v found]
      apply results_congr
      intro a read
      have apart := late [] id rest rfl n found a read
      obtain ⟨other, absent⟩ := not_or.1 (mt mem_cons.2 apart)
      rw [evaluateFrom_of_notMem I sockets nodes rest _ absent,
        I.assign_of_ne sockets nodes v other]
    · rw [evaluateFrom]
      apply ih _ nodup _ member
      intro before id after split
      exact late (first :: before) id after (by rw [split, cons_append])

end

end Interpretation

namespace Graph

def Solves (I : Interpretation D) (sockets : Nat → D) (g : Graph) (v : Valuation D) : Prop :=
  ∀ id n, g.nodes[id]? = some n → v id = I.results sockets v n

def evaluate [Inhabited D] (g : Graph) (I : Interpretation D) (sockets : Nat → D) : Valuation D :=
  match Dependency.sort g.nodes.length g.edges with
  | .ok order => I.evaluateFrom sockets g.nodes order fun _ _ => default
  | .error _ => fun _ _ => default

def outputsUnder (g : Graph) (I : Interpretation D) (sockets : Nat → D) (v : Valuation D) :
    List (Argument D) :=
  g.outputSockets.map fun s => ⟨s.name, s.type, I.read sockets v s.type s.source s.value⟩

def outputValues [Inhabited D] (g : Graph) (I : Interpretation D) (sockets : Nat → D) :
    List (Argument D) :=
  g.outputsUnder I sockets (g.evaluate I sockets)

theorem Closed.evaluate_solves [Inhabited D] (closed : g.Closed) (acyclic : g.Acyclic)
    (I : Interpretation D) (sockets : Nat → D) : g.Solves I sockets (g.evaluate I sockets) := by
  obtain ⟨order, sorted⟩ := exists_order closed acyclic
  have all := Dependency.sort_perm sorted
  have nodup : order.Nodup := all.nodup_iff.2 nodup_range
  intro id n found
  simp only [evaluate, sorted]
  have member : id ∈ order :=
    all.mem_iff.2 (mem_range.2 (lt_of_getElem? found))
  apply I.evaluateFrom_solves sockets g.nodes order _ nodup _ member found
  intro before b after split m at_b a read
  have feeds : g.Feeds a b := ⟨m, at_b, GraphNode.mem_readNodes.1 read⟩
  exact Dependency.not_mem_suffix split nodup (order_forward sorted feeds)

theorem evaluate_solves [Inhabited D] {types : Registry} (typed : g.WellTyped types)
    (acyclic : g.Acyclic) (I : Interpretation D) (sockets : Nat → D) :
    g.Solves I sockets (g.evaluate I sockets) := typed.closed.evaluate_solves acyclic I sockets

theorem Solves.agree {h : Graph} {I : Interpretation D} {sockets : Nat → D} {v w : Valuation D}
    (hv : g.Solves I sockets v) (hw : h.Solves I sockets w) (inRange : g.Closed)
    (acyclic : g.Acyclic) (keep : NodeId → Prop) (number : NodeId → NodeId)
    (closed : ∀ a b, keep b → g.Feeds a b → keep a)
    (copied : ∀ id n, keep id → g.nodes[id]? = some n → ∃ m, h.nodes[number id]? = some m ∧
      m.signature = n.signature ∧ ∀ v w : Valuation D,
        (∀ a ∈ n.readNodes, w (number a) = v a) →
          I.arguments sockets w m = I.arguments sockets v n) (kept : keep id)
    (inside : id < g.nodes.length) : w (number id) = v id := by
  obtain ⟨rank, climbs⟩ := acyclic.exists_rank fun _ _ => inRange.feeder_lt
  induction order : rank id using Nat.strong_induction_on generalizing id with
  | _ r ih =>
    obtain ⟨n, found⟩ : ∃ n, g.nodes[id]? = some n := ⟨_, List.getElem?_eq_getElem inside⟩
    obtain ⟨m, at_number, same, arguments⟩ := copied id n kept found
    have earlier : ∀ a ∈ n.readNodes, w (number a) = v a := by
      intro a read
      have feeds : g.Feeds a id := ⟨n, found, GraphNode.mem_readNodes.1 read⟩
      exact ih (rank a) (order ▸ climbs a id feeds) (closed a id kept feeds)
        (inRange.feeder_lt feeds) rfl
    rw [hv id n found, hw _ m at_number, Interpretation.results, Interpretation.results, same,
      arguments v w earlier]

end Graph

end

end MaterialShader
