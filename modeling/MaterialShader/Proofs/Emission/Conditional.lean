import MaterialShader.Proofs.Emission.Choice
import MaterialShader.Proofs.Emission.Scoped

/-!
What a conditional selects.
-/

namespace MaterialShader

open List Result
open Numeric

namespace ConditionalOperator

def category : ConditionalOperator → String
  | .switch => "switch"
  | .compare => "compare"
  | .ifGreater => "ifgreater"

def selectors : ConditionalOperator → List String
  | .switch => ["which"]
  | .compare => ["intest", "cutoff"]
  | .ifGreater => ["value1", "value2"]

/-- The branch for the numbers of the selectors, counted from zero. -/
def select (op : ConditionalOperator) (branches : Nat) (numbers : List ℚ) : Nat :=
  match op, numbers with
  | .switch, [q] => (max 0 (min ⌊q⌋ (branches - 1 : Nat))).toNat
  | .compare, [p, q] => if p ≤ q then 0 else 1
  | .ifGreater, [p, q] => if q < p then 0 else 1
  | _, _ => 0

def comparisons (op : ConditionalOperator) (branches : Nat) (texts : List String) : List String :=
  match op, texts with
  | .switch, [which] => (List.range (branches - 1)).map fun k => s!"{which} < {k + 1}.0"
  | .compare, [intest, cutoff] => [s!"{intest} <= {cutoff}"]
  | .ifGreater, [value1, value2] => [s!"{value1} > {value2}"]
  | _, _ => []

theorem select_switch (branches : Nat) (q : ℚ) :
    (∀ i < select .switch branches [q], ¬ q < (i + 1 : Nat)) ∧
      select .switch branches [q] ≤ branches - 1 ∧
      (select .switch branches [q] < branches - 1 →
        q < (select .switch branches [q] + 1 : Nat)) := by
  rw [select]
  refine ⟨fun i less => ?_, by omega, fun less => ?_⟩
  · have reached : ((i + 1 : Nat) : Int) ≤ ⌊q⌋ := by omega
    rw [not_lt]
    exact_mod_cast Int.le_floor.1 reached
  · have below : ⌊q⌋ < (((max 0 (min ⌊q⌋ (branches - 1 : Nat))).toNat + 1 : Nat) : Int) := by omega
    exact_mod_cast Int.floor_lt.1 below

end ConditionalOperator

namespace Run

def SelectorValues (run : Run) (id : NodeId) (names : String → Option ℚ)
    (op : ConditionalOperator) (numbers : List ℚ) : Prop :=
  List.Forall₂ (fun name q => ∃ text, run.inputText id name = .ok text ∧
    operand? names text = some q) op.selectors numbers

variable {run : Run} {id : NodeId} {names : String → Option ℚ} {op : ConditionalOperator}
  {n : GraphNode} {conditions : List String} {k : Nat} {code : List Code} {out : String}
  {branches : List (List Placed)}

/-- Of the conditions in order, the selected one is the first that is true. -/
structure Singles (names : String → Option ℚ) (conditions : List String) (k : Nat) : Prop where
  bound : k ≤ conditions.length
  before : ∀ i < k, ∀ c, conditions[i]? = some c → condition? names c = some false
  here : ∀ c, conditions[k]? = some c → condition? names c = some true

theorem operand?_whole (names : String → Option ℚ) (k : Nat) :
    operand? names (toString k ++ ".0") = some (k : ℚ) := by
  have letters : (toString k ++ ".0").toList = digits k ++ '.' :: ['0'] := by
    simp [digits, Nat.repr]
  have point : Pointed (digits k) ['0'] :=
    ⟨digits_isDigit k, Nat.toDigits_ne_nil, forall_mem_singleton.2 rfl, by simp⟩
  refine operand?_of_decimal ?_
  rw [letters, point.decimal?, Nat.ofDigitChars_append, digits, Nat.ofDigitChars_ten_toDigits]
  simp [Nat.ofDigitChars]

theorem singles_pair {c : String} {truth : Bool} (value : condition? names c = some truth) :
    Singles names [c] (if truth then 0 else 1) := by
  cases truth with
  | true =>
    refine ⟨by simp, fun i less => absurd less (Nat.not_lt_zero i), ?_⟩
    rintro _ ⟨⟩
    exact value
  | false =>
    refine ⟨by simp, fun i less d found => ?_, fun d found => by simp at found⟩
    cases Nat.lt_one_iff.1 less
    cases found
    exact value

theorem singles_switch {which : String} {q : ℚ} (number : operand? names which = some q)
    (branches : Nat) :
    Singles names ((List.range (branches - 1)).map fun k => s!"{which} < {k + 1}.0")
      (ConditionalOperator.select .switch branches [q]) := by
  have truth : ∀ k : Nat, condition? names s!"{which} < {k + 1}.0" =
      some (decide (q < ((k + 1 : Nat) : ℚ))) := by
    intro k
    have parts : s!"{which} < {k + 1}.0" =
        which ++ Comparison.between .less ++ (toString (k + 1) ++ ".0") := String.append_assoc ..
    rw [parts]
    exact condition?_eq .less number (operand?_whole names (k + 1))
  have at_index : ∀ {i : Nat} {c : String},
      ((List.range (branches - 1)).map fun k => s!"{which} < {k + 1}.0")[i]? = some c →
        i < branches - 1 ∧ condition? names c = some (decide (q < ((i + 1 : Nat) : ℚ))) := by
    intro i c found
    rw [List.getElem?_map, Option.map_eq_some_iff] at found
    obtain ⟨k, at_i, rfl⟩ := found
    obtain ⟨inside, rfl⟩ := List.getElem?_eq_some_iff.1 at_i
    rw [length_range] at inside
    exact ⟨inside, by rw [getElem_range, truth]⟩
  obtain ⟨before, bound, here⟩ := ConditionalOperator.select_switch branches q
  refine ⟨by simpa using bound, fun i less c found => ?_, fun c found => ?_⟩
  · rw [(at_index found).2, decide_eq_false (before i less)]
  · obtain ⟨inside, value⟩ := at_index found
    rw [value, decide_eq_true (here inside)]

def SelectorTexts (run : Run) (id : NodeId) (op : ConditionalOperator) (texts : List String) :
    Prop :=
  List.Forall₂ (fun name text => run.inputText id name = .ok text) op.selectors texts

theorem conditions_iff (found : run.graph.nodes[id]? = some n) :
    run.conditions id op = .ok conditions ↔
      ∃ texts, run.SelectorTexts id op texts ∧
        op.comparisons (op.branchCount n) texts = conditions := by
  have node : run.node id = .ok n := orFail_ok.2 found
  cases op <;>
    simp [Run.conditions, bind_ok, pure_ok, node, SelectorTexts, and_assoc,
      ConditionalOperator.selectors, ConditionalOperator.comparisons, forall₂_cons_left_iff,
      -bind_pure_comp]

theorem conditions_singles (found : run.graph.nodes[id]? = some n)
    (ok : run.conditions id op = .ok conditions) {numbers : List ℚ}
    (values : run.SelectorValues id names op numbers) :
    Singles names conditions (op.select (op.branchCount n) numbers) := by
  obtain ⟨texts, given, rfl⟩ := (conditions_iff found).1 ok
  cases op with
  | switch =>
    match texts, given, numbers, values with
    | [which], .cons text .nil, [q], .cons ⟨_, read, number⟩ .nil =>
      cases text.symm.trans read
      exact singles_switch number _
  | compare =>
    match texts, given, numbers, values with
    | [x, y], .cons first (.cons second .nil), [p, q],
        .cons ⟨_, read, left⟩ (.cons ⟨_, read', right⟩ .nil) =>
      cases first.symm.trans read
      cases second.symm.trans read'
      have told := singles_pair (condition?_eq .atMost left right)
      simp only [Comparison.holds, decide_eq_true_eq] at told
      exact told
  | ifGreater =>
    match texts, given, numbers, values with
    | [x, y], .cons first (.cons second .nil), [p, q],
        .cons ⟨_, read, left⟩ (.cons ⟨_, read', right⟩ .nil) =>
      cases first.symm.trans read
      cases second.symm.trans read'
      have told := singles_pair (condition?_eq .greater left right)
      simp only [Comparison.holds, decide_eq_true_eq] at told
      exact told

def Assigns (run : Run) (id : NodeId) (out : String) (k : Nat) (body : List Code) : Prop :=
  ∃ inner value, run.branchText id k = .ok value ∧ Code.Nested inner ∧
    body = inner ++ [.statement s!"{out} = {value}"]

def BranchBodies (run : Run) (id : NodeId) (out : String) (k : Nat) (bodies : List (List Code)) :
    Prop :=
  ∀ i body, bodies[i]? = some body → run.Assigns id out (k + i) body

theorem BranchBodies.cons {body : List Code} {bodies : List (List Code)}
    (first : run.Assigns id out k body) (later : run.BranchBodies id out (k + 1) bodies) :
    run.BranchBodies id out k (body :: bodies) := by
  intro i other found
  cases i with
  | zero =>
    cases found
    exact first
  | succ i =>
    have assigned := later i other found
    rwa [Nat.add_right_comm, Nat.add_assoc] at assigned

open Emission (Yields)

variable {stage : Stage}

end Run

namespace ConditionalOperator

/-- The branch for literal selectors, counted from zero. -/
def folded (op : ConditionalOperator) (branches : Nat) (literals : List Single) : Nat :=
  match op, literals with
  | .switch, [x] => Fold.switchBranch x branches
  | .compare, [x, y] => if x.le y then 0 else 1
  | .ifGreater, [x, y] => if y.lt x then 0 else 1
  | _, _ => 0

theorem chosenInput?_eq {op : ConditionalOperator} {n : GraphNode} (kind : n.category = op.category)
    {literals : List Single}
    (given : List.Forall₂ (fun name x => Fold.literalNumber? n name = some x) op.selectors
      literals) :
    Fold.chosenInput? n = some (Fold.branchName (op.folded (op.branchCount n) literals)) := by
  cases op <;> rw [category] at kind
  case switch =>
    match literals, given with
    | [x], .cons which .nil =>
      rw [Fold.chosenInput?, if_pos kind, which]
      rfl
  case compare =>
    match literals, given with
    | [x, y], .cons intest (.cons cutoff .nil) =>
      have other : n.category ≠ "switch" := by rw [kind]; decide
      rw [Fold.chosenInput?, if_neg other, if_pos kind, intest, cutoff, folded]
      dsimp only
      cases x.le y <;> rfl
  case ifGreater =>
    match literals, given with
    | [x, y], .cons value1 (.cons value2 .nil) =>
      have other : n.category ≠ "switch" := by rw [kind]; decide
      have other' : n.category ≠ "compare" := by rw [kind]; decide
      rw [Fold.chosenInput?, if_neg other, if_neg other', if_pos kind, value1, value2, folded]
      dsimp only
      cases y.lt x <;> rfl

theorem folded_switch {x : Single} {q : ℚ} (number : x.reading.rational? = some q)
    (branches : Nat) : folded .switch branches [x] = select .switch branches [q] := by
  have floor := x.floorWithin_eq (branches - 1)
  simp only [Reading.clampedFloor, number] at floor
  rw [folded, select, Fold.switchBranch, ← floor, Int.toNat_natCast]

end ConditionalOperator

namespace Run

open Emission (Yields)

def threeWay (value : Option Value) (source : Option Source) : GraphNode :=
  let float : ShaderType := ⟨"float", .float, .none, 1, true, .float .zero⟩
  ⟨"pick", "pick", "switch", "switch_float", .empty,
    [⟨"in1", float, some (.float .zero), none, false, "pick.in1"⟩,
     ⟨"in2", float, some (.float .one), none, false, "pick.in2"⟩,
     ⟨"in3", float, some (.float (.ofInt 2)), none, false, "pick.in3"⟩,
     ⟨"which", float, value, source, false, "pick.which"⟩],
    [⟨"out", float, "pick_out"⟩]⟩

def ofConditional (target : Target) (op : ConditionalOperator) (n : GraphNode) : Run where
  target := target
  dialect := .ofTarget target
  types := .standard
  library := .empty
  options := {}
  lights := []
  graph := ⟨[n], [], [], [0], .empty⟩
  names := ⟨["which"], [["pick_out"]], []⟩
  scopes := [.everywhere]
  realizations := [.conditional op]

end Run

end MaterialShader
