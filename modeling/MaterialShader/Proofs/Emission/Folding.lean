import MaterialShader.Proofs.Dialect.Literal
import MaterialShader.Proofs.Emission.Conditional
import MaterialShader.Proofs.Value.Finite

/-!
Folding a conditional against the code that it replaces.
-/

namespace MaterialShader

open List
open Numeric

namespace Numeric.Single

variable {x y : Single}

theorem printed_of_infinite {negative : Bool} (word : x.reading = .infinite negative) :
    x.printed = 0 := by
  rw [printed, word]

inductive Parted (x y : Single) : Prop where
  | alike {p q : ℚ} : x.reading.rational? = some p → y.reading.rational? = some q → q < p →
      x.printed = y.printed → Parted x y
  | firstAbove : x.reading = .infinite false → y.reading ≠ .infinite false → 0 ≤ y.printed →
      Parted x y
  | firstBelow : x.reading = .infinite true → y.printed < 0 → Parted x y
  | secondAbove : y.reading = .infinite false → 0 < x.printed → Parted x y
  | secondBelow : y.reading = .infinite true → x.reading ≠ .infinite true → x.printed ≤ 0 →
      Parted x y

theorem le_iff_not_lt (first : x.reading ≠ .notANumber) (second : y.reading ≠ .notANumber) :
    x.le y ↔ ¬ y.lt x := by
  unfold le lt
  cases left : x.reading with
  | notANumber => exact absurd left first
  | infinite s =>
    cases right : y.reading with
    | notANumber => exact absurd right second
    | infinite t => cases s <;> cases t <;> decide
    | finite => cases s <;> simp [Reading.le, Reading.lt, Reading.eq]
  | finite s m e =>
    cases right : y.reading with
    | notANumber => exact absurd right second
    | infinite t => cases t <;> simp [Reading.le, Reading.lt, Reading.eq]
    | finite t k g =>
      rw [Reading.le_iff (Reading.rational?_finite s m e) (Reading.rational?_finite t k g),
        Reading.lt_iff (Reading.rational?_finite t k g) (Reading.rational?_finite s m e), not_lt]

theorem lt_above (word : x.reading = .infinite false) (number : y.reading ≠ .notANumber) :
    y.lt x ↔ y.reading ≠ .infinite false := by
  rw [lt, word]
  cases other : y.reading with
  | notANumber => exact absurd other number
  | infinite s => cases s <;> decide
  | finite => simp [Reading.lt]

theorem lt_below (word : x.reading = .infinite true) : y.lt x = false := by
  rw [lt, word]
  cases y.reading with
  | infinite s => cases s <;> rfl
  | finite | notANumber => rfl

theorem above_lt (word : y.reading = .infinite false) : y.lt x = false := by
  rw [lt, word]
  cases x.reading <;> rfl

theorem below_lt (word : y.reading = .infinite true) (number : x.reading ≠ .notANumber) :
    y.lt x ↔ x.reading ≠ .infinite true := by
  rw [lt, word]
  cases other : x.reading with
  | notANumber => exact absurd other number
  | infinite s => cases s <;> decide
  | finite => simp [Reading.lt]

theorem Parted.differs (first : x.reading ≠ .notANumber) (second : y.reading ≠ .notANumber)
    (parted : x.Parted y) : ¬ (y.lt x ↔ y.printed < x.printed) := by
  intro agree
  cases parted with
  | alike left right below same =>
    exact (agree.1 ((Reading.lt_iff right left).2 below)).ne' same
  | firstAbove word other above =>
    have less := agree.1 ((lt_above word second).2 other)
    rw [printed_of_infinite word] at less
    exact absurd less (not_lt.2 above)
  | firstBelow word below =>
    rw [lt_below word, printed_of_infinite word] at agree
    exact absurd (agree.2 below) Bool.false_ne_true
  | secondAbove word above =>
    rw [above_lt word, printed_of_infinite word] at agree
    exact absurd (agree.2 above) Bool.false_ne_true
  | secondBelow word other below =>
    have less := agree.1 ((below_lt word first).2 other)
    rw [printed_of_infinite word] at less
    exact absurd less (not_lt.2 below)

theorem parted_iff (first : x.reading ≠ .notANumber) (second : y.reading ≠ .notANumber) :
    x.Parted y ↔ ¬ (y.lt x ↔ y.printed < x.printed) := by
  refine ⟨Parted.differs first second, fun differ => ?_⟩
  cases left : x.reading with
  | notANumber => exact absurd left first
  | infinite s =>
    rw [printed_of_infinite left] at differ
    cases s with
    | true =>
      rw [lt_below left] at differ
      refine .firstBelow left (not_not.1 fun above => differ (iff_of_false ?_ above))
      exact Bool.false_ne_true
    | false =>
      rw [lt_above left second] at differ
      by_cases right : y.reading = .infinite false
      · rw [printed_of_infinite right] at differ
        exact absurd (iff_of_false (not_not.2 right) (lt_irrefl _)) differ
      · exact .firstAbove left right (not_lt.1 fun below => differ (iff_of_true right below))
  | finite s m e =>
    have number : x.reading.rational? = some (signedDyadic s m e) := by
      rw [left, Reading.rational?_finite]
    cases right : y.reading with
    | notANumber => exact absurd right second
    | infinite t =>
      rw [printed_of_infinite right] at differ
      cases t with
      | true =>
        have other : x.reading ≠ .infinite true := by simp [left]
        rw [below_lt right first] at differ
        exact .secondBelow right other (not_lt.1 fun above => differ (iff_of_true other above))
      | false =>
        rw [above_lt right] at differ
        refine .secondAbove right (not_not.1 fun below => differ (iff_of_false ?_ below))
        exact Bool.false_ne_true
    | finite t k g =>
      have number' : y.reading.rational? = some (signedDyadic t k g) := by
        rw [right, Reading.rational?_finite]
      rw [lt, Reading.lt_iff number' number] at differ
      -- What is printed does not fall, so numbers in order can only become equal.
      have below : signedDyadic t k g < signedDyadic s m e := by
        by_contra above
        have printed := printed_mono number number' (not_lt.1 above)
        exact differ (iff_of_false above (not_lt.2 printed))
      refine .alike number number' below (le_antisymm ?_ (printed_mono number' number below.le))
      exact not_lt.1 fun less => differ (iff_of_true below less)

theorem natCast_le_floor_printed {q : ℚ} (number : x.reading.rational? = some q) {k : Nat}
    (positive : 0 < k) : (k : Int) ≤ ⌊x.printed⌋ ↔ (k : Int) ≤ ⌊q⌋ := by
  rw [Int.le_floor, Int.le_floor, Int.cast_natCast, ← not_lt, ← not_lt,
    printed_lt_natCast number positive]

end Numeric.Single

namespace ConditionalOperator

theorem select_printed {x : Single} {q : ℚ} (number : x.reading.rational? = some q)
    (branches : Nat) : select .switch branches [x.printed] = select .switch branches [q] := by
  have up : 0 < ⌊q⌋ → ⌊q⌋ ≤ ⌊x.printed⌋ := fun positive => by
    have same := Single.natCast_le_floor_printed number (k := ⌊q⌋.toNat) (by omega)
    omega
  have down : 0 < ⌊x.printed⌋ → ⌊x.printed⌋ ≤ ⌊q⌋ := fun positive => by
    have same := Single.natCast_le_floor_printed number (k := ⌊x.printed⌋.toNat) (by omega)
    omega
  rw [select, select]
  omega

end ConditionalOperator

theorem Numeric.Single.number_ofReading {r : Reading} (number : r ≠ .notANumber) :
    (ofReading r).reading ≠ .notANumber := by
  cases r with
  | notANumber => exact absurd rfl number
  | infinite negative => cases negative <;> decide
  | finite negative m e =>
    obtain ⟨_, _, _, word⟩ | ⟨_, word⟩ := reading_ofReading negative m e <;> simp [word]

theorem Numeric.Double.number_ofInt (n : Int) : (ofInt n).reading ≠ .notANumber := by
  have small : doubleFormat.round (n < 0) n.natAbs 1 < 2 ^ 64 :=
    lt_of_lt_of_eq (doubleFormat.round_lt _ _ _) (by decide)
  rw [reading, ofInt, ofCode, Nat.toUInt64_eq, UInt64.toNat_ofNat_of_lt' small]
  obtain ⟨_, _, _, word⟩ | ⟨_, word⟩ :=
    doubleFormat.read_round (by decide) (n < 0) n.natAbs one_pos <;> simp [word]

theorem Json.number_of_settle? {room : Nat} {raw j : Json} (kept : raw.settle? room = some j)
    {x : Single} (read : j.asSingle? = some x) : x.reading ≠ .notANumber := by
  obtain ⟨d, number, rfl⟩ := Option.map_eq_some_iff.1 read
  refine Single.number_ofReading ?_
  cases j with
  | int n =>
    cases number
    exact Double.number_ofInt n
  | float d =>
    cases number
    intro word
    cases raw with
    | float x =>
      simp only [settle?] at kept
      split_ifs at kept with finite
      cases kept
      simp [Double.isFinite, word, Reading.isFinite] at finite
    | null | bool | int | str | arr | obj | unreadable => simp [settle?] at kept
  | null | bool | str | arr | obj | unreadable => cases number

structure Input.ReadsFloat (i : Input) (x : Single) : Prop where
  type : Registry.standard.find? "float" = some i.type
  source : i.source = none
  value : i.value = some (.float x)
  json : ∃ room raw j, Json.settle? room raw = some j ∧ Value.ofJson j i.type = .ok (.float x)

namespace Input.ReadsFloat

variable {i : Input} {x : Single}

theorem number (reads : i.ReadsFloat x) : x.reading ≠ .notANumber := by
  obtain ⟨room, raw, j, kept, read⟩ := reads.json
  rw [← Option.some.inj reads.type] at read
  refine Json.number_of_settle? kept ?_
  cases single : j.asSingle? with
  | none =>
    simp only [Value.ofJson, single] at read
    cases read
  | some y =>
    simp only [Value.ofJson, single] at read
    cases read
    rfl

theorem argument (reads : i.ReadsFloat x) {run : Run}
    (standard : run.dialect = .ofTarget run.target) : run.argument i = .ok x.literal := by
  rw [Run.argument, Run.sourceText.eq_def, reads.source, reads.value, ← Option.some.inj reads.type,
    standard]
  cases run.target <;> rfl

theorem literalNumber? (reads : i.ReadsFloat x) {n : GraphNode} {name : String}
    (at_name : n.input? name = some i) : Fold.literalNumber? n name = some x := by
  have literal : n.literal? name = some (.float x) := by
    rw [GraphNode.literal?, at_name]
    simp [reads.source, reads.value]
  rw [Fold.literalNumber?, literal]
  rfl

end Input.ReadsFloat

namespace ConditionalOperator

def ReadSelectors (op : ConditionalOperator) (n : GraphNode) (literals : List Single) : Prop :=
  List.Forall₂ (fun name x => ∃ i, n.input? name = some i ∧ i.ReadsFloat x) op.selectors literals

/-- Printing makes the conditions take another branch than folding. -/
def Parted (op : ConditionalOperator) (branches : Nat) (literals : List Single) : Prop :=
  match op, literals with
  | .switch, [x] => 2 ≤ branches ∧ x.reading = .infinite false
  | .compare, [x, y] | .ifGreater, [x, y] => x.Parted y
  | _, _ => False

theorem folded_switch_infinite {x : Single} {negative : Bool}
    (word : x.reading = .infinite negative) (branches : Nat) :
    folded .switch branches [x] = if negative then 0 else branches - 1 := by
  simp only [folded, Fold.switchBranch, Single.floorWithin, word]

theorem folded_switch_eq_iff {x : Single} (number : x.reading ≠ .notANumber) (branches : Nat) :
    folded .switch branches [x] = select .switch branches [x.printed] ↔
      ¬ (2 ≤ branches ∧ x.reading = .infinite false) := by
  cases word : x.reading with
  | notANumber => exact absurd word number
  | finite negative m e =>
    have rational : x.reading.rational? = some (signedDyadic negative m e) := by
      rw [word, Reading.rational?_finite]
    rw [select_printed rational, folded_switch rational]
    simp
  | infinite negative =>
    have zero : select .switch branches [x.printed] = 0 := by
      rw [Single.printed_of_infinite word, select, Int.floor_zero]
      omega
    rw [zero, folded_switch_infinite word]
    cases negative with
    | true => simp
    | false =>
      simp only [Bool.false_eq_true, if_false, and_true]
      omega

theorem firstBranch_eq_iff {a b : Prop} [Decidable a] [Decidable b] :
    ((if a then 0 else 1) = if b then 0 else 1) ↔ (a ↔ b) := by
  by_cases left : a <;> by_cases right : b <;> simp [left, right]

theorem folded_eq_printed_iff {op : ConditionalOperator} {n : GraphNode} {literals : List Single}
    (read : op.ReadSelectors n literals) (branches : Nat) :
    op.folded branches literals = op.select branches (literals.map Single.printed) ↔
      ¬ op.Parted branches literals := by
  cases op with
  | switch =>
    obtain _ | ⟨⟨i, _, reads⟩, _ | _⟩ := read
    exact folded_switch_eq_iff reads.number branches
  | compare =>
    obtain _ | ⟨⟨i, _, first⟩, _ | ⟨⟨j, _, second⟩, _ | _⟩⟩ := read
    have order := Single.le_iff_not_lt first.number second.number
    simp only [Parted, Single.parted_iff first.number second.number, not_not, folded, select,
      map_cons, map_nil, firstBranch_eq_iff, order, ← not_lt, not_iff_not]
  | ifGreater =>
    obtain _ | ⟨⟨i, _, first⟩, _ | ⟨⟨j, _, second⟩, _ | _⟩⟩ := read
    simp only [Parted, Single.parted_iff first.number second.number, not_not, folded, select,
      map_cons, map_nil, firstBranch_eq_iff]

end ConditionalOperator

namespace Run

open ConditionalOperator

variable {run : Run} {id : NodeId}

section

variable {op : ConditionalOperator} {n : GraphNode} (standard : run.dialect = .ofTarget run.target)
  (found : run.graph.nodes[id]? = some n) {literals : List Single}
  (read : op.ReadSelectors n literals)

include standard found read

theorem selectorTexts_read :
    run.SelectorTexts id op (literals.map Single.literal) := by
  refine forall₂_map_right_iff.2 (read.imp fun name x => ?_)
  rintro ⟨i, at_name, reads⟩
  have input : run.input id name = .ok i :=
    Result.bind_ok.2 ⟨n, orFail_ok.2 found, orFail_ok.2 at_name⟩
  exact Result.bind_ok.2 ⟨i, input, reads.argument standard⟩

theorem selectorValues_read (names : String → Option ℚ) :
    run.SelectorValues id names op (literals.map Single.printed) := by
  have texts := forall₂_map_right_iff.1 (selectorTexts_read standard found read)
  refine forall₂_map_right_iff.2 (texts.imp fun name x text => ?_)
  exact ⟨x.literal, text, operand?_of_decimal x.decimal?_literal⟩

end

/-- The conditions of literal selectors can be written. Folding takes the branch whose condition is
the first to be true, else the last one, unless printing parts the two. -/
theorem folding_follows_conditions {op : ConditionalOperator} {n : GraphNode}
    (standard : run.dialect = .ofTarget run.target) (found : run.graph.nodes[id]? = some n)
    (kind : n.category = op.category) {literals : List Single}
    (read : op.ReadSelectors n literals) :
    ∃ conditions folded taken, run.conditions id op = .ok conditions ∧
      (∀ names, Singles names conditions taken) ∧
      Fold.chosenInput? n = some (Fold.branchName folded) ∧
      (folded = taken ↔ ¬ op.Parted (op.branchCount n) literals) := by
  have ok := (conditions_iff found).2 ⟨_, selectorTexts_read standard found read, rfl⟩
  have numbers : List.Forall₂ (fun name x => Fold.literalNumber? n name = some x) op.selectors
      literals := read.imp fun name x ⟨i, at_name, reads⟩ => reads.literalNumber? at_name
  refine ⟨_, _, _, ok, fun names => ?_, chosenInput?_eq kind numbers,
    folded_eq_printed_iff read _⟩
  exact conditions_singles found ok (selectorValues_read standard found read names)

/-- The largest single below two selects the second of three branches. -/
theorem folding_follows_conditions_threeWay :
    ReadSelectors .switch (threeWay (some (.float ⟨0x3FFFFFFF⟩)) none) [⟨0x3FFFFFFF⟩] ∧
      ∃ conditions folded,
        (ofConditional .glsl .switch (threeWay (some (.float ⟨0x3FFFFFFF⟩)) none)).conditions 0
          .switch = .ok conditions ∧
        (∀ names, Singles names conditions folded) ∧
        Fold.chosenInput? (threeWay (some (.float ⟨0x3FFFFFFF⟩)) none) =
          some (Fold.branchName folded) ∧ Fold.branchName folded = "in2" := by
  have read : ReadSelectors .switch (threeWay (some (.float ⟨0x3FFFFFFF⟩)) none) [⟨0x3FFFFFFF⟩] :=
    .cons ⟨_, rfl, rfl, rfl, rfl, 0, .float ⟨0x3FFFFFFFE0000000⟩, _, rfl, rfl⟩ .nil
  obtain ⟨conditions, folded, taken, ok, singles, chosen, agree⟩ := @folding_follows_conditions
    (ofConditional .glsl .switch (threeWay (some (.float ⟨0x3FFFFFFF⟩)) none)) 0 .switch _ rfl rfl
    rfl _ read
  have second : Fold.chosenInput? (threeWay (some (.float ⟨0x3FFFFFFF⟩)) none) = some "in2" := by
    decide
  cases agree.2 fun parted => absurd parted.2 (by decide)
  exact ⟨read, conditions, folded, ok, singles, chosen, Option.some.inj (chosen.symm.trans second)⟩

/-- A comparison of two numbers that are printed alike. -/
def tinyCompare : GraphNode :=
  let float : ShaderType := ⟨"float", .float, .none, 1, true, .float .zero⟩
  ⟨"pick", "pick", "compare", "compare_float", .empty,
    [⟨"intest", float, some (.float ⟨0x2F5BE6FF⟩), none, false, "pick.intest"⟩,
     ⟨"cutoff", float, some (.float ⟨0x2EDBE6FF⟩), none, false, "pick.cutoff"⟩,
     ⟨"in1", float, some (.float .one), none, false, "pick.in1"⟩,
     ⟨"in2", float, some (.float (.ofInt 2)), none, false, "pick.in2"⟩],
    [⟨"out", float, "pick_out"⟩]⟩

/-- Folding takes the second branch, since `2e-10` is above `1e-10`. The condition holds. -/
theorem tinyCompare_parted :
    ReadSelectors .compare tinyCompare [⟨0x2F5BE6FF⟩, ⟨0x2EDBE6FF⟩] ∧
      Fold.chosenInput? tinyCompare = some (Fold.branchName 1) ∧
      ∀ target, (ofConditional target .compare tinyCompare).conditions 0 .compare =
          .ok ["0.0 <= 0.0"] ∧
        ∀ names, Singles names ["0.0 <= 0.0"] 0 := by
  refine ⟨.cons ⟨_, rfl, rfl, rfl, rfl, 0, .float ⟨0x3DEB7CDFD9D7BDBB⟩, _, rfl, rfl⟩
    (.cons ⟨_, rfl, rfl, rfl, rfl, 0, .float ⟨0x3DDB7CDFD9D7BDBB⟩, _, rfl, rfl⟩ .nil),
    by decide, fun target => ⟨by cases target <;> decide +kernel, fun names => ?_⟩⟩
  have zero : operand? names "0.0" = some 0 := operand?_whole names 0
  exact singles_pair (condition?_eq .atMost zero zero)

end Run

end MaterialShader
