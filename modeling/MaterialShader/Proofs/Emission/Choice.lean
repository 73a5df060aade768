import MaterialShader.Proofs.Numeric.Printed
import MaterialShader.Stage

/-!
Choices between values by conditions in order.
-/

namespace MaterialShader

open Numeric

inductive Comparison where
  | less
  | atMost
  | greater
  deriving DecidableEq, Repr

namespace Comparison

def all : List Comparison := [.less, .atMost, .greater]

def between : Comparison → String
  | .less => " < "
  | .atMost => " <= "
  | .greater => " > "

def holds : Comparison → ℚ → ℚ → Bool
  | .less, p, q => p < q
  | .atMost, p, q => p ≤ q
  | .greater, p, q => q < p

theorem after?_between (c d : Comparison) (rest : List Char) :
    Text.after? d.between.toList (c.between.toList ++ rest) = if d = c then some rest else none := by
  cases c <;> cases d <;> simp [between, Text.after?]

end Comparison

def operand? (names : String → Option ℚ) (text : String) : Option ℚ :=
  if ' ' ∈ text.toList then none
  else
    match decimal? text.toList with
    | some q => some q
    | none => names text

def condition? (names : String → Option ℚ) (text : String) : Option Bool :=
  let left := text.toList.takeWhile (· != ' ')
  let behind := text.toList.dropWhile (· != ' ')
  Comparison.all.findSome? fun c => do
    let right ← Text.after? c.between.toList behind
    let p ← operand? names (String.ofList left)
    let q ← operand? names (String.ofList right)
    return c.holds p q

section

variable {names : String → Option ℚ} {left right text : String} {p q : ℚ}

theorem operand?_word (number : operand? names text = some q) : ∀ c ∈ text.toList, c != ' ' := by
  intro c member
  unfold operand? at number
  split_ifs at number with blank
  simp only [bne_iff_ne]
  rintro rfl
  exact blank member

theorem operand?_of_decimal (number : decimal? text.toList = some q) :
    operand? names text = some q := by
  rw [operand?, if_neg (blank_not_mem_decimal number), number]

theorem condition?_eq (c : Comparison) (first : operand? names left = some p)
    (second : operand? names right = some q) :
    condition? names (left ++ c.between ++ right) = some (c.holds p q) := by
  have word := operand?_word first
  have split : (left ++ c.between ++ right).toList =
      left.toList ++ (c.between.toList ++ right.toList) := by
    simp
  have taken : (left ++ c.between ++ right).toList.takeWhile (· != ' ') = left.toList := by
    rw [split, List.takeWhile_append_of_pos word]
    cases c <;> simp [Comparison.between]
  have dropped : (left ++ c.between ++ right).toList.dropWhile (· != ' ') =
      c.between.toList ++ right.toList := by
    rw [split, List.dropWhile_append_of_pos word]
    cases c <;> simp [Comparison.between]
  unfold condition?
  simp only [taken, dropped, Comparison.after?_between, String.ofList_toList, first]
  cases c <;> simp [Comparison.all, second]

end

/-- The first value whose condition is true, else the last one. -/
inductive Choice (α : Type) where
  | otherwise (value : α)
  | given (condition : String) (value : α) (rest : Choice α)

namespace Choice

variable {α : Type} {conditions : List String} {tree : Choice α}

def pick (names : String → Option ℚ) : Choice α → Option α
  | .otherwise value => some value
  | .given c value rest =>
    match condition? names c with
    | some true => some value
    | some false => rest.pick names
    | none => none

def expression : Choice String → String
  | .otherwise value => value
  | .given c value rest => s!"({c}) ? {value} : {rest.expression}"

def alternatives : Choice (List Code) → List Code
  | .otherwise body => Code.branch "else" body
  | .given c body rest => Code.branch s!"else if ({c})" body ++ rest.alternatives

def statements : Choice (List Code) → List Code
  | .otherwise body => body
  | .given c body rest => Code.branch s!"if ({c})" body ++ rest.alternatives

end Choice

end MaterialShader
