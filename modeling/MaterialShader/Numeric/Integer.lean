import MaterialShader.Failure

/-!
Integers as people write them: an optional plus sign and decimal digits.
-/

namespace MaterialShader.Numeric

def decimalDigit? (c : Char) : Option Nat :=
  if '0' ≤ c ∧ c ≤ '9' then some (c.toNat - 48) else none

/-- Read digits from left to right onto `value`; the first that is no digit, or makes the number
reach the bound, is the fault. -/
def readDigits (bound : Nat) : Nat → List Char → Result Nat
  | value, [] => .ok value
  | value, c :: rest =>
    match decimalDigit? c with
    | none => fail .invalidDigit
    | some d =>
      if value * 10 + d < bound then readDigits bound (value * 10 + d) rest
      else fail .integerTooLarge

def parseNat (bound : Nat) (text : String) : Result Nat :=
  match text.toList with
  | [] => fail .emptyInteger
  | [c] => readDigits bound 0 [c]
  | '+' :: rest => readDigits bound 0 rest
  | cs => readDigits bound 0 cs

end MaterialShader.Numeric
