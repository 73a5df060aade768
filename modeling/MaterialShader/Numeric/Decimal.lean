import MaterialShader.Numeric.Binary

/-!
Decimal texts of binary numbers.

`fixed` rounds the exact value to a number of places. `shortest` finds the fewest digits that read
back as the same number: for one digit, two digits and so on it tries the two neighbours of the
value on that decimal grid, and takes the nearer of those that round to the number.
-/

namespace MaterialShader.Numeric

attribute [local instance (high)] instPowNat

def dyadicFraction (significand : Nat) (exponent : Int) : Nat × Nat :=
  match exponent with
  | .ofNat k => (significand * 2 ^ k, 1)
  | .negSucc k => (significand, 2 ^ (k + 1))

def padLeft (width : Nat) (cs : List Char) : List Char :=
  List.replicate (width - cs.length) '0' ++ cs

/-- The digits of `n` with a point before the last `places` of them. -/
def pointed (places n : Nat) : List Char :=
  let cs := padLeft (places + 1) (digits n)
  cs.take (cs.length - places) ++ '.' :: cs.drop (cs.length - places)

/-- `± num / den` with a fixed number of places, a half going to the even last digit. -/
def fixed (places : Nat) (negative : Bool) (num den : Nat) : List Char :=
  let body := pointed places (roundDiv (num * 10 ^ places) den)
  if negative then '-' :: body else body

/-- Places after the point in a literal before trailing zeros are dropped. -/
def literalPlaces : Nat := 9

def dropTrailingZeros (cs : List Char) : List Char :=
  let kept := (cs.reverse.dropWhile (· == '0')).reverse
  if kept.getLast? = some '.' then kept ++ ['0'] else kept

/-- The text of a number in fixed notation: nine places, trailing zeros dropped down to one. A word
that is no finite number, and negative zero, read `0.0`. -/
def Single.literalChars (x : Single) : List Char :=
  match x.reading with
  | .finite negative m e =>
    let (num, den) := dyadicFraction m e
    let text := dropTrailingZeros (fixed literalPlaces negative num den)
    if text = ['-', '0', '.', '0'] then ['0', '.', '0'] else text
  | _ => ['0', '.', '0']

def Single.literal (x : Single) : String := String.ofList x.literalChars

structure Decimal where
  coefficient : Nat
  exponent : Int
  deriving DecidableEq, Repr

def Decimal.compareWith (d : Decimal) (num den : Nat) : Ordering :=
  match d.exponent with
  | .ofNat k => compare (d.coefficient * 10 ^ k * den) num
  | .negSucc k => compare (d.coefficient * den) (num * 10 ^ (k + 1))

/-- The fractions between which every decimal rounds to `significand * 2 ^ exponent`, and whether
the ends do too. Below a power of two the gap is half as wide. -/
def Format.interval (f : Format) (m : Nat) (e : Int) : (Nat × Nat) × (Nat × Nat) × Bool :=
  let narrow := m = 2 ^ f.fractionBits ∧ f.minExponent < e
  (dyadicFraction (4 * m - if narrow then 1 else 2) (e - 2), dyadicFraction (4 * m + 2) (e - 2),
    m % 2 = 0)

def Decimal.isWithin (d : Decimal) (interval : (Nat × Nat) × (Nat × Nat) × Bool) : Bool :=
  let (low, high, closed) := interval
  match d.compareWith low.1 low.2, d.compareWith high.1 high.2 with
  | .lt, _ => false
  | _, .gt => false
  | .eq, _ => closed
  | _, .eq => closed
  | .gt, .lt => true

/-- Distance of the two neighbours on a grid from the value: whether the lower one is nearer. A tie
goes to the even coefficient. -/
def lowerIsNearer (c : Nat) (e : Int) (num den : Nat) : Bool :=
  match Decimal.compareWith ⟨10 * c + 5, e - 1⟩ num den with
  | .gt => true
  | .lt => false
  | .eq => c % 2 = 0

def onGrid? (num den : Nat) (e : Int) (interval : (Nat × Nat) × (Nat × Nat) × Bool) :
    Option Decimal :=
  let c :=
    match e with
    | .ofNat k => num / (den * 10 ^ k)
    | .negSucc k => num * 10 ^ (k + 1) / den
  let lower : Decimal := ⟨c, e⟩
  let upper : Decimal := ⟨c + 1, e⟩
  match lower.isWithin interval && c != 0, upper.isWithin interval with
  | true, true => some (if lowerIsNearer c e num den then lower else upper)
  | true, false => some lower
  | false, true => some upper
  | false, false => none

def firstOnGrid (num den : Nat) (interval : (Nat × Nat) × (Nat × Nat) × Bool) :
    Nat → Int → Decimal
  | 0, e => ⟨0, e⟩
  | count + 1, e =>
    match onGrid? num den e interval with
    | some d => d
    | none => firstOnGrid num den interval count (e - 1)

/-- The shortest decimal that rounds to the positive number `significand * 2 ^ exponent`. -/
def Format.shortest (f : Format) (m : Nat) (e : Int) : Decimal :=
  let (num, den) := dyadicFraction m e
  firstOnGrid num den (f.interval m e) 18 (decimalExponent num den)

end MaterialShader.Numeric
