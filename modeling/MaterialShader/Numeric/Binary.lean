/-!
Binary floating-point formats: what a code word stands for, and the code word nearest to a fraction.

A format has `fractionBits` bits for the fraction and `exponentBits` bits for the exponent, under
one sign bit. Codes are natural numbers. All arithmetic on them is exact arithmetic on the numbers
they stand for, followed by one rounding. Numbers of 32 bits are the components
of literal values, those of 64 bits the numbers of JSON texts that are not integers.
-/

namespace MaterialShader.Numeric

-- Powers are those of the core library, also where the ones of monoids are in scope.
attribute [local instance (high)] instPowNat

/-- The natural number nearest to `num / den`; a tie goes to the even one. -/
def roundDiv (num den : Nat) : Nat :=
  let q := num / den
  let r := num % den
  if 2 * r < den then q
  else if den < 2 * r then q + 1
  else if q % 2 = 0 then q else q + 1

def roundScaled (num den : Nat) (e : Int) : Nat :=
  match e with
  | .ofNat k => roundDiv (num * 2 ^ k) den
  | .negSucc k => roundDiv num (den * 2 ^ (k + 1))

/-- The exponent `k` with `2 ^ k ≤ num / den < 2 ^ (k + 1)`, for positive `num` and `den`. -/
def binaryExponent (num den : Nat) : Int :=
  let guess : Int := (Nat.log2 num : Int) - (Nat.log2 den : Int)
  let reached : Bool :=
    match guess with
    | .ofNat k => den * 2 ^ k ≤ num
    | .negSucc k => den ≤ num * 2 ^ (k + 1)
  if reached then guess else guess - 1

def digits (n : Nat) : List Char := Nat.toDigits 10 n

/-- The exponent `k` with `10 ^ k ≤ num / den < 10 ^ (k + 1)`, for positive `num` and `den`. -/
def decimalExponent (num den : Nat) : Int :=
  if den ≤ num then ((digits (num / den)).length : Int) - 1
  else
    let places := (digits (den / num)).length
    if num * 10 ^ (places - 1) = den then 1 - (places : Int) else -(places : Int)

structure Format where
  fractionBits : Nat
  exponentBits : Nat
  deriving DecidableEq, Repr

/-- What a code word stands for. A finite word is `± significand * 2 ^ exponent`. -/
inductive Reading where
  | finite (negative : Bool) (significand : Nat) (exponent : Int)
  | infinite (negative : Bool)
  | notANumber
  deriving DecidableEq, Repr

namespace Format

def bias (f : Format) : Nat := 2 ^ (f.exponentBits - 1) - 1

/-- Exponent of the last place of the numbers nearest to zero. -/
def minExponent (f : Format) : Int := 1 - (f.bias : Int) - (f.fractionBits : Int)

def infinityCode (f : Format) : Nat := (2 ^ f.exponentBits - 1) * 2 ^ f.fractionBits

def signCode (f : Format) : Nat := 2 ^ (f.exponentBits + f.fractionBits)

def nanCode (f : Format) : Nat := f.infinityCode + 2 ^ (f.fractionBits - 1)

def read (f : Format) (code : Nat) : Reading :=
  let negative := f.signCode ≤ code
  let field := code / 2 ^ f.fractionBits % 2 ^ f.exponentBits
  let fraction := code % 2 ^ f.fractionBits
  if field = 2 ^ f.exponentBits - 1 then
    if fraction = 0 then .infinite negative else .notANumber
  else if field = 0 then .finite negative fraction f.minExponent
  else .finite negative (2 ^ f.fractionBits + fraction) (f.minExponent + (field - 1 : Nat))

/-- The code of the nonnegative number nearest to `num / den`, a tie going to the even code. -/
def magnitude (f : Format) (num den : Nat) : Nat :=
  if num = 0 then 0
  else
    let e := max f.minExponent (binaryExponent num den - (f.fractionBits : Int))
    min f.infinityCode
      ((e - f.minExponent).toNat * 2 ^ f.fractionBits + roundScaled num den (-e))

def round (f : Format) (negative : Bool) (num den : Nat) : Nat :=
  (if negative then f.signCode else 0) + f.magnitude num den

def roundDyadic (f : Format) (negative : Bool) (significand : Nat) (exponent : Int) : Nat :=
  match exponent with
  | .ofNat k => f.round negative (significand * 2 ^ k) 1
  | .negSucc k => f.round negative significand (2 ^ (k + 1))

def ofReading (f : Format) : Reading → Nat
  | .finite negative m e => f.roundDyadic negative m e
  | .infinite negative => (if negative then f.signCode else 0) + f.infinityCode
  | .notANumber => f.nanCode

end Format

namespace Reading

def isFinite : Reading → Bool
  | .finite .. => true
  | _ => false

def negate : Reading → Reading
  | .finite s m e => .finite (!s) m e
  | .infinite s => .infinite (!s)
  | .notANumber => .notANumber

/-- A signed significand at the common exponent of two finite words. -/
def aligned (negative : Bool) (m : Nat) (e low : Int) : Int :=
  let scaled : Int := m * 2 ^ (e - low).toNat
  if negative then -scaled else scaled

/-- Order of two finite numbers, infinities at the ends; nothing is below or above no number. -/
def lt : Reading → Reading → Bool
  | .finite s m e, .finite t n g => aligned s m e (min e g) < aligned t n g (min e g)
  | .finite .., .infinite t => !t
  | .infinite s, .finite .. => s
  | .infinite s, .infinite t => s && !t
  | _, _ => false

def eq : Reading → Reading → Bool
  | .finite s m e, .finite t n g => aligned s m e (min e g) = aligned t n g (min e g)
  | .infinite s, .infinite t => s == t
  | _, _ => false

def le (a b : Reading) : Bool := lt a b || eq a b

/-- The sum, exact; opposite infinities have none. The zero of a sum is negative only if both
terms are. -/
def add : Reading → Reading → Reading
  | .finite s m e, .finite t n g =>
    let low := min e g
    let total := aligned s m e low + aligned t n g low
    if total = 0 then .finite (s && t) 0 low
    else .finite (total < 0) total.natAbs low
  | .infinite s, .infinite t => if s = t then .infinite s else .notANumber
  | .infinite s, .finite .. => .infinite s
  | .finite .., .infinite t => .infinite t
  | _, _ => .notANumber

/-- The product, exact; zero times an infinity has none. -/
def mul : Reading → Reading → Reading
  | .finite s m e, .finite t n g => .finite (s != t) (m * n) (e + g)
  | .infinite s, .infinite t => .infinite (s != t)
  | .infinite s, .finite t n _ => if n = 0 then .notANumber else .infinite (s != t)
  | .finite s m _, .infinite t => if m = 0 then .notANumber else .infinite (s != t)
  | _, _ => .notANumber

end Reading

namespace Format

def quotient (f : Format) : Reading → Reading → Nat
  | .finite s m e, .finite t n g =>
    if n = 0 then
      if m = 0 then f.nanCode else f.ofReading (.infinite (s != t))
    else
      match e - g with
      | .ofNat k => f.round (s != t) (m * 2 ^ k) n
      | .negSucc k => f.round (s != t) m (n * 2 ^ (k + 1))
  | .infinite s, .finite t _ _ => f.ofReading (.infinite (s != t))
  | .finite s _ _, .infinite t => f.ofReading (.finite (s != t) 0 0)
  | _, _ => f.nanCode

end Format

def singleFormat : Format := ⟨23, 8⟩

structure Single where
  bits : UInt32
  deriving DecidableEq, Repr

namespace Single

def ofCode (code : Nat) : Single := ⟨code.toUInt32⟩

def reading (x : Single) : Reading := singleFormat.read x.bits.toNat

def ofReading (r : Reading) : Single := ofCode (singleFormat.ofReading r)

def zero : Single := ⟨0⟩

def one : Single := ⟨0x3F800000⟩

instance : Inhabited Single := ⟨zero⟩

def ofInt (n : Int) : Single := ofCode (singleFormat.round (n < 0) n.natAbs 1)

def isFinite (x : Single) : Bool := x.reading.isFinite

def lt (x y : Single) : Bool := x.reading.lt y.reading

def le (x y : Single) : Bool := x.reading.le y.reading

/-- Equality of numbers: the two zeros are equal, and no number is not. -/
def eq (x y : Single) : Bool := x.reading.eq y.reading

def add (x y : Single) : Single := ofReading (x.reading.add y.reading)

def sub (x y : Single) : Single := ofReading (x.reading.add y.reading.negate)

def mul (x y : Single) : Single := ofReading (x.reading.mul y.reading)

def div (x y : Single) : Single := ofCode (singleFormat.quotient x.reading y.reading)

/-- The lesser of two numbers, the second of equal ones; a word that is no number gives way to the
other. -/
def min (x y : Single) : Single :=
  if y.le x || (x.reading == .notANumber) then y else x

def max (x y : Single) : Single :=
  if x.le y || (x.reading == .notANumber) then y else x

/-- The whole number below, held between zero and `top`; zero for a word that is no number. -/
def floorWithin (top : Nat) (x : Single) : Nat :=
  match x.reading with
  | .finite true _ _ => 0
  | .finite false m (.ofNat k) => Nat.min (m * 2 ^ k) top
  | .finite false m (.negSucc k) => Nat.min (m / 2 ^ (k + 1)) top
  | .infinite negative => if negative then 0 else top
  | .notANumber => 0

end Single

def doubleFormat : Format := ⟨52, 11⟩

structure Double where
  bits : UInt64
  deriving DecidableEq, Repr

namespace Double

def ofCode (code : Nat) : Double := ⟨code.toUInt64⟩

def reading (x : Double) : Reading := doubleFormat.read x.bits.toNat

instance : Inhabited Double := ⟨⟨0⟩⟩

def isFinite (x : Double) : Bool := x.reading.isFinite

def ofInt (n : Int) : Double := ofCode (doubleFormat.round (n < 0) n.natAbs 1)

/-- Past these decimal exponents every number is too large, or rounds to zero. -/
def decimalRange : Int := 400

/-- The number nearest to `± coefficient * 10 ^ exponent`; infinite if that is out of range. -/
def ofDecimal (negative : Bool) (coefficient : Nat) (exponent : Int) : Double :=
  let size : Int := (digits coefficient).length
  if coefficient = 0 || exponent + size < -decimalRange then
    ofCode (doubleFormat.round negative 0 1)
  else if decimalRange < exponent + size then
    ofCode (doubleFormat.ofReading (.infinite negative))
  else
    match exponent with
    | .ofNat k => ofCode (doubleFormat.round negative (coefficient * 10 ^ k) 1)
    | .negSucc k => ofCode (doubleFormat.round negative coefficient (10 ^ (k + 1)))

def toSingle (x : Double) : Single := Single.ofReading x.reading

def isNonzero (x : Double) : Bool :=
  match x.reading with
  | .finite _ m _ => m != 0
  | _ => true

end Double

def Reading.toInt? : Reading → Option Int
  | .finite s m (.ofNat k) => some (if s then -(m * 2 ^ k : Nat) else (m * 2 ^ k : Nat))
  | .finite s m (.negSucc k) =>
    if m % 2 ^ (k + 1) = 0 then
      some (if s then -(m / 2 ^ (k + 1) : Nat) else (m / 2 ^ (k + 1) : Nat))
    else none
  | _ => none

def int32Min : Int := -2147483648

def int32Max : Int := 2147483647

def clampInt32 (n : Int) : Int := max int32Min (min int32Max n)

end MaterialShader.Numeric
