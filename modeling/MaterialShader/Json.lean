import MaterialShader.Numeric.Decimal

/-!
JSON values, their texts, and how texts are read. An object keeps its fields as written, repeated
names included; `settle?` turns a value into the form in which it is kept.

A float is written with the fewest digits that read back, with a point also if it is whole:
positional from `0.00001` up to sixteen digits before the point, otherwise with a signed exponent.
An integer literal outside the integer range is read as a float, and so is `-0`. A float too large
for 64 bits is read as infinite, and refused only where the value is kept.

A record is an object with known field names, or an array that gives the fields in order. A known
field may appear once only and unknown ones are passed over. An array may be shorter than the
record, but not longer.
-/

namespace MaterialShader

open Numeric

inductive Json where
  | null
  | bool (value : Bool)
  | int (value : Int)
  | float (value : Double)
  | str (value : String)
  | arr (items : List Json)
  | obj (fields : List (String × Json))
  /-- A string with half of a surrogate pair, or an object with such a field name. It is well formed
  and may be passed over, but it has no value. -/
  | unreadable
  deriving Repr, Inhabited

namespace Json

def intMin : Int := -9223372036854775808

def intMax : Int := 18446744073709551615

def signedMax : Int := 9223372036854775807

def asArray? : Json → Option (List Json)
  | .arr items => some items
  | _ => none

def asString? : Json → Option String
  | .str s => some s
  | _ => none

def asBool? : Json → Option Bool
  | .bool b => some b
  | _ => none

def asDouble? : Json → Option Double
  | .int n => some (Double.ofInt n)
  | .float x => some x
  | _ => none

def asSingle? (j : Json) : Option Single :=
  j.asDouble?.map Double.toSingle

/-- A number as an integer of 32 bits. An integer that counts as signed has to be in range; any
other whole number goes to the nearest integer of the range. -/
def asInt32? : Json → Option Int
  | .int n =>
    if n ≤ signedMax then
      if int32Min ≤ n ∧ n ≤ int32Max then some n else none
    else some (clampInt32 n)
  | .float x => x.reading.toInt?.map clampInt32
  | _ => none

def insertField {α : Type} (name : String) (value : α) :
    List (String × α) → List (String × α)
  | [] => [(name, value)]
  | (n, v) :: rest =>
    if name = n then (name, value) :: rest
    else if name < n then (name, value) :: (n, v) :: rest
    else (n, v) :: insertField name value rest

/-- Fields in the order of their names, the last of a repeated name. -/
def sortFields {α : Type} (fields : List (String × α)) : List (String × α) :=
  fields.foldl (fun sorted (name, value) => insertField name value sorted) []

mutual

/-- The form in which a value is kept: numbers in range, fields sorted. `room` is how many more
containers may be opened. -/
def settle? (room : Nat) : Json → Option Json
  | .null => some .null
  | .bool b => some (.bool b)
  | .int n => some (.int n)
  | .float x => if x.isFinite then some (.float x) else none
  | .str s => some (.str s)
  | .arr items => if room = 0 then none else (settleItems? (room - 1) items).map .arr
  | .obj fields =>
    if room = 0 then none else (settleFields? (room - 1) fields).map fun fs => .obj (sortFields fs)
  | .unreadable => none

def settleItems? (room : Nat) : List Json → Option (List Json)
  | [] => some []
  | j :: rest =>
    match settle? room j, settleItems? room rest with
    | some v, some vs => some (v :: vs)
    | _, _ => none

def settleFields? (room : Nat) : List (String × Json) → Option (List (String × Json))
  | [] => some []
  | (name, j) :: rest =>
    match settle? room j, settleFields? room rest with
    | some v, some vs => some ((name, v) :: vs)
    | _, _ => none

end

def maxDepth : Nat := 127

/-- The decimal exponents written positionally, from the first to below the second. -/
def positionalRange : Int × Int := (-5, 16)

/-- A positive decimal with the given digits, the first of which has weight `10 ^ e`. -/
def positional (cs : List Char) (e : Int) : List Char :=
  match e with
  | .ofNat k =>
    let whole := cs.take (k + 1)
    let part := cs.drop (k + 1)
    whole ++ List.replicate (k + 1 - whole.length) '0' ++
      '.' :: (if part.isEmpty then ['0'] else part)
  | .negSucc k => '0' :: '.' :: List.replicate k '0' ++ cs

def scientific (cs : List Char) (e : Int) : List Char :=
  let lead :=
    match cs with
    | [] => []
    | [c] => [c]
    | c :: rest => c :: '.' :: rest
  let mark :=
    match e with
    | .ofNat k => ['e', '+'] ++ digits k
    | .negSucc k => ['e', '-'] ++ digits (k + 1)
  lead ++ mark

def floatChars (x : Double) : List Char :=
  match x.reading with
  | .finite negative m e =>
    let body :=
      if m = 0 then ['0', '.', '0']
      else
        let d := doubleFormat.shortest m e
        let cs := digits d.coefficient
        let lead := d.exponent + (cs.length : Int) - 1
        let ds := (cs.reverse.dropWhile (· == '0')).reverse
        if positionalRange.1 ≤ lead ∧ lead < positionalRange.2 then positional ds lead
        else scientific ds lead
    if negative then '-' :: body else body
  | _ => ['n', 'u', 'l', 'l']

def escapedChar (c : Char) : List Char :=
  if c = '"' then ['\\', '"']
  else if c = '\\' then ['\\', '\\']
  else if c = '\n' then ['\\', 'n']
  else if c = '\r' then ['\\', 'r']
  else if c = '\t' then ['\\', 't']
  else if c.toNat = 8 then ['\\', 'b']
  else if c.toNat = 12 then ['\\', 'f']
  else if c.toNat < 32 then ['\\', 'u', '0', '0'] ++ padLeft 2 (Nat.toDigits 16 c.toNat)
  else [c]

def stringText (s : String) : String :=
  String.ofList ('"' :: s.toList.flatMap escapedChar ++ ['"'])

def intText (n : Int) : String :=
  match n with
  | .ofNat k => Nat.repr k
  | .negSucc k => "-" ++ Nat.repr (k + 1)

mutual

def compact : Json → String
  | .null | .unreadable => "null"
  | .bool b => if b then "true" else "false"
  | .int n => intText n
  | .float x => String.ofList (floatChars x)
  | .str s => stringText s
  | .arr items => "[" ++ String.intercalate "," (compactItems items) ++ "]"
  | .obj fields => "\x7b" ++ String.intercalate "," (compactFields fields) ++ "\x7d"

def compactItems : List Json → List String
  | [] => []
  | j :: rest => compact j :: compactItems rest

def compactFields : List (String × Json) → List String
  | [] => []
  | (name, j) :: rest => (stringText name ++ ":" ++ compact j) :: compactFields rest

end

def indentation (level : Nat) : String :=
  String.ofList (List.replicate (2 * level) ' ')

def bracketed (opening closing : String) (level : Nat) (items : List String) : String :=
  if items.isEmpty then opening ++ closing
  else
    opening ++ "\n" ++ String.intercalate ",\n" (items.map (indentation (level + 1) ++ ·)) ++
      "\n" ++ indentation level ++ closing

mutual

def prettyAt (level : Nat) : Json → String
  | .arr items => bracketed "[" "]" level (prettyItems (level + 1) items)
  | .obj fields => bracketed "\x7b" "\x7d" level (prettyFields (level + 1) fields)
  | .null | .unreadable => "null"
  | .bool b => if b then "true" else "false"
  | .int n => intText n
  | .float x => String.ofList (floatChars x)
  | .str s => stringText s

def prettyItems (level : Nat) : List Json → List String
  | [] => []
  | j :: rest => prettyAt level j :: prettyItems level rest

def prettyFields (level : Nat) : List (String × Json) → List String
  | [] => []
  | (name, j) :: rest =>
    (stringText name ++ ": " ++ prettyAt level j) :: prettyFields level rest

end

def pretty (j : Json) : String := prettyAt 0 j

def isSpace (c : Char) : Bool :=
  c == ' ' || c == '\n' || c == '\t' || c == '\r'

def skipSpace (cs : List Char) : List Char := cs.dropWhile isSpace

def digitValue (c : Char) : Nat := c.toNat - 48

def digitsValue (cs : List Char) : Nat :=
  cs.foldl (fun n c => 10 * n + digitValue c) 0

def hexValue? (c : Char) : Option Nat :=
  if c.isDigit then some (c.toNat - 48)
  else if 'a' ≤ c && c ≤ 'f' then some (c.toNat - 87)
  else if 'A' ≤ c && c ≤ 'F' then some (c.toNat - 55)
  else none

def readHex? : List Char → Option (Nat × List Char)
  | a :: b :: c :: d :: rest =>
    match hexValue? a, hexValue? b, hexValue? c, hexValue? d with
    | some w, some x, some y, some z => some (((w * 16 + x) * 16 + y) * 16 + z, rest)
    | _, _, _, _ => none
  | _ => none

/-- The character after `\u`: one unit, or two units of a surrogate pair. Half of a pair is no
character. -/
def readUnit? (cs : List Char) : Option (Option Char × List Char) :=
  match readHex? cs with
  | none => none
  | some (high, rest) =>
    if 0xD800 ≤ high ∧ high < 0xDC00 then
      match rest with
      | '\\' :: 'u' :: more =>
        match readHex? more with
        | some (low, rest') =>
          if 0xDC00 ≤ low ∧ low < 0xE000 then
            some (some (Char.ofNat (0x10000 + (high - 0xD800) * 0x400 + (low - 0xDC00))), rest')
          else some (none, rest)
        | none => none
      | _ => some (none, rest)
    else if 0xDC00 ≤ high ∧ high < 0xE000 then some (none, rest)
    else some (some (Char.ofNat high), rest)

def plainEscape? (c : Char) : Option Char :=
  if c = '"' then some '"'
  else if c = '\\' then some '\\'
  else if c = '/' then some '/'
  else if c = 'b' then some (Char.ofNat 8)
  else if c = 'f' then some (Char.ofNat 12)
  else if c = 'n' then some '\n'
  else if c = 'r' then some '\r'
  else if c = 't' then some '\t'
  else none

/-- The rest of a string after its opening quote; `done` holds what is read in reverse, unless
something was no character. -/
def readString? :
    Nat → Option (List Char) → List Char → Option (Option String × List Char)
  | 0, _, _ => none
  | _ + 1, _, [] => none
  | fuel + 1, done, c :: cs =>
    if c = '"' then some (done.map fun read => String.ofList read.reverse, cs)
    else if c = '\\' then
      match cs with
      | 'u' :: rest =>
        match readUnit? rest with
        | some (some u, rest') => readString? fuel (done.map (u :: ·)) rest'
        | some (none, rest') => readString? fuel none rest'
        | none => none
      | e :: rest =>
        match plainEscape? e with
        | some u => readString? fuel (done.map (u :: ·)) rest
        | none => none
      | [] => none
    else if c.toNat < 32 then none
    else readString? fuel (done.map (c :: ·)) cs

def ofString? : Option String → Json
  | some s => .str s
  | none => .unreadable

def ofFields? (fields : List (Option String × Json)) : Json :=
  match fields.mapM fun (name, value) => name.map fun n => (n, value) with
  | some named => .obj named
  | none => .unreadable

def integer (negative : Bool) (n : Nat) : Json :=
  let signed : Int := if negative then -(n : Int) else n
  if (negative && n == 0) || signed < intMin || intMax < signed then
    .float (Double.ofDecimal negative n 0)
  else .int signed

def readExponent? (cs : List Char) : Option (Int × Bool × List Char) :=
  let signed (negative : Bool) (rest : List Char) : Option (Int × Bool × List Char) :=
    let ds := rest.takeWhile Char.isDigit
    if ds.isEmpty then none
    else
      let n : Int := digitsValue ds
      some (if negative then -n else n, true, rest.dropWhile Char.isDigit)
  match cs with
  | 'e' :: '+' :: rest => signed false rest
  | 'e' :: '-' :: rest => signed true rest
  | 'e' :: rest => signed false rest
  | 'E' :: '+' :: rest => signed false rest
  | 'E' :: '-' :: rest => signed true rest
  | 'E' :: rest => signed false rest
  | _ => some (0, false, cs)

/-- A number without its sign. A leading zero stands alone. -/
def readNumber? (negative : Bool) (cs : List Char) : Option (Json × List Char) :=
  let whole :=
    match cs with
    | '0' :: _ => ['0']
    | _ => cs.takeWhile Char.isDigit
  let rest := cs.drop whole.length
  if whole.isEmpty then none
  else if (rest.head?.map Char.isDigit).getD false then none
  else
    let fraction? : Option (List Char × List Char × Bool) :=
      match rest with
      | '.' :: more =>
        let ds := more.takeWhile Char.isDigit
        if ds.isEmpty then none else some (ds, more.dropWhile Char.isDigit, true)
      | _ => some ([], rest, false)
    match fraction? with
    | none => none
    | some (fraction, rest', pointed) =>
      match readExponent? rest' with
      | none => none
      | some (e, raised, rest'') =>
        if pointed || raised then
          let coefficient := digitsValue (whole ++ fraction)
          let exponent := e - (fraction.length : Int)
          some (.float (Double.ofDecimal negative coefficient exponent), rest'')
        else some (integer negative (digitsValue whole), rest'')

mutual

def readValue? : Nat → List Char → Option (Json × List Char)
  | 0, _ => none
  | fuel + 1, cs =>
    match skipSpace cs with
    | 'n' :: 'u' :: 'l' :: 'l' :: rest => some (.null, rest)
    | 't' :: 'r' :: 'u' :: 'e' :: rest => some (.bool true, rest)
    | 'f' :: 'a' :: 'l' :: 's' :: 'e' :: rest => some (.bool false, rest)
    | '"' :: rest =>
      (readString? (rest.length + 1) (some []) rest).map fun (s, r) => (ofString? s, r)
    | '[' :: rest =>
      match skipSpace rest with
      | ']' :: rest' => some (.arr [], rest')
      | _ => (readItems? fuel rest).map fun (items, r) => (.arr items, r)
    | '\x7b' :: rest =>
      match skipSpace rest with
      | '\x7d' :: rest' => some (.obj [], rest')
      | _ => (readFields? fuel rest).map fun (fields, r) => (ofFields? fields, r)
    | '-' :: rest => readNumber? true rest
    | rest => readNumber? false rest

def readItems? : Nat → List Char → Option (List Json × List Char)
  | 0, _ => none
  | fuel + 1, cs =>
    match readValue? fuel cs with
    | none => none
    | some (item, rest) =>
      match skipSpace rest with
      | ',' :: rest' => (readItems? fuel rest').map fun (items, r) => (item :: items, r)
      | ']' :: rest' => some ([item], rest')
      | _ => none

def readFields? : Nat → List Char → Option (List (Option String × Json) × List Char)
  | 0, _ => none
  | fuel + 1, cs =>
    match skipSpace cs with
    | '"' :: rest =>
      match readString? (rest.length + 1) (some []) rest with
      | none => none
      | some (name, rest') =>
        match skipSpace rest' with
        | ':' :: body =>
          match readValue? fuel body with
          | none => none
          | some (value, rest'') =>
            match skipSpace rest'' with
            | ',' :: more =>
              (readFields? fuel more).map fun (fields, r) => ((name, value) :: fields, r)
            | '\x7d' :: more => some ([(name, value)], more)
            | _ => none
        | _ => none
    | _ => none

end

def parse? (text : String) : Option Json :=
  let cs := text.toList
  match readValue? (2 * cs.length + 2) cs with
  | some (value, rest) => if (skipSpace rest).isEmpty then some value else none
  | none => none

abbrev Record := List (String × Json)

def hasRepeats : List String → Bool
  | [] => false
  | x :: xs => xs.contains x || hasRepeats xs

def record? (names : List String) : Json → Option Record
  | .obj fields =>
    let known := fields.filter fun (name, _) => names.contains name
    if hasRepeats (known.map Prod.fst) then none else some known
  | .arr items => if names.length < items.length then none else some (names.zip items)
  | _ => none

namespace Record

def field? (r : Record) (name : String) : Option Json :=
  (r.find? fun (n, _) => n == name).map Prod.snd

def required? {α : Type} (r : Record) (name : String) (decode : Json → Option α) : Option α :=
  match r.field? name with
  | some j => decode j
  | none => none

def withDefault? {α : Type} (r : Record) (name : String) (fallback : α)
    (decode : Json → Option α) : Option α :=
  match r.field? name with
  | some j => decode j
  | none => some fallback

def optional? {α : Type} (r : Record) (name : String) (decode : Json → Option α) :
    Option (Option α) :=
  match r.field? name with
  | some .null => some none
  | some j => (decode j).map some
  | none => some none

end Record

def listOf? {α : Type} (decode : Json → Option α) (j : Json) : Option (List α) :=
  match j with
  | .arr items => items.mapM decode
  | _ => none

/-- Every value of an object with free field names, sorted by name; the last of a repeated name
counts. -/
def mapOf? {α : Type} (decode : Json → Option α) (j : Json) : Option (List (String × α)) :=
  match j with
  | .obj fields =>
    (fields.mapM fun (p : String × Json) => (decode p.2).map fun w => (p.1, w)).map sortFields
  | _ => none

/-- One of a few words, written as a string or as the only field of an object with null. -/
def word? (j : Json) : Option String :=
  match j with
  | .str s => some s
  | .obj [(s, .null)] => some s
  | _ => none

def natBelow? (bound : Nat) (j : Json) : Option Nat :=
  match j with
  | .int n => if 0 ≤ n ∧ n < bound then some n.toNat else none
  | _ => none

end Json

end MaterialShader
