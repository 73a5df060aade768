/-!
Search, replacement, trimming and lines of texts, as recursions over character lists.

`replaceAll` works from left to right and never looks again at what it has written. An empty pattern
stands before every character and once at the end. A line ends at a line feed, with one carriage
return before it if there is one; the text after the last line feed is a line unless it is empty.
-/

namespace MaterialShader.Text

def after? : List Char → List Char → Option (List Char)
  | [], s => some s
  | _ :: _, [] => none
  | h :: hs, c :: cs => if h = c then after? hs cs else none

def occurs (pattern : List Char) : List Char → Bool
  | [] => pattern.isEmpty
  | c :: cs => pattern.isPrefixOf (c :: cs) || occurs pattern cs

/-- The text before and after the first place where `pattern` stands. -/
def cut? (pattern : List Char) : List Char → Option (List Char × List Char)
  | [] => if pattern.isEmpty then some ([], []) else none
  | c :: cs =>
    match after? pattern (c :: cs) with
    | some rest => some ([], rest)
    | none => (cut? pattern cs).map fun (before, rest) => (c :: before, rest)

/-- Replacement of a nonempty pattern; the counter is the number of matched characters still to
pass. -/
def replaceFrom (pattern replacement : List Char) : Nat → List Char → List Char
  | _, [] => []
  | k + 1, _ :: cs => replaceFrom pattern replacement k cs
  | 0, c :: cs =>
    if pattern.isPrefixOf (c :: cs) then
      replacement ++ replaceFrom pattern replacement (pattern.length - 1) cs
    else
      c :: replaceFrom pattern replacement 0 cs

/-- Every place of `pattern`, from the left and without overlap, becomes `replacement`. -/
def replaceChars (pattern replacement text : List Char) : List Char :=
  if pattern.isEmpty then replacement ++ text.flatMap fun c => c :: replacement
  else replaceFrom pattern replacement 0 text

def replaceAll (pattern replacement text : String) : String :=
  String.ofList (replaceChars pattern.toList replacement.toList text.toList)

def contains (pattern text : String) : Bool :=
  occurs pattern.toList text.toList

def startsWith (head text : String) : Bool :=
  (after? head.toList text.toList).isSome

def dropHead? (head text : String) : Option String :=
  (after? head.toList text.toList).map String.ofList

def join (separator : String) (parts : List String) : String :=
  String.intercalate separator parts

/-- The characters with the Unicode property `White_Space`. -/
def isBlank (c : Char) : Bool :=
  let n := c.toNat
  (9 ≤ n && n ≤ 13) || n == 0x20 || n == 0x85 || n == 0xA0 || n == 0x1680 ||
    (0x2000 ≤ n && n ≤ 0x200A) || n == 0x2028 || n == 0x2029 || n == 0x202F ||
    n == 0x205F || n == 0x3000

def dropEndWhile (p : Char → Bool) (cs : List Char) : List Char :=
  (cs.reverse.dropWhile p).reverse

def trimChars (cs : List Char) : List Char :=
  dropEndWhile isBlank (cs.dropWhile isBlank)

def trim (s : String) : String :=
  String.ofList (trimChars s.toList)

def isAllBlank (s : String) : Bool :=
  s.toList.all isBlank

def dropReturn (line : List Char) : List Char :=
  match line.getLast? with
  | some '\r' => line.dropLast
  | _ => line

/-- Lines of a text; `current` holds the open line in reverse. -/
def linesFrom (current : List Char) : List Char → List (List Char)
  | [] => if current.isEmpty then [] else [current.reverse]
  | c :: cs =>
    if c = '\n' then dropReturn current.reverse :: linesFrom [] cs
    else linesFrom (c :: current) cs

def lines (s : String) : List String :=
  (linesFrom [] s.toList).map String.ofList

def dropFinalNewlines (s : String) : String :=
  String.ofList (dropEndWhile (· == '\n') s.toList)

end MaterialShader.Text
