import MaterialShader.Dialect.Basic
import MaterialShader.Graph.Naming

/-!
Names that a dialect accepts: identifiers without refused parts, none of them restricted, all
different.
-/

namespace MaterialShader

namespace NameRule

attribute [local instance (high)] instPowNat

/-- Replace a pattern until it is gone, in at most as many rounds as the first argument says. -/
def replaceUntilGone (pattern replacement : List Char) : Nat → List Char → List Char
  | 0, name => name
  | rounds + 1, name =>
    if Text.occurs pattern name then
      replaceUntilGone pattern replacement rounds (Text.replaceChars pattern replacement name)
    else name

/-- A replacement can make new places for its pattern, so that the rounds grow faster than any fixed
power of the length. No run of a program gets to the end of this many. -/
def spareRounds : Nat := 2 ^ (62 : Nat)

def apply (name : String) : NameRule → String
  | .anywhere pattern replacement =>
    String.ofList <| replaceUntilGone pattern.toList replacement.toList
      (name.length + spareRounds) name.toList
  | .atStart pattern replacement =>
    match Text.dropHead? pattern name with
    | some rest => replacement ++ rest
    | none => name

end NameRule

namespace Dialect

def validName (d : Dialect) (name : String) : String :=
  d.rules.foldl NameRule.apply (Text.sanitize name)

/-- A valid name that is neither restricted nor taken, and the table with it. -/
def reserve (d : Dialect) (table : NameTable) (name : String) : String × NameTable :=
  let valid := d.validName name
  let refused (c : String) : Bool := Assoc.has c table || d.isRestricted c
  if refused valid then
    let start := (Assoc.get? valid table).getD 1
    let fuel := table.length + d.restricted.length + 1
    let k := NameTable.firstFree refused valid fuel start
    let candidate := valid ++ Nat.repr k
    (candidate, Assoc.put candidate 1 (Assoc.put valid (k + 1) table))
  else (valid, Assoc.put valid 1 table)

def reserveAll (d : Dialect) : NameTable → List String → List String × NameTable
  | table, [] => ([], table)
  | table, name :: rest =>
    let (chosen, table') := d.reserve table name
    let (others, table'') := d.reserveAll table' rest
    (chosen :: others, table'')

end Dialect

end MaterialShader
