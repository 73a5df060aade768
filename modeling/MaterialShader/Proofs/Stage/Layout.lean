import MaterialShader.Proofs.Stage.Beginning

/-!
Layout lines:
-/

namespace MaterialShader

open List
open Stage (effective effectiveAll indentation)

variable {text : String}

namespace Text

def isLayout (line : String) : Bool := startsWith "layout (" line

def isQuietChar (c : Char) : Bool := c != 'l' && c != '$'

def isQuiet (row : String) : Bool := row.toList.head?.all isQuietChar

def quietFrom : Bool → List Char → Bool
  | _, [] => true
  | begins, c :: cs => (!begins || isQuietChar c) && quietFrom (c == '\n') cs

theorem quietFrom_append {begins : Bool} {front back : List Char}
    (quiet : quietFrom begins (front ++ back)) : quietFrom begins front := by
  induction front generalizing begins with
  | nil => rfl
  | cons c cs ih =>
    simp only [cons_append, quietFrom, Bool.and_eq_true] at quiet ⊢
    exact ⟨quiet.1, ih quiet.2⟩

theorem quietFrom_inner {front : List Char} (inner : '\n' ∉ front) (back : List Char) :
    quietFrom false (front ++ back) = quietFrom false back := by
  induction front with
  | nil => rfl
  | cons c cs ih =>
    simp only [mem_cons, not_or] at inner
    have other : (c == '\n') = false := by simpa using Ne.symm inner.1
    simpa [quietFrom, other] using ih inner.2

theorem Swapped.quiet {name replacement s t : List Char} (inner : '\n' ∉ name)
    (new : '\n' ∉ replacement) (swapped : Swapped ('$' :: name) replacement s t) {begins : Bool}
    (quiet : quietFrom begins s) : quietFrom begins t := by
  induction swapped generalizing begins with
  | nil => rfl
  | keep c rest ih =>
    simp only [quietFrom, Bool.and_eq_true] at quiet ⊢
    exact ⟨quiet.1, ih quiet.2⟩
  | swap rest ih =>
    cases begins with
    | true => simp [quietFrom, isQuietChar] at quiet
    | false =>
      rw [quietFrom_inner (by simpa using inner)] at quiet
      rw [quietFrom_inner new]
      exact ih quiet

theorem quietFrom_replaceAll {name replacement : String} (inner : '\n' ∉ name.toList)
    (new : '\n' ∉ replacement.toList) (quiet : quietFrom true text.toList) :
    quietFrom true (replaceAll ("$" ++ name) replacement text).toList := by
  have split : ("$" ++ name).toList = '$' :: name.toList := by simp
  rw [replaceAll, String.toList_ofList, split]
  exact (replaceChars_swapped (by simp) _ _).quiet inner new quiet

theorem dropReturn_quiet {line : List Char} (quiet : line.head?.all isQuietChar) :
    (dropReturn line).head?.all isQuietChar := by
  unfold dropReturn
  split
  · cases line with
    | nil => rfl
    | cons c cs => cases cs <;> simp_all
  · exact quiet

theorem linesFrom_quiet {current text : List Char}
    (open_ : current.reverse.head?.all isQuietChar)
    (quiet : quietFrom current.isEmpty text) :
    ∀ line ∈ linesFrom current text, line.head?.all isQuietChar := by
  induction text generalizing current with
  | nil =>
    unfold linesFrom
    split
    · simp
    · simpa using open_
  | cons c cs ih =>
    simp only [quietFrom, Bool.and_eq_true] at quiet
    unfold linesFrom
    split
    · rename_i break_
      subst break_
      rw [forall_mem_cons]
      exact ⟨dropReturn_quiet open_, ih rfl (by simpa using quiet.2)⟩
    · rename_i other
      have inner : (c == '\n') = false := by simpa using other
      rw [inner] at quiet
      refine ih ?_ quiet.2
      cases current with
      | nil => simpa using quiet.1
      | cons d ds =>
        rw [reverse_cons, List.head?_append_of_ne_nil _ (by simp)]
        exact open_

theorem lines_quiet (quiet : quietFrom true text.toList) :
    ∀ line ∈ lines (dropFinalNewlines text), isQuiet line := by
  intro line member
  obtain ⟨chars, listed, rfl⟩ := mem_map.1 member
  have kept : quietFrom true (dropFinalNewlines text).toList := by
    rw [dropFinalNewlines, String.toList_ofList]
    obtain ⟨back, split⟩ : dropEndWhile (· == '\n') text.toList <+: text.toList := by
      rw [dropEndWhile, ← reverse_suffix, reverse_reverse]
      exact dropWhile_suffix _
    rw [← split] at quiet
    exact quietFrom_append quiet
  rw [isQuiet, String.toList_ofList]
  exact linesFrom_quiet (by rfl) (by simpa using kept) chars listed

end Text

theorem Token.substitute_quiet {tokens : List (String × String)}
    (tame : ∀ entry ∈ tokens, Tame entry) {row : String} (quiet : Text.isQuiet row) :
    Text.isLayout (substitute tokens row) = false := by
  rw [Text.isLayout, Bool.eq_false_iff, ne_eq, Text.startsWith_iff]
  cases chars : row.toList with
  | nil =>
    obtain rfl : row = "" := String.toList_eq_nil_iff.1 chars
    rw [substitute_of_unmarked tame (by decide)]
    decide
  | cons c cs =>
    rw [Text.isQuiet, chars] at quiet
    simp only [List.head?_cons, Option.all_some, Text.isQuietChar, Bool.and_eq_true, bne_iff_ne,
      ne_eq] at quiet
    have split : row = String.ofList [c] ++ String.ofList cs := by
      rw [← String.toList_inj]
      simp [chars]
    have unmarked : Text.Unmarked (String.ofList [c]) := by
      simpa [Text.Unmarked] using Ne.symm quiet.2
    have begins : (String.ofList [c]).toList = [c] := String.toList_ofList
    rw [split, substitute_append tame unmarked, String.toList_append, begins]
    intro stands
    exact quiet.1 (cons_prefix_cons.1 stands).1.symm

namespace Code

theorem indentation_quiet (level : Nat) (text : String) :
    Text.isQuiet (indentation (level + 1) ++ text) := by
  have step : indentation (level + 1) = Stage.indentUnit ++ indentation level := by
    simp [indentation, replicate_succ]
  rw [step, Stage.indentUnit]
  simp [Text.isQuiet, Text.isQuietChar]

theorem bracketRows_quiet (level : Nat) (b : Brackets) {text : String} (own : Text.isQuiet text) :
    ∀ row ∈ bracketRows level b text, Text.isQuiet row := by
  unfold bracketRows
  split
  · simp
  · rw [forall_mem_singleton]
    cases level with
    | zero => simpa [indentation] using own
    | succ level => exact indentation_quiet level text

theorem rows_quiet (level : Nat) (innermost : Option Brackets) (c : Code) :
    ∀ row ∈ rows (level + 1) innermost c, Text.isQuiet row := by
  have text_ (text : String) : ∀ row ∈ textRows (level + 1) text, Text.isQuiet row := by
    intro row member
    obtain ⟨line, _, rfl⟩ := mem_map.1 member
    split
    · rfl
    · exact indentation_quiet level line
  cases c with
  | line text => simpa [rows] using indentation_quiet level text
  | statement text | assignment _ _ text =>
    simpa [rows, String.append_assoc] using indentation_quiet level (text ++ ";")
  | blank => simp [rows, Text.isQuiet]
  | lines text => exact text_ text
  | definition key text =>
    rw [rows, forall_mem_append, forall_mem_singleton]
    exact ⟨text_ text, rfl⟩
  | function key => simp [rows]
  | openScope b => exact bracketRows_quiet _ b (by cases b <;> decide)
  | closeScope semicolon =>
    cases innermost with
    | none => simp [rows]
    | some b => exact bracketRows_quiet _ b (by cases b <;> cases semicolon <;> decide)

theorem rowsAll_quiet {code : List Code} {inner last : List Brackets}
    (stays : afterAll inner code = some last) (b : Brackets) (outer : List Brackets) :
    ∀ row ∈ rowsAll (inner ++ b :: outer) code, Text.isQuiet row := by
  induction code generalizing inner with
  | nil => simp [rowsAll]
  | cons c rest ih =>
    obtain ⟨next, first, later⟩ := Option.bind_eq_some_iff.1 stays
    have opened : c.after (inner ++ b :: outer) = some (next ++ b :: outer) := by
      cases c with
      | closeScope semicolon => cases inner <;> simp_all [after]
      | _ =>
        cases first
        rfl
    rw [rowsAll, opened, forall_mem_append]
    refine ⟨?_, ih later⟩
    rw [length_append, length_cons, ← Nat.add_assoc]
    exact rows_quiet _ _ c

structure Lays (code : List Code) (lines : List String) : Prop where
  nested : Nested code
  rows : ∀ {s t : Stage}, s.writeAll code = .ok t → ∀ tokens : List (String × String),
    (∀ entry ∈ tokens, Token.Tame entry) →
    ((rowsAll [] (s.effectiveAll code)).map (Token.substitute tokens)).filter Text.isLayout = lines

namespace Lays

theorem nil : Lays [] [] := ⟨.nil, fun _ _ _ => rfl⟩

theorem append {a b : List Code} {x y : List String} (first : Lays a x) (second : Lays b y) :
    Lays (a ++ b) (x ++ y) := by
  refine ⟨first.nested.append second.nested, fun {s t} ok tokens tame => ?_⟩
  obtain ⟨next, front, back⟩ := Stage.writeAll_append_ok.1 ok
  have closed := (Stage.effectiveAll_after front []).trans (first.nested [])
  rw [Stage.effectiveAll_append front, rowsAll_append closed, map_append, filter_append,
    first.rows front tokens tame, second.rows back tokens tame]

theorem cons {c : Code} {rest : List Code} {x y : List String} (first : Lays [c] x)
    (others : Lays rest y) : Lays (c :: rest) (x ++ y) := append first others

theorem of_quiet {code : List Code} (nested : Nested code) (quiet : ∀ {s t : Stage},
    s.writeAll code = .ok t → ∀ row ∈ rowsAll [] (s.effectiveAll code), Text.isQuiet row) :
    Lays code [] := by
  refine ⟨nested, fun ok tokens tame => ?_⟩
  rw [filter_eq_nil_iff]
  intro row member
  obtain ⟨before, listed, rfl⟩ := mem_map.1 member
  simpa using Token.substitute_quiet tame (quiet ok before listed)

theorem of_flat {c : Code} (flat : c.isFlat) (quiet : ∀ row ∈ Code.rows 0 none c, Text.isQuiet row) :
    Lays [c] [] := by
  refine of_quiet (.cons flat .nil) fun {s t} ok => ?_
  obtain ⟨next, first, _⟩ := Stage.writeAll_cons_ok.1 ok
  rw [Stage.effectiveAll_cons first, effectiveAll, append_nil]
  obtain ⟨none, _⟩ | single := s.effective_eq c
  · simp [none, rowsAll]
  · simpa [single, rowsAll] using quiet

theorem quietLine (quiet : Text.isQuiet text) : Lays [.line text] [] :=
  of_flat rfl (by simpa [Code.rows, indentation] using quiet)

theorem blank : Lays [.blank] [] := of_flat rfl (by simp [Code.rows, Text.isQuiet])

theorem function (key : String) : Lays [.function key] [] := of_flat rfl (by simp [Code.rows])

theorem definition (quiet : Text.quietFrom true text.toList) (key : String) :
    Lays [.definition key text] [] := by
  refine of_flat rfl ?_
  rw [Code.rows, forall_mem_append, forall_mem_singleton]
  refine ⟨fun row member => ?_, rfl⟩
  obtain ⟨line, listed, rfl⟩ := mem_map.1 member
  split
  · rfl
  · simpa [indentation] using Text.lines_quiet quiet line listed

theorem scope {body : List Code} (inside : Nested body) (b : Brackets) (semicolon : Bool) :
    Lays (.openScope b :: (body ++ [.closeScope semicolon])) [] := by
  refine of_quiet (inside.scope b semicolon .nil) fun ok => ?_
  obtain ⟨inner, last, written, _, rows⟩ := Stage.scope_rows inside ok []
  have stays := (Stage.effectiveAll_after written []).trans (inside [])
  rw [rows, forall_mem_append, forall_mem_append, forall_mem_append]
  exact ⟨⟨⟨bracketRows_quiet 0 b (by cases b <;> decide), rowsAll_quiet stays b []⟩,
    bracketRows_quiet 0 b (by cases b <;> cases semicolon <;> decide)⟩, by simp [effectiveAll, rowsAll]⟩

theorem block {head : String} {x : List String} (first : Lays [.line head] x) {body : List Code}
    (inside : Nested body) (semicolon : Bool) : Lays (Code.block head body semicolon) x := by
  simpa [Code.block] using first.cons ((scope inside .braces semicolon).append blank)

theorem line (unmarked : Text.Unmarked text) (layout : Text.isLayout text) :
    Lays [.line text] [text] := by
  refine ⟨.cons rfl .nil, fun ok tokens tame => ?_⟩
  have kept : Token.substitute tokens text = text := Token.substitute_of_unmarked tame unmarked
  simp [effectiveAll, effective, Stage.write, rowsAll, Code.rows, indentation, kept, layout]

theorem statement (unmarked : Text.Unmarked text) (layout : Text.isLayout text) :
    Lays [.statement text] [text ++ ";"] := by
  refine ⟨.cons rfl .nil, fun ok tokens tame => ?_⟩
  have kept : Token.substitute tokens (text ++ ";") = text ++ ";" :=
    Token.substitute_of_unmarked tame (by simpa [Text.Unmarked] using unmarked)
  have still : Text.isLayout (text ++ ";") := Text.startsWith_append layout ";"
  simp [effectiveAll, effective, Stage.write, rowsAll, Code.rows, indentation, kept, still]

end Lays

end Code

end MaterialShader
