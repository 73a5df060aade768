import MaterialShader.Proofs.Stage.Interface
import MaterialShader.Proofs.Stage.Written
import MaterialShader.Proofs.Text.Plain

/-!
The source of a stage, row by row.
-/

namespace MaterialShader

open List

variable (level : Nat)

variable {text : String} {P : String → Prop}

namespace Text

theorem linesFrom_append {row : List Char} (unbroken : row.all isInnerChar)
    (current rest : List Char) :
    linesFrom current (row ++ rest) = linesFrom (row.reverse ++ current) rest := by
  induction row generalizing current with
  | nil => rfl
  | cons c cs ih =>
    rw [all_cons, Bool.and_eq_true] at unbroken
    have inner : c ≠ '\n' := by
      rintro rfl
      simp [isInnerChar] at unbroken
    simp [linesFrom, inner, ih unbroken.2]

theorem dropReturn_of_unbroken {row : List Char} (unbroken : row.all isInnerChar) :
    dropReturn row = row := by
  unfold dropReturn
  split
  · rename_i last
    have inside := all_eq_true.1 unbroken _ (mem_of_getLast? last)
    simp [isInnerChar] at inside
  · rfl

theorem lines_unlines {rows : List String} (unbroken : ∀ row ∈ rows, isUnbroken row) :
    lines (unlines rows) = rows := by
  unfold lines
  induction rows with
  | nil => rfl
  | cons row rest ih =>
    have here : row.toList.all isInnerChar := unbroken row mem_cons_self
    have split : (unlines (row :: rest)).toList = row.toList ++ '\n' :: (unlines rest).toList := by
      simp
    rw [split, linesFrom_append here, append_nil, linesFrom, if_pos rfl, reverse_reverse,
      dropReturn_of_unbroken here, map_cons, String.ofList_toList,
      ih fun row later => unbroken row (.tail _ later)]

theorem prefix_of_append_cons {pattern front back : List Char} {c : Char} (absent : c ∉ pattern)
    (stands : pattern <+: front ++ c :: back) : pattern <+: front := by
  by_cases short : pattern.length ≤ front.length
  · exact prefix_of_prefix_length_le stands (prefix_append _ _) short
  · have longer : front ++ [c] <+: pattern := by
      apply prefix_of_prefix_length_le _ stands
      · rw [length_append, length_singleton]
        omega
      · exact ⟨back, by simp⟩
    exact absurd (longer.subset (by simp)) absent

theorem replaceFrom_break {pattern : List Char} (nonempty : pattern ≠ []) (inner : '\n' ∉ pattern)
    (replacement front back : List Char) :
    replaceFrom pattern replacement 0 (front ++ '\n' :: back) =
      replaceFrom pattern replacement 0 front ++ '\n' :: replaceFrom pattern replacement 0 back := by
  induction front using places_induct nonempty with
  | nil =>
    have elsewhere : ¬ pattern <+: '\n' :: back := by
      intro stands
      have short : pattern <+: [] := prefix_of_append_cons inner stands
      exact nonempty (prefix_nil.1 short)
    rw [nil_append, replaceFrom_cons_elsewhere elsewhere]
    rfl
  | here rest ih =>
    rw [append_assoc, replaceFrom_append nonempty, replaceFrom_append nonempty, ih, append_assoc]
  | elsewhere c rest other ih =>
    have elsewhere : ¬ pattern <+: c :: (rest ++ '\n' :: back) :=
      fun stands => other (prefix_of_append_cons inner stands)
    rw [cons_append, replaceFrom_cons_elsewhere elsewhere, replaceFrom_cons_elsewhere other, ih,
      cons_append]

end Text

namespace Token

open Text (isWord isUnbroken unlines)

structure Tame (entry : String × String) : Prop where
  token : ∃ name, entry.1 = "$" ++ name ∧ isWord name = true
  replacement : isWord entry.2 = true

variable {entry : String × String}

section

variable (tame : Tame entry)

include tame

theorem Tame.formed : isFormed entry.1.toList := by
  obtain ⟨name, split, word⟩ := tame.token
  have unmarked := (Text.isPlain_iff.1 (Text.isPlain_of_isWord word)).1
  rw [isFormed_iff]
  exact ⟨name.toList, by simp [split], unmarked⟩

theorem Tame.unmarked : Text.Unmarked entry.2 :=
  (Text.isPlain_iff.1 (Text.isPlain_of_isWord tame.replacement)).1

theorem Tame.nonempty : entry.1.toList ≠ [] := by
  obtain ⟨name, split, _⟩ := tame.token
  simp [split]

theorem Tame.replaceAll_eq (text : String) :
    Text.replaceAll entry.1 entry.2 text =
      String.ofList (Text.replaceFrom entry.1.toList entry.2.toList 0 text.toList) := by
  simp [Text.replaceAll, Text.replaceChars, tame.nonempty]

theorem Tame.replaceAll_unmarked (unmarked : Text.Unmarked text) :
    Text.replaceAll entry.1 entry.2 text = text := by
  have kept : Text.replaceFrom entry.1.toList entry.2.toList 0 (text.toList ++ []) = _ :=
    replaceFrom_append_unmarked tame.formed unmarked []
  rw [append_nil] at kept
  rw [tame.replaceAll_eq, kept, Text.replaceFrom, append_nil, String.ofList_toList]

theorem Tame.replaceAll_unlines (rows : List String) :
    Text.replaceAll entry.1 entry.2 (unlines rows) =
      unlines (rows.map (Text.replaceAll entry.1 entry.2)) := by
  have inner : '\n' ∉ entry.1.toList := by
    obtain ⟨name, split, word⟩ := tame.token
    intro member
    rw [split, String.toList_append, mem_append] at member
    obtain mark | member := member
    · revert mark
      decide
    · have := all_eq_true.1 word _ member
      revert this
      decide
  induction rows with
  | nil =>
    simp [tame.replaceAll_eq, Text.replaceFrom]
  | cons row rest ih =>
    rw [tame.replaceAll_eq] at ih ⊢
    rw [map_cons, Text.unlines_cons, Text.unlines_cons, ← ih, tame.replaceAll_eq]
    have split : (row ++ "\n" ++ unlines rest).toList =
        row.toList ++ '\n' :: (unlines rest).toList := by simp
    rw [split, Text.replaceFrom_break tame.nonempty inner]
    simp [← String.toList_inj]

end

def replaceEach : List (String × String) → String → String
  | [], text => text
  | entry :: rest, text => replaceEach rest (Text.replaceAll entry.1 entry.2 text)

section

variable {tokens : List (String × String)} (tame : ∀ entry ∈ tokens, Tame entry)

include tame

theorem replaceEach_unmarked (unmarked : Text.Unmarked text) : replaceEach tokens text = text := by
  induction tokens with
  | nil => rfl
  | cons entry rest ih =>
    rw [replaceEach, (tame entry mem_cons_self).replaceAll_unmarked unmarked]
    exact ih fun entry later => tame entry (.tail _ later)

theorem replaceEach_unlines (rows : List String) :
    replaceEach tokens (unlines rows) = unlines (rows.map (replaceEach tokens)) := by
  induction tokens generalizing rows with
  | nil => simp [replaceEach]
  | cons entry rest ih =>
    have later := ih (fun entry later => tame entry (.tail _ later))
      (rows.map (Text.replaceAll entry.1 entry.2))
    rw [replaceEach, (tame entry mem_cons_self).replaceAll_unlines, later, map_map]
    rfl

theorem replaceEach_unbroken (unbroken : isUnbroken text) :
    isUnbroken (replaceEach tokens text) := by
  induction tokens generalizing text with
  | nil => exact unbroken
  | cons entry rest ih =>
    have here := tame entry mem_cons_self
    have new := Text.isUnbroken_of_isPlain (Text.isPlain_of_isWord here.replacement)
    exact ih (fun entry later => tame entry (.tail _ later))
      (Text.hasOnly_replaceAll here.nonempty unbroken new)

omit tame in
theorem mem_inOrder {entry : String × String} : entry ∈ inOrder tokens ↔ entry ∈ tokens :=
  (mergeSort_perm tokens goesFirst).mem_iff

theorem substitute_eq : substitute tokens = replaceEach (inOrder tokens) := by
  have ordered : ∀ entry ∈ inOrder tokens, Tame entry :=
    fun entry member => tame entry (mem_inOrder.1 member)
  have all (entries : List (String × String)) (text : String) :
      entries.foldl (fun text entry => Text.replaceAll entry.1 entry.2 text) text =
        replaceEach entries text := by
    induction entries generalizing text with
    | nil => rfl
    | cons entry rest ih => exact ih _
  funext text
  unfold substitute
  split
  · exact all _ text
  · rename_i absent
    refine (replaceEach_unmarked ordered fun member => absent ?_).symm
    rw [Text.contains, Text.occurs_iff]
    exact (singleton_infix_iff _ _).2 member

theorem substitute_of_unmarked (unmarked : Text.Unmarked text) : substitute tokens text = text := by
  rw [substitute_eq tame]
  exact replaceEach_unmarked (fun entry member => tame entry (mem_inOrder.1 member)) unmarked

theorem substitute_unlines (rows : List String) :
    substitute tokens (unlines rows) = unlines (rows.map (substitute tokens)) := by
  rw [substitute_eq tame]
  exact replaceEach_unlines (fun entry member => tame entry (mem_inOrder.1 member)) rows

theorem lines_substitute {rows : List String} (unbroken : ∀ row ∈ rows, isUnbroken row) :
    Text.lines (substitute tokens (unlines rows)) = rows.map (substitute tokens) := by
  rw [substitute_unlines tame]
  apply Text.lines_unlines
  intro line member
  obtain ⟨row, listed, rfl⟩ := mem_map.1 member
  rw [substitute_eq tame]
  exact replaceEach_unbroken (fun entry member => tame entry (mem_inOrder.1 member))
    (unbroken row listed)

end

def fits (tokens : List String) (text : String) : Bool := covers tokens text && isUnbroken text

section

variable {tokens : List String}

theorem fits_append {a b : String} (first : fits tokens a) (second : fits tokens b) :
    fits tokens (a ++ b) := by
  simp only [fits, Bool.and_eq_true] at first second ⊢
  exact ⟨covers_append first.1 second.1, by simp [first.2, second.2]⟩

theorem fits_of_plain (plain : Text.isPlain text) : fits tokens text := by
  obtain ⟨unmarked, unbroken⟩ := Text.isPlain_iff.1 plain
  rw [fits, covers_of_unmarked unmarked, unbroken]
  rfl

theorem fits_token {name : String} (word : isWord name) (member : "$" ++ name ∈ tokens) :
    fits tokens ("$" ++ name) := by
  obtain ⟨unmarked, unbroken⟩ := Text.isPlain_iff.1 (Text.isPlain_of_isWord word)
  have formed : isFormed ("$" ++ name).toList := by
    rw [isFormed_iff]
    exact ⟨name.toList, by simp, unmarked⟩
  have whole : isUnbroken ("$" ++ name) := by simp +decide [unbroken]
  rw [fits, covers_token member formed, whole]
  rfl

theorem fits_mono {more : List String} (sub : tokens ⊆ more) (fit : fits tokens text) :
    fits more text := by
  simp only [fits, Bool.and_eq_true] at fit ⊢
  exact ⟨covers_mono sub fit.1, fit.2⟩

end

end Token

namespace Code

open Token (fits)

theorem indentation_plain : Text.isPlain (Stage.indentation level) := by
  induction level with
  | zero => rfl
  | succ level ih =>
    have step : Stage.indentation (level + 1) = Stage.indentUnit ++ Stage.indentation level := by
      simp [Stage.indentation, replicate_succ]
    rw [step, Text.isPlain, Text.hasOnly_append, Bool.and_eq_true]
    exact ⟨by decide, ih⟩

structure Composes (P : String → Prop) : Prop where
  plain : ∀ text, Text.isPlain text = true → P text
  append : ∀ a b, P a → P b → P (a ++ b)

theorem forall_bracketRows (composes : Composes P) (level : Nat) (brackets : Brackets)
    (own : Text.isPlain text) : ∀ row ∈ bracketRows level brackets text, P row := by
  unfold bracketRows
  split
  · simp
  · rw [forall_mem_singleton]
    exact composes.append _ _ (composes.plain _ (indentation_plain level)) (composes.plain _ own)

theorem forall_textRows (composes : Composes P) (level : Nat)
    (all : ∀ line ∈ Text.lines (Text.dropFinalNewlines text), P line) :
    ∀ row ∈ textRows level text, P row := by
  intro row member
  obtain ⟨line, listed, rfl⟩ := mem_map.1 member
  split
  · exact composes.plain "" (by decide)
  · exact composes.append _ _ (composes.plain _ (indentation_plain level)) (all line listed)

theorem forall_rows (composes : Composes P) (level : Nat) (innermost : Option Brackets) {c : Code}
    (all : ∀ text ∈ c.lineTexts, P text) : ∀ row ∈ rows level innermost c, P row := by
  have indented {text : String} (own : P text) : P (Stage.indentation level ++ text) :=
    composes.append _ _ (composes.plain _ (indentation_plain level)) own
  have ended {text : String} (own : P text) : P (Stage.indentation level ++ text ++ ";") :=
    composes.append _ _ (indented own) (composes.plain _ (by decide))
  cases c with
  | line text => simpa [rows] using indented (all text (by simp [lineTexts]))
  | statement text | assignment _ _ text => simpa [rows] using ended (all text (by simp [lineTexts]))
  | blank => simpa [rows] using composes.plain "" (by decide)
  | lines text => exact forall_textRows composes level all
  | definition _ text =>
    rw [rows, forall_mem_append, forall_mem_singleton]
    exact ⟨forall_textRows composes level all, composes.plain "" (by decide)⟩
  | function key => simp [rows]
  | openScope b =>
    exact forall_bracketRows composes level b (by cases b <;> decide)
  | closeScope semicolon =>
    cases innermost with
    | none => simp [rows]
    | some b =>
      have closing : Text.isPlain (b.closing ++ if semicolon then ";" else "") := by
        cases b <;> cases semicolon <;> decide
      exact forall_bracketRows composes (level - 1) b closing

theorem forall_rowsAll (composes : Composes P) {code : List Code} (scopes : List Brackets)
    (all : ∀ text ∈ lineTextsAll code, P text) : ∀ row ∈ rowsAll scopes code, P row := by
  induction code generalizing scopes with
  | nil => simp [rowsAll]
  | cons c rest ih =>
    rw [lineTextsAll_cons, forall_mem_append] at all
    rw [rowsAll, forall_mem_append]
    exact ⟨forall_rows composes _ _ all.1, ih _ all.2⟩

variable {code : List Code}

theorem rowsAll_fit {tokens : List String} (scopes : List Brackets)
    (all : ∀ text ∈ lineTextsAll code, fits tokens text) :
    ∀ row ∈ rowsAll scopes code, fits tokens row :=
  forall_rowsAll ⟨fun _ => Token.fits_of_plain, fun _ _ => Token.fits_append⟩ scopes all

theorem rowsAll_unbroken (scopes : List Brackets)
    (all : ∀ text ∈ lineTextsAll code, Text.isUnbroken text) :
    ∀ row ∈ rowsAll scopes code, Text.isUnbroken row :=
  forall_rowsAll ⟨fun _ => Text.isUnbroken_of_isPlain,
    fun _ _ first second => by simp [first, second]⟩ scopes all

theorem statement_mem_of_lineTextsAll (statements : ∀ x ∈ code, ∃ text, x = .statement text)
    (member : text ∈ lineTextsAll code) : .statement text ∈ code := by
  induction code with
  | nil => cases member
  | cons x rest ih =>
    rw [forall_mem_cons] at statements
    obtain ⟨own, rfl⟩ := statements.1
    rw [lineTextsAll_cons, lineTexts, mem_append, mem_singleton] at member
    obtain rfl | later := member
    · exact .head _
    · exact .tail _ (ih statements.2 later)

end Code

namespace Stage

variable {s t : Stage} {code : List Code} {source : String}

theorem scope_rows {body rest : List Code} (inside : Code.Nested body) {b : Brackets}
    {semicolon : Bool}
    (ok : s.writeAll (.openScope b :: (body ++ .closeScope semicolon :: rest)) = .ok t)
    (scopes : List Brackets) :
    ∃ inner last : Stage, (s.openScope b).writeAll body = .ok inner ∧ last.writeAll rest = .ok t ∧
      Code.rowsAll scopes (s.effectiveAll (.openScope b :: (body ++ .closeScope semicolon :: rest))) =
        Code.bracketRows scopes.length b b.opening ++
          Code.rowsAll (b :: scopes) ((s.openScope b).effectiveAll body) ++
          Code.bracketRows scopes.length b (b.closing ++ if semicolon then ";" else "") ++
          Code.rowsAll scopes (last.effectiveAll rest) := by
  obtain ⟨_, ⟨⟩, ok⟩ := writeAll_cons_ok.1 ok
  obtain ⟨inner, written, ok⟩ := writeAll_append_ok.1 ok
  obtain ⟨last, left, later⟩ := writeAll_cons_ok.1 ok
  have closed := (effectiveAll_after written (b :: scopes)).trans (inside (b :: scopes))
  refine ⟨inner, last, written, later, ?_⟩
  have opening : s.effectiveAll (.openScope b :: (body ++ .closeScope semicolon :: rest)) =
      .openScope b :: (s.openScope b).effectiveAll (body ++ .closeScope semicolon :: rest) := rfl
  rw [opening, effectiveAll_append written, effectiveAll_cons left, Code.rowsAll]
  simp [Code.after, Code.rowsAll_append closed, effective, Code.rowsAll, Code.rows]

theorem statement_row {a b : List Code} (nested : Code.Nested a)
    (ok : s.writeAll (a ++ .statement text :: b) = .ok t) (scopes : List Brackets) :
    indentation scopes.length ++ text ++ ";" ∈
      Code.rowsAll scopes (s.effectiveAll (a ++ .statement text :: b)) := by
  obtain ⟨before, first, later⟩ := writeAll_append_ok.1 ok
  obtain ⟨next, here, _⟩ := writeAll_cons_ok.1 later
  have closed := (effectiveAll_after first scopes).trans (nested scopes)
  rw [effectiveAll_append first, Code.rowsAll_append closed, effectiveAll_cons here]
  simp [effective, Code.rowsAll, Code.rows]

structure IsBlank (s : Stage) : Prop where
  source : s.source = ""
  indent : s.indent = 0
  scopes : s.scopes = []

section

variable (blank : s.IsBlank) (ok : s.writeAll code = .ok t) (final : t.finalize = .ok source)

include blank ok final

theorem finalize_writeAll :
    source = Token.substitute s.tokens (Text.unlines (Code.rowsAll [] (s.effectiveAll code))) := by
  have aligned : s.Aligned := by rw [Aligned, blank.indent, blank.scopes]; rfl
  obtain ⟨written, _⟩ := writeAll_source aligned ok
  rw [blank.source, blank.scopes, String.empty_append] at written
  unfold finalize at final
  split_ifs at final
  · cases final
    rw [written, (writeAll_keeps ok).tokens]
  · cases final

variable (tame : ∀ entry ∈ s.tokens, Token.Tame entry)

include tame

theorem finalize_lines (unbroken : ∀ text ∈ Code.lineTextsAll code, Text.isUnbroken text) :
    Text.lines source =
      (Code.rowsAll [] (s.effectiveAll code)).map (Token.substitute s.tokens) := by
  rw [finalize_writeAll blank ok final]
  refine Token.lines_substitute tame (Code.rowsAll_unbroken [] fun text member => ?_)
  exact unbroken text ((s.effectiveAll_sublist code).mem member)

theorem finalize_unmarked
    (fit : ∀ text ∈ Code.lineTextsAll code, Token.fits (s.tokens.map Prod.fst) text) :
    Text.Unmarked source := by
  have rows := Code.rowsAll_fit [] fun text member =>
    fit text ((s.effectiveAll_sublist code).mem member)
  rw [finalize_writeAll blank ok final]
  generalize Code.rowsAll [] (s.effectiveAll code) = written at rows
  apply Token.substitute_unmarked fun entry member =>
    ⟨(tame entry member).formed, (tame entry member).unmarked⟩
  induction written with
  | nil => rfl
  | cons row rest ih =>
    have here := (Bool.and_eq_true_iff.1 (rows row mem_cons_self)).1
    rw [Text.unlines_cons]
    exact Token.covers_append (Token.covers_append here (Token.covers_of_unmarked (by decide)))
      (ih fun row later => rows row (.tail _ later))

end

end Stage

end MaterialShader
