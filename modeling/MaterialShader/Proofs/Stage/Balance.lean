import MaterialShader.Proofs.Stage.Interface
import MaterialShader.Proofs.Stage.Written

/-!
Scopes and the brackets that they write.
-/

namespace MaterialShader

open List Result

variable (level : Nat)

variable {s' : Stage} {b : Brackets} {rest : List Brackets} {word : List Char}

namespace Stage

/-- What a stage can be asked while it is written. -/
inductive Operation where
  | openScope (brackets : Brackets)
  | closeScope (semicolon : Bool)
  | beginLine
  | endLine (semicolon : Bool)
  | blankLine
  | addText (text : String)
  | addLine (text : String) (semicolon : Bool)
  | addComment (text : String)
  | addLines (text : String)
  | createBlock (kind : BlockKind) (name access : String)
  | updateBlock (name : String) (change : Block → Block)
  | addFunction (key : String)
  | addToken (token replacement : String)

def attempt (s : Stage) : Operation → Result Stage
  | .openScope brackets => .ok (s.openScope brackets)
  | .closeScope semicolon => s.closeScope semicolon
  | .beginLine => .ok s.beginLine
  | .endLine semicolon => .ok (s.endLine semicolon)
  | .blankLine => .ok s.blankLine
  | .addText text => .ok (s.addText text)
  | .addLine text semicolon => .ok (s.addLine text semicolon)
  | .addComment text => .ok (s.addComment text)
  | .addLines text => .ok (s.addLines text)
  | .createBlock kind name access => .ok (s.createBlock kind name access)
  | .updateBlock name change => s.updateBlock name change
  | .addFunction key => .ok (s.addFunction key)
  | .addToken token replacement => .ok (s.addToken token replacement)

/-- The stage after an operation; one that fails leaves it as it is. -/
def perform (s : Stage) (op : Operation) : Stage :=
  match s.attempt op with
  | .ok s' => s'
  | .error _ => s

def performAll (s : Stage) (ops : List Operation) : Stage := ops.foldl perform s

def attemptAll (s : Stage) (ops : List Operation) : Result Stage := ops.foldlM attempt s

/-- How many scopes are open after an operation. Closing needs one that is open. -/
def Operation.openAfter (opened : Nat) : Operation → Nat
  | .openScope _ => opened + 1
  | .closeScope _ => opened - 1
  | _ => opened

variable {s : Stage}

theorem perform_ok {op : Operation} (ok : s.attempt op = .ok s') : s.perform op = s' := by
  rw [perform, ok]

theorem performAll_ok {ops : List Operation} (ok : s.attemptAll ops = .ok s') :
    s.performAll ops = s' := by
  induction ops generalizing s with
  | nil => exact pure_ok.1 ok
  | cons op rest ih =>
    obtain ⟨next, first, later⟩ := bind_ok.1 ok
    rw [performAll, foldl_cons, perform_ok first]
    exact ih later

theorem attemptAll_append {s'' : Stage} {first second : List Operation}
    (one : s.attemptAll first = .ok s') (two : s'.attemptAll second = .ok s'') :
    s.attemptAll (first ++ second) = .ok s'' := by
  rw [attemptAll, foldlM_append]
  exact bind_ok.2 ⟨s', one, two⟩

theorem openScope_ok (s : Stage) (b : Brackets) :
    (s.openScope b).source = s.source ++ Text.unlines (Code.bracketRows s.indent b b.opening) ∧
      (s.openScope b).scopes = b :: s.scopes ∧ (s.openScope b).indent = s.indent + 1 := by
  have written := Except.ok.inj (s.write_eq (.openScope b))
  rw [written]
  exact ⟨by simp [effective, Code.rows], rfl, rfl⟩

theorem closeScope_ok (opened : s.scopes = b :: rest) (semicolon : Bool) :
    ∃ t, s.closeScope semicolon = .ok t ∧ t.scopes = rest ∧ t.indent = s.indent - 1 ∧
      t.source = s.source ++ Text.unlines
        (Code.bracketRows (s.indent - 1) b (b.closing ++ if semicolon then ";" else "")) := by
  have written := s.write_eq (.closeScope semicolon)
  rw [opened] at written
  exact ⟨_, written, rfl, rfl, by simp [effective, Code.rows]⟩

theorem closeScope_eq_fail (closed : s.scopes = []) (semicolon : Bool) :
    s.closeScope semicolon = fail (.noOpenScope s.name) := by
  simp [closeScope, closed]

theorem perform_closeScope_closed (closed : s.scopes = []) (semicolon : Bool) :
    s.perform (.closeScope semicolon) = s := by
  simp [perform, attempt, closeScope_eq_fail closed, fail]

theorem perform_scopes (s : Stage) (op : Operation) :
    (s.perform op).scopes =
      (match op with
      | .openScope b => b :: s.scopes
      | .closeScope _ => s.scopes.tail
      | _ => s.scopes) ∧ (s.Aligned → (s.perform op).Aligned) := by
  cases op with
  | openScope b =>
    obtain ⟨_, scopes, indent⟩ := s.openScope_ok b
    refine ⟨scopes, fun aligned => ?_⟩
    rw [perform_ok rfl, Aligned, scopes, indent, aligned, length_cons]
  | closeScope semicolon =>
    cases opened : s.scopes with
    | nil =>
      rw [perform_closeScope_closed opened, opened]
      exact ⟨rfl, id⟩
    | cons b rest =>
      obtain ⟨t, ok, scopes, indent, _⟩ := closeScope_ok opened semicolon
      rw [perform_ok (show s.attempt (.closeScope semicolon) = .ok t from ok)]
      refine ⟨scopes, fun aligned => ?_⟩
      rw [Aligned, scopes, indent, aligned, opened, length_cons, Nat.add_sub_cancel]
  | addLines text =>
    rw [perform_ok rfl, addLines_eq]
    exact ⟨rfl, id⟩
  | createBlock kind name access =>
    rw [perform_ok rfl, createBlock]
    split <;> exact ⟨rfl, id⟩
  | addFunction key =>
    rw [perform_ok rfl, addFunction]
    split <;> exact ⟨rfl, id⟩
  | updateBlock name change =>
    simp only [perform, attempt, updateBlock]
    by_cases found : (s.block? name).isSome
    · rw [if_pos found]
      exact ⟨rfl, id⟩
    · rw [if_neg found]
      exact ⟨rfl, id⟩
  | beginLine | endLine | blankLine | addText | addLine | addComment | addToken => exact ⟨rfl, id⟩

theorem performAll_scopes (s : Stage) (ops : List Operation) :
    (s.performAll ops).scopes.length = ops.foldl Operation.openAfter s.scopes.length ∧
      (s.Aligned → (s.performAll ops).Aligned) := by
  induction ops generalizing s with
  | nil => exact ⟨rfl, id⟩
  | cons op rest ih =>
    obtain ⟨scopes, aligned⟩ := s.perform_scopes op
    obtain ⟨later, aligned'⟩ := ih (s.perform op)
    have here : (s.perform op).scopes.length = op.openAfter s.scopes.length := by
      rw [scopes]
      cases op <;> simp [Operation.openAfter]
    rw [performAll, foldl_cons, foldl_cons, ← here]
    exact ⟨later, aligned' ∘ aligned⟩

theorem closeScope_fails_iff (s : Stage) (semicolon : Bool) :
    (∃ f, s.closeScope semicolon = .error f) ↔ s.scopes = [] := by
  cases opened : s.scopes with
  | nil => simp [closeScope_eq_fail opened, fail]
  | cons b rest =>
    obtain ⟨t, ok, _⟩ := closeScope_ok opened semicolon
    simp [ok]

theorem finalize_works_iff (s : Stage) : (∃ text, s.finalize = .ok text) ↔ s.scopes = [] := by
  rw [finalize]
  split
  · simp_all
  · simp_all [fail]

end Stage

def bracketPairs : List (Char × Char) := [('\x7b', '\x7d'), ('(', ')'), ('[', ']')]

def isOpening (c : Char) : Bool := bracketPairs.any fun pair => pair.1 == c

def isClosing (c : Char) : Bool := bracketPairs.any fun pair => pair.2 == c

def isBracket (c : Char) : Bool := isOpening c || isClosing c

/-- Words in which every bracket has its partner. -/
inductive WellNested : List Char → Prop
  | nil : WellNested []
  | pair {opening closing : Char} {inner rest : List Char}
      (listed : (opening, closing) ∈ bracketPairs) (inside : WellNested inner) (after : WellNested rest) :
      WellNested (opening :: inner ++ closing :: rest)

namespace WellNested

theorem append {first second : List Char} (one : WellNested first) (two : WellNested second) :
    WellNested (first ++ second) := by
  induction one with
  | nil => exact two
  | pair listed inside _ _ ih => simpa using pair listed inside ih

theorem enclose {inner : List Char} (inside : WellNested inner) (b : Brackets) :
    WellNested (b.opening.toList ++ inner ++ b.closing.toList) := by
  cases b with
  | none => simpa [Brackets.opening, Brackets.closing] using inside
  | braces | parentheses | squares =>
    exact pair (by decide) inside nil

theorem opened_eq_closed (nested : WellNested word) :
    word.countP isOpening = word.countP isClosing := by
  induction nested with
  | nil => rfl
  | @pair opening closing inner rest listed _ _ inside after =>
    have kinds : isOpening opening ∧ isClosing opening = false ∧
        isOpening closing = false ∧ isClosing closing := by
      simp only [bracketPairs, mem_cons, Prod.mk.injEq, not_mem_nil, or_false] at listed
      obtain ⟨rfl, rfl⟩ | ⟨rfl, rfl⟩ | ⟨rfl, rfl⟩ := listed <;> decide
    simp [kinds]
    omega

end WellNested

namespace Brackets

def closings (scopes : List Brackets) : List Char := scopes.flatMap fun b => b.closing.toList

theorem closed_closings (scopes : List Brackets) :
    (closings scopes).countP isOpening = 0 ∧
      (closings scopes).countP isClosing = scopes.countP (· ≠ .none) := by
  induction scopes with
  | nil => exact ⟨rfl, rfl⟩
  | cons b rest ih =>
    have own : b.closing.toList.countP isOpening = 0 ∧
        b.closing.toList.countP isClosing = if b = .none then 0 else 1 := by
      cases b <;> decide
    obtain ⟨opened, closed⟩ := ih
    simp only [closings, flatMap_cons, countP_append, countP_cons] at opened closed ⊢
    rw [own.1, own.2, opened, closed]
    cases b <;> simp [Nat.add_comm]

end Brackets

inductive Pending : List Brackets → List Char → Prop
  | closed {word : List Char} (nested : WellNested word) : Pending [] word
  | opened {scopes : List Brackets} {outer inner : List Char} (b : Brackets)
      (around : Pending scopes outer) (inside : WellNested inner) :
      Pending (b :: scopes) (outer ++ b.opening.toList ++ inner)

namespace Pending

variable {scopes : List Brackets}

theorem append (pending : Pending scopes word) {more : List Char} (nested : WellNested more) :
    Pending scopes (word ++ more) := by
  cases pending with
  | closed before => exact .closed (before.append nested)
  | opened b around inside =>
    rw [append_assoc]
    exact .opened b around (inside.append nested)

theorem openScope (pending : Pending scopes word) (b : Brackets) :
    Pending (b :: scopes) (word ++ b.opening.toList) := by
  simpa using Pending.opened b pending .nil

theorem closeScope (pending : Pending (b :: scopes) word) :
    Pending scopes (word ++ b.closing.toList) := by
  cases pending with
  | opened _ around inside => simpa using around.append (inside.enclose b)

theorem completed (pending : Pending scopes word) : WellNested (word ++ Brackets.closings scopes) := by
  induction scopes generalizing word with
  | nil =>
    cases pending with
    | closed nested => simpa [Brackets.closings] using nested
  | cons b rest ih => simpa [Brackets.closings] using ih pending.closeScope

theorem nested_iff (pending : Pending scopes word) (visible : ∀ b ∈ scopes, b ≠ .none) :
    WellNested word ↔ scopes = [] := by
  constructor
  · intro nested
    have all := pending.completed.opened_eq_closed
    have own := nested.opened_eq_closed
    obtain ⟨opened, closed⟩ := Brackets.closed_closings scopes
    have none : scopes.countP (· ≠ .none) = 0 := by
      rw [countP_append, countP_append, opened, closed] at all
      omega
    rw [countP_eq_length.2 (by simpa using visible)] at none
    exact length_eq_zero_iff.1 none
  · rintro rfl
    cases pending with
    | closed nested => exact nested

end Pending

theorem Stage.indentation_brackets : (Stage.indentation level).toList.filter isBracket = [] := by
  induction level with
  | zero => rfl
  | succ level ih =>
    rw [Stage.indentation, replicate_succ, String.join_cons, String.toList_append,
      filter_append]
    exact ih

namespace Stage

def bracketsAdded (s : Stage) (op : Operation) : List Char :=
  match op with
  | .openScope _ | .closeScope _ =>
    ((s.perform op).source.toList.drop s.source.toList.length).filter isBracket
  | _ => []

/-- The brackets that the operations on scopes write, one after the other. -/
def bracketWord (s : Stage) : List Operation → List Char
  | [] => []
  | op :: rest => s.bracketsAdded op ++ (s.perform op).bracketWord rest

theorem bracketRows_opening (b : Brackets) :
    (Text.unlines (Code.bracketRows level b b.opening)).toList.filter isBracket =
      b.opening.toList := by
  cases b <;> simp +decide [Code.bracketRows, indentation_brackets, Brackets.opening]

theorem bracketRows_closing (b : Brackets) (semicolon : Bool) :
    (Text.unlines (Code.bracketRows level b (b.closing ++ if semicolon then ";" else
      ""))).toList.filter isBracket = b.closing.toList := by
  cases b <;> cases semicolon <;>
    simp +decide [Code.bracketRows, indentation_brackets, Brackets.closing]

theorem bracketsAdded_openScope (s : Stage) (b : Brackets) :
    s.bracketsAdded (.openScope b) = b.opening.toList := by
  rw [bracketsAdded, perform_ok rfl, (s.openScope_ok b).1, String.toList_append, drop_left,
    bracketRows_opening]

variable {s : Stage}

theorem bracketsAdded_closeScope (opened : s.scopes = b :: rest) (semicolon : Bool) :
    s.bracketsAdded (.closeScope semicolon) = b.closing.toList := by
  obtain ⟨t, ok, _, _, source⟩ := closeScope_ok opened semicolon
  rw [bracketsAdded, perform_ok (show s.attempt (.closeScope semicolon) = .ok t from ok), source,
    String.toList_append, drop_left, bracketRows_closing]

theorem bracketsAdded_closed (closed : s.scopes = []) (semicolon : Bool) :
    s.bracketsAdded (.closeScope semicolon) = [] := by
  simp [bracketsAdded, perform_closeScope_closed closed]

theorem perform_pending (pending : Pending s.scopes word) (op : Operation) :
    Pending (s.perform op).scopes (word ++ s.bracketsAdded op) := by
  rw [(s.perform_scopes op).1]
  cases op with
  | openScope b =>
    rw [bracketsAdded_openScope]
    exact pending.openScope b
  | closeScope semicolon =>
    cases opened : s.scopes with
    | nil =>
      rw [bracketsAdded_closed opened, append_nil]
      simpa [opened] using pending
    | cons b rest =>
      rw [bracketsAdded_closeScope opened]
      exact (opened ▸ pending).closeScope
  | beginLine | endLine | blankLine | addText | addLine | addComment | addLines | createBlock
  | updateBlock | addFunction | addToken =>
    simpa [bracketsAdded] using pending

theorem performAll_pending (pending : Pending s.scopes word) (ops : List Operation) :
    Pending (s.performAll ops).scopes (word ++ s.bracketWord ops) := by
  induction ops generalizing s word with
  | nil => simpa [performAll, bracketWord] using pending
  | cons op rest ih =>
    rw [bracketWord, ← append_assoc]
    exact ih (s.perform_pending pending op)

theorem start_pending (name entryPoint : String) (ops : List Operation) :
    Pending ((start name entryPoint).performAll ops).scopes
      ((start name entryPoint).bracketWord ops) := by
  have fresh : Pending (start name entryPoint).scopes [] := .closed .nil
  exact performAll_pending fresh ops

structure Reaches (s t : Stage) : Prop where
  operations : ∃ ops, s.attemptAll ops = .ok t
  scopes : t.scopes = s.scopes
  name : t.name = s.name

namespace Reaches

variable {s t u : Stage}

theorem refl (s : Stage) : s.Reaches s := ⟨⟨[], rfl⟩, rfl, rfl⟩

theorem trans (first : s.Reaches t) (second : t.Reaches u) : s.Reaches u := by
  obtain ⟨ops, ran⟩ := first.operations
  obtain ⟨more, later⟩ := second.operations
  exact ⟨⟨ops ++ more, attemptAll_append ran later⟩, second.scopes.trans first.scopes,
    second.name.trans first.name⟩

theorem step (op : Operation) (ok : s.attempt op = .ok t) (scopes : t.scopes = s.scopes)
    (name : t.name = s.name) : s.Reaches t :=
  ⟨⟨[op], bind_ok.2 ⟨t, ok, rfl⟩⟩, scopes, name⟩

end Reaches

theorem createBlock_reaches (s : Stage) (kind : BlockKind) (name access : String) :
    s.Reaches (s.createBlock kind name access) := by
  have kept : (s.createBlock kind name access).scopes = s.scopes ∧
      (s.createBlock kind name access).name = s.name := by
    unfold createBlock
    split <;> exact ⟨rfl, rfl⟩
  exact .step (.createBlock kind name access) rfl kept.1 kept.2

theorem addToken_reaches (s : Stage) (token replacement : String) :
    s.Reaches (s.addToken token replacement) :=
  .step (.addToken token replacement) rfl rfl rfl

theorem updateBlock_reaches {s t : Stage} {name : String} {change : Block → Block}
    (ok : s.updateBlock name change = .ok t) : s.Reaches t := by
  have kept := ok
  unfold updateBlock at kept
  split at kept
  · cases kept
    exact .step (.updateBlock name change) ok rfl rfl
  · cases kept

theorem noteAssigned_reaches (s : Stage) (block name : String) :
    s.Reaches (s.noteAssigned block name) := by
  by_cases found : (s.block? block).isSome
  · have ok : s.updateBlock block (fun b => b.assign name) = .ok (s.noteAssigned block name) := by
      rw [updateBlock, if_pos found]
      rfl
    exact updateBlock_reaches ok
  · have other : ∀ b ∈ s.blocks, b.name ≠ block := by
      simpa [block?] using found
    have unchanged : (s.blocks.map fun b => if b.name = block then b.assign name else b) =
        s.blocks := by
      conv_rhs => rw [← map_id s.blocks]
      exact map_congr_left fun b member => if_neg (other b member)
    rw [noteAssigned, unchanged]
    exact .refl s

theorem write_operations {s t : Stage} {c : Code} (ok : s.write c = .ok t) :
    ∃ ops, s.attemptAll ops = .ok t := by
  have single (op : Operation) (done : s.attempt op = .ok t) : ∃ ops, s.attemptAll ops = .ok t :=
    ⟨[op], bind_ok.2 ⟨t, done, rfl⟩⟩
  cases c with
  | line text => exact single (.addLine text false) ok
  | statement text => exact single (.addLine text true) ok
  | blank => exact single .blankLine ok
  | lines text => exact single (.addLines text) ok
  | openScope b => exact single (.openScope b) ok
  | closeScope semicolon => exact single (.closeScope semicolon) ok
  | function key => exact single (.addFunction key) ok
  | definition key text =>
    rw [write] at ok
    split at ok
    · exact ⟨[], ok⟩
    · exact ⟨[.addFunction key, .addLines text, .blankLine], ok⟩
  | assignment block name text =>
    rw [write] at ok
    split at ok
    · exact ⟨[], ok⟩
    · obtain ⟨ops, noted⟩ := (s.noteAssigned_reaches block name).operations
      exact ⟨ops ++ [.addLine text true], attemptAll_append noted (bind_ok.2 ⟨_, rfl, ok⟩)⟩

theorem writeAll_reaches {s t : Stage} {code : List Code} (nested : Code.Nested code)
    (ok : s.writeAll code = .ok t) : s.Reaches t := by
  refine ⟨?_, Option.some.inj ((writeAll_scopes ok).symm.trans (nested _)), (writeAll_keeps ok).name⟩
  clear nested
  induction code generalizing s with
  | nil => exact ⟨[], ok⟩
  | cons c rest ih =>
    obtain ⟨next, first, later⟩ := writeAll_cons_ok.1 ok
    obtain ⟨ops, done⟩ := write_operations first
    obtain ⟨more, others⟩ := ih later
    exact ⟨ops ++ more, attemptAll_append done others⟩

end Stage

end MaterialShader
