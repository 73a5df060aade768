import MaterialShader.Proofs.Result
import MaterialShader.Proofs.Stage.Token

/-!
What a stage writes of some code.
-/

namespace MaterialShader

open List
open Result (bind_ok)

namespace Text

def unlines (rows : List String) : String := String.join (rows.map (· ++ "\n"))

@[simp] theorem unlines_nil : unlines [] = "" := rfl

@[simp] theorem unlines_cons (row : String) (rows : List String) :
    unlines (row :: rows) = row ++ "\n" ++ unlines rows := by
  simp [unlines]

@[simp] theorem unlines_append (a b : List String) : unlines (a ++ b) = unlines a ++ unlines b := by
  simp [unlines]

end Text

namespace Code

/-- The scopes that are open after a step, the innermost first, unless it closes one too many. -/
def after (scopes : List Brackets) : Code → Option (List Brackets)
  | .openScope b => some (b :: scopes)
  | .closeScope _ => scopes.tail?
  | _ => some scopes

def levelAfter (level : Nat) : Code → Nat
  | .openScope _ => level + 1
  | .closeScope _ => level - 1
  | _ => level

def afterAll (scopes : List Brackets) : List Code → Option (List Brackets)
  | [] => some scopes
  | c :: rest => (c.after scopes).bind fun next => afterAll next rest

theorem afterAll_append (scopes : List Brackets) (a b : List Code) :
    afterAll scopes (a ++ b) = (afterAll scopes a).bind fun next => afterAll next b := by
  induction a generalizing scopes with
  | nil => rfl
  | cons c rest ih => simp [afterAll, ih, Option.bind_assoc]

def Nested (code : List Code) : Prop := ∀ scopes, afterAll scopes code = some scopes

def isFlat : Code → Bool
  | .openScope _ => false
  | .closeScope _ => false
  | _ => true

theorem after_of_isFlat {c : Code} (flat : c.isFlat) (scopes : List Brackets) :
    c.after scopes = some scopes := by
  cases c with
  | openScope | closeScope => cases flat
  | _ => rfl

namespace Nested

variable {body rest : List Code}

theorem nil : Nested [] := fun _ => rfl

theorem append {a b : List Code} (first : Nested a) (second : Nested b) : Nested (a ++ b) := by
  intro scopes
  rw [afterAll_append, first, Option.bind_some, second]

theorem cons {c : Code} (flat : c.isFlat) (later : Nested rest) : Nested (c :: rest) := by
  intro scopes
  rw [afterAll, after_of_isFlat flat, Option.bind_some, later]

theorem of_line {c : Code} (flat : c.isFlat) : Nested [c] := cons flat nil

theorem of_flat {code : List Code} (flat : ∀ c ∈ code, c.isFlat) : Nested code := by
  induction code with
  | nil => exact nil
  | cons c rest ih =>
    rw [forall_mem_cons] at flat
    exact cons flat.1 (ih flat.2)

theorem flatten {parts : List (List Code)} (all : ∀ part ∈ parts, Nested part) :
    Nested parts.flatten := by
  induction parts with
  | nil => exact nil
  | cons part others ih =>
    rw [forall_mem_cons] at all
    exact append all.1 (ih all.2)

theorem ite {a b : List Code} (first : Nested a) (second : Nested b) (p : Prop) [Decidable p] :
    Nested (if p then a else b) := by
  split
  · exact first
  · exact second

theorem scope (inside : Nested body) (b : Brackets) (semicolon : Bool) (later : Nested rest) :
    Nested (.openScope b :: (body ++ .closeScope semicolon :: rest)) := by
  intro scopes
  rw [afterAll, after, Option.bind_some, afterAll_append, inside]
  exact later scopes

theorem block (inside : Nested body) (head : String) (semicolon : Bool) :
    Nested (Code.block head body semicolon) := by
  have blank : Nested [.blank] := cons rfl nil
  simpa [Code.block] using cons (c := .line head) rfl (scope inside .braces semicolon blank)

end Nested

def bracketRows (level : Nat) (brackets : Brackets) (text : String) : List String :=
  if brackets = .none then [] else [Stage.indentation level ++ text]

def textRows (level : Nat) (text : String) : List String :=
  (Text.lines (Text.dropFinalNewlines text)).map fun line =>
    if Text.isAllBlank line then "" else Stage.indentation level ++ line

def rows (level : Nat) (innermost : Option Brackets) : Code → List String
  | .line text => [Stage.indentation level ++ text]
  | .statement text => [Stage.indentation level ++ text ++ ";"]
  | .blank => [""]
  | .lines text => textRows level text
  | .openScope b => bracketRows level b b.opening
  | .closeScope semicolon =>
    match innermost with
    | none => []
    | some b => bracketRows (level - 1) b (b.closing ++ if semicolon then ";" else "")
  | .function _ => []
  | .definition _ text => textRows level text ++ [""]
  | .assignment _ _ text => [Stage.indentation level ++ text ++ ";"]

def rowsAll (scopes : List Brackets) : List Code → List String
  | [] => []
  | c :: rest => rows scopes.length scopes.head? c ++ rowsAll ((c.after scopes).getD []) rest

theorem rowsAll_append {scopes inner : List Brackets} {a : List Code}
    (opened : afterAll scopes a = some inner) (b : List Code) :
    rowsAll scopes (a ++ b) = rowsAll scopes a ++ rowsAll inner b := by
  induction a generalizing scopes with
  | nil =>
    cases opened
    rfl
  | cons c rest ih =>
    obtain ⟨next, first, later⟩ := Option.bind_eq_some_iff.1 opened
    simp [rowsAll, first, ih later]

def lineTexts : Code → List String
  | .line text => [text]
  | .statement text => [text]
  | .lines text => Text.lines (Text.dropFinalNewlines text)
  | .definition _ text => Text.lines (Text.dropFinalNewlines text)
  | .assignment _ _ text => [text]
  | _ => []

def lineTextsAll (code : List Code) : List String := code.flatMap lineTexts

@[simp] theorem lineTextsAll_nil : lineTextsAll [] = [] := rfl

@[simp] theorem lineTextsAll_cons (c : Code) (rest : List Code) :
    lineTextsAll (c :: rest) = c.lineTexts ++ lineTextsAll rest := rfl

@[simp] theorem lineTextsAll_append (a b : List Code) :
    lineTextsAll (a ++ b) = lineTextsAll a ++ lineTextsAll b := flatMap_append

end Code

namespace Stage

def effective (s : Stage) : Code → List Code
  | .function _ => []
  | .definition key text => if s.hasFunction key then [] else [.definition key text]
  | .assignment block variableName text =>
    if s.isAssigned block variableName then [] else [.assignment block variableName text]
  | c => [c]

def effectiveAll (s : Stage) : List Code → List Code
  | [] => []
  | c :: rest =>
    match s.write c with
    | .ok next => s.effective c ++ next.effectiveAll rest
    | .error _ => []

variable {s t : Stage} {c : Code} {code rest : List Code}

theorem effectiveAll_cons (ok : s.write c = .ok t) (rest : List Code) :
    s.effectiveAll (c :: rest) = s.effective c ++ t.effectiveAll rest := by
  rw [effectiveAll, ok]

theorem writeAll_cons_ok :
    s.writeAll (c :: rest) = .ok t ↔ ∃ next, s.write c = .ok next ∧ next.writeAll rest = .ok t :=
  bind_ok

theorem writeAll_append_ok {a b : List Code} :
    s.writeAll (a ++ b) = .ok t ↔ ∃ next, s.writeAll a = .ok next ∧ next.writeAll b = .ok t := by
  induction a generalizing s with
  | nil => simp [writeAll]
  | cons c rest ih =>
    simp only [cons_append, writeAll_cons_ok, ih]
    grind

theorem effectiveAll_append {a : List Code} (ok : s.writeAll a = .ok t) (b : List Code) :
    s.effectiveAll (a ++ b) = s.effectiveAll a ++ t.effectiveAll b := by
  induction a generalizing s with
  | nil =>
    cases ok
    rfl
  | cons c rest ih =>
    obtain ⟨next, first, later⟩ := writeAll_cons_ok.1 ok
    rw [cons_append, effectiveAll_cons first, effectiveAll_cons first, ih later, append_assoc]

theorem addLines_eq (s : Stage) (text : String) :
    s.addLines text =
      { s with source := s.source ++ Text.unlines (Code.textRows s.indent text) } := by
  unfold addLines Code.textRows
  generalize Text.lines (Text.dropFinalNewlines text) = lines
  induction lines generalizing s with
  | nil => simp
  | cons line rest ih =>
    rw [foldl_cons, ih]
    split
    · rename_i blank
      simp [blank, blankLine, addText, String.append_assoc]
    · rename_i visible
      simp [visible, addLine, beginLine, endLine, addText, lineEnd, String.append_assoc]

def noted (s : Stage) : Code → Stage
  | .function key => s.addFunction key
  | .definition key _ => s.addFunction key
  | .assignment block variableName _ =>
    if s.isAssigned block variableName then s else s.noteAssigned block variableName
  | _ => s

theorem write_eq (s : Stage) (c : Code) :
    s.write c =
      match c.after s.scopes with
      | none => fail (.noOpenScope s.name)
      | some scopes => .ok { s.noted c with
          source := s.source ++ Text.unlines
            ((s.effective c).flatMap (Code.rows s.indent s.scopes.head?))
          scopes := scopes
          indent := c.levelAfter s.indent } := by
  have function (key : String) : (s.addFunction key).source = s.source ∧
      (s.addFunction key).scopes = s.scopes ∧ (s.addFunction key).indent = s.indent := by
    unfold addFunction
    split <;> exact ⟨rfl, rfl, rfl⟩
  cases c with
  | line text | statement text =>
    simp [write, addLine, beginLine, endLine, addText, lineEnd, noted, effective, Code.rows,
      Code.after, Code.levelAfter, String.append_assoc]
  | blank => simp [write, blankLine, addText, noted, effective, Code.rows, Code.after, Code.levelAfter]
  | lines text => simp [write, addLines_eq, noted, effective, Code.rows, Code.after, Code.levelAfter]
  | openScope b =>
    by_cases none : b = .none <;>
      simp [none, write, openScope, addLine, beginLine, endLine, addText, lineEnd, noted, effective,
        Code.rows, Code.bracketRows, Code.after, Code.levelAfter, String.append_assoc]
  | closeScope semicolon =>
    cases opened : s.scopes with
    | nil => simp [write, closeScope, opened, Code.after]
    | cons b outer =>
      by_cases none : b = .none <;> cases semicolon <;>
        simp [none, opened, write, closeScope, addLine, beginLine, endLine, addText, lineEnd, noted,
          effective, Code.rows, Code.bracketRows, Code.after, Code.levelAfter, String.append_assoc]
  | function key =>
    simp [write, noted, effective, Code.after, Code.levelAfter, ← function key]
  | definition key text =>
    by_cases known : s.hasFunction key
    · simp [write, known, noted, effective, addFunction, Code.after, Code.levelAfter]
    · simp [write, known, addLines_eq, blankLine, addText, noted, effective, function key,
        Code.rows, Code.after, Code.levelAfter, String.append_assoc]
  | assignment block name text =>
    by_cases given : s.isAssigned block name
    · simp [write, given, noted, effective, Code.after, Code.levelAfter]
    · simp [write, given, addLine, beginLine, endLine, addText, lineEnd, noteAssigned, noted,
        effective, Code.rows, Code.after, Code.levelAfter, String.append_assoc]

theorem write_ok : s.write c = .ok t ↔ c.after s.scopes = some t.scopes ∧ t = { s.noted c with
    source := s.source ++ Text.unlines
      ((s.effective c).flatMap (Code.rows s.indent s.scopes.head?))
    scopes := t.scopes
    indent := c.levelAfter s.indent } := by
  rw [write_eq]
  cases c.after s.scopes with
  | none => simp [fail]
  | some scopes =>
    simp only [Except.ok.injEq, Option.some.injEq]
    constructor
    · rintro rfl
      exact ⟨rfl, rfl⟩
    · rintro ⟨rfl, same⟩
      exact same.symm

theorem writeAll_after (s : Stage) (code : List Code) :
    (s.writeAll code).toOption.map Stage.scopes = Code.afterAll s.scopes code := by
  induction code generalizing s with
  | nil => rfl
  | cons c rest ih =>
    rw [writeAll, write_eq, Code.afterAll]
    cases c.after s.scopes with
    | none => rfl
    | some scopes => exact ih _

theorem writeAll_scopes (ok : s.writeAll code = .ok t) :
    Code.afterAll s.scopes code = some t.scopes := by
  rw [← writeAll_after, ok]
  rfl

theorem writeAll_nested (s : Stage) (nested : Code.Nested code) :
    ∃ t, s.writeAll code = .ok t ∧ t.scopes = s.scopes := by
  have written := s.writeAll_after code
  rw [nested] at written
  obtain ⟨t, ok, same⟩ := Option.map_eq_some_iff.1 written
  exact ⟨t, Result.toOption_eq_some.1 ok, same⟩

theorem effective_eq (s : Stage) (c : Code) :
    s.effective c = [] ∧ c.isFlat ∨ s.effective c = [c] := by
  cases c with
  | definition key text | assignment block name text =>
    rw [effective]
    split
    · exact .inl ⟨rfl, rfl⟩
    · exact .inr rfl
  | function key => exact .inl ⟨rfl, rfl⟩
  | _ => exact .inr rfl

theorem effective_after (s : Stage) (c : Code) (scopes : List Brackets) :
    Code.afterAll scopes (s.effective c) = c.after scopes := by
  obtain ⟨none, flat⟩ | single := s.effective_eq c
  · rw [none, Code.after_of_isFlat flat]
    rfl
  · simp [single, Code.afterAll]

theorem effectiveAll_after (ok : s.writeAll code = .ok t) (scopes : List Brackets) :
    Code.afterAll scopes (s.effectiveAll code) = Code.afterAll scopes code := by
  induction code generalizing s scopes with
  | nil => rfl
  | cons c rest ih =>
    obtain ⟨next, first, later⟩ := writeAll_cons_ok.1 ok
    rw [effectiveAll_cons first, Code.afterAll_append, effective_after, Code.afterAll]
    simp only [ih later]

def Aligned (s : Stage) : Prop := s.indent = s.scopes.length

theorem write_aligned (aligned : s.Aligned) (ok : s.write c = .ok t) : t.Aligned := by
  obtain ⟨opened, same⟩ := write_ok.1 ok
  have level : t.indent = c.levelAfter s.scopes.length := by rw [same, aligned]
  rw [Aligned, level]
  cases c with
  | closeScope semicolon =>
    cases inside : s.scopes with
    | nil => simp [Code.after, inside] at opened
    | cons b outer =>
      rw [inside] at opened
      cases opened
      rfl
  | _ =>
    rw [← Option.some.inj opened]
    rfl

theorem writeAll_source (aligned : s.Aligned) (ok : s.writeAll code = .ok t) :
    t.source = s.source ++ Text.unlines (Code.rowsAll s.scopes (s.effectiveAll code)) ∧
      t.Aligned := by
  induction code generalizing s with
  | nil =>
    cases ok
    simpa [effectiveAll, Code.rowsAll] using aligned
  | cons c rest ih =>
    obtain ⟨next, first, later⟩ := writeAll_cons_ok.1 ok
    obtain ⟨others, last⟩ := ih (write_aligned aligned first) later
    obtain ⟨opened, same⟩ := write_ok.1 first
    have here : next.source = s.source ++ Text.unlines (Code.rowsAll s.scopes (s.effective c)) := by
      rw [same, aligned]
      obtain ⟨none, _⟩ | single := s.effective_eq c <;> simp [*, Code.rowsAll]
    rw [effectiveAll_cons first, Code.rowsAll_append ((s.effective_after c _).trans opened), others,
      here]
    exact ⟨by simp [String.append_assoc], last⟩

theorem effectiveAll_sublist (s : Stage) (code : List Code) :
    (Code.lineTextsAll (s.effectiveAll code)).Sublist (Code.lineTextsAll code) := by
  induction code generalizing s with
  | nil => exact nil_sublist _
  | cons c rest ih =>
    rw [effectiveAll]
    split
    · have here : (Code.lineTextsAll (s.effective c)).Sublist c.lineTexts := by
        obtain ⟨none, _⟩ | single := s.effective_eq c <;> simp [*]
      rw [Code.lineTextsAll_append]
      exact here.append (ih _)
    · exact nil_sublist _

end Stage

def Code.isPlain : Code → Bool
  | .function _ => false
  | .definition .. => false
  | .assignment .. => false
  | _ => true

namespace Stage

variable {s t : Stage} {c : Code} {code : List Code}

theorem write_plain (plain : c.isPlain) (ok : s.write c = .ok t) :
    s.effective c = [c] ∧ t.blocks = s.blocks := by
  rw [(write_ok.1 ok).2]
  cases c with
  | function | definition | assignment => simp [Code.isPlain] at plain
  | _ => exact ⟨rfl, rfl⟩

theorem writeAll_plain (plain : code.all Code.isPlain) (ok : s.writeAll code = .ok t) :
    s.effectiveAll code = code ∧ t.blocks = s.blocks := by
  induction code generalizing s with
  | nil =>
    cases ok
    exact ⟨rfl, rfl⟩
  | cons c rest ih =>
    rw [all_cons, Bool.and_eq_true] at plain
    obtain ⟨next, first, later⟩ := writeAll_cons_ok.1 ok
    obtain ⟨same, blocks⟩ := write_plain plain.1 first
    obtain ⟨others, blocks'⟩ := ih plain.2 later
    rw [effectiveAll_cons first, same, others, blocks', blocks]
    exact ⟨rfl, rfl⟩

end Stage

namespace Code

def assigns (block name : String) : Code → Bool
  | .assignment b n _ => b == block && n == name
  | _ => false

def isSingle : Code → Bool
  | .statement _ => true
  | .assignment .. => true
  | _ => false

end Code

theorem Block.find?_assign (b : Block) (name other : String) :
    (b.assign name).find? other =
      (b.find? other).map fun v => if v.name = name then { v with assigned := true } else v := by
  have same : (fun v : StageVariable => v.name == other) ∘
      (fun v => if v.name = name then { v with assigned := true } else v) =
        fun v => v.name == other := by
    funext v
    by_cases here : v.name = name <;> simp [here]
  simp only [assign, find?, List.find?_map, same]

namespace Stage

theorem block?_noteAssigned (s : Stage) (block name other : String) :
    (s.noteAssigned block name).block? other =
      (s.block? other).map fun b => if b.name = block then b.assign name else b := by
  have same : (fun b : Block => b.name == other) ∘
      (fun b => if b.name = block then b.assign name else b) = fun b => b.name == other := by
    funext b
    by_cases here : b.name = block <;> simp [here, Block.assign]
  simp only [noteAssigned, block?, List.find?_map, same]

/-- The stage has the variable in the block. -/
def Declares (s : Stage) (block name : String) : Prop :=
  ∃ b, s.block? block = some b ∧ b.contains name = true

section

variable {s : Stage} {block name : String} (declared : s.Declares block name)

include declared

theorem Declares.noteAssigned (other variableName : String) :
    (s.noteAssigned other variableName).Declares block name := by
  obtain ⟨b, found, contained⟩ := declared
  refine ⟨_, by rw [block?_noteAssigned, found]; rfl, ?_⟩
  dsimp only
  split
  · simpa [Block.contains, Block.find?_assign] using contained
  · exact contained

theorem isAssigned_noteAssigned (other variableName : String) :
    (s.noteAssigned other variableName).isAssigned block name =
      (decide (other = block ∧ variableName = name) || s.isAssigned block name) := by
  obtain ⟨b, found, contained⟩ := declared
  obtain ⟨v, at_⟩ := Option.isSome_iff_exists.1 contained
  have blockName : b.name = block := by simpa using List.find?_some found
  have variableName_ : v.name = name := by simpa using List.find?_some at_
  simp only [isAssigned, block?_noteAssigned, found, Option.map_some, blockName, at_]
  by_cases here : block = other
  · by_cases there : name = variableName
    · subst there
      simp [here, Block.find?_assign, at_, variableName_]
    · simp [here, there, Ne.symm there, Block.find?_assign, at_, variableName_]
  · simp [here, Ne.symm here, at_]

theorem countP_effectiveAll {code : List Code} (single : ∀ c ∈ code, c.isSingle) :
    (s.effectiveAll code).countP (Code.assigns block name) =
      if s.isAssigned block name = false ∧ code.any (Code.assigns block name) then 1
      else 0 := by
  induction code generalizing s with
  | nil => simp [effectiveAll]
  | cons c rest ih =>
    have later : ∀ c ∈ rest, c.isSingle := fun c member =>
      single c (.tail _ member)
    have here := single c mem_cons_self
    cases c with
    | statement text =>
      have kept : (s.addLine text true).Declares block name := declared
      have whole : s.effectiveAll (.statement text :: rest) =
          .statement text :: (s.addLine text true).effectiveAll rest := rfl
      rw [whole, countP_cons, ih kept later]
      simp only [any_cons, Code.assigns, Bool.false_or]
      rfl
    | assignment other variableName text =>
      by_cases given : s.isAssigned other variableName
      · have wrote : s.write (.assignment other variableName text) = .ok s := if_pos given
        rw [effectiveAll_cons wrote, effective, if_pos given, nil_append, ih declared later,
          any_cons]
        by_cases this : other = block ∧ variableName = name
        · obtain ⟨rfl, rfl⟩ := this
          simp [given]
        · have differs : Code.assigns block name (.assignment other variableName text) = false := by
            simpa [Code.assigns] using this
          rw [differs, Bool.false_or]
      · have kept : ((s.noteAssigned other variableName).addLine text true).Declares block name :=
          declared.noteAssigned other variableName
        have noted : ((s.noteAssigned other variableName).addLine text true).isAssigned block name =
            (decide (other = block ∧ variableName = name) || s.isAssigned block name) :=
          isAssigned_noteAssigned declared other variableName
        have wrote : s.write (.assignment other variableName text) =
            .ok ((s.noteAssigned other variableName).addLine text true) := if_neg given
        rw [effectiveAll_cons wrote, effective, if_neg given, countP_append, countP_singleton,
          ih kept later, noted, any_cons]
        by_cases this : other = block ∧ variableName = name
        · obtain ⟨rfl, rfl⟩ := this
          simp [Code.assigns, given]
        · have differs : Code.assigns block name (.assignment other variableName text) = false := by
            simpa [Code.assigns] using this
          simp [differs, this]
    | _ => simp [Code.isSingle] at here

end

end Stage

end MaterialShader
