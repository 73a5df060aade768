import Mathlib.Data.List.Chain
import Mathlib.Data.List.MinMax
import Mathlib.Data.String.Basic
import MaterialShader.Proofs.Stage.Beginning

/-!
Substitution as one pass.
-/

namespace MaterialShader.Token

open List

abbrev Entry := List Char × List Char

def pass (pick : List Char → Option Entry) : Nat → List Char → List Char
  | _, [] => []
  | k + 1, _ :: cs => pass pick k cs
  | 0, c :: cs =>
    match pick (c :: cs) with
    | some (token, replacement) => replacement ++ pass pick (token.length - 1) cs
    | none => c :: pass pick 0 cs

def first? (tokens : List Entry) (text : List Char) : Option Entry :=
  tokens.find? fun e => e.1.isPrefixOf text

def longest? (tokens : List Entry) (text : List Char) : Option Entry :=
  (tokens.filter fun e => e.1.isPrefixOf text).argmax fun e => e.1.length

def entries (tokens : List (String × String)) : List Entry :=
  tokens.map fun e => (e.1.toList, e.2.toList)

/-- The text after a pass that replaces the longest token at each place. -/
def onePass (tokens : List (String × String)) (source : String) : String :=
  String.ofList (pass (longest? (entries tokens)) 0 source.toList)

def isName : List Char → Bool
  | [] => false
  | c :: name => c == '$' && name.all Text.isIdentifierChar

/-- Tokens are names, and their replacements have no mark. -/
def Named (tokens : List Entry) : Prop := ∀ e ∈ tokens, isName e.1 ∧ '$' ∉ e.2

/-- Before each mark stands neither a mark nor a character of an identifier. -/
abbrev Apart (text : List Char) : Prop :=
  text.IsChain fun c d => d = '$' → c ≠ '$' ∧ ¬ Text.isIdentifierChar c

theorem isName_iff {token : List Char} :
    isName token ↔ ∃ name, token = '$' :: name ∧ name.all Text.isIdentifierChar := by
  cases token <;> simp [isName]

variable {tokens a b : List Entry} {pick : List Char → Option Entry} {c : Char} {cs : List Char}

theorem pass_drop (k : Nat) (text : List Char) : pass pick k text = pass pick 0 (text.drop k) := by
  induction text generalizing k with
  | nil => simp [pass]
  | cons c cs ih =>
    cases k with
    | zero => rfl
    | succ k => simp only [pass, drop_succ_cons, ih k]

theorem pass_none (missing : pick (c :: cs) = none) :
    pass pick 0 (c :: cs) = c :: pass pick 0 cs := by
  rw [pass, missing]

theorem pass_name {name replacement rest : List Char}
    (found : pick ('$' :: (name ++ rest)) = some ('$' :: name, replacement)) :
    pass pick 0 ('$' :: (name ++ rest)) = replacement ++ pass pick 0 rest := by
  rw [pass, found]
  dsimp only
  rw [pass_drop, length_cons, Nat.add_sub_cancel, drop_left]

theorem replaceFrom_eq_pass (token replacement text : List Char) (k : Nat) :
    Text.replaceFrom token replacement k text = pass (first? [(token, replacement)]) k text := by
  induction text generalizing k with
  | nil => simp [Text.replaceFrom, pass]
  | cons c cs ih =>
    cases k with
    | succ k => exact ih k
    | zero =>
      rw [Text.replaceFrom, pass, ih, ih, first?, List.find?_cons]
      cases token.isPrefixOf (c :: cs) <;> rfl

theorem first?_append (text : List Char) :
    first? (a ++ b) text = (first? a text).or (first? b text) :=
  List.find?_append

theorem first?_unmarked (named : Named tokens) (unmarked : c ≠ '$') :
    first? tokens (c :: cs) = none := by
  refine List.find?_eq_none.2 fun e member stands => unmarked ?_
  obtain ⟨name, token, _⟩ := isName_iff.1 (named e member).1
  rw [token, isPrefixOf_iff_prefix] at stands
  exact (cons_prefix_cons.1 stands).1.symm

theorem first?_cases (named : Named tokens) (text : List Char) :
    first? tokens text = none ∨
      ∃ name replacement rest, text = '$' :: (name ++ rest) ∧ '$' ∉ name ∧ '$' ∉ replacement ∧
        first? tokens text = some ('$' :: name, replacement) := by
  cases found : first? tokens text with
  | none => exact .inl rfl
  | some e =>
    obtain ⟨token, replacement⟩ := e
    obtain ⟨isName, plain⟩ := named _ (mem_of_find?_eq_some found)
    obtain ⟨name, rfl, letters⟩ := isName_iff.1 isName
    have stands := List.find?_some (l := tokens) found
    obtain ⟨rest, split⟩ := isPrefixOf_iff_prefix.1 stands
    have unmarked : '$' ∉ name := fun member =>
      absurd (all_eq_true.1 letters _ member) (by decide)
    exact .inr ⟨name, replacement, rest, split.symm, unmarked, plain, rfl⟩

theorem pass_append (named : Named tokens) {front : List Char} (unmarked : '$' ∉ front)
    (rest : List Char) :
    pass (first? tokens) 0 (front ++ rest) = front ++ pass (first? tokens) 0 rest := by
  induction front with
  | nil => rfl
  | cons c cs ih =>
    simp only [mem_cons, not_or] at unmarked
    rw [cons_append, pass_none (first?_unmarked named (Ne.symm unmarked.1)), ih unmarked.2,
      cons_append]

theorem pass_nil (text : List Char) : pass (first? []) 0 text = text := by
  induction text with
  | nil => rfl
  | cons c cs ih => rw [pass_none rfl, ih]

theorem takeWhile_pass (named : Named tokens) (apart : Apart (c :: cs))
    (inside : c = '$' ∨ Text.isIdentifierChar c) :
    (pass (first? tokens) 0 cs).takeWhile Text.isIdentifierChar =
      cs.takeWhile Text.isIdentifierChar := by
  induction cs generalizing c with
  | nil => rfl
  | cons d ds ih =>
    rw [Apart, isChain_cons_cons] at apart
    have unmarked : d ≠ '$' := fun mark => inside.elim (apart.1 mark).1 (apart.1 mark).2
    rw [pass_none (first?_unmarked named unmarked), takeWhile_cons, takeWhile_cons]
    split
    · rename_i letter
      rw [ih apart.2 (.inr letter)]
    · rfl

theorem prefix_takeWhile {name text : List Char} (letters : name.all Text.isIdentifierChar) :
    name <+: text.takeWhile Text.isIdentifierChar ↔ name <+: text := by
  refine ⟨fun stands => stands.trans <| takeWhile_prefix _, ?_⟩
  rintro ⟨rest, rfl⟩
  rw [takeWhile_append_of_pos (all_eq_true.1 letters)]
  exact prefix_append _ _

theorem first?_pass (first : Named a) (second : Named b) (apart : Apart ('$' :: cs)) :
    first? b ('$' :: pass (first? a) 0 cs) = first? b ('$' :: cs) := by
  have same : ∀ e ∈ b,
      e.1.isPrefixOf ('$' :: pass (first? a) 0 cs) = e.1.isPrefixOf ('$' :: cs) := by
    intro e member
    obtain ⟨name, token, letters⟩ := isName_iff.1 (second e member).1
    rw [Bool.eq_iff_iff, isPrefixOf_iff_prefix, isPrefixOf_iff_prefix, token,
      cons_prefix_cons, cons_prefix_cons, ← prefix_takeWhile letters,
      takeWhile_pass first apart (.inl rfl), prefix_takeWhile letters]
  rw [first?, first?, ← List.head?_filter, ← List.head?_filter, filter_congr same]

theorem pass_pass (first : Named a) (second : Named b) {text : List Char} (apart : Apart text) :
    pass (first? b) 0 (pass (first? a) 0 text) = pass (first? (a ++ b)) 0 text := by
  -- A token is passed in one step, so the induction is on the length.
  induction size : text.length using Nat.strong_induction_on generalizing text with
  | _ size_ ih =>
    cases text with
    | nil => rfl
    | cons c cs =>
      have later : pass (first? b) 0 (pass (first? a) 0 cs) = pass (first? (a ++ b)) 0 cs :=
        ih cs.length (by simp [← size]) apart.tail rfl
      have behind : ∀ name rest, c :: cs = '$' :: (name ++ rest) →
          pass (first? b) 0 (pass (first? a) 0 rest) = pass (first? (a ++ b)) 0 rest := by
        intro name rest split
        rw [split] at apart size
        exact ih rest.length (by simp at size; omega) apart.tail.right_of_append rfl
      obtain missing | ⟨name, replacement, rest, split, _, plain, found⟩ :=
        first?_cases first (c :: cs)
      · have only : first? (a ++ b) (c :: cs) = first? b (c :: cs) := by
          rw [first?_append, missing, Option.none_or]
        rw [pass_none missing]
        by_cases mark : c = '$'
        · subst mark
          have same := first?_pass first second apart
          obtain absent | ⟨name, replacement, rest, split, unmarked, _, found⟩ :=
            first?_cases second ('$' :: cs)
          · rw [pass_none (same.trans absent), later, pass_none (only.trans absent)]
          · have after := behind name rest split
            obtain rfl := (List.cons.inj split).2
            rw [pass_name (only.trans found), ← after]
            rw [pass_append first unmarked] at same ⊢
            exact pass_name (same.trans found)
        · have absent {cs : List Char} : first? b (c :: cs) = none := first?_unmarked second mark
          rw [pass_none absent, later, pass_none (only.trans absent)]
      · have after := behind name rest split
        rw [split] at found ⊢
        rw [pass_name found, pass_append second plain, after]
        exact (pass_name (by rw [first?_append, found, Option.some_or])).symm

theorem replaceAll_eq_pass {e : String × String} (named : Named (entries [e])) (text : String) :
    (Text.replaceAll e.1 e.2 text).toList = pass (first? (entries [e])) 0 text.toList := by
  obtain ⟨_, token, _⟩ := isName_iff.1 (named _ (mem_singleton_self _)).1
  have nonempty : e.1.toList.isEmpty = false := by
    rw [show e.1.toList = _ from token]
    rfl
  simp only [Text.replaceAll, String.toList_ofList, Text.replaceChars, nonempty]
  exact replaceFrom_eq_pass ..

theorem foldl_replaceAll {order : List (String × String)} (named : Named (entries order))
    {source : String} (apart : Apart source.toList) :
    (order.foldl (fun text (token, replacement) => Text.replaceAll token replacement text)
      source).toList = pass (first? (entries order)) 0 source.toList := by
  induction order using List.reverseRecOn with
  | nil => exact (pass_nil _).symm
  | append_singleton order e ih =>
    rw [entries, map_append] at named ⊢
    obtain ⟨front, last⟩ := forall_mem_append.1 named
    rw [foldl_append, ← pass_pass front last apart]
    exact (replaceAll_eq_pass last _).trans (congrArg _ (ih front))

theorem not_infix_pass {e : String × String} {text : List Char} (named : Named a)
    (member : (e.1.toList, e.2.toList) ∈ a) (apart : Apart text) :
    ¬ e.1.toList <:+: pass (first? a) 0 text := by
  intro stands
  have alone : Named (entries [e]) := by simpa [Named, entries] using named _ member
  have picks : first? (a ++ entries [e]) = first? a := by
    funext text
    rw [first?_append]
    cases missing : first? a text with
    | some => rfl
    | none => simpa [first?, entries] using List.find?_eq_none.1 missing _ member
  have same := replaceAll_eq_pass alone (String.ofList (pass (first? a) 0 text))
  simp only [Text.replaceAll, String.toList_ofList, pass_pass named alone apart, picks] at same
  obtain ⟨name, token, _⟩ := isName_iff.1 (named _ member).1
  have marks : e.2.toList.count '$' < e.1.toList.count '$' := by
    rw [show e.1.toList = _ from token, count_eq_zero.2 (named _ member).2]
    simp
  have fewer := Text.replaceChars_count_lt marks (Text.occurs_iff.2 stands)
  rw [same] at fewer
  exact lt_irrefl _ fewer

theorem size_lt_of_prefix {s t : String} (stands : s.toList <+: t.toList) (other : s ≠ t) :
    s.utf8ByteSize < t.utf8ByteSize := by
  obtain ⟨rest, split⟩ := stands
  obtain rfl : s ++ String.ofList rest = t := String.toList_injective (by simpa using split)
  have nonempty : String.ofList rest ≠ "" := fun empty => other (by simp [empty])
  have positive := mt String.utf8ByteSize_eq_zero_iff.1 nonempty
  rw [String.utf8ByteSize_append]
  omega

theorem longest?_eq {e : Entry} {text : List Char} (member : e ∈ a) (stands : e.1 <+: text)
    (shorter : ∀ f ∈ a, f.1 <+: text → f ≠ e → f.1.length < e.1.length) :
    longest? a text = some e := by
  refine argmax_eq_some_iff.2 ⟨?_, fun f among => ?_, fun f among longer => ?_⟩
  · exact mem_filter.2 ⟨member, isPrefixOf_iff_prefix.2 stands⟩
  all_goals
    obtain ⟨listed, here⟩ := mem_filter.1 among
    by_cases same : f = e
    · rw [same]
    · have stands := isPrefixOf_iff_prefix.1 here
      have := shorter f listed stands same
      omega

theorem first?_inOrder {tokens : List (String × String)} (distinct : (tokens.map Prod.fst).Nodup) :
    first? (entries (inOrder tokens)) = longest? (entries tokens) := by
  funext text
  rw [first?, entries, List.find?_map]
  symm
  cases found : (inOrder tokens).find? _ with
  | none =>
    refine argmax_eq_none.2 (filter_eq_nil_iff.2 fun e member => ?_)
    obtain ⟨f, listed, rfl⟩ := mem_map.1 member
    exact List.find?_eq_none.1 found f (mem_inOrder.2 listed)
  | some e =>
    obtain ⟨stands, before, after, split, earlier⟩ := List.find?_eq_some_iff_append.1 found
    have sizes := inOrder_pairwise tokens
    rw [split, pairwise_append, pairwise_cons] at sizes
    have member : e ∈ tokens := mem_inOrder.1 (mem_of_find?_eq_some found)
    have stands : e.1.toList <+: text := isPrefixOf_iff_prefix.1 stands
    refine longest?_eq (mem_map_of_mem member) stands fun f among here other => ?_
    obtain ⟨f, listed, rfl⟩ := mem_map.1 among
    have different : e.1 ≠ f.1 := by
      intro same
      rw [inj_on_of_nodup_map distinct member listed same] at other
      exact other rfl
    -- Other tokens that stand there come later, so none of them goes on behind this one.
    have later : f ∈ after := by
      have placed := mem_inOrder.2 listed
      rw [split, mem_append, mem_cons] at placed
      refine (placed.resolve_left fun first => ?_).resolve_left fun same => different (by rw [same])
      have absent := earlier f first
      rw [Bool.not_eq_true'] at absent
      exact Bool.eq_false_iff.1 absent <| isPrefixOf_iff_prefix.2 here
    by_contra longer
    have inside := prefix_of_prefix_length_le stands here (by simpa using longer)
    have := size_lt_of_prefix inside different
    have := sizes.2.1.1 f later
    omega

/-- Substitution is one pass from left to right that replaces the longest token at each mark and
leaves the rest as it is. No token is left after it. -/
theorem substitute_leftmost_longest {tokens : List (String × String)} {source : String}
    (distinct : (tokens.map Prod.fst).Nodup) (named : Named (entries tokens))
    (apart : Apart source.toList) :
    substitute tokens source = onePass tokens source ∧
      ∀ e ∈ tokens, ¬ e.1.toList <:+: (substitute tokens source).toList := by
  have perm := (List.mergeSort_perm tokens goesFirst).map fun e => (e.1.toList, e.2.toList)
  have ordered : Named (entries (inOrder tokens)) := fun e member => named e (perm.mem_iff.1 member)
  have passed : (substitute tokens source).toList =
      pass (first? (entries (inOrder tokens))) 0 source.toList := by
    unfold substitute
    split
    · exact foldl_replaceAll ordered apart
    · rename_i absent
      have unmarked : '$' ∉ source.toList := fun member =>
        absent (Text.occurs_iff.2 ((List.singleton_infix_iff _ _).2 member))
      simpa [pass] using (pass_append ordered unmarked []).symm
  refine ⟨?_, fun e member => ?_⟩
  · rw [onePass, ← first?_inOrder distinct, ← passed, String.ofList_toList]
  · rw [passed]
    exact not_infix_pass ordered (perm.mem_iff.2 (List.mem_map_of_mem member)) apart

/-- Two tokens of which one begins the other. -/
def positionTokens : List (String × String) := [("$pos", "p"), ("$posWorld", "positionWorld")]

theorem substitute_leftmost_longest_positions :
    substitute positionTokens "$posWorld + $position $x" =
        onePass positionTokens "$posWorld + $position $x" ∧
      ∀ e ∈ positionTokens,
        ¬ e.1.toList <:+: (substitute positionTokens "$posWorld + $position $x").toList := by
  apply substitute_leftmost_longest
  · decide
  · simp only [Named, entries, positionTokens, List.map_cons, List.map_nil, List.forall_mem_cons]
    decide
  · decide

end MaterialShader.Token
