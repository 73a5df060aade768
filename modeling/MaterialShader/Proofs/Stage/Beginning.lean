import MaterialShader.Proofs.Stage.Rows

/-!
How rows begin, before and after substitution.
-/

namespace MaterialShader

open List

namespace Token

section

variable {tokens : List (String × String)} (tame : ∀ entry ∈ tokens, Tame entry)

theorem Tame.replaceAll_append {entry : String × String} (tame : Tame entry) {front : String}
    (unmarked : Text.Unmarked front) (back : String) :
    Text.replaceAll entry.1 entry.2 (front ++ back) =
      front ++ Text.replaceAll entry.1 entry.2 back := by
  rw [tame.replaceAll_eq, tame.replaceAll_eq, String.toList_append,
    replaceFrom_append_unmarked tame.formed unmarked]
  simp

include tame

theorem replaceEach_append {front : String} (unmarked : Text.Unmarked front) (back : String) :
    replaceEach tokens (front ++ back) = front ++ replaceEach tokens back := by
  induction tokens generalizing back with
  | nil => rfl
  | cons entry rest ih =>
    rw [replaceEach, (tame entry mem_cons_self).replaceAll_append unmarked]
    exact ih (fun entry later => tame entry (.tail _ later)) _

theorem substitute_append {front : String} (unmarked : Text.Unmarked front) (back : String) :
    substitute tokens (front ++ back) = front ++ substitute tokens back := by
  rw [substitute_eq tame]
  exact replaceEach_append (fun entry member => tame entry (mem_inOrder.1 member)) unmarked back

end

theorem goesFirst_iff {a b : String × String} : goesFirst a b ↔
    b.1.utf8ByteSize < a.1.utf8ByteSize ∨ a.1.utf8ByteSize = b.1.utf8ByteSize ∧ a.1 ≤ b.1 := by
  unfold goesFirst
  split
  · rename_i same
    simp [same]
  · rename_i other
    simp [other]

theorem inOrder_pairwise (tokens : List (String × String)) :
    (inOrder tokens).Pairwise fun a b => b.1.utf8ByteSize ≤ a.1.utf8ByteSize := by
  have sorted : (inOrder tokens).Pairwise fun a b => goesFirst a b := by
    apply pairwise_mergeSort
    · intro a b c first second
      rw [goesFirst_iff] at first second ⊢
      obtain longer | ⟨same, below⟩ := first
      · obtain longer' | ⟨same', _⟩ := second
        · exact .inl (by omega)
        · exact .inl (by omega)
      · obtain longer' | ⟨same', below'⟩ := second
        · exact .inl (by omega)
        · exact .inr ⟨by omega, String.le_trans below below'⟩
    · intro a b
      rw [Bool.or_eq_true, goesFirst_iff, goesFirst_iff]
      obtain longer | same | shorter := Nat.lt_trichotomy a.1.utf8ByteSize b.1.utf8ByteSize
      · exact .inr (.inl longer)
      · exact (String.le_total a.1 b.1).imp (fun below => .inr ⟨same, below⟩)
          fun below => .inr ⟨same.symm, below⟩
      · exact .inl (.inl shorter)
  refine sorted.imp fun first => ?_
  obtain longer | ⟨same, _⟩ := goesFirst_iff.1 first
  · exact longer.le
  · exact same.ge

theorem not_prefix_of_size {token other : String} (word : ' ' ∉ other.toList)
    (size : token.utf8ByteSize ≤ other.utf8ByteSize) (different : other ≠ token)
    (back : List Char) : ¬ other.toList <+: token.toList ++ ' ' :: back := by
  intro stands
  obtain ⟨rest, split⟩ := Text.prefix_of_append_cons word stands
  have whole : token = other ++ String.ofList rest := by
    rw [← String.toList_inj]
    simp [split]
  have none : (String.ofList rest).utf8ByteSize = 0 := by
    rw [whole, String.utf8ByteSize_append] at size
    omega
  rw [String.utf8ByteSize_eq_zero_iff] at none
  exact different (by rw [whole, none, String.append_empty])

theorem Tame.replaceAll_other {entry : String × String} (tame : Tame entry) {name : String}
    (unmarked : Text.Unmarked name) (size : ("$" ++ name).utf8ByteSize ≤ entry.1.utf8ByteSize)
    (different : entry.1 ≠ "$" ++ name) (back : String) :
    Text.replaceAll entry.1 entry.2 ("$" ++ name ++ " " ++ back) =
      "$" ++ name ++ " " ++ Text.replaceAll entry.1 entry.2 back := by
  have word : ' ' ∉ entry.1.toList := by
    obtain ⟨own, split, word⟩ := tame.token
    intro member
    rw [split, String.toList_append, mem_append] at member
    obtain mark | inside := member
    · exact absurd mark (by decide)
    · have := all_eq_true.1 word _ inside
      simp [Text.isWordChar] at this
  have elsewhere : ¬ entry.1.toList <+: '$' :: (name ++ " " ++ back).toList := by
    have apart := not_prefix_of_size word size different back.toList
    simpa using apart
  have passed : Text.Unmarked (name ++ " ") := by
    simpa [Text.Unmarked] using unmarked
  have split : ("$" ++ name ++ " " ++ back).toList = '$' :: (name ++ " " ++ back).toList := by simp
  rw [tame.replaceAll_eq, split, Text.replaceFrom_cons_elsewhere elsewhere, String.toList_append,
    replaceFrom_append_unmarked tame.formed passed, tame.replaceAll_eq, ← String.toList_inj]
  simp

theorem replaceEach_token {tokens : List (String × String)} (tame : ∀ entry ∈ tokens, Tame entry)
    (sorted : tokens.Pairwise fun a b => b.1.utf8ByteSize ≤ a.1.utf8ByteSize)
    {name replacement : String} (listed : "$" ++ name ∈ tokens.map Prod.fst)
    (stands : ∀ entry ∈ tokens, entry.1 = "$" ++ name → entry.2 = replacement)
    (plain : Text.Unmarked name) (back : String) :
    replaceEach tokens ("$" ++ name ++ " " ++ back) =
      replacement ++ " " ++ replaceEach tokens back := by
  induction tokens generalizing back with
  | nil => cases listed
  | cons entry others ih =>
    have own := tame entry mem_cons_self
    have later : ∀ entry ∈ others, Tame entry :=
      fun entry member => tame entry (.tail _ member)
    obtain ⟨longest, sorted⟩ := pairwise_cons.1 sorted
    rw [replaceEach, replaceEach]
    by_cases same : entry.1 = "$" ++ name
    · have given := stands entry mem_cons_self same
      have space : Text.Unmarked (replacement ++ " ") := by
        simpa [Text.Unmarked, ← given] using own.unmarked
      have here : Text.replaceAll entry.1 entry.2 ("$" ++ name ++ " " ++ back) =
          replacement ++ " " ++ Text.replaceAll entry.1 entry.2 back := by
        rw [← same, String.append_assoc, own.replaceAll_eq, String.toList_append,
          Text.replaceFrom_append own.nonempty, String.toList_append,
          replaceFrom_append_unmarked own.formed (by decide), own.replaceAll_eq, given]
        simp [← String.toList_inj]
      rw [here, replaceEach_append later space]
    · -- The entry is not shorter than the token, so it does not stand there.
      have listed : "$" ++ name ∈ others.map Prod.fst :=
        (mem_cons.1 listed).resolve_left (Ne.symm same)
      have size : ("$" ++ name).utf8ByteSize ≤ entry.1.utf8ByteSize := by
        obtain ⟨other, member, found⟩ := mem_map.1 listed
        exact found ▸ longest other member
      rw [own.replaceAll_other plain size same]
      exact ih later sorted listed
        (fun entry member => stands entry (.tail _ member)) _

theorem substitute_token {tokens : List (String × String)} (tame : ∀ entry ∈ tokens, Tame entry)
    {name replacement : String} (listed : "$" ++ name ∈ tokens.map Prod.fst)
    (stands : ∀ entry ∈ tokens, entry.1 = "$" ++ name → entry.2 = replacement)
    (plain : Text.Unmarked name) (back : String) :
    substitute tokens ("$" ++ name ++ " " ++ back) =
      replacement ++ " " ++ substitute tokens back := by
  have perm : (inOrder tokens).Perm tokens := mergeSort_perm _ _
  rw [substitute_eq tame]
  exact replaceEach_token (fun entry member => tame entry (mem_inOrder.1 member))
    (inOrder_pairwise tokens) ((perm.map Prod.fst).mem_iff.2 listed)
    (fun entry member => stands entry (mem_inOrder.1 member)) plain back

end Token

namespace Text

def assigns (name line : String) : Bool :=
  startsWith (name ++ " = ") (String.ofList (line.toList.dropWhile (· == ' ')))

theorem spaced_prefix_iff {a b x y : List Char} (first : ' ' ∉ a) (second : ' ' ∉ b) :
    a ++ ' ' :: x <+: b ++ ' ' :: y ↔ a = b ∧ x <+: y := by
  induction a generalizing b with
  | nil =>
    cases b with
    | nil => simp [cons_prefix_cons]
    | cons d ds =>
      have other : ' ' ≠ d := fun same => second (same ▸ (.head _))
      simp [cons_prefix_cons, other]
  | cons c cs ih =>
    cases b with
    | nil =>
      have other : c ≠ ' ' := fun same => first (same ▸ (.head _))
      simp [cons_prefix_cons, other]
    | cons d ds =>
      have inner := ih (fun inside => first (.tail _ inside))
        (fun inside => second (.tail _ inside))
      simp [cons_prefix_cons, inner, and_assoc]

theorem space_notMem_of_isWord {text : String} (word : isWord text) : ' ' ∉ text.toList := by
  intro inside
  have := all_eq_true.1 word _ inside
  simp [isWordChar] at this

theorem assigns_indented {text : String} (visible : text.toList.head? ≠ some ' ') (name : String) :
    assigns name ("    " ++ text) = startsWith (name ++ " = ") text := by
  have same : String.ofList (("    " ++ text).toList.dropWhile (· == ' ')) = text := by
    rw [← String.toList_inj]
    cases chars : text.toList with
    | nil => simp [chars]
    | cons c cs =>
      have other : c ≠ ' ' := by simpa [chars] using visible
      simp [chars, other]
  rw [assigns, same]

theorem assigns_word {name word : String} (own : isWord name) (first : isWord word)
    (some_ : word ≠ "") (rest : String) : assigns name ("    " ++ (word ++ " " ++ rest)) =
      (decide (name = word) && startsWith "= " rest) := by
  have apart := space_notMem_of_isWord first
  have visible : (word ++ " " ++ rest).toList.head? ≠ some ' ' := by
    cases chars : word.toList with
    | nil => exact absurd (String.toList_eq_nil_iff.1 chars) some_
    | cons c cs =>
      have other : c ≠ ' ' := by
        rintro rfl
        exact apart (chars ▸ (.head _))
      simpa [chars] using other
  have split := spaced_prefix_iff (x := "= ".toList) (y := rest.toList)
    (space_notMem_of_isWord own) apart
  rw [String.toList_inj] at split
  rw [assigns_indented visible, Bool.eq_iff_iff, Bool.and_eq_true, decide_eq_true_iff,
    startsWith_iff, startsWith_iff]
  simpa using split

theorem assigns_other {name text : String} {c : Char} (begins : text.toList.head? = some c)
    (visible : c ≠ ' ') (other : name.toList.head? ≠ some c) :
    assigns name ("    " ++ text) = false := by
  obtain ⟨cs, chars⟩ := List.head?_eq_some_iff.1 begins
  rw [assigns_indented (by simpa [chars] using visible), Bool.eq_false_iff, ne_eq, startsWith_iff,
    chars]
  intro stands
  cases named : name.toList with
  | nil =>
    rw [String.toList_append, named] at stands
    exact visible (cons_prefix_cons.1 stands).1.symm
  | cons d ds =>
    rw [String.toList_append, named, cons_append, cons_prefix_cons] at stands
    simp [named, stands.1] at other

end Text

section

variable {tokens : List (String × String)} (tame : ∀ entry ∈ tokens, Token.Tame entry)

include tame

theorem Token.assigns_word {name word : String} (own : Text.isWord name)
    (first : Text.isWord word) (some_ : word ≠ "") (rest : String) :
    Text.assigns name (substitute tokens ("    " ++ (word ++ " " ++ rest) ++ ";")) =
      (decide (name = word) && Text.startsWith "= " (substitute tokens (rest ++ ";"))) := by
  have unmarked : Text.Unmarked ("    " ++ word ++ " ") := by
    refine (Text.isPlain_iff.1 ?_).1
    simp +decide [Text.isPlain_of_isWord first]
  have split : "    " ++ (word ++ " " ++ rest) ++ ";" = "    " ++ word ++ " " ++ (rest ++ ";") := by
    simp [String.append_assoc]
  have regroup (rest : String) : "    " ++ word ++ " " ++ rest = "    " ++ (word ++ " " ++ rest) := by
    simp [String.append_assoc]
  rw [split, substitute_append tame unmarked, regroup, Text.assigns_word own first some_]

theorem Token.assigns_declaration {variableText type name : String}
    (own : Text.isWord variableText) (typed : Text.isIdentifier type.toList)
    (named : Text.isIdentifier name.toList) (back : String) :
    Text.assigns variableText (substitute tokens ("    " ++ (type ++ " " ++ name ++ back) ++ ";")) =
      false := by
  have some_ : type ≠ "" := by
    rintro rfl
    cases typed
  have unmarked : Text.Unmarked name :=
    (Text.isPlain_iff.1 (Text.isPlain_of_isWord (Text.isWord_of_identifier named))).1
  have sign (rest : String) : Text.startsWith "= " (name ++ rest) = false := by
    rw [Bool.eq_false_iff, ne_eq, Text.startsWith_iff, String.toList_append]
    cases chars : name.toList with
    | nil => simp [chars, Text.isIdentifier] at named
    | cons d ds =>
      rw [chars, Text.isIdentifier_cons] at named
      intro stands
      have same : '=' = d := (cons_prefix_cons.1 stands).1
      rw [← same] at named
      exact absurd named.2.1 (by decide)
  have split : type ++ " " ++ name ++ back = type ++ " " ++ (name ++ back) := String.append_assoc
  have regroup : name ++ back ++ ";" = name ++ (back ++ ";") := String.append_assoc
  rw [split, assigns_word tame own (Text.isWord_of_identifier typed) some_, regroup,
    substitute_append tame unmarked, sign, Bool.and_false]

end

theorem Stage.mem_of_mem_effectiveAll {s : Stage} {code : List Code} {x : Code}
    (member : x ∈ s.effectiveAll code) : x ∈ code := by
  induction code generalizing s with
  | nil => exact member
  | cons c rest ih =>
    rw [effectiveAll] at member
    split at member
    · obtain here | later := mem_append.1 member
      · obtain ⟨none, _⟩ | single := s.effective_eq c <;> simp_all
      · exact .tail _ (ih later)
    · cases member

theorem Code.countP_rows {tokens : List (String × String)} {variableText block name : String}
    {code : List Code} (each : ∀ c ∈ code, c.isFlat = true ∧ ∃ row,
      rows 1 (some .braces) c = [row] ∧
        Text.assigns variableText (Token.substitute tokens row) = assigns block name c) :
    ((rowsAll [.braces] code).map (Token.substitute tokens)).countP (Text.assigns variableText) =
      code.countP (assigns block name) := by
  induction code with
  | nil => rfl
  | cons c rest ih =>
    rw [forall_mem_cons] at each
    obtain ⟨⟨flat, row, single, same⟩, others⟩ := each
    have rows : rowsAll [.braces] (c :: rest) = row :: rowsAll [.braces] rest := by
      rw [rowsAll, after_of_isFlat flat]
      exact congrArg (· ++ _) single
    rw [rows, map_cons, countP_cons, countP_cons, ih others, same]

end MaterialShader
