import Mathlib.Data.List.Sort
import MaterialShader.Proofs.Text.Search
import MaterialShader.Stage

/-!
Tokens and the texts that they cover.
-/

namespace MaterialShader

open List

def Text.Unmarked (text : String) : Prop := '$' ∉ text.toList

instance : DecidablePred Text.Unmarked := fun text =>
  inferInstanceAs (Decidable ('$' ∉ text.toList))

namespace Token

def isFormed : List Char → Bool
  | c :: rest => c == '$' && !rest.contains '$'
  | [] => false

theorem isFormed_iff {token : List Char} :
    isFormed token ↔ ∃ rest, token = '$' :: rest ∧ '$' ∉ rest := by
  cases token with
  | nil => simp [isFormed]
  | cons c rest => simp [isFormed]

def coversChars (tokens : List (List Char)) : List Char → Bool
  | [] => true
  | c :: cs => (c != '$' || tokens.any fun t => t.isPrefixOf (c :: cs)) && coversChars tokens cs

def covers (tokens : List String) (text : String) : Bool :=
  coversChars (tokens.map String.toList) text.toList

section

variable {tokens : List (List Char)}

theorem coversChars_cons {c : Char} {cs : List Char} :
    coversChars tokens (c :: cs) ↔
      (c = '$' → ∃ t ∈ tokens, t <+: c :: cs) ∧ coversChars tokens cs := by
  by_cases mark : c = '$' <;> simp [coversChars, mark]

theorem coversChars_append {a b : List Char} (first : coversChars tokens a)
    (second : coversChars tokens b) : coversChars tokens (a ++ b) := by
  induction a with
  | nil => exact second
  | cons c cs ih =>
    rw [coversChars_cons] at first
    rw [cons_append, coversChars_cons]
    refine ⟨fun mark => ?_, ih first.2⟩
    obtain ⟨t, member, stands⟩ := first.1 mark
    exact ⟨t, member, stands.trans (prefix_append (c :: cs) b)⟩

theorem coversChars_of_append {a b : List Char} (whole : coversChars tokens (a ++ b)) :
    coversChars tokens b := by
  induction a with
  | nil => exact whole
  | cons c cs ih => exact ih (coversChars_cons.1 whole).2

theorem coversChars_of_unmarked {text : List Char} (unmarked : '$' ∉ text) :
    coversChars tokens text := by
  induction text with
  | nil => rfl
  | cons c cs ih =>
    simp only [mem_cons, not_or] at unmarked
    exact coversChars_cons.2 ⟨fun mark => absurd mark.symm unmarked.1, ih unmarked.2⟩

theorem coversChars_nil {text : List Char} :
    coversChars [] text ↔ '$' ∉ text := by
  induction text with
  | nil => simp [coversChars]
  | cons c cs ih =>
    have turned : c = '$' ↔ '$' = c := eq_comm
    simp [coversChars_cons, ih, turned]

theorem replaceFrom_append_unmarked {token replacement front : List Char}
    (formed : isFormed token) (unmarked : '$' ∉ front) (rest : List Char) :
    Text.replaceFrom token replacement 0 (front ++ rest) =
      front ++ Text.replaceFrom token replacement 0 rest := by
  obtain ⟨name, rfl, _⟩ := isFormed_iff.1 formed
  induction front with
  | nil => rfl
  | cons c cs ih =>
    simp only [mem_cons, not_or] at unmarked
    have elsewhere : ¬ '$' :: name <+: c :: (cs ++ rest) :=
      fun stands => unmarked.1 (cons_prefix_cons.1 stands).1
    rw [cons_append, Text.replaceFrom_cons_elsewhere elsewhere, ih unmarked.2]
    rfl

theorem replaceFrom_covers {token replacement text : List Char}
    (formed : ∀ t ∈ token :: tokens, isFormed t) (unmarked : '$' ∉ replacement)
    (covered : coversChars (token :: tokens) text) :
    coversChars tokens (Text.replaceFrom token replacement 0 text) := by
  have first := formed token mem_cons_self
  have nonempty : token ≠ [] := by
    rintro rfl
    simp [isFormed] at first
  induction text using Text.places_induct nonempty with
  | nil => rfl
  | here rest ih =>
    rw [Text.replaceFrom_append nonempty]
    exact coversChars_append (coversChars_of_unmarked unmarked) (ih (coversChars_of_append covered))
  | elsewhere c rest here ih =>
    obtain ⟨begins, later⟩ := coversChars_cons.1 covered
    rw [Text.replaceFrom_cons_elsewhere here, coversChars_cons]
    refine ⟨fun mark => ?_, ih later⟩
    -- Another token begins here, and no place of this one begins inside of it.
    obtain ⟨other, member, stands⟩ := begins mark
    obtain rfl | member := mem_cons.1 member
    · exact absurd stands here
    · obtain ⟨name, rfl, plain⟩ := isFormed_iff.1 (formed other (.tail _ member))
      obtain ⟨_, rest, rfl⟩ := cons_prefix_cons.1 stands
      refine ⟨_, member, ?_⟩
      rw [replaceFrom_append_unmarked first plain, mark]
      exact cons_prefix_cons.2 ⟨rfl, prefix_append _ _⟩

end

def Sound (tokens : List (String × String)) : Prop :=
  ∀ entry ∈ tokens, isFormed entry.1.toList = true ∧ Text.Unmarked entry.2

theorem foldl_replaceAll_unmarked {tokens : List (String × String)} (sound : Sound tokens)
    {source : String} (covered : covers (tokens.map Prod.fst) source) :
    Text.Unmarked (tokens.foldl
      (fun text (token, replacement) => Text.replaceAll token replacement text) source) := by
  induction tokens generalizing source with
  | nil => exact coversChars_nil.1 covered
  | cons entry rest ih =>
    obtain ⟨formed, unmarked⟩ := sound entry mem_cons_self
    have later : Sound rest := fun e member => sound e (.tail _ member)
    have nonempty : entry.1.toList.isEmpty = false := by
      obtain ⟨name, split, _⟩ := isFormed_iff.1 formed
      rw [split]
      rfl
    apply ih later
    simp only [covers, Text.replaceAll, String.toList_ofList, Text.replaceChars, nonempty]
    refine replaceFrom_covers ?_ unmarked covered
    intro t member
    obtain rfl | member := mem_cons.1 member
    · exact formed
    · simp only [map_map, mem_map, Function.comp_apply] at member
      obtain ⟨e, listed, rfl⟩ := member
      exact (later e listed).1

theorem covers_mono {tokens more : List String} (sub : tokens ⊆ more) {text : String}
    (covered : covers tokens text) : covers more text := by
  unfold covers at covered ⊢
  generalize text.toList = cs at covered ⊢
  induction cs with
  | nil => rfl
  | cons c cs ih =>
    rw [coversChars_cons] at covered ⊢
    refine ⟨fun mark => ?_, ih covered.2⟩
    obtain ⟨t, member, stands⟩ := covered.1 mark
    obtain ⟨token, listed, rfl⟩ := mem_map.1 member
    exact ⟨_, mem_map_of_mem (sub listed), stands⟩

theorem substitute_unmarked {tokens : List (String × String)} (sound : Sound tokens)
    {source : String} (covered : covers (tokens.map Prod.fst) source) :
    Text.Unmarked (substitute tokens source) := by
  have perm : (inOrder tokens).Perm tokens := mergeSort_perm _ _
  unfold substitute
  split
  · apply foldl_replaceAll_unmarked
    · exact fun entry member => sound entry (perm.mem_iff.1 member)
    · exact covers_mono (perm.map _).symm.subset covered
  · rename_i absent
    intro member
    apply absent
    rw [Text.contains, Text.occurs_iff]
    exact (singleton_infix_iff _ _).2 member

section

variable {tokens : List String}

theorem covers_append {a b : String} (first : covers tokens a)
    (second : covers tokens b) : covers tokens (a ++ b) := by
  rw [covers, String.toList_append]
  exact coversChars_append first second

theorem covers_of_unmarked {text : String} (unmarked : Text.Unmarked text) :
    covers tokens text :=
  coversChars_of_unmarked unmarked

theorem covers_token {token : String} (member : token ∈ tokens)
    (formed : isFormed token.toList) : covers tokens token := by
  obtain ⟨name, split, unmarked⟩ := isFormed_iff.1 formed
  rw [covers, split, coversChars_cons]
  refine ⟨fun _ => ⟨_, mem_map_of_mem member, ?_⟩, coversChars_of_unmarked unmarked⟩
  rw [split]

theorem covers_join {separator : String} {parts : List String}
    (between : covers tokens separator) (all : ∀ part ∈ parts, covers tokens part) :
    covers tokens (Text.join separator parts) :=
  Text.join_ensures (P := (covers tokens ·)) rfl (fun _ _ => covers_append) between all

end

end Token

end MaterialShader
