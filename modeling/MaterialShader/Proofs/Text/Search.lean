import Mathlib.Data.List.Forall2
import Mathlib.Data.List.Infix
import MaterialShader.Text.Search

/-!
What a replacement leaves of a text.
-/

namespace MaterialShader.Text

open List

variable {pattern text : List Char} {start : String}

theorem occurs_iff : occurs pattern text ↔ pattern <:+: text := by
  induction text with
  | nil => simp [occurs]
  | cons c cs ih => simp [occurs, ih, infix_cons_iff]

theorem occurs_eq_false : occurs pattern text = false ↔ ¬ pattern <:+: text := by
  rw [← occurs_iff, Bool.not_eq_true]

theorem after?_eq_some {start rest : List Char} :
    after? start text = some rest ↔ text = start ++ rest := by
  fun_induction after? start text with
  | case1 text => simp [eq_comm]
  | case2 => simp
  | case3 hs c cs ih => simp [ih]
  | case4 h hs c cs different => simp [Ne.symm different]

theorem eq_of_append {d : Char} {a b s t : List Char} (ha : d ∉ a) (hb : d ∉ b)
    (hs : s = [] ∨ s.head? = some d) (ht : t = [] ∨ t.head? = some d)
    (same : a ++ s = b ++ t) : a = b := by
  have front : ∀ {x y : List Char}, d ∉ x → (y = [] ∨ y.head? = some d) →
      (x ++ y).takeWhile (· != d) = x := by
    intro x y plain tail
    have kept : ∀ c ∈ x, (c != d) := by
      intro c member
      simp only [bne_iff_ne]
      rintro rfl
      exact plain member
    rw [takeWhile_append_of_pos kept]
    obtain rfl | mark := tail
    · simp
    · obtain ⟨rest, rfl⟩ := List.head?_eq_some_iff.1 mark
      simp
  rw [← front ha hs, same, front hb ht]

theorem startsWith_iff {text : String} :
    startsWith start text ↔ start.toList <+: text.toList := by
  rw [startsWith, Option.isSome_iff_exists]
  simp only [after?_eq_some]
  exact ⟨fun ⟨rest, split⟩ => ⟨rest, split.symm⟩, fun ⟨rest, split⟩ => ⟨rest, split.symm⟩⟩

theorem startsWith_append {front : String} (stands : startsWith start front)
    (back : String) : startsWith start (front ++ back) := by
  rw [startsWith_iff] at stands ⊢
  rw [String.toList_append]
  exact stands.trans (prefix_append _ _)

theorem startsWith_of_append {front back : String} (short : start.length ≤ front.length)
    (stands : startsWith start (front ++ back)) : startsWith start front := by
  rw [startsWith_iff] at stands ⊢
  rw [String.toList_append] at stands
  refine prefix_of_prefix_length_le stands (prefix_append _ _) ?_
  rwa [String.length_toList, String.length_toList]

theorem join_ensures {P : String → Prop} (empty : P "") (append : ∀ a b, P a → P b → P (a ++ b))
    {separator : String} {parts : List String} (between : P separator) (all : ∀ part ∈ parts, P part) :
    P (join separator parts) := by
  unfold join
  induction parts with
  | nil => exact empty
  | cons part rest ih =>
    obtain ⟨first, others⟩ := forall_mem_cons.1 all
    cases rest with
    | nil => simpa using first
    | cons next rest =>
      rw [String.intercalate_cons_cons]
      exact append _ _ (append _ _ first between) (ih others)

inductive Swapped (pattern replacement : List Char) : List Char → List Char → Prop
  | nil : Swapped pattern replacement [] []
  | keep {s t : List Char} (c : Char) (rest : Swapped pattern replacement s t) :
      Swapped pattern replacement (c :: s) (c :: t)
  | swap {s t : List Char} (rest : Swapped pattern replacement s t) :
      Swapped pattern replacement (pattern ++ s) (replacement ++ t)

theorem replaceFrom_drop (pattern replacement : List Char) (k : Nat) (text : List Char) :
    replaceFrom pattern replacement k text =
      replaceFrom pattern replacement 0 (text.drop k) := by
  induction text generalizing k with
  | nil => simp [replaceFrom]
  | cons c cs ih =>
    cases k with
    | zero => rfl
    | succ k => simp only [replaceFrom, drop_succ_cons, ih k]

theorem replaceFrom_cons_elsewhere {replacement cs : List Char} {c : Char}
    (elsewhere : ¬ pattern <+: c :: cs) :
    replaceFrom pattern replacement 0 (c :: cs) = c :: replaceFrom pattern replacement 0 cs := by
  simp [replaceFrom, elsewhere]

theorem replaceFrom_append (nonempty : pattern ≠ []) (replacement rest : List Char) :
    replaceFrom pattern replacement 0 (pattern ++ rest) =
      replacement ++ replaceFrom pattern replacement 0 rest := by
  obtain ⟨c, cs, rfl⟩ := exists_cons_of_ne_nil nonempty
  simp [replaceFrom, replaceFrom_drop _ _ cs.length]

theorem places_induct (nonempty : pattern ≠ []) {P : List Char → Prop} (nil : P [])
    (here : ∀ rest, P rest → P (pattern ++ rest))
    (elsewhere : ∀ c rest, ¬ pattern <+: c :: rest → P rest → P (c :: rest)) (text : List Char) :
    P text := by
  induction size : text.length using Nat.strong_induction_on generalizing text with
  | _ size_ ih =>
    cases text with
    | nil => exact nil
    | cons c cs =>
      by_cases stands : pattern <+: c :: cs
      · obtain ⟨rest, split⟩ := stands
        have positive : 0 < pattern.length := length_pos_iff.2 nonempty
        have shorter : rest.length < size_ := by
          rw [← size, ← split, length_append]
          omega
        exact split ▸ here rest (ih _ shorter rest rfl)
      · have shorter : cs.length < size_ := by simp [← size]
        exact elsewhere c cs stands (ih _ shorter cs rfl)

theorem replaceFrom_swapped (nonempty : pattern ≠ []) (replacement text : List Char) :
    Swapped pattern replacement text (replaceFrom pattern replacement 0 text) := by
  induction text using places_induct nonempty with
  | nil => exact .nil
  | here rest ih =>
    rw [replaceFrom_append nonempty]
    exact .swap ih
  | elsewhere c rest other ih =>
    rw [replaceFrom_cons_elsewhere other]
    exact .keep c ih

theorem replaceChars_swapped (nonempty : pattern ≠ []) (replacement text : List Char) :
    Swapped pattern replacement text (replaceChars pattern replacement text) := by
  simpa [replaceChars, nonempty] using replaceFrom_swapped nonempty replacement text

section Swapped

variable {pattern replacement s t : List Char}

theorem Swapped.count_le {x : Char} (swapped : Swapped pattern replacement s t)
    (fewer : replacement.count x ≤ pattern.count x) : t.count x ≤ s.count x := by
  induction swapped with
  | nil => simp
  | keep c _ ih => simp only [count_cons]; omega
  | swap _ ih => simp only [count_append]; omega

theorem Swapped.all {p : Char → Bool} (swapped : Swapped pattern replacement s t)
    (source : s.all p) (new : replacement.all p) : t.all p := by
  induction swapped with
  | nil => rfl
  | keep c _ ih => simp_all
  | swap _ ih => simp_all

theorem Swapped.forall₂ {x : Char} (swapped : Swapped pattern replacement s t)
    (fades : List.Forall₂ (fun old new => new = old ∨ new = x) pattern replacement) :
    List.Forall₂ (fun old new => new = old ∨ new = x) s t := by
  induction swapped with
  | nil => exact .nil
  | keep c _ ih => exact .cons (.inl rfl) ih
  | swap _ ih => exact rel_append fades ih

end Swapped

section Fading

variable {x : Char} {s t part : List Char}

theorem prefix_of_forall₂ (fades : List.Forall₂ (fun old new => new = old ∨ new = x) s t)
    (absent : x ∉ part) (stands : part <+: t) : part <+: s := by
  induction fades generalizing part with
  | nil => exact stands
  | cons first _ ih =>
    cases part with
    | nil => exact nil_prefix
    | cons c rest =>
      have other : c ≠ x := by
        rintro rfl
        simp at absent
      obtain ⟨rfl, later⟩ := cons_prefix_cons.1 stands
      obtain rfl := first.resolve_right other
      have absent' : x ∉ rest := fun member => absent (.tail _ member)
      exact cons_prefix_cons.2 ⟨rfl, ih absent' later⟩

theorem infix_of_forall₂ (fades : List.Forall₂ (fun old new => new = old ∨ new = x) s t)
    (absent : x ∉ part) (stands : part <:+: t) : part <:+: s := by
  induction fades with
  | nil => exact stands
  | cons first others ih =>
    rw [infix_cons_iff] at stands ⊢
    exact stands.imp (prefix_of_forall₂ (.cons first others) absent) ih

end Fading

theorem infix_append_of_all {p : Char → Bool} {part front back : List Char}
    (without : ∀ c ∈ part, p c = false) (only : back.all p) (stands : part <:+: front ++ back) :
    part <:+: front := by
  induction back using List.reverseRecOn with
  | nil => simpa using stands
  | append_singleton back c ih =>
    rw [← append_assoc, infix_concat_iff] at stands
    simp only [all_append, all_cons, all_nil, Bool.and_true,
      Bool.and_eq_true] at only
    obtain atEnd | inside := stands
    · rw [suffix_concat_iff] at atEnd
      obtain rfl | ⟨init, rfl, _⟩ := atEnd
      · exact nil_infix
      · have other : p c = false := without c (by simp)
        simp [other] at only
    · exact ih only.1 inside

theorem replaceChars_count_lt {pattern replacement text : List Char} {x : Char}
    (fewer : replacement.count x < pattern.count x) (found : occurs pattern text) :
    (replaceChars pattern replacement text).count x < text.count x := by
  have nonempty : pattern ≠ [] := by
    rintro rfl
    simp at fewer
  simp only [replaceChars, List.isEmpty_iff, nonempty, if_false]
  induction text with
  | nil => simp_all [occurs]
  | cons c cs ih =>
    by_cases here : pattern <+: c :: cs
    · obtain ⟨rest, split⟩ := here
      have kept := (replaceFrom_swapped nonempty replacement rest).count_le fewer.le
      rw [← split, replaceFrom_append nonempty, count_append, count_append]
      omega
    · have later : occurs pattern cs := by simpa [occurs, here] using found
      rw [replaceFrom_cons_elsewhere here, count_cons, count_cons]
      have := ih later
      omega

end MaterialShader.Text
