import Mathlib.Data.List.Nodup
import MaterialShader.Assoc

/-!
Look-ups after changes of a finite map.
-/

namespace MaterialShader.Assoc

open List

variable {κ α : Type} [BEq κ] [LawfulBEq κ] [DecidableEq κ] {k : κ} {entries : List (κ × α)}

omit [LawfulBEq κ] [DecidableEq κ] in
theorem put_of_fresh {key : κ} (fresh : get? key entries = none) (value : α) :
    put key value entries = entries ++ [(key, value)] := by
  induction entries with
  | nil => rfl
  | cons entry rest ih =>
    obtain ⟨first, a⟩ := entry
    by_cases here : first == key
    · simp [get?, here] at fresh
    · simp only [get?, here] at fresh
      simp [put, here, ih fresh]

omit [LawfulBEq κ] [DecidableEq κ] in
theorem get?_append (k : κ) (front back : List (κ × α)) :
    get? k (front ++ back) = (get? k front).or (get? k back) := by
  induction front with
  | nil => simp [get?]
  | cons entry rest ih =>
    obtain ⟨first, a⟩ := entry
    simp only [cons_append, get?]
    split
    · simp
    · exact ih

theorem has_put (key k : κ) (value : α) (entries : List (κ × α)) :
    has k (put key value entries) ↔ key = k ∨ has k entries := by
  rw [has, get?_put]
  by_cases same : key = k <;> simp [has, same]

theorem has_putAll (k : κ) (start entries : List (κ × α)) :
    has k (putAll start entries) ↔ k ∈ entries.map Prod.fst ∨ has k start := by
  induction entries generalizing start with
  | nil => simp [putAll]
  | cons entry rest ih =>
    have step : putAll start (entry :: rest) = putAll (put entry.1 entry.2 start) rest := rfl
    rw [step, ih, has_put, map_cons, mem_cons, @eq_comm _ entry.1]
    tauto

theorem get?_putAll (k : κ) (start entries : List (κ × α)) :
    get? k (putAll start entries) = (get? k entries.reverse).or (get? k start) := by
  induction entries generalizing start with
  | nil => simp [putAll, get?]
  | cons entry rest ih =>
    obtain ⟨first, a⟩ := entry
    have step : putAll start ((first, a) :: rest) = putAll (put first a start) rest := rfl
    rw [step, ih, get?_put, reverse_cons, get?_append, Option.or_assoc]
    by_cases same : first = k <;> simp [get?, same]

omit [DecidableEq κ] in
theorem mem_keys_of_has (present : has k entries) : k ∈ entries.map Prod.fst := by
  induction entries with
  | nil => simp [has, get?] at present
  | cons entry rest ih =>
    by_cases here : entry.1 = k
    · simp [here]
    · have later : has k rest := by simpa [has, get?, here] using present
      exact .tail _ (ih later)

omit [DecidableEq κ] in
theorem has_of_mem_keys (member : k ∈ entries.map Prod.fst) : has k entries := by
  induction entries with
  | nil => cases member
  | cons entry rest ih =>
    by_cases here : entry.1 = k
    · simp [has, get?, here]
    · have later : k ∈ rest.map Prod.fst := by simpa [Ne.symm here] using member
      simpa [has, get?, here] using ih later

omit [DecidableEq κ] in
theorem get?_eq_none (other : ∀ entry ∈ entries, entry.1 ≠ k) : get? k entries = none := by
  induction entries with
  | nil => rfl
  | cons entry rest ih =>
    have different : (entry.1 == k) = false := by
      simpa using other entry mem_cons_self
    simp only [get?, different]
    exact ih fun entry later => other entry (.tail _ later)

omit [LawfulBEq κ] [DecidableEq κ] in
theorem get?_map {β : Type} (key : β → κ) (value : β → α) (items : List β) (k : κ) :
    get? k (items.map fun x => (key x, value x)) =
      (items.find? fun x => key x == k).map value := by
  induction items with
  | nil => rfl
  | cons x rest ih =>
    cases here : key x == k with
    | true => simp [get?, here]
    | false => simp [get?, here, ih]

omit [LawfulBEq κ] [DecidableEq κ] in
theorem get?_map_value {β : Type} (f : α → β) (entries : List (κ × α)) (k : κ) :
    get? k (entries.map fun (key, a) => (key, f a)) = (get? k entries).map f := by
  have own : get? k entries = (entries.find? fun entry => entry.1 == k).map Prod.snd := by
    simpa using get?_map Prod.fst Prod.snd entries k
  rw [own, Option.map_map]
  exact get?_map Prod.fst (f ∘ Prod.snd) entries k

omit [LawfulBEq κ] [DecidableEq κ] in
theorem mem_keys_put {key : κ} {value : α} (member : k ∈ (put key value entries).map Prod.fst) :
    k = key ∨ k ∈ entries.map Prod.fst := by
  induction entries with
  | nil => simpa [put] using member
  | cons entry rest ih =>
    obtain ⟨first, a⟩ := entry
    rw [put] at member
    split at member
    · exact .inr (by simpa using member)
    · obtain rfl | later := mem_cons.1 member
      · exact .inr (by simp)
      · exact (ih later).imp_right (mem_cons_of_mem _)

omit [DecidableEq κ] in
theorem nodup_put (key : κ) (value : α) (distinct : (entries.map Prod.fst).Nodup) :
    ((put key value entries).map Prod.fst).Nodup := by
  induction entries with
  | nil => simp [put]
  | cons entry rest ih =>
    obtain ⟨first, a⟩ := entry
    rw [put]
    split
    · simpa using distinct
    · rename_i other
      rw [map_cons, nodup_cons] at distinct ⊢
      refine ⟨?_, ih distinct.2⟩
      intro member
      obtain same | later := mem_keys_put member
      · exact other (by simpa using same)
      · exact distinct.1 later

omit [DecidableEq κ] in
theorem nodup_putAll (entries : List (κ × α)) {start : List (κ × α)}
    (distinct : (start.map Prod.fst).Nodup) : ((putAll start entries).map Prod.fst).Nodup := by
  induction entries generalizing start with
  | nil => exact distinct
  | cons entry rest ih => exact ih (nodup_put entry.1 entry.2 distinct)

omit [DecidableEq κ] in
theorem mem_iff_get? (distinct : (entries.map Prod.fst).Nodup) {a : α} :
    (k, a) ∈ entries ↔ get? k entries = some a := by
  induction entries with
  | nil => simp [get?]
  | cons entry rest ih =>
    obtain ⟨first, b⟩ := entry
    rw [map_cons, nodup_cons] at distinct
    by_cases here : first = k
    · subst here
      have absent : (first, a) ∉ rest := fun later => distinct.1 (mem_map.2 ⟨_, later, rfl⟩)
      simp [get?, absent, eq_comm]
    · simp [get?, here, Ne.symm here, ih distinct.2]

omit [DecidableEq κ] in
theorem mem_of_get? {a : α} (found : get? k entries = some a) : (k, a) ∈ entries := by
  induction entries with
  | nil => cases found
  | cons entry rest ih =>
    obtain ⟨first, b⟩ := entry
    by_cases here : first = k
    · simp_all [get?]
    · exact .tail _ (ih (by simpa [get?, here] using found))

omit [DecidableEq κ] in
theorem mem_put {key : κ} {value : α} {entry : κ × α} (member : entry ∈ put key value entries) :
    entry = (key, value) ∨ entry ∈ entries := by
  induction entries with
  | nil => simpa [put] using member
  | cons first rest ih =>
    obtain ⟨k, a⟩ := first
    by_cases here : k = key
    · subst here
      simp only [put, beq_self_eq_true, if_true, mem_cons] at member
      exact member.imp_right (mem_cons_of_mem _)
    · simp only [put, beq_eq_false_iff_ne.2 here, mem_cons] at member ⊢
      obtain old | later := (by simpa using member : entry = (k, a) ∨ entry ∈ put key value rest)
      · exact .inr (.inl old)
      · exact (ih later).imp_right .inr

omit [DecidableEq κ] in
theorem keys_put (key : κ) (value : α) (entries : List (κ × α)) :
    key ∈ (put key value entries).map Prod.fst ∧
      entries.map Prod.fst ⊆ (put key value entries).map Prod.fst := by
  induction entries with
  | nil => simp [put]
  | cons first rest ih =>
    obtain ⟨k, a⟩ := first
    by_cases here : k = key
    · subst here
      simp [put]
    · simp only [put, beq_eq_false_iff_ne.2 here]
      exact ⟨.tail _ ih.1, cons_subset_cons _ ih.2⟩

end MaterialShader.Assoc
