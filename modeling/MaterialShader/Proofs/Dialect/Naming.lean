import Mathlib.Data.List.Perm.Subperm
import MaterialShader.Dialect.Languages
import MaterialShader.Dialect.Naming
import MaterialShader.Proofs.Assoc
import MaterialShader.Proofs.Text.Search

/-!
Names that a dialect gives out.
-/

namespace MaterialShader

open List Text

variable (t : Target)

namespace Text

theorem isIdentifier_cons (c : Char) (cs : List Char) :
    isIdentifier (c :: cs) ↔
      c.isDigit = false ∧ isIdentifierChar c ∧ cs.all isIdentifierChar := by
  simp [isIdentifier]

theorem isIdentifier_sanitizeChars (cs : List Char) :
    isIdentifier (sanitizeChars cs) := by
  have letter (c : Char) : isIdentifierChar (if isIdentifierChar c then c else '_') := by
    split
    · assumption
    · rfl
  have all : (cs.map fun c => if isIdentifierChar c then c else '_').all isIdentifierChar := by
    simp [letter]
  unfold sanitizeChars
  generalize (cs.map fun c => if isIdentifierChar c then c else '_') = kept at all ⊢
  cases kept with
  | nil => rfl
  | cons c rest =>
    simp only [all_cons, Bool.and_eq_true] at all
    dsimp only
    split
    · simp only [isIdentifier_cons, all_cons, Bool.and_eq_true]
      exact ⟨rfl, rfl, all⟩
    · rename_i letterFirst
      rw [isIdentifier_cons]
      exact ⟨by simpa using letterFirst, all⟩

theorem isIdentifier_append {front back : List Char} (first : isIdentifier front)
    (others : back.all isIdentifierChar) : isIdentifier (front ++ back) := by
  cases front with
  | nil => simp [isIdentifier] at first
  | cons c cs =>
    rw [isIdentifier_cons] at first
    rw [cons_append, isIdentifier_cons, all_append, Bool.and_eq_true]
    exact ⟨first.1, first.2.1, first.2.2, others⟩

theorem all_of_isIdentifier {cs : List Char} (identifier : isIdentifier cs) :
    cs.all isIdentifierChar := by
  cases cs with
  | nil => rfl
  | cons c rest =>
    rw [isIdentifier_cons] at identifier
    simp [identifier]

theorem Swapped.isIdentifier {pattern replacement s t : List Char}
    (swapped : Swapped pattern replacement s t) (new : Text.isIdentifier replacement)
    (source : Text.isIdentifier s) : Text.isIdentifier t := by
  have letters := swapped.all (all_of_isIdentifier source) (all_of_isIdentifier new)
  cases swapped with
  | nil => exact source
  | keep c rest =>
    rw [isIdentifier_cons] at source ⊢
    simp only [all_cons, Bool.and_eq_true] at letters
    exact ⟨source.1, letters⟩
  | swap rest =>
    rw [all_append, Bool.and_eq_true] at letters
    exact isIdentifier_append new letters.2

theorem repr_digits (k : Nat) : (Nat.repr k).toList.all Char.isDigit := by
  rw [Nat.toList_repr, all_eq_true]
  intro c member
  exact Nat.isDigit_of_mem_toDigits (by decide) (by decide) member

theorem repr_inj {k l : Nat} (same : Nat.repr k = Nat.repr l) : k = l := by
  have digits : Nat.toDigits 10 k = Nat.toDigits 10 l := by
    simpa [← String.toList_inj] using same
  have number := congrArg (fun cs => Nat.ofDigitChars 10 cs 0) digits
  simpa only [Nat.ofDigitChars_ten_toDigits] using number

theorem isIdentifierChar_of_digit {c : Char} (digit : c.isDigit) :
    isIdentifierChar c := by
  simp [isIdentifierChar, Char.isAlphanum, digit]

end Text

namespace NameRule

inductive Ends (pattern replacement : List Char) : List Char → List Char → Prop
  | gone {name : List Char} (absent : Text.occurs pattern name = false) :
      Ends pattern replacement name name
  | again {name result : List Char} (found : Text.occurs pattern name = true)
      (rest : Ends pattern replacement (Text.replaceChars pattern replacement name) result) :
      Ends pattern replacement name result

variable {pattern replacement name result : List Char}

theorem Ends.absent (ends : Ends pattern replacement name result) :
    Text.occurs pattern result = false := by
  induction ends with
  | gone absent => exact absent
  | again _ _ ih => exact ih

theorem Ends.keeps {P : List Char → Prop} (ends : Ends pattern replacement name result)
    (step : ∀ s, P s → P (Text.replaceChars pattern replacement s)) (start : P name) :
    P result := by
  induction ends with
  | gone => exact start
  | again _ _ ih => exact ih (step _ start)

def Follows : NameRule → List Char → List Char → Prop
  | .anywhere pattern replacement, name, result =>
    Ends pattern.toList replacement.toList name result
  | .atStart pattern replacement, name, result =>
    match Text.after? pattern.toList name with
    | some rest => result = replacement.toList ++ rest
    | none => result = name

def Shrinks : NameRule → Prop
  | .anywhere pattern replacement =>
    ∃ x ∈ pattern.toList, replacement.toList.count x < pattern.toList.count x
  | .atStart .. => True

-- The search goes along the pattern, never through all characters.
instance : DecidablePred Shrinks
  | .anywhere pattern replacement =>
    List.decidableBEx (fun x => replacement.toList.count x < pattern.toList.count x) pattern.toList
  | .atStart .. => .isTrue trivial

theorem replaceUntilGone_ends {x : Char} {rounds : Nat}
    (fewer : replacement.count x < pattern.count x) (enough : name.count x < rounds) :
    Ends pattern replacement name (replaceUntilGone pattern replacement rounds name) := by
  induction rounds generalizing name with
  | zero => omega
  | succ rounds ih =>
    rw [replaceUntilGone]
    split
    · rename_i found
      have less := replaceChars_count_lt fewer found
      exact .again found (ih (by omega))
    · rename_i absent
      exact .gone (by simpa using absent)

theorem apply_follows {rule : NameRule} (shrinks : rule.Shrinks) (name : String) :
    rule.Follows name.toList (NameRule.apply name rule).toList := by
  cases rule with
  | anywhere pattern replacement =>
    obtain ⟨x, _, fewer⟩ := shrinks
    have counted : name.toList.count x ≤ name.length := by
      exact count_le_length
    simp only [Follows, NameRule.apply, String.toList_ofList]
    exact replaceUntilGone_ends fewer (by unfold spareRounds; omega)
  | atStart pattern replacement =>
    simp only [Follows, NameRule.apply, Text.dropHead?]
    cases Text.after? pattern.toList name.toList <;> simp

inductive FollowsAll : List NameRule → List Char → List Char → Prop
  | nil (name : List Char) : FollowsAll [] name name
  | cons {rule : NameRule} {rules : List NameRule} {name middle result : List Char}
      (first : rule.Follows name middle) (rest : FollowsAll rules middle result) :
      FollowsAll (rule :: rules) name result

theorem FollowsAll.eq_of_nil (follows : FollowsAll [] name result) : result = name := by
  cases follows
  rfl

theorem FollowsAll.uncons {rule : NameRule} {rules : List NameRule}
    (follows : FollowsAll (rule :: rules) name result) :
    ∃ middle, rule.Follows name middle ∧ FollowsAll rules middle result := by
  cases follows with
  | cons first rest => exact ⟨_, first, rest⟩

theorem foldl_apply_follows {rules : List NameRule} (shrink : ∀ rule ∈ rules, rule.Shrinks)
    (name : String) : FollowsAll rules name.toList (rules.foldl NameRule.apply name).toList := by
  induction rules generalizing name with
  | nil => exact .nil _
  | cons rule rules ih =>
    have first := apply_follows (shrink rule mem_cons_self) name
    have others : ∀ rule ∈ rules, rule.Shrinks :=
      fun r later => shrink r (.tail _ later)
    exact .cons first (ih others _)

section Anywhere

variable {pattern replacement : String} {name result : List Char}

theorem Follows.isIdentifier (follows : (anywhere pattern replacement).Follows name result)
    (nonempty : pattern.toList ≠ []) (new : Text.isIdentifier replacement.toList)
    (identifier : Text.isIdentifier name) : Text.isIdentifier result :=
  Ends.keeps follows
    (fun s source => (replaceChars_swapped nonempty _ s).isIdentifier new source) identifier

theorem Follows.keeps_absent {x : Char} {part : List Char}
    (follows : (anywhere pattern replacement).Follows name result)
    (nonempty : pattern.toList ≠ [])
    (fades : List.Forall₂ (fun old new => new = old ∨ new = x) pattern.toList replacement.toList)
    (without : x ∉ part) (absent : ¬ part <:+: name) : ¬ part <:+: result := by
  refine Ends.keeps (P := fun s => ¬ part <:+: s) follows ?_ absent
  intro s source stands
  have faded := (replaceChars_swapped nonempty replacement.toList s).forall₂ fades
  exact source (infix_of_forall₂ faded without stands)

theorem Follows.eq_of_absent (follows : (anywhere pattern replacement).Follows name result)
    (absent : ¬ pattern.toList <:+: name) : result = name := by
  cases follows with
  | gone => rfl
  | again found => exact absurd (occurs_iff.1 found) absent

theorem Follows.absent (follows : (anywhere pattern replacement).Follows name result) :
    ¬ pattern.toList <:+: result :=
  occurs_eq_false.1 (Ends.absent follows)

end Anywhere

end NameRule

namespace Dialect

open NameRule

def hardwareParts : List String := ["__", "gl_", "webgl_", "_webgl"]

theorem hardwareRules_form {name result : List Char}
    (identifier : Text.isIdentifier name) (follows : FollowsAll hardwareRules name result) :
    Text.isIdentifier result ∧ ∀ part ∈ hardwareParts, ¬ part.toList <:+: result := by
  obtain ⟨_, first, follows⟩ := follows.uncons
  obtain ⟨_, second, follows⟩ := follows.uncons
  obtain ⟨_, third, follows⟩ := follows.uncons
  obtain ⟨_, fourth, follows⟩ := follows.uncons
  obtain rfl := follows.eq_of_nil
  have identifier₁ := first.isIdentifier (by decide) (by decide) identifier
  have identifier₂ := second.isIdentifier (by decide) (by decide) identifier₁
  have identifier₃ := third.isIdentifier (by decide) (by decide) identifier₂
  have identifier₄ := fourth.isIdentifier (by decide) (by decide) identifier₃
  have fades₂ : List.Forall₂ (fun old new => new = old ∨ new = 'l') "gl_".toList "gll".toList := by
    decide
  have fades₄ : List.Forall₂ (fun old new => new = old ∨ new = 'w') "_webgl".toList
      "wwebgl".toList := by
    decide
  -- The third pattern ends in the second one, so its rule finds nothing.
  have ending : "gl_".toList <:+: "webgl_".toList := by decide
  obtain rfl := third.eq_of_absent fun stands => second.absent (ending.trans stands)
  have double₂ := second.keeps_absent (by decide) fades₂ (by decide) first.absent
  have double₄ := fourth.keeps_absent (by decide) fades₄ (by decide) double₂
  have gl₄ := fourth.keeps_absent (by decide) fades₄ (by decide) second.absent
  have webgl₄ := fun stands => gl₄ (ending.trans stands)
  refine ⟨identifier₄, ?_⟩
  simpa only [hardwareParts, forall_mem_cons, not_mem_nil, false_implies, implies_true,
    and_true] using ⟨double₄, gl₄, webgl₄, fourth.absent⟩

theorem atStart_form {name result : List Char} (identifier : Text.isIdentifier name)
    (follows : (NameRule.atStart "_" "u").Follows name result) :
    Text.isIdentifier result ∧ Text.after? "_".toList result = none := by
  simp only [Follows] at follows
  split at follows
  · rename_i rest found
    rw [Text.after?_eq_some] at found
    subst found follows
    have letters := all_of_isIdentifier identifier
    rw [all_append, Bool.and_eq_true] at letters
    exact ⟨isIdentifier_append rfl letters.2, rfl⟩
  · rename_i other
    subst follows
    exact ⟨identifier, other⟩

end Dialect

structure Target.Accepts (t : Target) (name : String) : Prop where
  identifier : Text.isIdentifier name.toList = true
  parts : t.isHardware = true → ∀ part ∈ Dialect.hardwareParts, Text.contains part name = false
  start : t = .mdl → Text.startsWith "_" name = false

namespace Dialect

open NameRule

theorem rules_shrink : ∀ rule ∈ (ofTarget t).rules, rule.Shrinks := by
  cases t <;> decide

theorem validName_follows (name : String) :
    FollowsAll (ofTarget t).rules (Text.sanitizeChars name.toList)
      ((ofTarget t).validName name).toList := by
  simpa [validName, Text.sanitize] using
    foldl_apply_follows (rules_shrink t) (Text.sanitize name)

theorem validName_accepts (name : String) : t.Accepts ((ofTarget t).validName name) := by
  have identifier := isIdentifier_sanitizeChars name.toList
  have follows := validName_follows t name
  generalize (ofTarget t).validName name = valid at follows ⊢
  have hardware (same : (ofTarget t).rules = hardwareRules) (other : t ≠ .mdl) :
      t.Accepts valid := by
    rw [same] at follows
    obtain ⟨identifier', absent⟩ := hardwareRules_form identifier follows
    exact ⟨identifier', fun _ part member => occurs_eq_false.2 (absent part member),
      fun mdl => absurd mdl other⟩
  cases t with
  | glsl => exact hardware rfl nofun
  | msl => exact hardware rfl nofun
  | osl =>
    have none : (ofTarget .osl).rules = [] := rfl
    have same := follows.eq_of_nil
    exact ⟨same ▸ identifier, nofun, nofun⟩
  | mdl =>
    have single : (ofTarget .mdl).rules = [.atStart "_" "u"] := rfl
    obtain ⟨_, first, rest⟩ := follows.uncons
    obtain ⟨identifier', start⟩ := atStart_form identifier first
    have same := rest.eq_of_nil
    rw [← same] at identifier' start
    exact ⟨identifier', nofun, fun _ => by rw [Text.startsWith, start]; rfl⟩

end Dialect

theorem Target.Accepts.append_repr {t : Target} {name : String} (accepts : t.Accepts name)
    (k : Nat) : t.Accepts (name ++ Nat.repr k) := by
  have digits := repr_digits k
  refine ⟨?_, ?_, ?_⟩
  · rw [String.toList_append]
    apply isIdentifier_append accepts.identifier
    rw [all_eq_true] at digits ⊢
    exact fun c member => isIdentifierChar_of_digit (digits c member)
  · intro hardware part member
    have absent := occurs_eq_false.1 (accepts.parts hardware part member)
    have plain : (Dialect.hardwareParts.all fun part => part.toList.all (!·.isDigit)) := by
      decide
    have letters : ∀ c ∈ part.toList, c.isDigit = false := by
      simpa using all_eq_true.1 plain part member
    apply occurs_eq_false.2
    rw [String.toList_append]
    exact fun stands => absent (infix_append_of_all letters digits stands)
  · intro mdl
    have start := accepts.start mdl
    have identifier := accepts.identifier
    simp only [Text.startsWith, String.toList_append] at start ⊢
    cases chars : name.toList with
    | nil => simp [chars, Text.isIdentifier] at identifier
    | cons c cs =>
      by_cases same : '_' = c <;> simp_all [Text.after?]

namespace NameTable

variable {taken : String → Bool} {name : String}

theorem le_firstFree (fuel k : Nat) : k ≤ firstFree taken name fuel k := by
  induction fuel generalizing k with
  | zero => exact le_rfl
  | succ fuel ih =>
    rw [firstFree]
    split
    · exact (Nat.le_succ k).trans (ih (k + 1))
    · exact le_rfl

theorem taken_of_lt_firstFree {fuel k j : Nat} (start : k ≤ j)
    (before : j < firstFree taken name fuel k) : taken (name ++ Nat.repr j) := by
  induction fuel generalizing k with
  | zero => exact absurd before (by simp [firstFree, start])
  | succ fuel ih =>
    rw [firstFree] at before
    split at before
    · obtain rfl | later := start.eq_or_lt
      · assumption
      · exact ih later before
    · omega

theorem firstFree_of_taken {fuel k : Nat}
    (refused : taken (name ++ Nat.repr (firstFree taken name fuel k))) :
    firstFree taken name fuel k = k + fuel := by
  induction fuel generalizing k with
  | zero => rfl
  | succ fuel ih =>
    rw [firstFree] at refused ⊢
    split
    · rename_i here
      rw [if_pos here] at refused
      rw [ih refused]
      omega
    · rename_i here
      rw [if_neg here] at refused
      exact absurd refused here

theorem firstFree_free {used : List String} {fuel : Nat}
    (listed : ∀ c, taken c → c ∈ used) (enough : used.length < fuel) (k : Nat) :
    taken (name ++ Nat.repr (firstFree taken name fuel k)) = false := by
  by_contra refused
  rw [Bool.not_eq_false] at refused
  have stop := firstFree_of_taken refused
  let tried := (List.range fuel).map fun i => name ++ Nat.repr (k + i)
  have different : tried.Nodup := by
    apply nodup_range.map
    intro i j same
    exact Nat.add_left_cancel (repr_inj ((String.append_right_inj name).1 same))
  have members : tried ⊆ used := by
    intro c member
    obtain ⟨i, small, rfl⟩ := mem_map.1 member
    rw [mem_range] at small
    have before : k + i < firstFree taken name fuel k := by omega
    exact listed _ (taken_of_lt_firstFree (Nat.le_add_right k i) before)
  have fits := (subperm_of_subset different members).length_le
  simp [tried] at fits
  omega

theorem flatten_set_perm {α : Type} {lists : List (List α)} {k : Nat} {old : List α}
    (found : lists[k]? = some old) (new : List α) :
    ((lists.set k new).flatten ++ old).Perm (lists.flatten ++ new) := by
  induction lists generalizing k with
  | nil => cases found
  | cons first rest ih =>
    cases k with
    | zero =>
      cases found
      have swapped : (new ++ rest.flatten).Perm (rest.flatten ++ new) := perm_append_comm
      exact perm_append_comm.trans (by simpa using swapped.append_left old)
    | succ k => simpa using (ih found).append_left first

theorem flatten_set_subperm {α : Type} (lists : List (List α)) (k : Nat) (new : List α) :
    (lists.set k new).flatten.Subperm (lists.flatten ++ new) := by
  cases found : lists[k]? with
  | none =>
    rw [set_eq_of_length_le (List.getElem?_eq_none_iff.1 found)]
    exact (sublist_append_left _ _).subperm
  | some old =>
    exact (sublist_append_left _ old).subperm.trans (flatten_set_perm found new).subperm

structure Drawn (table : NameTable) (names : List String) (table' : NameTable) : Prop where
  free : ∀ c ∈ names, Assoc.has c table = false
  distinct : names.Nodup
  kept : ∀ c, Assoc.has c table = true → Assoc.has c table' = true
  noted : ∀ c ∈ names, Assoc.has c table' = true

namespace Drawn

variable {t₁ t₂ t₃ : NameTable} {names later : List String}

theorem nil (table : NameTable) : Drawn table [] table :=
  ⟨nofun, .nil, fun _ old => old, nofun⟩

theorem append (first : Drawn t₁ names t₂) (second : Drawn t₂ later t₃) :
    Drawn t₁ (names ++ later) t₃ where
  free := by
    refine forall_mem_append.2 ⟨first.free, fun c late => ?_⟩
    rw [← Bool.not_eq_true]
    intro present
    have absent := second.free c late
    simp [first.kept c present] at absent
  distinct := by
    refine first.distinct.append second.distinct ?_
    intro c early late
    have absent := second.free c late
    simp [first.noted c early] at absent
  kept c old := second.kept c (first.kept c old)
  noted := forall_mem_append.2
    ⟨fun c early => second.kept c (first.noted c early), second.noted⟩

theorem subperm (drawn : Drawn t₁ names t₂) (fewer : later.Subperm names) : Drawn t₁ later t₂ where
  free c member := drawn.free c (fewer.subset member)
  distinct := by
    obtain ⟨same, perm, sublist⟩ := fewer
    exact perm.nodup_iff.1 (drawn.distinct.sublist sublist)
  kept := drawn.kept
  noted c member := drawn.noted c (fewer.subset member)

end Drawn

end NameTable

namespace Dialect

variable (d : Dialect)

def Free (table : NameTable) (name : String) : Prop :=
  Assoc.has name table = false ∧ d.isRestricted name = false

/-- The name that a search for a free number comes to, with no bound on the numbers. -/
inductive Chooses (table : NameTable) (valid : String) : String → Prop
  | itself (free : d.Free table valid) : Chooses table valid valid
  | numbered (k : Nat) (taken : ¬ d.Free table valid)
      (start : (Assoc.get? valid table).getD 1 ≤ k)
      (earlier : ∀ j, (Assoc.get? valid table).getD 1 ≤ j → j < k →
        ¬ d.Free table (valid ++ Nat.repr j))
      (free : d.Free table (valid ++ Nat.repr k)) : Chooses table valid (valid ++ Nat.repr k)

variable {d} {table : NameTable}

theorem not_free {c : String} :
    ¬ d.Free table c ↔ (Assoc.has c table || d.isRestricted c) := by
  rw [Free, ← Bool.or_eq_false_iff, Bool.not_eq_false]

theorem free_firstFree (table : NameTable) (valid : String) (k : Nat) :
    d.Free table (valid ++ Nat.repr (NameTable.firstFree
      (fun c => Assoc.has c table || d.isRestricted c) valid
      (table.length + d.restricted.length + 1) k)) := by
  have listed : ∀ c, (Assoc.has c table || d.isRestricted c) →
      c ∈ table.map Prod.fst ++ d.restricted := by
    intro c refused
    rw [Bool.or_eq_true] at refused
    rw [mem_append]
    exact refused.imp Assoc.mem_keys_of_has contains_iff_mem.1
  rw [Free, ← Bool.or_eq_false_iff]
  exact NameTable.firstFree_free listed (by simp) k

theorem reserve_chooses (d : Dialect) (table : NameTable) (name : String) :
    d.Chooses table (d.validName name) (d.reserve table name).1 := by
  rw [reserve]
  split
  · rename_i refused
    refine .numbered _ (not_free.2 refused) (NameTable.le_firstFree _ _) ?_ (free_firstFree _ _ _)
    intro j start before
    exact not_free.2 (NameTable.taken_of_lt_firstFree start before)
  · rename_i free
    exact .itself (by rwa [← not_free, not_not] at free)

theorem has_reserve (d : Dialect) (table : NameTable) (name c : String)
    (old : c = (d.reserve table name).1 ∨ Assoc.has c table) :
    Assoc.has c (d.reserve table name).2 := by
  rw [reserve] at old ⊢
  split
  · rename_i refused
    rw [if_pos refused] at old
    rw [Assoc.has_put, Assoc.has_put]
    exact old.imp Eq.symm .inr
  · rename_i free
    rw [if_neg free] at old
    rw [Assoc.has_put]
    exact old.imp_left Eq.symm

def Formed (d : Dialect) (c : String) : Prop :=
  ∃ name, c = d.validName name ∨ ∃ k, c = d.validName name ++ Nat.repr k

theorem Chooses.formed {d : Dialect} {name chosen : String}
    (chooses : d.Chooses table (d.validName name) chosen) : d.Formed chosen := by
  cases chooses with
  | itself => exact ⟨name, .inl rfl⟩
  | numbered k => exact ⟨name, .inr ⟨k, rfl⟩⟩

theorem Chooses.free {d : Dialect} {valid chosen : String}
    (chooses : d.Chooses table valid chosen) : d.Free table chosen := by
  cases chooses <;> assumption

theorem Formed.accepts {t : Target} {c : String} (formed : (ofTarget t).Formed c) :
    t.Accepts c := by
  obtain ⟨name, rfl | ⟨k, rfl⟩⟩ := formed
  · exact validName_accepts t name
  · exact (validName_accepts t name).append_repr k

structure Reserved (d : Dialect) (table : NameTable) (chosen : List String) (table' : NameTable) :
    Prop extends NameTable.Drawn table chosen table' where
  unrestricted : ∀ c ∈ chosen, d.isRestricted c = false
  formed : ∀ c ∈ chosen, d.Formed c

namespace Reserved

variable {d : Dialect} {t₁ t₂ t₃ : NameTable} {chosen later : List String}

theorem nil (d : Dialect) (table : NameTable) : d.Reserved table [] table :=
  ⟨.nil table, nofun, nofun⟩

theorem append (first : d.Reserved t₁ chosen t₂) (second : d.Reserved t₂ later t₃) :
    d.Reserved t₁ (chosen ++ later) t₃ where
  toDrawn := first.toDrawn.append second.toDrawn
  unrestricted := forall_mem_append.2 ⟨first.unrestricted, second.unrestricted⟩
  formed := forall_mem_append.2 ⟨first.formed, second.formed⟩

theorem subperm (reserved : d.Reserved t₁ chosen t₂) (fewer : later.Subperm chosen) :
    d.Reserved t₁ later t₂ where
  toDrawn := reserved.toDrawn.subperm fewer
  unrestricted c member := reserved.unrestricted c (fewer.subset member)
  formed c member := reserved.formed c (fewer.subset member)

end Reserved

theorem reserve_reserved (d : Dialect) (table : NameTable) (name : String) :
    d.Reserved table [(d.reserve table name).1] (d.reserve table name).2 := by
  have chooses := d.reserve_chooses table name
  have has := d.has_reserve table name
  refine ⟨⟨?_, nodup_singleton _, fun c old => has c (.inr old), ?_⟩, ?_, ?_⟩
  · simpa using chooses.free.1
  · simpa using has _ (.inl rfl)
  · simpa using chooses.free.2
  · simpa using chooses.formed

theorem reserveAll_reserved (d : Dialect) (table : NameTable) (names : List String) :
    d.Reserved table (d.reserveAll table names).1 (d.reserveAll table names).2 := by
  induction names generalizing table with
  | nil => exact .nil d table
  | cons name rest ih => exact (d.reserve_reserved table name).append (ih _)

end Dialect

end MaterialShader
