import MaterialShader.Proofs.Text.Search
import MaterialShader.Realization

/-!
The grammar of templates.
-/

namespace MaterialShader

open List

namespace Text

variable {d : Char} {part rest text : List Char}

/-- A mark of two letters `d` that is written behind the part has its first place there. -/
structure Clear (d : Char) (part : List Char) : Prop where
  inside : ¬ [d, d] <:+: part
  edge : part.getLast? ≠ some d

theorem Clear.of_not_mem (absent : d ∉ part) : Clear d part :=
  ⟨fun stands => absent (stands.subset (.head _)), fun last => absent (mem_of_getLast? last)⟩

theorem Clear.cons {c : Char} (clear : Clear d part)
    (elsewhere : ¬ [d, d] <+: c :: (part ++ d :: d :: rest)) : Clear d (c :: part) := by
  constructor
  · rw [infix_cons_iff, not_or]
    exact ⟨fun here => elsewhere (here.trans (prefix_append (c :: part) _)), clear.inside⟩
  · cases part with
    | nil =>
      intro last
      obtain rfl : c = d := by simpa using last
      exact elsewhere (prefix_append [c, c] (c :: rest))
    | cons c' part =>
      exact clear.edge

theorem exists_clear (d : Char) (text : List Char) :
    ¬ [d, d] <:+: text ∨ ∃ part rest, Clear d part ∧ text = part ++ d :: d :: rest := by
  induction text with
  | nil => exact .inl (by simp)
  | cons c cs ih =>
    by_cases here : [d, d] <+: c :: cs
    · obtain ⟨rest, same⟩ := here
      exact .inr ⟨[], rest, .of_not_mem not_mem_nil, same.symm⟩
    · obtain absent | ⟨part, rest, clear, rfl⟩ := ih
      · exact .inl (by simp [infix_cons_iff, here, absent])
      · exact .inr ⟨c :: part, rest, clear.cons here, rfl⟩

theorem cut?_cons {c : Char} (elsewhere : ¬ [d, d] <+: c :: text) :
    cut? [d, d] (c :: text) = (cut? [d, d] text).map fun (before, rest) => (c :: before, rest) := by
  have none : after? [d, d] (c :: text) = none :=
    Option.eq_none_iff_forall_ne_some.2 fun rest stands =>
      elsewhere ⟨rest, (after?_eq_some.1 stands).symm⟩
  rw [cut?, none]

theorem cut?_eq_none (absent : ¬ [d, d] <:+: text) : cut? [d, d] text = none := by
  induction text with
  | nil => rfl
  | cons c cs ih =>
    rw [infix_cons_iff, not_or] at absent
    rw [cut?_cons absent.1, ih absent.2]
    rfl

theorem Clear.cut? (clear : Clear d part) (rest : List Char) :
    cut? [d, d] (part ++ d :: d :: rest) = some (part, rest) := by
  induction part with
  | nil => simp [Text.cut?, after?]
  | cons c cs ih =>
    have elsewhere : ¬ [d, d] <+: c :: (cs ++ d :: d :: rest) := by
      intro stands
      obtain ⟨rfl, next⟩ := cons_prefix_cons.1 stands
      cases cs with
      | nil => exact clear.edge rfl
      | cons c' cs =>
        obtain ⟨rfl, _⟩ := cons_prefix_cons.1 next
        exact clear.inside (prefix_append [d, d] cs).isInfix
    have later : Clear d cs := by
      refine ⟨fun stands => clear.inside (infix_cons stands), fun last => clear.edge ?_⟩
      rw [getLast?_cons, last]
      rfl
    rw [cons_append, cut?_cons elsewhere, ih later]
    rfl

end Text

namespace Template

/-- A chunk and the name in double braces behind it. -/
structure Segment where
  chunk : List Char
  name : List Char

namespace Segment

def text (s : Segment) : List Char := s.chunk ++ opening ++ s.name ++ closing

def key (s : Segment) : String := Text.trim (String.ofList s.name)

/-- The chunk goes up to the opening braces, and the name up to the closing ones. -/
structure Clear (s : Segment) : Prop where
  chunk : Text.Clear '\x7b' s.chunk
  name : Text.Clear '\x7d' s.name

end Segment

def written (segments : List Segment) : List Char := segments.flatMap Segment.text

def outcome (argument : String → Option String) (segments : List Segment)
    (ending : Except Flaw String) : Except Flaw String :=
  match segments.find? fun s => (argument s.key).isNone with
  | some s => .error (.unknownInput s.key)
  | none => do
    let tail ← ending
    return String.join (segments.map fun s =>
      String.ofList s.chunk ++ (argument s.key).getD "") ++ tail

variable (argument : String → Option String) {segments : List Segment} {chunk last rest : List Char}

theorem written_cons (s : Segment) (segments : List Segment) :
    written (s :: segments) = s.text ++ written segments := rfl

theorem outcome_cons (s : Segment) (segments : List Segment) (ending : Except Flaw String) :
    outcome argument (s :: segments) ending =
      match argument s.key with
      | none => .error (.unknownInput s.key)
      | some text => do
        let tail ← outcome argument segments ending
        return String.ofList s.chunk ++ text ++ tail := by
  unfold outcome
  cases given : argument s.key with
  | none => simp [given]
  | some text =>
    simp only [find?_cons, given, Option.isNone_some]
    cases segments.find? fun s => (argument s.key).isNone with
    | some other => rfl
    | none => cases ending <;> simp [given, String.append_assoc, String.join_cons]

theorem expandFrom_segment {s : Segment} (clear : s.Clear) (k : Nat) :
    expandFrom argument (k + 1) (s.text ++ rest) =
      match argument s.key with
      | none => .error (.unknownInput s.key)
      | some text => do
        let tail ← expandFrom argument k rest
        return String.ofList s.chunk ++ text ++ tail := by
  have opened : Text.cut? opening (s.text ++ rest) = some (s.chunk, s.name ++ closing ++ rest) := by
    simpa [Segment.text, opening] using clear.chunk.cut? (s.name ++ closing ++ rest)
  have closed : Text.cut? closing (s.name ++ closing ++ rest) = some (s.name, rest) := by
    simpa [closing] using clear.name.cut? rest
  rw [expandFrom, opened]
  dsimp only
  rw [closed]
  rfl

theorem expandFrom_segments (clear : ∀ s ∈ segments, s.Clear) {k : Nat}
    (enough : segments.length ≤ k) :
    expandFrom argument k (written segments ++ rest) =
      outcome argument segments (expandFrom argument (k - segments.length) rest) := by
  induction segments generalizing k with
  | nil => simp [outcome, written]
  | cons s segments ih =>
    obtain ⟨first, others⟩ := forall_mem_cons.1 clear
    obtain ⟨k, rfl⟩ := Nat.exists_eq_add_one_of_ne_zero (Nat.ne_of_gt (Nat.zero_lt_of_lt enough))
    rw [length_cons] at enough ⊢
    rw [written_cons, append_assoc, expandFrom_segment argument first, outcome_cons,
      ih others (by omega), Nat.add_sub_add_right]

theorem expandFrom_last (plain : ¬ opening <:+: last) (k : Nat) :
    expandFrom argument k last = .ok (String.ofList last) := by
  cases k with
  | zero => rfl
  | succ k =>
    rw [expandFrom, opening, Text.cut?_eq_none plain]

theorem expandFrom_open (clear : Text.Clear '\x7b' chunk) (unclosed : ¬ closing <:+: rest)
    (k : Nat) : expandFrom argument (k + 1) (chunk ++ opening ++ rest) = .error .unterminated := by
  have opened : Text.cut? opening (chunk ++ opening ++ rest) = some (chunk, rest) := by
    simpa [opening] using clear.cut? rest
  rw [expandFrom, opened]
  dsimp only
  rw [closing, Text.cut?_eq_none unclosed]

theorem behind_closing {front x others : List Char} (unclosed : ¬ closing <:+: rest)
    (same : front ++ opening ++ rest = x ++ closing ++ others) :
    ∃ front', front = x ++ closing ++ front' ∧ others = front' ++ opening ++ rest := by
  simp only [opening, closing, append_assoc, cons_append, nil_append] at *
  -- Braces of the two kinds do not overlap, so the closing ones are before or behind the opening.
  obtain ⟨between, rfl, tail⟩ | ⟨between, rfl, tail⟩ := append_eq_append_iff.1 same
  · match between, tail with
    | [], tail | [_], tail => simp at tail
    | _ :: _ :: between, tail =>
      simp only [cons_append, cons.injEq] at tail
      exact absurd ⟨between, others, by simp [tail]⟩ unclosed
  · match between, tail with
    | [], tail | [_], tail => simp at tail
    | _ :: _ :: between, tail =>
      obtain ⟨rfl, rfl, rfl⟩ := tail
      exact ⟨between, rfl, rfl⟩

/-- The text is a sequence of segments, a chunk, and a name that is not closed. -/
structure Unclosed (text : List Char) (segments : List Segment) (chunk rest : List Char) :
    Prop where
  clear : ∀ s ∈ segments, s.Clear
  edge : Text.Clear '\x7b' chunk
  never : ¬ closing <:+: rest
  parts : text = written segments ++ (chunk ++ opening ++ rest)

theorem exists_unclosed (front : List Char) (unclosed : ¬ closing <:+: rest) :
    ∃ segments chunk rest', Unclosed (front ++ opening ++ rest) segments chunk rest' := by
  induction size : front.length using Nat.strong_induction_on generalizing front with
  | _ size ih =>
    obtain absent | ⟨chunk, after, before, same⟩ :=
      Text.exists_clear '\x7b' (front ++ opening ++ rest)
    · exact absurd (infix_append front opening rest) absent
    · obtain absent | ⟨name, others, within, rfl⟩ := Text.exists_clear '\x7d' after
      · exact ⟨[], chunk, after, by simp, before, absent, by simpa [opening, written] using same⟩
      · have parts : front ++ opening ++ rest = chunk ++ opening ++ name ++ closing ++ others := by
          simpa [opening, closing] using same
        obtain ⟨front', rfl, rfl⟩ := behind_closing unclosed parts
        obtain ⟨segments, chunk', rest', later⟩ :=
          ih front'.length (by simp [← size, closing]; omega) front' rfl
        refine ⟨⟨chunk, name⟩ :: segments, chunk', rest',
          forall_mem_cons.2 ⟨⟨before, within⟩, later.clear⟩, later.edge, later.never, ?_⟩
        rw [parts, later.parts, written_cons]
        simp [Segment.text]

theorem length_le_written (segments : List Segment) :
    segments.length ≤ (written segments).length := by
  induction segments with
  | nil => exact Nat.zero_le _
  | cons s segments ih =>
    simp only [written_cons, length_cons, length_append, Segment.text, closing]
    omega

/-- A template of chunks and names expands to the chunks and the texts of the trimmed names, or is
refused for the first name that is unknown. A template with opening braces that are never closed
begins with such a one, and is refused for them if all names of it are known. -/
theorem template_expands_by_grammar (argument : String → Option String) :
    (∀ segments last, (∀ s ∈ segments, Segment.Clear s) → ¬ opening <:+: last →
      expand argument (String.ofList (written segments ++ last)) =
        outcome argument segments (.ok (String.ofList last))) ∧
    ∀ front rest, ¬ closing <:+: rest → ∃ segments chunk rest',
      Unclosed (front ++ opening ++ rest) segments chunk rest' ∧
        expand argument (String.ofList (front ++ opening ++ rest)) =
          outcome argument segments (.error .unterminated) := by
  constructor
  · intro segments last clear plain
    have names := length_le_written segments
    rw [expand, String.toList_ofList, String.length_ofList, expandFrom_segments argument clear,
      expandFrom_last argument plain]
    rw [length_append]
    omega
  · intro front rest unclosed
    obtain ⟨segments, chunk, rest', reads⟩ := exists_unclosed front unclosed
    have names := length_le_written segments
    obtain ⟨k, more⟩ : ∃ k, (front ++ opening ++ rest).length = segments.length + (k + 1) := by
      refine Nat.exists_eq_add_of_lt ?_
      rw [reads.parts]
      simp only [length_append, opening, length_cons]
      omega
    refine ⟨segments, chunk, rest', reads, ?_⟩
    rw [expand, String.toList_ofList, String.length_ofList, more, reads.parts,
      expandFrom_segments argument reads.clear (Nat.le_add_right _ _), Nat.add_sub_cancel_left,
      expandFrom_open argument reads.edge reads.never]

def sumArgument (name : String) : Option String :=
  if name = "in1" then some "\x7b\x7bin2\x7d\x7d" else if name = "in2" then some "2.0" else none

def sumSegments : List Segment :=
  [⟨"f(".toList, "in1".toList⟩, ⟨") + \x7b ".toList, " in2 ".toList⟩]

/-- The text of an argument is not looked at again, and a brace may stand alone. -/
theorem template_expands_by_grammar_sum :
    (∀ s ∈ sumSegments, s.Clear) ∧ ¬ opening <:+: ['\x7d'] ∧
      expand sumArgument (String.ofList (written sumSegments ++ ['\x7d'])) =
        .ok "f(\x7b\x7bin2\x7d\x7d) + \x7b 2.0\x7d" ∧
      ¬ closing <:+: "in3\x7d".toList ∧ ∃ segments chunk rest,
        Unclosed (written sumSegments ++ opening ++ "in3\x7d".toList) segments chunk rest ∧
        expand sumArgument (String.ofList (written sumSegments ++ opening ++ "in3\x7d".toList)) =
          outcome sumArgument segments (.error .unterminated) := by
  have clear : ∀ s ∈ sumSegments, s.Clear := by
    simp only [sumSegments, forall_mem_cons, not_mem_nil, false_implies, implies_true, and_true]
    exact ⟨⟨.of_not_mem (by decide), .of_not_mem (by decide)⟩,
      ⟨by decide, by decide⟩, .of_not_mem (by decide)⟩
  have plain : ¬ opening <:+: ['\x7d'] := by decide
  have unclosed : ¬ closing <:+: "in3\x7d".toList := by decide
  have both := template_expands_by_grammar sumArgument
  exact ⟨clear, plain, (both.1 _ _ clear plain).trans (by decide), unclosed,
    both.2 _ _ unclosed⟩

end Template

end MaterialShader
