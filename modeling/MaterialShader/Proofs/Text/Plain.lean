import MaterialShader.Proofs.Dialect.Naming
import MaterialShader.Proofs.Stage.Token

/-!
Texts by their characters.
-/

namespace MaterialShader

open List Text

namespace Text

def hasOnly (p : Char → Bool) (text : String) : Bool := text.toList.all p

def isInnerChar (c : Char) : Bool := c != '\n' && c != '\r'

def isPlainChar (c : Char) : Bool := c != '$' && isInnerChar c

def isWordChar (c : Char) : Bool := c != ' ' && isPlainChar c

abbrev isUnbroken : String → Bool := hasOnly isInnerChar

abbrev isPlain : String → Bool := hasOnly isPlainChar

abbrev isWord : String → Bool := hasOnly isWordChar

section

variable {p q : Char → Bool}

@[simp] theorem hasOnly_append (a b : String) :
    hasOnly p (a ++ b) = (hasOnly p a && hasOnly p b) := by
  simp [hasOnly]

@[simp] theorem hasOnly_toString (text : String) : hasOnly p (toString text) = hasOnly p text := rfl

@[simp] theorem hasOnly_empty : hasOnly p "" = true := rfl

@[simp] theorem hasOnly_ofList (cs : List Char) : hasOnly p (String.ofList cs) = cs.all p := by
  simp [hasOnly]

theorem hasOnly_mono (weaker : ∀ c, p c → q c) {text : String}
    (only : hasOnly p text) : hasOnly q text := by
  unfold hasOnly at only ⊢
  rw [all_eq_true] at only ⊢
  exact fun c member => weaker c (only c member)

theorem hasOnly_join {separator : String} {parts : List String} (between : hasOnly p separator)
    (all : ∀ part ∈ parts, hasOnly p part) : hasOnly p (join separator parts) :=
  join_ensures (P := (hasOnly p ·)) rfl (fun _ _ first second => by simp [first, second]) between all

theorem hasOnly_replaceAll {pattern replacement text : String} (nonempty : pattern.toList ≠ [])
    (source : hasOnly p text) (new : hasOnly p replacement) :
    hasOnly p (replaceAll pattern replacement text) := by
  rw [replaceAll, hasOnly_ofList]
  exact (replaceChars_swapped nonempty _ _).all source new

end

variable {text : String}

theorem isUnbroken_of_isPlain (plain : isPlain text) : isUnbroken text :=
  hasOnly_mono (fun _ only => (Bool.and_eq_true_iff.1 only).2) plain

theorem isPlain_of_isWord (word : isWord text) : isPlain text :=
  hasOnly_mono (fun _ only => (Bool.and_eq_true_iff.1 only).2) word

theorem isPlain_iff : isPlain text ↔ Unmarked text ∧ isUnbroken text := by
  simp only [isPlain, isUnbroken, hasOnly, isPlainChar, Unmarked, all_eq_true,
    Bool.and_eq_true, bne_iff_ne, ne_eq]
  constructor
  · exact fun all => ⟨fun mark => (all _ mark).1 rfl, fun c member => (all c member).2⟩
  · rintro ⟨unmarked, all⟩ c member
    refine ⟨?_, all c member⟩
    rintro rfl
    exact unmarked member

theorem isWordChar_of_identifierChar {c : Char} (letter : isIdentifierChar c) :
    isWordChar c := by
  have other {d : Char} (not : isIdentifierChar d = false) : c ≠ d := by
    rintro rfl
    simp [not] at letter
  simp [isWordChar, isPlainChar, isInnerChar, other (d := ' ') (by decide),
    other (d := '$') (by decide), other (d := '\n') (by decide), other (d := '\r') (by decide)]

theorem isWord_of_identifier (identifier : isIdentifier text.toList) :
    isWord text := by
  have letters := all_of_isIdentifier identifier
  rw [all_eq_true] at letters
  rw [isWord, hasOnly, all_eq_true]
  exact fun c member => isWordChar_of_identifierChar (letters c member)

theorem isWord_sanitize (text : String) : isWord (sanitize text) := by
  apply isWord_of_identifier
  rw [sanitize, String.toList_ofList]
  exact isIdentifier_sanitizeChars _

theorem isWordChar_of_digit {c : Char} (digit : c.isDigit) : isWordChar c :=
  isWordChar_of_identifierChar (isIdentifierChar_of_digit digit)

theorem isWord_repr (k : Nat) : isWord (Nat.repr k) := by
  have digits := repr_digits k
  rw [all_eq_true] at digits
  rw [isWord, hasOnly, all_eq_true]
  exact fun c member => isWordChar_of_digit (digits c member)

@[simp] theorem isPlain_repr (k : Nat) : isPlain (Nat.repr k) = true :=
  isPlain_of_isWord (isWord_repr k)

/-! ### Single bytes

Closed texts are evaluated byte by byte: reading characters off a text is slow. -/

def bytes (text : String) : List UInt8 := text.toByteArray.data.toList

def byteChars? (text : String) : Option (List Char) :=
  if (bytes text).all (· < 128) then some ((bytes text).map Char.ofUInt8) else none

theorem bytes_eq_flatMap (text : String) :
    bytes text = text.toList.flatMap String.utf8EncodeChar := by
  rw [bytes, ← String.utf8Encode_toList, List.utf8Encode, toList_data_toByteArray]

theorem encode_of_small {c : Char} (small : ∀ b ∈ String.utf8EncodeChar c, b < 128) :
    (String.utf8EncodeChar c).map Char.ofUInt8 = [c] := by
  by_cases ascii : c.val.toNat ≤ 127
  · simp only [String.utf8EncodeChar, ascii, if_true, map_cons, map_nil,
      List.cons.injEq, and_true]
    apply Char.ext
    apply UInt32.toNat.inj
    have bound : c.toNat < 256 := Nat.lt_of_le_of_lt ascii (by decide)
    change (UInt8.ofNat c.toNat).toNat = c.toNat
    simpa using bound
  · exfalso
    unfold String.utf8EncodeChar at small
    simp only [ascii, if_false] at small
    split_ifs at small <;> have head := small _ mem_cons_self <;>
      simp [UInt8.lt_iff_toNat_lt] at head <;> omega

theorem byteChars?_eq_some {chars : List Char} (read : byteChars? text = some chars) :
    text.toList = chars := by
  unfold byteChars? at read
  split at read
  · rename_i small
    cases read
    rw [all_eq_true, bytes_eq_flatMap] at small
    have each : ∀ c ∈ text.toList, (String.utf8EncodeChar c).map Char.ofUInt8 = [c] := by
      intro c member
      refine encode_of_small fun b inside => ?_
      simpa using small b (mem_flatMap.2 ⟨c, member, inside⟩)
    rw [bytes_eq_flatMap, map_flatMap, flatMap_congr each, flatMap_singleton']
  · cases read

def hasOnlyBytes (p : Char → Bool) (text : String) : Bool :=
  (byteChars? text).any fun chars => chars.all p

theorem hasOnly_of_bytes {p : Char → Bool} (only : hasOnlyBytes p text) :
    hasOnly p text := by
  unfold hasOnlyBytes at only
  cases read : byteChars? text with
  | none => simp [read] at only
  | some chars => simpa [hasOnly, byteChars?_eq_some read, read] using only

end Text

theorem Value.isWord_intText (n : Int) : Text.isWord (intText n) := by
  cases n with
  | ofNat k => exact isWord_repr k
  | negSucc k =>
    show Text.isWord ("-" ++ Nat.repr (k + 1))
    rw [Text.isWord, hasOnly_append, Bool.and_eq_true]
    exact ⟨by decide, isWord_repr (k + 1)⟩

namespace Numeric

theorem digits_word (n : Nat) : (digits n).all Text.isWordChar := by
  rw [all_eq_true]
  intro c member
  exact isWordChar_of_digit (Nat.isDigit_of_mem_toDigits (by decide) (by decide) member)

theorem pointed_word (places n : Nat) : (pointed places n).all Text.isWordChar := by
  have padded : (padLeft (places + 1) (digits n)).all Text.isWordChar := by
    rw [padLeft, all_append, digits_word, Bool.and_true, all_eq_true]
    intro c member
    rw [eq_of_mem_replicate member]
    decide
  rw [all_eq_true] at padded
  have point : Text.isWordChar '.' := by decide
  simp only [pointed, all_append, all_cons, point, Bool.true_and, Bool.and_eq_true,
    all_eq_true]
  exact ⟨fun c member => padded c (mem_of_mem_take member),
    fun c member => padded c (mem_of_mem_drop member)⟩

theorem fixed_word (places : Nat) (negative : Bool) (num den : Nat) :
    (fixed places negative num den).all Text.isWordChar := by
  unfold fixed
  split
  · rw [all_cons, pointed_word]
    decide
  · exact pointed_word _ _

theorem dropTrailingZeros_word {cs : List Char} (word : cs.all Text.isWordChar) :
    (dropTrailingZeros cs).all Text.isWordChar := by
  have kept : ((cs.reverse.dropWhile (· == '0')).reverse).all Text.isWordChar := by
    rw [all_eq_true] at word ⊢
    intro c member
    have inside := (dropWhile_sublist _).mem (mem_reverse.1 member)
    exact word c (mem_reverse.1 inside)
  unfold dropTrailingZeros
  dsimp only
  split
  · rw [all_append, kept]
    decide
  · exact kept

theorem Single.isWord_literal (x : Single) : Text.isWord x.literal := by
  rw [Single.literal, Text.isWord, hasOnly_ofList]
  unfold Single.literalChars
  split
  · dsimp only
    split
    · decide
    · exact dropTrailingZeros_word (fixed_word _ _ _ _)
  · decide

end Numeric

end MaterialShader
