import Mathlib.Data.List.TakeWhile
import MaterialShader.Proofs.Emission.Plain
import MaterialShader.Proofs.Realization

/-!
Texts of the library.
-/

namespace MaterialShader

open List Token
open Text (cut? hasOnly isPlain replaceAll)
open Text (Unmarked hasOnlyBytes hasOnly_of_bytes isInnerChar isPlain isPlainChar isUnbroken)

variable {text : String} {code : SourceCode}

namespace Token

variable {tokens : List String}

theorem coversChars_of_break {tokens : List (List Char)} (inner : ∀ t ∈ tokens, '\n' ∉ t)
    {front back : List Char} (covered : coversChars tokens (front ++ '\n' :: back)) :
    coversChars tokens front := by
  induction front with
  | nil => rfl
  | cons c cs ih =>
    rw [cons_append, coversChars_cons] at covered
    refine coversChars_cons.2 ⟨fun mark => ?_, ih covered.2⟩
    obtain ⟨t, member, stands⟩ := covered.1 mark
    have within : t <+: c :: cs := Text.prefix_of_append_cons (inner t member) stands
    exact ⟨t, member, within⟩

theorem linesFrom_covers {tokens : List (List Char)} (inner : ∀ t ∈ tokens, '\n' ∉ t)
    {current text : List Char} (clean : (current ++ text).all (· != '\r'))
    (open_ : '\n' ∉ current)
    (covered : coversChars tokens (current.reverse ++ text)) :
    ∀ line ∈ Text.linesFrom current text,
      coversChars tokens line ∧ line.all isInnerChar := by
  have unbroken {current : List Char} (clean : current.all (· != '\r'))
      (open_ : '\n' ∉ current) : current.reverse.all isInnerChar := by
    rw [all_eq_true] at clean ⊢
    intro c member
    have member := mem_reverse.1 member
    have other : c ≠ '\n' := by
      rintro rfl
      exact open_ member
    simpa [isInnerChar, other] using clean c member
  induction text generalizing current with
  | nil =>
    rw [append_nil] at covered clean
    unfold Text.linesFrom
    split
    · simp
    · simpa using ⟨covered, by simpa using unbroken clean open_⟩
  | cons c cs ih =>
    unfold Text.linesFrom
    have parts : current.all (· != '\r') ∧ (c != '\r') ∧ cs.all (· != '\r') := by
      simpa [all_append] using clean
    split
    · rename_i line
      subst line
      have here := unbroken parts.1 open_
      rw [forall_mem_cons, Text.dropReturn_of_unbroken here]
      refine ⟨⟨coversChars_of_break inner covered, here⟩, ih (by simpa using parts.2.2) (by simp) ?_⟩
      have later := coversChars_of_append covered
      exact (coversChars_cons.1 later).2
    · rename_i other
      refine ih (by simp_all [all_append]) (by simp [Ne.symm other, open_]) ?_
      simpa using covered

theorem lines_fit (inner : ∀ t ∈ tokens, '\n' ∉ t.toList) (clean : hasOnly (· != '\r') text)
    (covered : covers tokens text) :
    ∀ line ∈ Text.lines (Text.dropFinalNewlines text), fits tokens line := by
  have split : text.toList = Text.dropEndWhile (· == '\n') text.toList ++
      (text.toList.reverse.takeWhile (· == '\n')).reverse := by
    rw [Text.dropEndWhile, ← reverse_append, takeWhile_append_dropWhile,
      reverse_reverse]
  intro line member
  unfold Text.lines Text.dropFinalNewlines at member
  rw [String.toList_ofList] at member
  obtain ⟨chars, listed, rfl⟩ := mem_map.1 member
  have inner' : ∀ t ∈ tokens.map String.toList, '\n' ∉ t := by simpa using inner
  rw [covers, split] at covered
  rw [hasOnly, split, all_append, Bool.and_eq_true] at clean
  have front : coversChars (tokens.map String.toList)
      (Text.dropEndWhile (· == '\n') text.toList) := by
    cases tail : (text.toList.reverse.takeWhile (· == '\n')).reverse with
    | nil => rwa [tail, append_nil] at covered
    | cons c cs =>
      have newline : c = '\n' := by
        have inside : c ∈ text.toList.reverse.takeWhile (· == '\n') :=
          mem_reverse.1 (tail ▸ (.head _))
        simpa using mem_takeWhile_imp inside
      rw [tail, newline] at covered
      exact coversChars_of_break inner' covered
  have none : '\n' ∉ ([] : List Char) := by simp
  have both := linesFrom_covers inner' clean.1 none front chars listed
  rw [fits, covers, isUnbroken, Text.hasOnly_ofList, String.toList_ofList, both.1, both.2]
  rfl

theorem covers_replaceAll {token replacement : String}
    (formed : ∀ t ∈ token :: tokens, isFormed t.toList) (unmarked : Unmarked replacement)
    (covered : covers (token :: tokens) text) :
    covers tokens (replaceAll token replacement text) := by
  have first := formed token mem_cons_self
  have nonempty : token.toList.isEmpty = false := by
    obtain ⟨name, split, _⟩ := isFormed_iff.1 first
    rw [split]
    rfl
  simp only [covers, replaceAll, String.toList_ofList, Text.replaceChars, nonempty]
  refine replaceFrom_covers (fun t member => ?_) unmarked covered
  obtain rfl | member := mem_cons.1 member
  · exact first
  · obtain ⟨t, listed, rfl⟩ := mem_map.1 member
    exact formed t (.tail _ listed)

end Token

theorem Dialect.commaList_fits {tokens : List String} {texts : List String}
    (all : ∀ text ∈ texts, Token.fits tokens text) :
    Token.fits tokens (commaList texts) := by
  simp only [Token.fits, Bool.and_eq_true] at all ⊢
  exact ⟨covers_join (covers_of_unmarked (by decide)) fun text member =>
    (all text member).1, Text.hasOnly_join (by decide) fun text member => (all text member).2⟩

theorem Dialect.call_fits {tokens : List String} {name : String} {arguments : List String}
    (function : isPlain name)
    (all : ∀ text ∈ arguments, Token.fits tokens text) :
    Token.fits tokens (Dialect.call name arguments) := by
  have opening : isPlain (name ++ "(") := by simp +decide [function]
  exact fits_append (fits_append (fits_of_plain opening) (commaList_fits all))
    (fits_of_plain (by decide))

theorem Text.cut?_eq_some {pattern text before rest : List Char}
    (found : cut? pattern text = some (before, rest)) : text = before ++ pattern ++ rest := by
  induction text generalizing before with
  | nil =>
    unfold cut? at found
    split at found
    · rename_i empty
      cases found
      simpa using empty
    · cases found
  | cons c cs ih =>
    unfold cut? at found
    split at found
    · rename_i others stands
      cases found
      simpa using Text.after?_eq_some.1 stands
    · obtain ⟨⟨front, others⟩, later, same⟩ := Option.map_eq_some_iff.1 found
      cases same
      rw [ih later]
      rfl

namespace Template

theorem expandFrom_plain {argument : String → Option String}
    (arguments : ∀ key text, argument key = some text → isPlain text) (k : Nat)
    {rest : List Char} (plain : rest.all isPlainChar) {out : String}
    (ok : expandFrom argument k rest = .ok out) : isPlain out := by
  induction k generalizing rest out with
  | zero =>
    cases ok
    simpa using plain
  | succ k ih =>
    unfold expandFrom at ok
    split at ok
    · cases ok
      simpa using plain
    · rename_i before after found
      rw [Text.cut?_eq_some found, all_append, all_append] at plain
      split at ok
      · cases ok
      · rename_i name others closed
        rw [Text.cut?_eq_some closed, all_append, all_append] at plain
        dsimp only at ok
        split at ok
        · cases ok
        · rename_i text given
          simp only [Bool.and_eq_true] at plain
          obtain ⟨tail, later, ok⟩ : ∃ tail, expandFrom argument k others = .ok tail ∧
              String.ofList before ++ text ++ tail = out := by
            cases later : expandFrom argument k others with
            | error flaw => simp [later, bind, Except.bind] at ok
            | ok tail =>
              exact ⟨tail, rfl, by simpa [later, bind, Except.bind, pure, Except.pure] using ok⟩
          have own := arguments _ text given
          have others := ih plain.2.2 later
          rw [← ok, isPlain, Text.hasOnly_append, Text.hasOnly_append, Text.hasOnly_ofList]
          simp only [plain.1.1, own, others, Bool.and_self]

end Template

namespace SourceCode

open Result.Ensures

def typeTokens : List String := ["$type", "$suffix", "$channels"]

def allows (code : SourceCode) (tokens : List String) (text : String) : Bool :=
  Token.covers ((if code.templateType.isSome then typeTokens else []) ++ tokens) text

structure IsTame (code : SourceCode) (tokens : List String) : Prop where
  type : code.templateType.all isPlain = true
  extra : ∀ text ∈ code.extraArguments, code.allows tokens text = true ∧ isUnbroken text = true
  inline : ∀ template, code.source = .inline template → isPlain template = true
  function : ∀ name source, code.source = .function name source →
    code.allows [] name = true ∧ isUnbroken name = true ∧ code.allows tokens source = true ∧
      Text.hasOnly (· != '\r') source = true

variable {run : Run} {tokens : List String}

theorem substitute_unmarked (code : SourceCode) (run : Run) (unmarked : Unmarked text) :
    code.substitute run text = .ok text := by
  unfold substitute
  split
  · rfl
  · refine if_neg fun marked => unmarked ?_
    rw [Text.contains, Text.occurs_iff] at marked
    exact (singleton_infix_iff _ _).1 marked

section

variable (plain : run.IsPlain) (type : code.templateType.all isPlain)

include plain type

theorem substitute_cases (text : String) : (code.substitute run text).Ensures fun out =>
      out = text ∧ (Unmarked text ∨ code.templateType = none) ∨
      code.templateType.isSome ∧ ∃ name suffix channels, isPlain name ∧
        isPlain suffix ∧ isPlain channels ∧
        out = replaceAll "$channels" channels
          (replaceAll "$suffix" suffix (replaceAll "$type" name text)) := by
  unfold substitute
  split
  · rename_i single
    exact pure (.inl ⟨rfl, .inr single⟩)
  · rename_i typeName several
    have suffix : isPlain typeName := by simpa [several] using type
    split
    · refine after fun t => bind fun name named => pure (.inr ⟨by simp [several], ?_⟩)
      refine ⟨name, typeName, _, Dialect.typeName_plain plain.dialect name named, suffix, ?_, rfl⟩
      rw [isPlain, Text.hasOnly_ofList, all_eq_true]
      intro c member
      have all : colorLetters.toList.all isPlainChar := by decide
      exact all_eq_true.1 all c (mem_of_mem_take member)
    · rename_i absent
      refine pure (.inl ⟨rfl, .inl fun member => absent ?_⟩)
      rw [Text.contains, Text.occurs_iff]
      exact (singleton_infix_iff _ _).2 member

theorem substitute_hasOnly {p : Char → Bool} (weaker : ∀ c, isPlainChar c → p c)
    (only : hasOnly p text) :
    (code.substitute run text).Ensures (hasOnly p ·) := by
  intro out ok
  obtain ⟨rfl, _⟩ | ⟨_, name, suffix, channels, first, second, third, rfl⟩ :=
    substitute_cases plain type text out ok
  · exact only
  · have step {token replacement text : String} (nonempty : token.toList ≠ [])
        (plain : isPlain replacement) (only : hasOnly p text) :
        hasOnly p (replaceAll token replacement text) :=
      Text.hasOnly_replaceAll nonempty only (Text.hasOnly_mono weaker plain)
    exact step (by decide) third (step (by decide) second (step (by decide) first only))

theorem substitute_covers (formed : ∀ t ∈ tokens, Token.isFormed t.toList)
    (allowed : code.allows tokens text) :
    (code.substitute run text).Ensures (Token.covers tokens ·) := by
  intro out ok
  obtain ⟨rfl, unmarked | single⟩ | ⟨several, name, suffix, channels, first, second, third, rfl⟩ :=
    substitute_cases plain type text out ok
  · exact covers_of_unmarked unmarked
  · simpa [allows, single] using allowed
  · have own : ∀ t ∈ typeTokens ++ tokens, Token.isFormed t.toList :=
      forall_mem_append.2 ⟨by decide, formed⟩
    have unmarked {text : String} (plain : isPlain text) : Unmarked text :=
      (Text.isPlain_iff.1 plain).1
    rw [allows, several, if_pos rfl] at allowed
    have typed := covers_replaceAll own (unmarked first) allowed
    have named := covers_replaceAll (fun t later => own t (.tail _ later))
      (unmarked second) typed
    exact covers_replaceAll (fun t later =>
      own t (.tail _ (.tail _ later))) (unmarked third) named

theorem substitute_plain (allowed : code.allows [] text) (unbroken : isUnbroken text) :
    (code.substitute run text).Ensures (isPlain ·) := by
  intro out ok
  have covered := substitute_covers plain type (by simp) allowed out ok
  have inner := substitute_hasOnly plain type
    (fun c only => (Bool.and_eq_true_iff.1 only).2) unbroken out ok
  exact Text.isPlain_iff.2 ⟨coversChars_nil.1 covered, inner⟩

end

variable (plain : run.IsPlain) (tame : code.IsTame tokens)

include plain tame

theorem inlineCode_fits (id : NodeId) {template : String}
    (source : code.source = .inline template) :
    (code.inlineCode run id template).Ensures (Code.Fits tokens) := by
  have clean := tame.inline template source
  refine after fun n => ?_
  split
  · exact of_fail _
  · refine bind fun text same => ?_
    have unmarked := (Text.isPlain_iff.1 clean).1
    rw [code.substitute_unmarked run unmarked] at same
    cases same
    split
    · exact of_fail _
    · rename_i expression expanded
      refine Run.declareOnly_plain plain id (Template.expandFrom_plain ?_ _ clean expanded)
      intro key text given
      exact Run.inputText_plain plain id key text (Result.toOption_eq_some.1 given)

section

variable (formed : ∀ t ∈ tokens, Token.isFormed t.toList)

include formed

theorem callCode_fits (hardware : run.target.isHardware) (id : NodeId) {name : String}
    (source : code.source = .function name text) :
    (code.callCode run id name).Ensures (Code.Fits tokens) := by
  have type := tame.type
  obtain ⟨short, unbroken, _, _⟩ := tame.function name text source
  refine bind fun n node => bind fun function named => bind fun inputs argued => ?_
  refine bind fun others substituted => ?_
  have called := substitute_plain plain type short unbroken function named
  have own := Run.arguments_plain plain id node inputs argued
  have further : ∀ text ∈ others, Token.fits tokens text := by
    intro text member
    obtain ⟨argument, listed, ok⟩ := exists_of_mem_right (Result.mapM_ok substituted) member
    have allowed := tame.extra argument listed
    have inner := substitute_hasOnly plain type
      (fun c only => (Bool.and_eq_true_iff.1 only).2) allowed.2 text ok
    have covered := substitute_covers plain type formed allowed.1 text ok
    exact Bool.and_eq_true_iff.2 ⟨covered, inner⟩
  have other : run.target ≠ .mdl := by
    intro mdl
    simp [mdl, Target.isHardware] at hardware
  rw [if_neg other]
  refine bind fun declared each => bind fun outputs named => pure ?_
  have declarations : Code.Fits tokens declared :=
    Run.mapM_fits (fun k => Run.declareEmpty_fits plain id k) declared each
  refine declarations.append (.statement (Dialect.call_fits called ?_))
  rw [forall_mem_append, forall_mem_append]
  refine ⟨⟨fun text member => fits_of_plain (own text member), further⟩,
    fun text member => ?_⟩
  obtain ⟨k, _, ok⟩ := exists_of_mem_right (Result.mapM_ok named) member
  exact fits_of_plain (Run.outputName_plain plain id k text ok)

theorem code_fits (hardware : run.target.isHardware) (id : NodeId) :
    (code.code run id).Ensures (Code.Fits tokens) := by
  unfold SourceCode.code
  split
  · rename_i template source
    exact inlineCode_fits plain tame id source
  · rename_i name text source
    exact callCode_fits plain tame formed hardware id source

theorem function?_fits (inner : ∀ t ∈ tokens, '\n' ∉ t.toList) (known : List String) :
    (code.function? run known).Ensures fun own =>
      ∀ entry ∈ own, Code.Fits tokens [entry.2] := by
  unfold function?
  split
  · exact pure (by simp)
  · rename_i name text source
    have type := tame.type
    obtain ⟨_, _, allowed, clean⟩ := tame.function name text source
    split
    · exact pure (by simp)
    · refine after fun key => ?_
      split
      · exact pure (by simp)
      · refine bind fun body substituted => pure ?_
        have covered := substitute_covers plain type formed allowed body substituted
        have clean' := substitute_hasOnly plain type
          (fun c only => by simp_all [isPlainChar, isInnerChar]) clean body substituted
        rintro entry ⟨⟩
        have lines := lines_fit inner clean' covered
        simpa [Code.Fits, Code.lineTexts] using lines

end

end SourceCode

def Hardware.tokenNames : List String := tokens.map Prod.fst

theorem Hardware.tokenNames_formed {t : String} (member : t ∈ tokenNames) :
    Token.isFormed t.toList ∧ '\n' ∉ t.toList := by
  have all : (tokenNames.all fun t => Token.isFormed t.toList && !t.toList.contains '\n') := by
    decide
  simpa using all_eq_true.1 all t member

def Token.coversBytes (tokens : List String) (text : String) : Bool :=
  match tokens.mapM Text.byteChars?, Text.byteChars? text with
  | some tokens, some chars => coversChars tokens chars
  | _, _ => false

theorem Token.covers_of_bytes {tokens : List String} (covered : coversBytes tokens text) :
    covers tokens text := by
  unfold coversBytes at covered
  split at covered
  · rename_i listed chars readTokens read
    have same : tokens.map String.toList = listed := by
      clear covered
      induction tokens generalizing listed with
      | nil => simpa using readTokens
      | cons t rest ih =>
        simp only [mapM_cons, Option.bind_eq_bind, Option.bind_eq_some_iff, Option.pure_def,
          Option.some.injEq] at readTokens
        obtain ⟨first, head, others, tail, rfl⟩ := readTokens
        rw [map_cons, Text.byteChars?_eq_some head, ih _ tail]
    rwa [covers, same, Text.byteChars?_eq_some read]
  · cases covered

namespace Realization

def isTame (tokens : List String) : Realization → Bool
  | .source code =>
    let all := (if code.templateType.isSome then SourceCode.typeTokens else []) ++ tokens
    let types := if code.templateType.isSome then SourceCode.typeTokens else []
    code.templateType.all (hasOnlyBytes isPlainChar) &&
      code.extraArguments.all (fun text =>
        Token.coversBytes all text && hasOnlyBytes isInnerChar text) &&
      match code.source with
      | .inline template => hasOnlyBytes isPlainChar template
      | .function name text =>
        Token.coversBytes types name && hasOnlyBytes isInnerChar name &&
          Token.coversBytes all text && hasOnlyBytes (· != '\r') text
  | _ => true

theorem isTame_source {tokens : List String} (tame : isTame tokens (.source code)) :
    code.IsTame tokens := by
  simp only [isTame, Bool.and_eq_true, all_eq_true] at tame
  obtain ⟨⟨type, extra⟩, texts⟩ := tame
  have covered {tokens : List String} {text : String} (here : Token.coversBytes
      ((if code.templateType.isSome then SourceCode.typeTokens else []) ++ tokens) text) :
      code.allows tokens text := covers_of_bytes here
  refine ⟨?_, fun text member => ?_, fun template source => ?_, fun name text source => ?_⟩
  · cases typed : code.templateType with
    | none => rfl
    | some t => exact hasOnly_of_bytes (by simpa [typed] using type)
  · exact ⟨covered (extra text member).1, hasOnly_of_bytes (extra text member).2⟩
  · simp only [source] at texts
    exact hasOnly_of_bytes texts
  · simp only [source, Bool.and_eq_true] at texts
    obtain ⟨⟨⟨short, unbroken⟩, long⟩, clean⟩ := texts
    exact ⟨covered (by simpa using short), hasOnly_of_bytes unbroken, covered long,
      hasOnly_of_bytes clean⟩

end Realization

namespace Library

def isTame (lib : Library) (target : Target) : Bool :=
  lib.definitions.all fun d =>
    (d.realization? lib target).all (Realization.isTame Hardware.tokenNames)

theorem bundled_isTame : ([Target.glsl, .msl].all bundled.isTame) := by
  rw [bundled_eq]
  decide +kernel

theorem isTame_realization {lib : Library} {target : Target} (tame : lib.isTame target)
    {d : Definition} (member : d ∈ lib.definitions)
    (realized : d.realization? lib target = some (.source code)) :
    code.IsTame Hardware.tokenNames := by
  rw [isTame, all_eq_true] at tame
  have all := tame d member
  rw [realized, Option.all_some] at all
  exact Realization.isTame_source all

theorem bundled_tame {target : Target} (hardware : target.isHardware) {d : Definition}
    (member : d ∈ bundled.definitions)
    (realized : d.realization? bundled target = some (.source code)) :
    code.IsTame Hardware.tokenNames :=
  isTame_realization (all_eq_true.1 bundled_isTame target (Target.mem_hardware hardware)) member
    realized

end Library

end MaterialShader
