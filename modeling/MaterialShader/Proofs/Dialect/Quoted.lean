import MaterialShader.Dialect.Expression
import MaterialShader.Proofs.Result
import MaterialShader.Proofs.Text.Plain

/-!
Texts as literals of OSL and MDL.
-/

namespace MaterialShader

namespace Text

def literalChars? (escape : Char → Option Char) : List Char → Option (List Char)
  | [] => none
  | '"' :: rest => if rest.isEmpty then some [] else none
  | '\\' :: c :: rest => do
    let escaped ← escape c
    let others ← literalChars? escape rest
    return escaped :: others
  | c :: rest => if isInnerChar c && c != '\\' then (literalChars? escape rest).map (c :: ·) else none

/-- The text that a literal in double quotes denotes, if it is one. -/
def literal? (escape : Char → Option Char) (text : String) : Option String :=
  match text.toList with
  | '"' :: rest => (literalChars? escape rest).map String.ofList
  | _ => none

def isQuotableChar (c : Char) : Bool := isInnerChar c && c != '"' && c != '\\'

abbrev isQuotable : String → Bool := hasOnly isQuotableChar

def inQuotes (text : String) : String := "\"" ++ text ++ "\""

theorem inQuotes_inj {a b : String} (same : inQuotes a = inQuotes b) : a = b := by
  simpa [inQuotes, ← String.toList_inj] using same

theorem literalChars?_quotable (escape : Char → Option Char) {cs : List Char}
    (quotable : cs.all isQuotableChar) : literalChars? escape (cs ++ ['"']) = some cs := by
  induction cs with
  | nil => rfl
  | cons c rest ih =>
    rw [List.all_cons, Bool.and_eq_true] at quotable
    obtain ⟨here, later⟩ := quotable
    simp only [isQuotableChar, Bool.and_eq_true, bne_iff_ne, ne_eq] at here
    obtain ⟨⟨inner, noQuote⟩, noEscape⟩ := here
    rw [List.cons_append, literalChars?, ih later]
    · simp [inner, noEscape]
    · exact noQuote
    · exact fun _ _ is => absurd is noEscape

theorem literal?_inQuotes (escape : Char → Option Char) {text : String}
    (quotable : isQuotable text) : literal? escape (inQuotes text) = some text := by
  have split : (inQuotes text).toList = '"' :: (text.toList ++ ['"']) := by simp [inQuotes]
  simp only [literal?, split, literalChars?_quotable escape quotable, Option.map_some,
    String.ofList_toList]

end Text

namespace Dialect

open Text (inQuotes)

variable {t : ShaderType} {f : TypeForm}

theorem form_named {d : Dialect} {name : String} (named : t.name = name)
    (registered : Assoc.get? name d.forms = some f) : d.form t = .ok f :=
  Result.inside_ok.2 (orFail_ok.2 (named ▸ registered))

theorem literal_quoted {d : Dialect} (formed : d.form t = .ok f) (quoted : f.literal = .quoted)
    (text : String) (uniform : Bool) : d.literal t (.text text) uniform = .ok (inQuotes text) := by
  refine Result.bind_ok.2 ⟨f, formed, ?_⟩
  rw [quoted]
  rfl

theorem literal_resource {d : Dialect} (formed : d.form t = .ok f) {opening closing : String}
    (resource : f.literal = .resource opening closing) (text : String) (uniform : Bool) :
    d.literal t (.text text) uniform =
      .ok (if text.isEmpty then f.initial else opening ++ inQuotes text ++ closing) := by
  refine Result.bind_ok.2 ⟨f, formed, ?_⟩
  rw [resource]
  cases empty : text.isEmpty <;>
    simp [Value.text?, empty, inQuotes, String.append_assoc, pure, Except.pure]

def textureText (quoted : String) : String := "texture_2d(" ++ quoted ++ ", ::tex::gamma_default)"

theorem textureText_inj {a b : String} (same : textureText a = textureText b) : a = b := by
  simpa [textureText, ← String.toList_inj] using same

theorem textureText_ne (quoted : String) : "texture_2d()" ≠ textureText quoted := by
  intro same
  have lengths := congrArg String.length same
  have short : "texture_2d()".length = 12 := by decide
  have long : ", ::tex::gamma_default)".length = 23 := by decide
  rw [textureText, String.length_append, short, long] at lengths
  omega

/-- The language takes a text of the type as a path of a texture. -/
def TakesPath (target : Target) (t : ShaderType) : Prop := target = .mdl ∧ t.name = "filename"

theorem literal_text {target : Target} (texts : target = .osl ∨ target = .mdl)
    (typed : t.name = "string" ∨ t.name = "filename") :
    (TakesPath target t ∧ ∀ text uniform, (ofTarget target).literal t (.text text) uniform =
      .ok (if text.isEmpty then "texture_2d()" else textureText (inQuotes text))) ∨
    (¬ TakesPath target t ∧ ∀ text uniform,
      (ofTarget target).literal t (.text text) uniform = .ok (inQuotes text)) := by
  obtain rfl | rfl := texts <;> obtain name | name := typed
  · exact .inr ⟨by simp [TakesPath], literal_quoted (form_named name rfl) rfl⟩
  · exact .inr ⟨by simp [TakesPath], literal_quoted (form_named name rfl) rfl⟩
  · exact .inr ⟨by simp [TakesPath, name], literal_quoted (form_named name rfl) rfl⟩
  · have formed := form_named (d := ofTarget .mdl) name rfl
    exact .inl ⟨⟨rfl, name⟩, literal_resource formed rfl⟩

/-- A text without quotes, backslashes and ends of lines is written as one literal that denotes it,
whatever the escapes of the language are; the path of a texture stands in its constructor, and no
path gives the constructor nothing. Different texts are written differently. -/
theorem text_literals_denote {target : Target} (texts : target = .osl ∨ target = .mdl)
    {t : ShaderType} (typed : t.name = "string" ∨ t.name = "filename") (text : String)
    (uniform : Bool) :
    ∃ written, (ofTarget target).literal t (.text text) uniform = .ok written ∧
      (¬ TakesPath target t → Text.isQuotable text = true →
        ∀ escape, Text.literal? escape written = some text) ∧
      (TakesPath target t → text ≠ "" → Text.isQuotable text = true → ∃ quoted,
        written = textureText quoted ∧ ∀ escape, Text.literal? escape quoted = some text) ∧
      (TakesPath target t → text = "" → written = "texture_2d()") ∧
      ∀ other uniform', (ofTarget target).literal t (.text other) uniform' = .ok written →
        other = text := by
  obtain ⟨path, literal⟩ | ⟨plain, literal⟩ := literal_text texts typed
  · refine ⟨_, literal text uniform, fun no => absurd path no, fun _ some_ quotable => ?_,
      fun _ none => by simp [none], fun other uniform' same => ?_⟩
    · exact ⟨inQuotes text, by simp [some_], fun escape => Text.literal?_inQuotes escape quotable⟩
    · rw [literal, Except.ok.injEq] at same
      split at same <;> split at same
      · simp_all
      · exact absurd same (textureText_ne _)
      · exact absurd same.symm (textureText_ne _)
      · exact Text.inQuotes_inj (textureText_inj same)
  · refine ⟨_, literal text uniform, fun _ quotable escape => Text.literal?_inQuotes escape quotable,
      fun yes => absurd yes plain, fun yes => absurd yes plain, fun other uniform' same => ?_⟩
    rw [literal, Except.ok.injEq] at same
    exact Text.inQuotes_inj same

theorem text_literals_denote_lamp :
    ∃ t, Registry.standard.get "filename" = .ok t ∧ Text.isQuotable "tex/lamp 1.png" = true ∧
      ∃ written, (ofTarget .mdl).literal t (.text "tex/lamp 1.png") true = .ok written ∧
        ∃ quoted, written = textureText quoted ∧
          ∀ escape, Text.literal? escape quoted = some "tex/lamp 1.png" := by
  have quotable : Text.isQuotable "tex/lamp 1.png" = true := by decide
  obtain ⟨t, known, named⟩ : ∃ t, Registry.standard.get "filename" = .ok t ∧ t.name = "filename" :=
    ⟨_, rfl, rfl⟩
  obtain ⟨written, made, _, path, _⟩ :=
    text_literals_denote (.inr rfl) (.inr named) "tex/lamp 1.png" true
  exact ⟨t, known, quotable, written, made, path ⟨rfl, named⟩ (by decide) quotable⟩

/-- The constructor of a texture without a path has no literal in it, and a quote ends the literal
of a text early. -/
theorem text_literal_missing :
    (∃ t, Registry.standard.get "filename" = .ok t ∧
      (ofTarget .mdl).literal t (.text "") true = .ok "texture_2d()" ∧
      ∀ quoted, "texture_2d()" ≠ textureText quoted) ∧
    ∃ t, Registry.standard.get "string" = .ok t ∧
      (ofTarget .osl).literal t (.text "a\"b") true = .ok "\"a\"b\"" ∧
      ∀ escape, Text.literal? escape "\"a\"b\"" = none := by
  exact ⟨⟨_, rfl, rfl, textureText_ne⟩, _, rfl, rfl, fun escape => rfl⟩

end Dialect

end MaterialShader
