import Mathlib.Data.List.Nodup
import MaterialShader.Library.Basic
import MaterialShader.Proofs.Result

/-!
Merging of library documents.
-/

namespace MaterialShader

def LibraryDocument.ofText? (text : String) : Option LibraryDocument :=
  Json.parse? text >>= LibraryDocument.ofJson?

def LibraryDocument.definition? (doc : LibraryDocument) (name : String) : Option Definition :=
  (doc.definitions.flatMap DefinitionEntry.expand).reverse.find? fun d => d.name == name

/-- A document cut off behind some of its implementations. -/
def LibraryDocument.cutAfter (doc : LibraryDocument) (front : List ImplementationEntry) :
    LibraryDocument :=
  { doc with implementations := front, nodegraphs := [] }

namespace Library

theorem names_nodup (lib : Library) : (lib.definitions.map Definition.name).Nodup := by
  rw [List.nodup_iff_getElem?_ne_getElem?]
  intro i j less inside same
  have found := List.getElem?_eq_getElem inside
  cases ((lib.indexed _ i).2 (same.trans found)).symm.trans ((lib.indexed _ j).2 found)
  exact Nat.lt_irrefl _ less

theorem addDefinition_keeps (lib : Library) (d : Definition) :
    (lib.addDefinition d).implementations = lib.implementations ∧
      (lib.addDefinition d).nodegraphs = lib.nodegraphs := by
  unfold addDefinition
  split <;> exact ⟨rfl, rfl⟩

theorem definition?_addDefinition (lib : Library) (d : Definition) (name : String) :
    (lib.addDefinition d).definition? name =
      if d.name = name then some d else lib.definition? name := by
  unfold addDefinition
  split
  · rename_i k placed
    have inside : k < lib.definitions.length := by
      have there := (lib.indexed d.name k).1 placed
      simpa using (List.getElem?_eq_some_iff.1 there).1
    by_cases same : d.name = name
    · simp [definition?, ← same, placed, inside]
    · -- Another name has another place.
      have apart : ∀ j, Assoc.get? name lib.index = some j → j ≠ k := by
        rintro j found rfl
        have there := (lib.indexed name j).1 found
        rw [(lib.indexed d.name j).1 placed] at there
        exact same (Option.some.inj there)
      simp only [definition?, if_neg same]
      exact Option.bind_congr fun j found => List.getElem?_set_ne (apart j found).symm
  · by_cases same : d.name = name
    · simp [definition?, Assoc.get?_put, same]
    · simp only [definition?, Assoc.get?_put, if_neg same]
      refine Option.bind_congr fun j found => List.getElem?_append_left ?_
      simpa using (List.getElem?_eq_some_iff.1 ((lib.indexed name j).1 found)).1

theorem definition?_foldl (definitions : List Definition) (lib : Library) (name : String) :
    (definitions.foldl addDefinition lib).definition? name =
      (definitions.reverse.find? fun d => d.name == name).or (lib.definition? name) := by
  induction definitions generalizing lib with
  | nil => rfl
  | cons d rest ih =>
    rw [List.foldl_cons, ih, definition?_addDefinition, List.reverse_cons, List.find?_append,
      Option.or_assoc]
    by_cases same : d.name = name <;> simp [same]

theorem foldl_addDefinition (definitions : List Definition) (lib : Library) :
    (definitions.foldl addDefinition lib).implementations = lib.implementations ∧
      (definitions.foldl addDefinition lib).nodegraphs = lib.nodegraphs := by
  induction definitions generalizing lib with
  | nil => exact ⟨rfl, rfl⟩
  | cons d rest ih =>
    obtain ⟨implementations, nodegraphs⟩ := lib.addDefinition_keeps d
    rw [List.foldl_cons, (ih _).1, (ih _).2, implementations, nodegraphs]
    exact ⟨rfl, rfl⟩

variable {lib after : Library}

theorem addImplementations_ok {entries : List ImplementationEntry}
    (run : lib.addImplementations entries = (after, .ok ())) :
    ∃ added, List.Forall₂ (fun e i => e.resolve = .ok i) entries added ∧
      after = { lib with implementations := added.reverse ++ lib.implementations } := by
  induction entries generalizing lib with
  | nil =>
    cases run
    exact ⟨[], .nil, rfl⟩
  | cons e rest ih =>
    rw [addImplementations] at run
    cases formed : e.resolve with
    | error f =>
      rw [formed] at run
      cases run
    | ok i =>
      rw [formed] at run
      obtain ⟨added, resolved, rfl⟩ := ih run
      refine ⟨i :: added, .cons formed resolved, ?_⟩
      simp [addImplementation]

theorem addImplementations_stops {entries : List ImplementationEntry} {f : Failure}
    (run : lib.addImplementations entries = (after, .error f)) :
    ∃ front entry back, entries = front ++ entry :: back ∧ entry.resolve = .error f ∧
      lib.addImplementations front = (after, .ok ()) := by
  induction entries generalizing lib with
  | nil => cases run
  | cons e rest ih =>
    rw [addImplementations] at run
    cases formed : e.resolve with
    | error g =>
      rw [formed] at run
      cases run
      exact ⟨[], e, rest, rfl, formed, rfl⟩
    | ok i =>
      rw [formed] at run
      obtain ⟨front, entry, back, rfl, rejected, merged⟩ := ih run
      refine ⟨e :: front, entry, back, rfl, rejected, ?_⟩
      rw [addImplementations, formed]
      exact merged

theorem absorb_stops {doc : LibraryDocument} {f : Failure}
    (run : lib.absorb doc = (after, .error f)) :
    ∃ front entry back, doc.implementations = front ++ entry :: back ∧ entry.resolve = .error f ∧
      lib.absorb (doc.cutAfter front) = (after, .ok ()) := by
  simp only [absorb] at run
  split at run
  · rename_i g partly
    cases run
    obtain ⟨front, entry, back, split, rejected, merged⟩ := addImplementations_stops partly
    refine ⟨front, entry, back, split, rejected, ?_⟩
    simp only [absorb, LibraryDocument.cutAfter, merged, List.nil_append]
  · cases run

theorem absorb_ok {doc : LibraryDocument} (run : lib.absorb doc = (after, .ok ())) :
    (∃ added, List.Forall₂ (fun e i => e.resolve = .ok i) doc.implementations added ∧
      after.implementations = added.reverse ++ lib.implementations) ∧
    (∀ name, after.definition? name = (doc.definition? name).or (lib.definition? name)) ∧
    after.nodegraphs = doc.nodegraphs ++ lib.nodegraphs := by
  simp only [absorb] at run
  split at run
  · cases run
  · rename_i whole merged
    cases run
    obtain ⟨added, resolved, rfl⟩ := addImplementations_ok merged
    obtain ⟨implementations, nodegraphs⟩ :=
      foldl_addDefinition (doc.definitions.flatMap DefinitionEntry.expand) lib
    refine ⟨⟨added, resolved, ?_⟩, ?_, ?_⟩
    · rw [implementations]
    · exact definition?_foldl (doc.definitions.flatMap DefinitionEntry.expand) lib
    · rw [nodegraphs]

/-- A merge that fails leaves the node graphs as they are, and the whole library if the text holds
no document. Otherwise it leaves what the merge of the document leaves that is cut off in front of
the entry without a valid form: the definitions of the document and the entries in front. -/
theorem merge_stops {lib after : Library} {text : String} {f : Failure}
    (failed : lib.merge text = (after, .error f)) :
    after.nodegraphs = lib.nodegraphs ∧
      ((LibraryDocument.ofText? text = none ∧ after = lib) ∨
        ∃ doc front entry back, LibraryDocument.ofText? text = some doc ∧
          doc.implementations = front ++ entry :: back ∧ entry.resolve = .error f ∧
          lib.absorb (doc.cutAfter front) = (after, .ok ()) ∧
          (∃ added, List.Forall₂ (fun e i => e.resolve = .ok i) front added ∧
            after.implementations = added.reverse ++ lib.implementations) ∧
          ∀ name, after.definition? name = (doc.definition? name).or (lib.definition? name)) := by
  unfold merge at failed
  cases read : LibraryDocument.ofText? text with
  | none =>
    simp only [LibraryDocument.ofText?] at read
    rw [read] at failed
    cases failed
    exact ⟨rfl, .inl ⟨rfl, rfl⟩⟩
  | some doc =>
    simp only [LibraryDocument.ofText?] at read
    rw [read] at failed
    obtain ⟨front, entry, back, split, rejected, merged⟩ := absorb_stops failed
    obtain ⟨implementations, definitions, nodegraphs⟩ := absorb_ok merged
    exact ⟨nodegraphs, .inr ⟨doc, front, entry, back, rfl, split, rejected, merged,
      implementations, definitions⟩⟩

/-- A library with a definition and a node graph. -/
def litLibrary : Library where
  definitions := [⟨"glow", "dim", none, [], []⟩]
  implementations := []
  nodegraphs := [⟨"NG_lit", "lit", "float", [], [], [], []⟩]

/-- A new definition for a name that is taken, an implementation, and one that is neither inline nor
a function. -/
def glowText : String :=
  "\x7b\"nodedefs\":[\x7b\"name\":\"glow\",\"node\":\"shine\",\"outputs\":[]\x7d]," ++
    "\"implementations\":[\x7b\"nodedef\":\"glow\",\"targets\":[],\"inline\":\"1\"\x7d," ++
    "\x7b\"nodedef\":\"glow\",\"targets\":[]\x7d]\x7d"

theorem merge_stops_glow :
    ∃ after f, litLibrary.merge glowText = (after, .error f) ∧
      after.nodegraphs = litLibrary.nodegraphs ∧
      ((LibraryDocument.ofText? glowText = none ∧ after = litLibrary) ∨
        ∃ doc front entry back, LibraryDocument.ofText? glowText = some doc ∧
          doc.implementations = front ++ entry :: back ∧ entry.resolve = .error f ∧
          litLibrary.absorb (doc.cutAfter front) = (after, .ok ()) ∧
          (∃ added, List.Forall₂ (fun e i => e.resolve = .ok i) front added ∧
            after.implementations = added.reverse ++ litLibrary.implementations) ∧
          ∀ name, after.definition? name =
            (doc.definition? name).or (litLibrary.definition? name)) := by
  have fails : (litLibrary.merge glowText).2 = .error ⟨[], .implementationForm "glow"⟩ := by
    decide +kernel
  generalize failed : litLibrary.merge glowText = result at fails
  obtain ⟨after, outcome⟩ := result
  subst fails
  exact ⟨after, _, rfl, merge_stops failed⟩

/-- A merge that fails may replace a definition and add an implementation. -/
theorem failed_merge_changes_library :
    (litLibrary.merge glowText).2 = fail (.implementationForm "glow") ∧
      litLibrary.definitions.map Definition.category = ["dim"] ∧
      (litLibrary.merge glowText).1.definitions.map Definition.category = ["shine"] ∧
      litLibrary.implementations.length = 0 ∧
      (litLibrary.merge glowText).1.implementations.length = 1 := by
  decide +kernel

end Library

end MaterialShader
