import MaterialShader.Proofs.Library.Merge

/-!
Lookups in a library that documents were merged into, one after the other.
-/

namespace MaterialShader

open List

namespace LibraryDocument

def definitionsOf (docs : List LibraryDocument) : List Definition :=
  docs.flatMap fun doc => doc.definitions.flatMap DefinitionEntry.expand

def namesOf (docs : List LibraryDocument) : List String :=
  ((definitionsOf docs).map Definition.name).eraseDups

def entriesOf (docs : List LibraryDocument) : List ImplementationEntry :=
  docs.flatMap LibraryDocument.implementations

def lastNamed? (docs : List LibraryDocument) (name : String) (target : Target) :
    Option ImplementationEntry :=
  (entriesOf docs).reverse.find? fun e => e.definition == name && e.targets.contains target

end LibraryDocument

def ImplementationEntry.implementation? (e : ImplementationEntry) : Option Implementation :=
  e.resolve.toOption

namespace Library

open LibraryDocument

/-- The library holds what the documents declare, later ones on top. -/
structure Holds (docs : List LibraryDocument) (lib : Library) : Prop where
  names : lib.definitions.map Definition.name = namesOf docs
  definitions : ∀ name, lib.definition? name =
    (definitionsOf docs).reverse.find? fun d => d.name == name
  implementations : List.Forall₂ (fun e i => e.resolve = .ok i) (entriesOf docs).reverse
    lib.implementations
  nodegraphs : lib.nodegraphs = docs.reverse.flatMap LibraryDocument.nodegraphs

/-- What the library answers is what the documents declare. -/
structure Answers (docs : List LibraryDocument) (lib : Library) : Prop where
  names : lib.definitions.map Definition.name = namesOf docs
  distinct : (namesOf docs).Nodup
  index : ∀ name k, Assoc.get? name lib.index = some k ↔ (namesOf docs)[k]? = some name
  definition : ∀ name, lib.definition? name =
    (definitionsOf docs).reverse.find? fun d => d.name == name
  formed : ∀ e ∈ entriesOf docs, e.implementation?.isSome
  implementation : ∀ d target, lib.implementation? d target =
    ((lastNamed? docs d.name target).or
      (d.template.bind fun template => lastNamed? docs template.1 target)).bind
        ImplementationEntry.implementation?
  nodegraph : ∀ category typeName, lib.nodegraph? category typeName =
    docs.reverse.findSome? fun doc =>
      doc.nodegraphs.find? (NodeGraph.implements · category typeName)

theorem addDefinition_names {lib : Library} {seen : List String}
    (names : lib.definitions.map Definition.name = seen.eraseDups) (d : Definition) :
    (lib.addDefinition d).definitions.map Definition.name = (seen ++ [d.name]).eraseDups := by
  have known : d.name ∈ seen ↔ ∃ k, Assoc.get? d.name lib.index = some k := by
    simp only [lib.indexed d.name, ← mem_iff_getElem?, names, mem_eraseDups]
  rw [eraseDups_append]
  unfold addDefinition
  split
  · rename_i k placed
    have old : d.name ∈ seen := known.2 ⟨k, placed⟩
    simpa [removeAll, old, names] using names_set ((lib.indexed d.name k).1 placed)
  · rename_i absent
    have new : d.name ∉ seen := by simp [known, absent]
    simp [removeAll, new, names, eraseDups_cons]

theorem foldl_addDefinition_names (added : List Definition) {lib : Library} {seen : List String}
    (names : lib.definitions.map Definition.name = seen.eraseDups) :
    (added.foldl addDefinition lib).definitions.map Definition.name =
      (seen ++ added.map Definition.name).eraseDups := by
  induction added generalizing lib seen with
  | nil => simpa using names
  | cons d rest ih => simpa using ih (addDefinition_names names d)

variable {docs : List LibraryDocument} {lib after : Library}

theorem absorb_names {doc : LibraryDocument} {seen : List String}
    (names : lib.definitions.map Definition.name = seen.eraseDups)
    (run : lib.absorb doc = (after, .ok ())) : after.definitions.map Definition.name =
      (seen ++ (doc.definitions.flatMap DefinitionEntry.expand).map Definition.name).eraseDups := by
  simp only [absorb] at run
  split at run
  · cases run
  · rename_i whole merged
    cases run
    obtain ⟨_, _, rfl⟩ := addImplementations_ok merged
    exact foldl_addDefinition_names _ names

theorem Holds.absorb {doc : LibraryDocument} (holds : lib.Holds docs)
    (run : lib.absorb doc = (after, .ok ())) : after.Holds (docs ++ [doc]) := by
  obtain ⟨⟨added, resolved, implementations⟩, definitions, nodegraphs⟩ := absorb_ok run
  refine ⟨?_, fun name => ?_, ?_, ?_⟩
  · simpa [namesOf, definitionsOf] using absorb_names holds.names run
  · rw [definitions, holds.definitions]
    simp [LibraryDocument.definition?, definitionsOf]
  · rw [implementations, entriesOf, flatMap_append, reverse_append]
    exact rel_append (by simpa using rel_reverse resolved) holds.implementations
  · rw [nodegraphs, holds.nodegraphs]
    simp

theorem find?_implementations {entries : List ImplementationEntry}
    {implementations : List Implementation}
    (resolved : List.Forall₂ (fun e i => e.resolve = .ok i) entries implementations)
    (name : String) (target : Target) :
    implementations.find? (fun i => i.definition == name && i.targets.contains target) =
      (entries.find? fun e => e.definition == name && e.targets.contains target).bind
        ImplementationEntry.implementation? := by
  induction resolved with
  | nil => rfl
  | cons formed _ ih =>
    rename_i e i entries implementations _
    have same : i.definition = e.definition ∧ i.targets = e.targets := by
      unfold ImplementationEntry.resolve at formed
      split at formed <;> cases formed <;> exact ⟨rfl, rfl⟩
    rw [List.find?_cons, List.find?_cons, same.1, same.2, ih]
    split
    · simp [ImplementationEntry.implementation?, formed, Except.toOption]
    · rfl

theorem Holds.formed (holds : lib.Holds docs) {e : ImplementationEntry}
    (declared : e ∈ (entriesOf docs).reverse) : e.implementation?.isSome := by
  obtain ⟨i, _, resolved⟩ := exists_of_mem_right holds.implementations.flip declared
  simp [ImplementationEntry.implementation?, resolved, Except.toOption]

theorem Holds.implementation? (holds : lib.Holds docs) (d : Definition) (target : Target) :
    lib.implementation? d target =
      ((lastNamed? docs d.name target).or
        (d.template.bind fun template => lastNamed? docs template.1 target)).bind
          ImplementationEntry.implementation? := by
  have named : ∀ name, lib.implementationNamed? name target =
      (lastNamed? docs name target).bind ImplementationEntry.implementation? := fun name =>
    find?_implementations holds.implementations name target
  unfold Library.implementation?
  rw [named]
  cases own : lastNamed? docs d.name target with
  | some e =>
    obtain ⟨i, valid⟩ :=
      Option.isSome_iff_exists.1 (holds.formed (mem_of_find?_eq_some own))
    simp [valid]
  | none =>
    cases d.template with
    | none => rfl
    | some template => simp [named]

theorem Holds.answers (holds : lib.Holds docs) : lib.Answers docs where
  names := holds.names
  distinct := holds.names ▸ lib.names_nodup
  index := holds.names ▸ lib.indexed
  definition := holds.definitions
  formed e declared := holds.formed (mem_reverse.2 declared)
  implementation := holds.implementation?
  nodegraph category typeName := by rw [nodegraph?, holds.nodegraphs, List.find?_flatMap]

end Library

end MaterialShader
