import MaterialShader.Generator
import MaterialShader.Library.Bundled
import MaterialShader.Proofs.Builder.State
import MaterialShader.Proofs.Library.Merge

/-!
The realizations of nodes, by the definitions they stem from.
-/

namespace MaterialShader

open List

def LibraryDocument.library (doc : LibraryDocument)
    (names : ((doc.definitions.flatMap DefinitionEntry.expand).map Definition.name).Nodup) :
    Library where
  definitions := doc.definitions.flatMap DefinitionEntry.expand
  implementations := (doc.implementations.filterMap fun e => e.resolve.toOption).reverse
  nodegraphs := doc.nodegraphs
  indexed := Library.indexes_zipIdx names

namespace Library

theorem addDefinitions_of_fresh {definitions : List Definition} {lib : Library}
    (names : ((lib.definitions ++ definitions).map Definition.name).Nodup)
    (listed : lib.index = (lib.definitions.map Definition.name).zipIdx) :
    definitions.foldl addDefinition lib = ⟨lib.definitions ++ definitions, lib.implementations,
      lib.nodegraphs, _, indexes_zipIdx names⟩ := by
  induction definitions generalizing lib with
  | nil => exact Library.ext (by simp) rfl rfl (by simpa using listed)
  | cons d rest ih =>
    have absent : Assoc.get? d.name lib.index = none := by
      rw [Option.eq_none_iff_forall_ne_some]
      intro k placed
      have old := mem_of_getElem? ((lib.indexed d.name k).1 placed)
      rw [map_append, map_cons] at names
      exact (nodup_append.1 names).2.2 _ old _ mem_cons_self rfl
    have names' : ((lib.definitions ++ [d] ++ rest).map Definition.name).Nodup := by simpa using names
    have added : lib.addDefinition d = ⟨lib.definitions ++ [d], lib.implementations, lib.nodegraphs, _,
        indexes_zipIdx (nodup_append.1 (map_append ▸ names')).1⟩ := by
      unfold addDefinition
      split
      · rename_i placed
        cases absent.symm.trans placed
      · rw [listed] at absent
        exact Library.ext rfl rfl rfl (by simp [listed, Assoc.put_of_fresh absent, zipIdx_append])
    rw [foldl_cons, added, ih names' rfl]
    exact Library.ext (by simp) rfl rfl (by simp)

theorem addImplementations_of_valid {entries : List ImplementationEntry} {lib : Library}
    (valid : ∀ e ∈ entries, e.resolve.toOption.isSome) :
    lib.addImplementations entries =
      ({ lib with
          implementations :=
            (entries.filterMap fun e => e.resolve.toOption).reverse ++ lib.implementations },
        .ok ()) := by
  induction entries generalizing lib with
  | nil => rfl
  | cons e rest ih =>
    obtain ⟨here, later⟩ := forall_mem_cons.1 valid
    obtain ⟨i, found⟩ := Option.isSome_iff_exists.1 here
    rw [addImplementations, Result.toOption_eq_some.1 found]
    dsimp only
    rw [ih later]
    simp [addImplementation, found]

theorem absorb_empty {doc : LibraryDocument}
    (names : ((doc.definitions.flatMap DefinitionEntry.expand).map Definition.name).Nodup)
    (valid : ∀ e ∈ doc.implementations, e.resolve.toOption.isSome) :
    empty.absorb doc = (doc.library names, .ok ()) := by
  have defined : (doc.definitions.flatMap DefinitionEntry.expand).foldl addDefinition empty =
      ⟨_, [], [], _, indexes_zipIdx names⟩ := addDefinitions_of_fresh names rfl
  rw [absorb, defined, addImplementations_of_valid valid]
  simp [LibraryDocument.library]

theorem bundled_names :
    ((Bundled.document.definitions.flatMap DefinitionEntry.expand).map Definition.name).Nodup := by
  decide +kernel

def listed : Library := Bundled.document.library bundled_names

theorem bundled_eq : bundled = listed := by
  have valid : (Bundled.document.implementations.all fun e => e.resolve.toOption.isSome) := by
    decide
  rw [bundled, absorb_empty bundled_names (all_eq_true.1 valid), listed]

end Library

def Definition.realization? (lib : Library) (target : Target) (d : Definition) :
    Option Realization :=
  match Realization.builtin? d target with
  | some (r, _) => some r
  | none => (lib.implementation? d target).map fun i => .source (.ofImplementation i d)

namespace RealizationTable

variable {d : Definition} {lib : Library}

theorem addDefinition_of_ne (lib : Library) (target : Target) (table : RealizationTable)
    {name : String} (other : d.name ≠ name) (t : Option Target) :
    Assoc.get? (name, t) (addDefinition lib target table d) = Assoc.get? (name, t) table := by
  unfold addDefinition register
  split
  · rw [Assoc.get?_put, if_neg (by simp [other])]
  · split
    · rw [Assoc.get?_put, if_neg (by simp [other])]
    · rfl

theorem addDefinition_self {target : Target} {table : RealizationTable}
    (absent : ∀ t, Assoc.get? (d.name, t) table = none) :
    (addDefinition lib target table d).get? d.name target = d.realization? lib target := by
  unfold addDefinition register Definition.realization? get?
  cases Realization.builtin? d target with
  | some entry =>
    obtain ⟨r, specific⟩ := entry
    cases specific <;> simp [Assoc.get?_put, absent]
  | none => cases lib.implementation? d target <;> simp [Assoc.get?_put, absent]

theorem get?_foldl_of_absent (lib : Library) (target : Target) {definitions : List Definition}
    {name : String} (absent : name ∉ definitions.map Definition.name) (table : RealizationTable) :
    (definitions.foldl (addDefinition lib target) table).get? name target =
      table.get? name target := by
  induction definitions generalizing table with
  | nil => rfl
  | cons e rest ih =>
    simp only [map_cons, mem_cons, not_or] at absent
    rw [foldl_cons, ih absent.2]
    simp only [get?, addDefinition_of_ne lib target table (Ne.symm absent.1)]

theorem get?_foldl {target : Target} {definitions : List Definition}
    (names : (definitions.map Definition.name).Nodup) (member : d ∈ definitions)
    {table : RealizationTable} (absent : ∀ t, Assoc.get? (d.name, t) table = none) :
    (definitions.foldl (addDefinition lib target) table).get? d.name target =
      d.realization? lib target := by
  induction definitions generalizing table with
  | nil => cases member
  | cons e rest ih =>
    obtain ⟨fresh, names⟩ := nodup_cons.1 names
    rw [foldl_cons]
    obtain rfl | member := mem_cons.1 member
    · rw [get?_foldl_of_absent lib target fresh, addDefinition_self absent]
    · have other : e.name ≠ d.name := by
        intro same
        exact fresh (same ▸ mem_map_of_mem member)
      apply ih names member
      intro t
      rw [addDefinition_of_ne lib target table other, absent]

theorem get?_ofLibrary (target : Target) (member : d ∈ lib.definitions) :
    (ofLibrary lib target).get? d.name target = d.realization? lib target :=
  get?_foldl lib.names_nodup member fun _ => rfl

theorem get?_ofLibrary_name (lib : Library) (target : Target) (name : String) :
    (ofLibrary lib target).get? name target =
      (lib.definition? name).bind (Definition.realization? lib target) := by
  cases found : lib.definition? name with
  | some d =>
    obtain ⟨member, rfl⟩ := Library.definition?_eq_some.1 found
    exact get?_ofLibrary target member
  | none =>
    have absent : name ∉ lib.definitions.map Definition.name := by
      intro member
      obtain ⟨d, defined⟩ := mem_map.1 member
      rw [Library.definition?_eq_some.2 defined] at found
      cases found
    exact get?_foldl_of_absent lib target absent []

end RealizationTable

def separateCategories : List String := ["separate2", "separate3", "separate4"]

def Definition.branchBound (d : Definition) : Nat :=
  if d.category = "switch" then Nat.max 1 (d.inputs.countP fun p => Text.startsWith "in" p.name)
  else 2

structure Library.Orderly (lib : Library) : Prop where
  outputs : ∀ d ∈ lib.definitions, d.outputs.length = 1 ∨ d.category ∈ separateCategories
  branches : ∀ d ∈ lib.definitions, d.category ∈ conditionalCategories → ∀ p ∈ d.inputs,
    ∀ k ∈ Scope.branchNumber? p.name, k < d.branchBound
  converts : lib.Converts

namespace Library

theorem mem_bundled {d : Definition} (member : d ∈ bundled.definitions) :
    d ∈ Bundled.document.definitions.flatMap DefinitionEntry.expand := by
  rwa [bundled_eq] at member

theorem bundled_converts : bundled.Converts := by
  have typed : ∀ d ∈ Bundled.document.definitions.flatMap DefinitionEntry.expand,
      "convert_".toList.isPrefixOf d.name.toList →
        ∃ o ∈ d.outputs.head?, d.name = "convert_" ++ o.typeName := by
    decide +kernel
  intro name d found
  obtain ⟨member, named⟩ := definition?_eq_some.1 found
  obtain ⟨o, first, same⟩ := typed d (mem_bundled member) (by simp [named])
  refine ⟨o, first, ?_⟩
  rw [named] at same
  exact (String.append_right_inj _).1 same.symm

theorem bundled_orderly : bundled.Orderly where
  outputs := by
    have single : ∀ d ∈ Bundled.document.definitions.flatMap DefinitionEntry.expand,
        d.outputs.length = 1 ∨ d.category ∈ separateCategories := by
      decide +kernel
    exact fun d member => single d (mem_bundled member)
  branches := by
    have numbered : ∀ d ∈ Bundled.document.definitions.flatMap DefinitionEntry.expand,
        d.category ∈ conditionalCategories → ∀ p ∈ d.inputs,
          ∀ k ∈ Scope.branchNumber? p.name, k < d.branchBound := by
      decide +kernel
    exact fun d member => numbered d (mem_bundled member)
  converts := bundled_converts

end Library

namespace Realization

theorem builtin?_conditional {d : Definition} (conditional : d.category ∈ conditionalCategories)
    (target : Target) : ∃ op : ConditionalOperator,
      builtin? d target = some (.conditional op, false) ∧
        (op = .switch ↔ d.category = "switch") := by
  simp only [conditionalCategories, mem_cons, not_mem_nil, or_false] at conditional
  obtain category | category | category := conditional
  · exact ⟨.switch, by simp [builtin?, closureArithmetic?, ofCategory?, category],
      by simp [category]⟩
  · exact ⟨.compare, by simp [builtin?, closureArithmetic?, ofCategory?, category],
      by simp [category]⟩
  · exact ⟨.ifGreater, by simp [builtin?, closureArithmetic?, ofCategory?, category],
      by simp [category]⟩

theorem builtin?_separate {d : Definition} (separate : d.category ∈ separateCategories)
    (target : Target) : builtin? d target = some (.separate, false) := by
  simp only [separateCategories, mem_cons, not_mem_nil, or_false] at separate
  obtain category | category | category := separate
  all_goals simp [builtin?, closureArithmetic?, ofCategory?, category]

end Realization

section

variable {lib : Library} {target : Target} {gen : Generator} {n : GraphNode} {r : Realization}

section

variable (orderly : lib.Orderly) (made : Generator.create target lib = .ok gen)
  (stems : n.Stems lib) (ok : gen.realize n = .ok r)

include orderly made stems ok

omit orderly in
theorem Generator.realize_ok : ∃ d ∈ lib.definitions, d.realization? lib target = some r ∧
      n.definition = d.name ∧ n.category = d.category ∧
      n.outputTypes = d.outputs.map Port.typeName ∧ d.Takes n.inputs := by
  obtain ⟨d, member, name, rest⟩ := stems
  obtain ⟨_, _, made⟩ := Result.bind_ok.1 made
  cases Result.pure_ok.1 made
  refine ⟨d, member, ?_, name, rest⟩
  have entry := RealizationTable.get?_ofLibrary target member
  unfold Generator.realize at ok
  simp only [name, entry] at ok
  split at ok
  · cases ok
  · cases ok
  · rename_i found
    cases ok
    exact found

theorem outputs_of_realize : n.outputs.length = 1 ∨ r = .separate := by
  obtain ⟨d, member, found, _, _, outputs, _⟩ := Generator.realize_ok made stems ok
  have length : n.outputs.length = d.outputs.length := by
    simpa [GraphNode.outputTypes] using congrArg List.length outputs
  obtain single | separate := orderly.outputs d member
  · exact .inl (length.trans single)
  · rw [Definition.realization?, Realization.builtin?_separate separate] at found
    exact .inr (Option.some.inj found).symm

theorem branch_lt_of_realize {i : Input} (input : i ∈ n.inputs) {k : Nat}
    (feeds : Scope.branchOf? n i = some k) : ∃ op, r = .conditional op ∧ k < op.branchCount n := by
  obtain ⟨d, member, found, _, category, _, takes⟩ := Generator.realize_ok made stems ok
  unfold Scope.branchOf? at feeds
  split_ifs at feeds with conditional
  rw [contains_iff_mem, category] at conditional
  obtain ⟨op, builtin, switch⟩ := Realization.builtin?_conditional conditional target
  rw [Definition.realization?, builtin] at found
  refine ⟨op, (Option.some.inj found).symm, ?_⟩
  have named : i.name ∈ n.inputs.map Input.name := mem_map_of_mem input
  obtain same | ⟨single, _⟩ := takes.names
  · rw [same] at named
    obtain ⟨p, port, name⟩ := mem_map.1 named
    have bound := orderly.branches d member conditional p port k (name ▸ feeds)
    have count : (n.inputs.countP fun i => Text.startsWith "in" i.name) =
        d.inputs.countP fun p => Text.startsWith "in" p.name := by
      have both := congrArg (List.countP (Text.startsWith "in")) same
      rwa [countP_map, countP_map] at both
    unfold Definition.branchBound at bound
    cases op with
    | switch =>
      rw [if_pos (switch.1 rfl)] at bound
      rwa [ConditionalOperator.branchCount, Fold.branchCount, count]
    | compare => rwa [if_neg (by rw [← switch]; simp)] at bound
    | ifGreater => rwa [if_neg (by rw [← switch]; simp)] at bound
  · rw [single, mem_singleton] at named
    have plain : Scope.branchNumber? "in" = none := by decide
    rw [named, plain] at feeds
    cases feeds

end

end

end MaterialShader
