import MaterialShader.CommandLine.Directory
import MaterialShader.Proofs.Assoc

/-!
Changes of a directory that spare a file:
-/

namespace MaterialShader

open List Option

variable {x : String} {here : Location} {steps : List String}

namespace Path

structure IsEnding (x : String) : Prop where
  point : x.toList.head? = some '.'
  flat : '/' ∉ x.toList
  long : 2 < x.length

theorem partsFrom_flat {x : List Char} (flat : '/' ∉ x) (current : List Char) :
    partsFrom current x = [String.ofList (current.reverse ++ x)] := by
  induction x generalizing current with
  | nil => simp [partsFrom]
  | cons c cs ih =>
    rw [mem_cons, not_or] at flat
    rw [partsFrom, if_neg (Ne.symm flat.1), ih flat.2]
    simp

theorem partsFrom_append (current path : List Char) :
    ∃ init last, ∀ x : List Char, '/' ∉ x →
      partsFrom current (path ++ x) = init ++ [last ++ String.ofList x] := by
  induction path generalizing current with
  | nil =>
    refine ⟨[], String.ofList current.reverse, fun x flat => ?_⟩
    rw [nil_append, nil_append, partsFrom_flat flat, String.ofList_append]
  | cons c cs ih =>
    by_cases slash : c = '/'
    · obtain ⟨init, last, each⟩ := ih []
      refine ⟨String.ofList current.reverse :: init, last, fun x flat => ?_⟩
      rw [cons_append, partsFrom, if_pos slash, each x flat, cons_append]
    · obtain ⟨init, last, each⟩ := ih (c :: current)
      refine ⟨init, last, fun x flat => ?_⟩
      rw [cons_append, partsFrom, if_neg slash, each x flat]

theorem isAbsolute_append (ending : IsEnding x) (path : String) :
    isAbsolute (path ++ x) = isAbsolute path := by
  rw [isAbsolute, isAbsolute, String.toList_append, List.head?_append]
  cases path.toList.head? with
  | none =>
    rw [none_or, ending.point]
    decide
  | some c => rfl

theorem join_append (ending : IsEnding x) (folder name : String) :
    join folder (name ++ x) = join folder name ++ x := by
  unfold join
  rw [isAbsolute_append ending]
  split
  · rfl
  · split
    · rw [String.append_assoc]
    · simp only [String.append_assoc]

end Path

namespace Directory

variable {d d' : Directory} {l : Location} {path text : String}

theorem isFolder_mono (more : d.folders ⊆ d'.folders) (folder : d.isFolder l) :
    d'.isFolder l := by
  unfold isFolder at folder ⊢
  split
  · rfl
  · rename_i last
    simp only [last, Bool.or_eq_true, contains_iff_mem] at folder ⊢
    exact folder.imp_right fun member => more member

theorem walk_mono (more : d.folders ⊆ d'.folders) (walked : d.walk here steps = some l) :
    d'.walk here steps = some l := by
  induction steps generalizing here with
  | nil => exact walked
  | cons step rest ih =>
    simp only [walk] at walked ⊢
    split
    · rename_i up
      rw [if_pos up] at walked
      exact ih walked
    · rename_i down
      rw [if_neg down] at walked
      split at walked
      · rename_i folder
        rw [if_pos (isFolder_mono more folder)]
        exact ih walked
      · cases walked

def next (here : Location) (step : String) : Location :=
  if step == Path.up then above here else here ++ [step]

theorem locationOf_eq (steps : List String) : locationOf steps = steps.foldl next [] := rfl

theorem walk_eq (walked : d.walk here steps = some l) : l = steps.foldl next here := by
  induction steps generalizing here with
  | nil => simpa [walk, eq_comm] using walked
  | cons step rest ih =>
    simp only [walk] at walked
    rw [foldl_cons, next]
    split at walked
    · rename_i up
      rw [if_pos up]
      exact ih walked
    · rename_i down
      rw [if_neg down]
      split at walked
      · exact ih walked
      · cases walked

theorem steps_of_file (file : Path.meansFolder path = false) :
    ∃ folders name, Path.steps path = folders ++ [name] ∧ name ≠ Path.up := by
  unfold Path.meansFolder at file
  split at file
  · rename_i last ending
    obtain ⟨init, shape⟩ := List.getLast?_eq_some_iff.1 ending
    simp only [Bool.or_eq_false_iff, beq_eq_false_iff_ne] at file
    obtain ⟨⟨nonempty, noPoint⟩, notUp⟩ := file
    refine ⟨(if Path.isAbsolute path then [Path.root] else []) ++
      init.filter fun part => part != "" && part != ".", last, ?_, notUp⟩
    rw [Path.steps, shape, filter_append, ← append_assoc]
    simp [nonempty, noPoint]
  · cases file

theorem location_append (path : String) :
    ∃ folder last, ∀ x, Path.IsEnding x →
      locationOf (Path.steps (path ++ x)) = folder ++ [last ++ x] := by
  obtain ⟨init, last, each⟩ := Path.partsFrom_append [] path.toList
  refine ⟨((if Path.isAbsolute path then [Path.root] else []) ++
    init.filter fun part => part != "" && part != ".").foldl next [], last, fun x ending => ?_⟩
  have parts : Path.parts (path ++ x) = init ++ [last ++ x] := by
    rw [Path.parts, String.toList_append, each _ ending.flat, String.ofList_toList]
  have other : ∀ short : String, short.length ≤ 2 → last ++ x ≠ short := by
    rintro short bound rfl
    rw [String.length_append] at bound
    exact absurd ending.long (by omega)
  have step : ((last ++ x) != "" && (last ++ x) != ".") := by
    rw [Bool.and_eq_true, bne_iff_ne, bne_iff_ne]
    exact ⟨other "" (by decide), other "." (by decide)⟩
  have down : ¬ (last ++ x == Path.up) := by
    rw [beq_iff_eq]
    exact other Path.up (by decide)
  rw [Path.steps, parts, Path.isAbsolute_append ending, filter_append, filter_singleton,
    step, cond_true, ← append_assoc, locationOf_eq, foldl_append, foldl_cons,
    foldl_nil, next, if_neg down]

theorem location_ne {y : String} (first : Path.IsEnding x) (second : Path.IsEnding y) (ne : x ≠ y)
    (folder name : String) :
    locationOf (Path.steps (Path.join folder (name ++ x))) ≠
      locationOf (Path.steps (Path.join folder (name ++ y))) := by
  obtain ⟨place, last, each⟩ := location_append (Path.join folder name)
  rw [Path.join_append first, Path.join_append second, each x first, each y second]
  simpa using ne

theorem fileLocation?_eq_some {place : Location} :
    d.fileLocation? path = some place ↔
      Path.meansFolder path = false ∧ Path.isAcceptable path ∧
        (∃ folder, d.walk [] (Path.steps path).dropLast = some folder) ∧
        d.isFolder place = false ∧ place = locationOf (Path.steps path) := by
  cases folderly : Path.meansFolder path with
  | true => simp [fileLocation?, folderly]
  | false =>
    obtain ⟨folders, name, shape, notUp⟩ := steps_of_file folderly
    have extended : locationOf (folders ++ [name]) = folders.foldl next [] ++ [name] := by
      simp [locationOf_eq, next, notUp]
    cases acceptable : Path.isAcceptable path with
    | false => simp [fileLocation?, acceptable]
    | true =>
      simp only [fileLocation?, folderly, acceptable, shape, extended, reverse_append,
        reverse_cons, reverse_nil, nil_append, cons_append, reverse_reverse,
        dropLast_concat, Bool.not_true, Bool.or_false, Bool.false_eq_true, if_false, true_and]
      constructor
      · intro found
        obtain ⟨folder, walked, found⟩ := bind_eq_some_iff.1 found
        split at found
        · cases found
        · rename_i file
          cases found
          exact ⟨⟨folder, walked⟩, by simpa using file, by rw [walk_eq walked]⟩
      · rintro ⟨⟨folder, walked⟩, file, rfl⟩
        refine bind_eq_some_iff.2 ⟨folder, walked, ?_⟩
        rw [walk_eq walked, if_neg (by simpa using file)]

structure Spares (place : Location) (text : String) (before d : Directory) : Prop where
  folders : before.folders ⊆ d.folders
  content : Assoc.get? place d.files = some text
  plain : d.isFolder place = false

theorem read?_eq_some :
    d.read? path = some text ↔
      ∃ place, d.fileLocation? path = some place ∧ Assoc.get? place d.files = some text := by
  exact bind_eq_some_iff

theorem read?_write (written : d.write? path text = some d') : d'.read? path = some text := by
  obtain ⟨place, found, same⟩ := bind_eq_some_iff.1 written
  cases same
  obtain ⟨file, acceptable, ⟨folder, walked⟩, plain, rfl⟩ := fileLocation?_eq_some.1 found
  have sameFolders : d.folders ⊆
      ({ d with files := Assoc.put (locationOf (Path.steps path)) text d.files }).folders :=
    List.Subset.refl _
  have again := fileLocation?_eq_some.2
    ⟨file, acceptable, ⟨folder, walk_mono sameFolders walked⟩, plain, rfl⟩
  refine read?_eq_some.2 ⟨_, again, ?_⟩
  rw [Assoc.get?_put, if_pos rfl]

theorem spares_of_read (readable : d.read? path = some text) :
    Spares (locationOf (Path.steps path)) text d d := by
  obtain ⟨place, found, content⟩ := read?_eq_some.1 readable
  obtain ⟨_, _, _, plain, rfl⟩ := fileLocation?_eq_some.1 found
  exact ⟨List.Subset.refl _, content, plain⟩

theorem Spares.read {before : Directory}
    (spares : Spares (locationOf (Path.steps path)) text before d)
    (readable : before.read? path = some text) : d.read? path = some text := by
  obtain ⟨place, found, content⟩ := read?_eq_some.1 readable
  obtain ⟨file, acceptable, ⟨folder, walked⟩, _, rfl⟩ := fileLocation?_eq_some.1 found
  have found' := fileLocation?_eq_some.2
    ⟨file, acceptable, ⟨folder, walk_mono spares.folders walked⟩, spares.plain, rfl⟩
  exact read?_eq_some.2 ⟨_, found', spares.content⟩

namespace Spares

variable {place : Location} {text : String} {before d d' : Directory}

section

variable (spares : Spares place text before d)

include spares

theorem isFile : d.isFile place := by
  simp [Directory.isFile, Assoc.has, spares.content]

theorem addFolder {folder : Location}
    (free : d.isFile folder = false) :
    Spares place text before { d with folders := d.folders ++ [folder] } where
  folders := fun l member => mem_append_left _ (spares.folders member)
  content := spares.content
  plain := by
    have other : place ≠ folder := by
      rintro rfl
      simp [spares.isFile] at free
    have plain := spares.plain
    unfold isFolder at plain ⊢
    split
    · rename_i none
      simp [none] at plain
    · rename_i last
      simp only [last] at plain
      simpa [other] using plain

theorem createFrom (created : d.createFrom here steps = some d') : Spares place text before d' := by
  induction steps generalizing d here with
  | nil =>
    cases created
    exact spares
  | cons step rest ih =>
    simp only [Directory.createFrom] at created
    split at created
    · exact ih spares created
    · split at created
      · cases created
      · rename_i free
        split at created
        · exact ih spares created
        · exact ih (spares.addFolder (by simpa using free)) created

theorem createFolders {path : String}
    (created : d.createFolders? path = some d') : Spares place text before d' := by
  unfold createFolders? at created
  split at created
  · cases created
  · split at created
    · obtain ⟨_, first, rest⟩ := bind_eq_some_iff.1 created
      obtain ⟨_, _, same⟩ := bind_eq_some_iff.1 rest
      cases same
      exact spares.createFrom first
    · exact spares.createFrom created

theorem write {path new : String}
    (other : locationOf (Path.steps path) ≠ place) (written : d.write? path new = some d') :
    Spares place text before d' := by
  obtain ⟨_, found, same⟩ := bind_eq_some_iff.1 written
  cases same
  obtain ⟨_, _, _, _, rfl⟩ := fileLocation?_eq_some.1 found
  refine ⟨spares.folders, ?_, spares.plain⟩
  rw [Assoc.get?_put, if_neg other, spares.content]

end

end Spares

end Directory

end MaterialShader
