import MaterialShader.Proofs.Emission.Scoped

/-!
Emission that asks the session.
-/

namespace MaterialShader

open List
open Emission (inside mark)

namespace Run

def emitEach (emitOne : NodeId → Emission (List Code)) : List NodeId → Emission (List Code)
  | [] => return []
  | id :: rest => do
    let first ← emitOne id
    let others ← emitEach emitOne rest
    return first ++ others

def emitChain (run : Run) (emitOne : NodeId → Emission (List Code)) (id : NodeId)
    (conditions : List String) (out : String) : Nat → List (List NodeId) → Emission (List Code)
  | _, [] => return []
  | k, members :: rest => do
    let body ← emitEach emitOne members
    let value ← run.branchText id k
    let others ← run.emitChain emitOne id conditions out (k + 1) rest
    return Code.branch (branchHead conditions k) (body ++ [.statement s!"{out} = {value}"]) ++ others

def nodeCode (run : Run) (stage : Stage) (id : NodeId)
    (chain : List String → String → Emission (List Code)) : Emission (List Code) :=
  match run.realization id with
  | .conditional op =>
    if run.target.hasBranches then do
      let conditions ← run.conditions id op
      let declared ← run.declare id 0 none
      let out ← run.outputName id 0
      let branches ← chain conditions out
      return declared :: branches
    else run.simpleCode stage id
  | _ => run.simpleCode stage id

def emitUnmarked (run : Run) (stage : Stage) : Nat → NodeId → Emission (List Code)
  | 0, _ => return []
  | depth + 1, id => do
    let progress ← get
    if progress.emitted.contains (stage.name, id) then return []
    else do
      mark stage.name id
      let n ← run.node id
      inside (.emitting n.path) <|
        run.nodeCode stage id fun conditions out =>
          run.emitChain (run.emitUnmarked stage depth) id conditions out 0 (run.branchMembers id)

def emitByMarks (run : Run) (stage : Stage) (roots : List NodeId) : Emission (List Code) :=
  emitEach (run.emitUnmarked stage (run.graph.nodes.length + 1)) roots

end Run

namespace Emission

def Tracks (name : String) (seen : List NodeId) (p : Progress) : Prop :=
  ∀ id, (name, id) ∈ p.emitted ↔ id ∈ seen

def Mirrors {α : Type} (name : String) (seen later : List NodeId) (act other : Emission α) : Prop :=
  ∀ p, Tracks name seen p → act.run.run p = other.run.run p ∧
    ∀ a p', other.run.run p = (.ok a, p') → Tracks name later p'

section

variable {α β : Type} {name : String} {seen middle later : List NodeId}

theorem Mirrors.bind {x y : Emission α} {f g : α → Emission β}
    (first : Mirrors name seen middle x y) (rest : ∀ a, Mirrors name middle later (f a) (g a)) :
    Mirrors name seen later (x >>= f) (y >>= g) := by
  intro p tracks
  obtain ⟨same, tracks'⟩ := first p tracks
  rw [run_bind, run_bind, same]
  match ran : y.run.run p with
  | (.ok a, next) => exact rest a next (tracks' a next ran)
  | (.error e, next) => exact ⟨rfl, nofun⟩

theorem Mirrors.pure (a : α) : Mirrors name seen seen (Pure.pure a) (Pure.pure a) := by
  intro p tracks
  refine ⟨rfl, fun _ _ ok => ?_⟩
  cases ok
  exact tracks

theorem Mirrors.lift (r : Result α) :
    Mirrors name seen seen (liftM r : Emission α) (liftM r) := by
  intro p tracks
  refine ⟨rfl, fun _ _ ok => ?_⟩
  cases r <;> cases ok
  exact tracks

theorem run_get_bind (f : Progress → Emission α) (p : Progress) :
    (get >>= f).run.run p = (f p).run.run p := by
  rfl

theorem run_inside (place : Place) (act : Emission α) (p : Progress) :
    (inside place act).run.run p =
      (Result.inside place (act.run.run p).1, (act.run.run p).2) := by
  rfl

theorem Mirrors.inside {x y : Emission α} (place : Place) (mirrors : Mirrors name seen later x y) :
    Mirrors name seen later (inside place x) (inside place y) := by
  intro p tracks
  obtain ⟨same, tracks'⟩ := mirrors p tracks
  rw [run_inside, run_inside, same]
  refine ⟨rfl, fun a p' ok => ?_⟩
  obtain ⟨first, rfl⟩ := Prod.ext_iff.1 ok
  exact tracks' a _ (Prod.ext (Result.inside_ok.1 first) rfl)

theorem Mirrors.mark (id : NodeId) :
    Mirrors name seen (id :: seen) (mark name id) (mark name id) := by
  intro p tracks
  refine ⟨rfl, fun _ p' ok => ?_⟩
  cases ok
  intro other
  simp only [mem_cons, ← tracks other]
  split
  · rename_i marked
    have there := contains_iff_mem.1 marked
    exact ⟨.inr, fun known => known.elim (fun same => same ▸ there) fun old => old⟩
  · simp [or_comm]

end

end Emission

theorem Layout.placeNode_of_not_mem {branches : NodeId → List (List NodeId)} {depth : Nat}
    {seen : List NodeId} {id : NodeId} (fresh : id ∉ seen) :
    placeNode branches (depth + 1) seen id =
      (some (.node id (placeBranches (placeNode branches depth) (id :: seen) (branches id)).1),
        (placeBranches (placeNode branches depth) (id :: seen) (branches id)).2) := by
  simp [placeNode, fresh]

namespace Run

open Emission (Mirrors Tracks)

variable {run : Run} {stage : Stage}

theorem emitAll_append (first others : List Placed) :
    emitAll run stage (first ++ others) = do
      let before ← emitAll run stage first
      let behind ← emitAll run stage others
      return before ++ behind := by
  induction first with
  | nil => simp [emitAll]
  | cons p rest ih =>
    simp only [cons_append, emitAll, ih, bind_assoc, pure_bind, append_assoc]

theorem emitAll_singleton (p : Placed) : emitAll run stage [p] = emitPlaced run stage p := by
  simp [emitAll]

section

variable {emitOne : NodeId → Emission (List Code)}
  {placeOne : List NodeId → NodeId → Option Placed × List NodeId}

section

variable
  (each : ∀ seen id, Mirrors stage.name seen (placeOne seen id).2 (emitOne id)
    (emitAll run stage (placeOne seen id).1.toList))

include each

theorem emitEach_mirrors (ids seen : List NodeId) :
    Mirrors stage.name seen (Layout.placeList placeOne seen ids).2 (emitEach emitOne ids)
      (emitAll run stage (Layout.placeList placeOne seen ids).1) := by
  induction ids generalizing seen with
  | nil =>
    exact .pure _
  | cons id rest ih =>
    rw [emitEach, Layout.placeList, emitAll_append]
    exact (each seen id).bind fun _ => (ih _).bind fun _ => .pure _

theorem emitChain_mirrors (id : NodeId) (conditions : List String)
    (out : String) (k : Nat) (branches : List (List NodeId)) (seen : List NodeId) :
    Mirrors stage.name seen (Layout.placeBranches placeOne seen branches).2
      (run.emitChain emitOne id conditions out k branches)
      (emitBranches run stage id conditions out k
        (Layout.placeBranches placeOne seen branches).1) := by
  induction branches generalizing seen k with
  | nil =>
    exact .pure _
  | cons members rest ih =>
    refine (emitEach_mirrors each members seen).bind fun body => ?_
    exact (Mirrors.lift _).bind fun value => (ih _ _).bind fun others => .pure _

end

end

theorem branchMembers_of_plain {id : NodeId}
    (plain : ∀ op, run.realization id = .conditional op → ¬ run.target.hasBranches) :
    run.branchMembers id = [] := by
  unfold branchMembers
  split
  · rename_i op n realized _
    rw [if_neg (plain op realized)]
  · rfl

theorem emitPlaced_eq (id : NodeId) (branches : List (List Placed)) :
    emitPlaced run stage (.node id branches) = (do
      mark stage.name id
      let n ← run.node id
      inside (.emitting n.path) <|
        run.nodeCode stage id fun conditions out =>
          emitBranches run stage id conditions out 0 branches) := by
  rfl

theorem nodeCode_mirrors {id : NodeId} {seen later : List NodeId}
    {chain other : List String → String → Emission (List Code)}
    (plain : run.branchMembers id = [] → later = seen)
    (branches : ∀ conditions out,
      Mirrors stage.name seen later (chain conditions out) (other conditions out)) :
    Mirrors stage.name seen later (run.nodeCode stage id chain) (run.nodeCode stage id other) := by
  unfold nodeCode
  split
  · split_ifs with branching
    · refine (Mirrors.lift _).bind fun conditions => (Mirrors.lift _).bind fun declared => ?_
      exact (Mirrors.lift _).bind fun out => (branches conditions out).bind fun _ => .pure _
    · rw [plain (branchMembers_of_plain fun _ _ => branching)]
      exact .lift _
  · rename_i none
    rw [plain (branchMembers_of_plain fun op realized => absurd realized (none op))]
    exact .lift _

theorem emitUnmarked_mirrors (depth : Nat) (seen : List NodeId) (id : NodeId) :
    Mirrors stage.name seen (Layout.placeNode run.branchMembers depth seen id).2
      (run.emitUnmarked stage depth id)
      (emitAll run stage (Layout.placeNode run.branchMembers depth seen id).1.toList) := by
  induction depth generalizing seen id with
  | zero =>
    exact .pure _
  | succ depth ih =>
    intro p tracks
    by_cases known : id ∈ seen
    · have skips : (run.emitUnmarked stage (depth + 1) id).run.run p = (.ok [], p) := by
        rw [emitUnmarked, Emission.run_get_bind,
          if_pos (contains_iff_mem.2 ((tracks id).2 known))]
        rfl
      rw [skips, Layout.placeNode, if_pos (contains_iff_mem.2 known), Option.toList_none,
        emitAll]
      exact (Mirrors.pure []) p tracks
    · have begins : p.emitted.contains (stage.name, id) = false := by
        simpa using fun marked => known ((tracks id).1 marked)
      rw [emitUnmarked, Emission.run_get_bind, begins, if_neg Bool.false_ne_true,
        Layout.placeNode_of_not_mem known, Option.toList_some, emitAll_singleton, emitPlaced_eq]
      refine ((Mirrors.mark id).bind fun _ => (Mirrors.lift _).bind fun n => .inside _ ?_) p tracks
      refine nodeCode_mirrors (fun none => ?_) fun conditions out => ?_
      · rw [none, Layout.placeBranches]
      · exact emitChain_mirrors (fun seen id => ih seen id) id conditions out 0 _ _

theorem emitByMarks_eq (roots : List NodeId) {p : Progress}
    (unmarked : ∀ id, (stage.name, id) ∉ p.emitted) :
    (run.emitByMarks stage roots).run.run p =
      (emitAll run stage (run.layout roots)).run.run p := by
  have tracks : Tracks stage.name [] p := fun id => by simpa using unmarked id
  exact (emitEach_mirrors (fun seen id => emitUnmarked_mirrors _ seen id) roots [] p tracks).1

end Run

end MaterialShader
