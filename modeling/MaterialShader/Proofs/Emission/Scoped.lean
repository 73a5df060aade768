import MaterialShader.Proofs.Emission.Declaration
import MaterialShader.Proofs.Layout.Visible

/-!
Code in blocks, where every node reads only what is declared before it in the same block or in one
around it.
-/

namespace MaterialShader

open List

namespace Emission

/-- The emission gives the value, from some progress on. -/
def Yields {α : Type} (act : Emission α) (a : α) : Prop :=
  ∃ p p', act.run.run p = (.ok a, p')

section

variable {α β : Type}

theorem run_bind (x : Emission α) (f : α → Emission β) (p : Progress) :
    (x >>= f).run.run p =
      match x.run.run p with
      | (.ok a, next) => (f a).run.run next
      | (.error e, next) => (.error e, next) := by
  simp only [ExceptT.run_bind, StateT.run_bind]
  cases x.run.run p with
  | mk r next => cases r <;> rfl

theorem Yields.bind {x : Emission α} {f : α → Emission β} {b : β} (yields : Yields (x >>= f) b) :
    ∃ a, Yields x a ∧ Yields (f a) b := by
  obtain ⟨p, p', ok⟩ := yields
  rw [run_bind] at ok
  split at ok
  · rename_i a next first
    exact ⟨a, ⟨p, next, first⟩, next, p', ok⟩
  · cases ok

theorem Yields.pure {a b : α} (yields : Yields (Pure.pure a : Emission α) b) : b = a := by
  obtain ⟨p, p', ok⟩ := yields
  cases ok
  rfl

theorem Yields.lift {r : Result α} {a : α} (yields : Yields (liftM r : Emission α) a) :
    r = .ok a := by
  obtain ⟨p, p', ok⟩ := yields
  exact congrArg Prod.fst ok

theorem Yields.inside {place : Place} {act : Emission α} {a : α}
    (yields : Yields (Emission.inside place act) a) : Yields act a := by
  obtain ⟨p, p', ok⟩ := yields
  cases first : act.run.run p with
  | mk r p₁ =>
    have step : (Emission.inside place act).run.run p = (Result.inside place r, p₁) := by
      simp only [Emission.inside, ExceptT.run_mk, StateT.run_bind, first]
      rfl
    rw [step] at ok
    have given : r = .ok a := Result.inside_ok.1 (congrArg Prod.fst ok)
    exact ⟨p, p₁, by rw [first, given]⟩

end

end Emission

mutual

inductive Scoped (run : Run) (stage : Stage) :
    List Code → List Code → List Code → List NodeId → Prop where
  | nil (before : List Code) : Scoped run stage before [] before []
  | node (before own rest visible : List Code) (id : NodeId) (n : GraphNode) (ids : List NodeId) :
      run.graph.nodes[id]? = some n →
      (∀ i ∈ n.inputs, ∀ a k, i.source = some (.node a k) → run.Declared before a k) →
      run.simpleCode stage id = .ok own → (∀ c ∈ own, c.isFlat = true) →
      Scoped run stage (before ++ own) rest visible ids →
      Scoped run stage before (own ++ rest) visible (id :: ids)
  /-- A conditional is declared first; then come its branches, and what they declare ends there. -/
  | conditional (before : List Code) (declared : Code) (chain rest visible : List Code)
      (id : NodeId) (n : GraphNode) (inner ids : List NodeId) :
      run.graph.nodes[id]? = some n → run.target.hasBranches →
      (∀ i ∈ n.inputs, Scope.branchOf? n i = none → ∀ a k, i.source = some (.node a k) →
        run.Declared before a k) →
      run.Declares id 0 declared →
      ScopedChain run stage (before ++ [declared]) id n 0 chain inner →
      Scoped run stage (before ++ [declared]) rest visible ids →
      Scoped run stage before (declared :: chain ++ rest) visible (id :: (inner ++ ids))

inductive ScopedChain (run : Run) (stage : Stage) :
    List Code → NodeId → GraphNode → Nat → List Code → List NodeId → Prop where
  | nil (before : List Code) (id : NodeId) (n : GraphNode) (k : Nat) :
      (∀ i ∈ n.inputs, ∀ j, Scope.branchOf? n i = some j → j < k) →
      ScopedChain run stage before id n k [] []
  | branch (before : List Code) (id : NodeId) (n : GraphNode) (k : Nat) (head out value : String)
      (body visible rest : List Code) (inner ids : List NodeId) :
      Scoped run stage before body visible inner →
      (∀ i ∈ n.inputs, Scope.branchOf? n i = some k → ∀ a o, i.source = some (.node a o) →
        run.Declared visible a o) →
      run.outputName id 0 = .ok out → run.branchText id k = .ok value →
      ScopedChain run stage before id n (k + 1) rest ids →
      ScopedChain run stage before id n k
        (Code.branch head (body ++ [.statement s!"{out} = {value}"]) ++ rest) (inner ++ ids)

end

namespace Run

def branchOf (run : Run) : GraphNode → Input → Option Nat :=
  if run.target.hasBranches then Scope.branchOf? else fun _ _ => none

def branchTotal (run : Run) (id : NodeId) : Nat := (run.branchMembers id).length

structure Sound (run : Run) : Prop where
  reads : ∀ (b : NodeId) n, run.graph.nodes[b]? = some n → ∀ i ∈ n.inputs, ∀ (a : NodeId) k,
    i.source = some (.node a k) → ∃ m, run.graph.nodes[a]? = some m ∧ k < m.outputs.length
  outputs : ∀ (id : NodeId) n, run.graph.nodes[id]? = some n →
    n.outputs.length = 1 ∨ run.realization id = .separate
  branches : ∀ (id : NodeId) n, run.graph.nodes[id]? = some n → ∀ i ∈ n.inputs, ∀ k,
    Scope.branchOf? n i = some k → ∃ op, run.realization id = .conditional op ∧ k < op.branchCount n

def DeclaresAll (run : Run) (code : List Code) (ids : List NodeId) : Prop :=
  ∀ a ∈ ids, ∀ m, run.graph.nodes[a]? = some m → ∀ k < m.outputs.length, run.Declared code a k

section

variable {run : Run} {stage : Stage} {code : List Code} {ids : List NodeId} {id : NodeId}
  {n : GraphNode}

theorem DeclaresAll.mono {code' : List Code} (all : run.DeclaresAll code ids) (sub : code ⊆ code') :
    run.DeclaresAll code' ids :=
  fun a member m found k inside => (all a member m found k inside).mono sub

theorem DeclaresAll.cons (here : run.DeclaresAll code [id]) (all : run.DeclaresAll code ids) :
    run.DeclaresAll code (id :: ids) := by
  intro a member
  obtain rfl | member := mem_cons.1 member
  · exact here a mem_cons_self
  · exact all a member

theorem Sound.declared (sound : run.Sound) (all : run.DeclaresAll code ids) {b : NodeId}
    (found : run.graph.nodes[b]? = some n) {i : Input} (input : i ∈ n.inputs) {a : NodeId} {k : Nat}
    (source : i.source = some (.node a k)) (member : a ∈ ids) : run.Declared code a k := by
  obtain ⟨m, at_a, inside⟩ := sound.reads b n found i input a k source
  exact all a member m at_a k inside

theorem declaresAll_single (found : run.graph.nodes[id]? = some n)
    (each : ∀ k < n.outputs.length, run.Declared code id k) : run.DeclaresAll code [id] := by
  intro a member m at_a
  cases mem_singleton.1 member
  rw [found] at at_a
  cases at_a
  exact each

open Emission (Yields)

theorem emitPlaced_cases {branches : List (List Placed)}
    (yields : Yields (emitPlaced run stage (.node id branches)) code) :
    ((∀ op, run.target.hasBranches → run.realization id ≠ .conditional op) ∧
      run.simpleCode stage id = .ok code) ∨
    ∃ op conditions declared out chain, run.target.hasBranches ∧
      run.realization id = .conditional op ∧ run.conditions id op = .ok conditions ∧
      run.declare id 0 none = .ok declared ∧ run.outputName id 0 = .ok out ∧
      Yields (emitBranches run stage id conditions out 0 branches) chain ∧
      code = declared :: chain := by
  obtain ⟨_, _, yields⟩ := yields.bind
  obtain ⟨n, _, yields⟩ := yields.bind
  have inner := yields.inside
  cases kind : run.realization id with
  | conditional op =>
    simp only [kind] at inner
    split_ifs at inner with branching
    · obtain ⟨conditions, given, inner⟩ := inner.bind
      obtain ⟨declared, declares, inner⟩ := inner.bind
      obtain ⟨out, name, inner⟩ := inner.bind
      obtain ⟨chain, chained, inner⟩ := inner.bind
      exact .inr ⟨op, conditions, declared, out, chain, branching, rfl, given.lift, declares.lift,
        name.lift, chained, inner.pure⟩
    · exact .inl ⟨fun _ yes => absurd yes branching, inner.lift⟩
  | _ =>
    simp only [kind] at inner
    exact .inl ⟨by simp, inner.lift⟩

theorem emitAll_cons {p : Placed} {rest : List Placed}
    (yields : Yields (emitAll run stage (p :: rest)) code) :
    ∃ own others, Yields (emitPlaced run stage p) own ∧ Yields (emitAll run stage rest) others ∧
      code = own ++ others := by
  obtain ⟨own, first, yields⟩ := yields.bind
  obtain ⟨others, later, yields⟩ := yields.bind
  exact ⟨own, others, first, later, yields.pure⟩

theorem emitBranches_cons {conditions : List String} {out : String} {k : Nat}
    {members : List Placed} {rest : List (List Placed)}
    (yields : Yields (emitBranches run stage id conditions out k (members :: rest)) code) :
    ∃ body value others, Yields (emitAll run stage members) body ∧
      run.branchText id k = .ok value ∧
      Yields (emitBranches run stage id conditions out (k + 1) rest) others ∧
      code = Code.branch (branchHead conditions k) (body ++ [.statement s!"{out} = {value}"]) ++
        others := by
  obtain ⟨body, first, yields⟩ := yields.bind
  obtain ⟨value, text, yields⟩ := yields.bind
  obtain ⟨others, later, yields⟩ := yields.bind
  exact ⟨body, value, others, first, text.lift, later, yields.pure⟩

theorem branchOf_of_branching (branching : run.target.hasBranches) :
    run.branchOf = Scope.branchOf? := if_pos branching

theorem branchTotal_of_plain
    (plain : ∀ op, run.target.hasBranches → run.realization id ≠ .conditional op) :
    run.branchTotal id = 0 := by
  unfold branchTotal branchMembers
  split
  · rename_i op n kind _
    rw [if_neg (fun yes => plain op yes kind)]
    rfl
  · rfl

theorem Sound.branchOf_of_plain (sound : run.Sound) (found : run.graph.nodes[id]? = some n)
    (plain : ∀ op, run.target.hasBranches → run.realization id ≠ .conditional op) {i : Input}
    (input : i ∈ n.inputs) : run.branchOf n i = none := by
  unfold branchOf
  split_ifs with branching
  · cases feeds : Scope.branchOf? n i with
    | none => rfl
    | some k =>
      obtain ⟨op, kind, _⟩ := sound.branches id n found i input k feeds
      exact absurd kind (plain op branching)
  · rfl

mutual

theorem emitAll_scoped (sound : run.Sound) (pixel : stage.name = pixelStage)
    {around : List NodeId} {placed : List Placed}
    (visible : Visible run.graph run.branchOf run.branchTotal around placed)
    {before code : List Code} (known : run.DeclaresAll before around)
    (yields : Yields (emitAll run stage placed) code) :
    ∃ behind, Scoped run stage before code behind (Placed.idsOfAll placed) ∧ before ⊆ behind ∧
      run.DeclaresAll behind (placed.map Placed.id) := by
  match visible with
  | .nil _ =>
    unfold emitAll at yields
    rw [yields.pure]
    exact ⟨before, .nil before, Subset.refl _, by simp [DeclaresAll]⟩
  | .cons _ id n branches rest found length reads inside later =>
    obtain ⟨own, others, first, second, rfl⟩ := emitAll_cons yields
    obtain ⟨plain, simple⟩ | ⟨op, conditions, declared, out, chain, branching, kind, _, declares,
      name, chained, rfl⟩ := emitPlaced_cases first
    · -- A node without branches: its inputs are declared around it, and its code declares it.
      have no_branches : branches = [] :=
        eq_nil_of_length_eq_zero (length.trans (branchTotal_of_plain plain))
      obtain ⟨flat, outputs⟩ := run.simpleCode_ensures id stage own simple
      have here : run.DeclaresAll (before ++ own) [id] := (declaresAll_single found
        (outputs pixel n found (sound.outputs id n found))).mono (subset_append_right _ _)
      obtain ⟨behind, block, kept, all⟩ := emitAll_scoped sound pixel later
        (here.cons (known.mono (subset_append_left _ _))) second
      refine ⟨behind, ?_, Subset.trans (subset_append_left _ _) kept, (here.mono kept).cons all⟩
      subst no_branches
      refine .node before own others behind id n _ found ?_ simple flat block
      intro i input a k source
      have around_ := reads i input (sound.branchOf_of_plain found plain input) a k source
      exact sound.declared known found input source around_
    · -- A conditional: it is declared first, so that its branches may assign it.
      have single : n.outputs.length = 1 :=
        (sound.outputs id n found).resolve_right (by simp [kind])
      have here : run.DeclaresAll (before ++ [declared]) [id] := by
        refine declaresAll_single found fun k inside => ?_
        have zero : k = 0 := by omega
        exact ⟨declared, by simp, zero ▸ declare_declares declares⟩
      have known' := here.cons (known.mono (subset_append_left before [declared]))
      have inner := emitBranches_scoped sound pixel branching found name inside known' chained
      obtain ⟨behind, block, kept, all⟩ := emitAll_scoped sound pixel later known' second
      refine ⟨behind, ?_, Subset.trans (subset_append_left _ _) kept, (here.mono kept).cons all⟩
      refine .conditional before declared chain others behind id n _ _ found branching ?_
        (declare_declares declares) inner block
      intro i input unbranched a k source
      rw [branchOf_of_branching branching] at reads
      exact sound.declared known found input source (reads i input unbranched a k source)

theorem emitBranches_scoped (sound : run.Sound) (pixel : stage.name = pixelStage)
    (branching : run.target.hasBranches) {id : NodeId} {n : GraphNode}
    (found : run.graph.nodes[id]? = some n) {out : String} (name : run.outputName id 0 = .ok out)
    {conditions : List String} {around : List NodeId} {k : Nat} {branches : List (List Placed)}
    (visible : VisibleBranches run.graph run.branchOf run.branchTotal n around k branches)
    {before code : List Code} (known : run.DeclaresAll before around)
    (yields : Yields (emitBranches run stage id conditions out k branches) code) :
    ScopedChain run stage before id n k code (Placed.idsOfBranches branches) := by
  match visible with
  | .nil _ _ _ covers =>
    unfold emitBranches at yields
    rw [yields.pure]
    rw [branchOf_of_branching branching] at covers
    exact .nil before id n k covers
  | .cons _ _ _ members rest inside reads later =>
    obtain ⟨body, value, others, first, text, second, rfl⟩ := emitBranches_cons yields
    obtain ⟨behind, block, kept, all⟩ := emitAll_scoped sound pixel inside known first
    have chain := emitBranches_scoped sound pixel branching found name later known second
    refine .branch before id n k _ out value body behind others _ _ block ?_ name text chain
    intro i input feeds a o source
    rw [branchOf_of_branching branching] at reads
    obtain member | old := mem_append.1 (reads i input feeds a o source)
    · exact sound.declared all found input source member
    · exact (sound.declared known found input source old).mono kept

end

theorem branch_nested {body : List Code} (inside : Code.Nested body) (head text : String) :
    Code.Nested (Code.branch head (body ++ [.statement text])) :=
  .cons rfl ((inside.append (.of_line rfl)).scope .braces false .nil)

mutual

theorem emitPlaced_nested : (p : Placed) → {code : List Code} →
    Yields (emitPlaced run stage p) code → Code.Nested code
  | .node id branches, code, yields => by
    obtain ⟨_, simple⟩ | ⟨_, _, declared, _, chain, _, _, _, declares, _, chained, rfl⟩ :=
      emitPlaced_cases yields
    · exact .of_flat (run.simpleCode_ensures id stage code simple).flat
    · obtain ⟨_, _, declares⟩ := declare_declaresAs declares
      exact .cons declares.isFlat (emitBranches_nested branches chained)

theorem emitBranches_nested {id : NodeId} {conditions : List String} {out : String} :
    (branches : List (List Placed)) → {k : Nat} → {code : List Code} →
    Yields (emitBranches run stage id conditions out k branches) code → Code.Nested code
  | [], _, code, yields => by
    unfold emitBranches at yields
    exact yields.pure ▸ .nil
  | members :: rest, _, code, yields => by
    obtain ⟨body, value, others, first, _, later, rfl⟩ := emitBranches_cons yields
    exact (branch_nested (emitAll_nested members first) _ _).append (emitBranches_nested rest later)

theorem emitAll_nested : (placed : List Placed) → {code : List Code} →
    Yields (emitAll run stage placed) code → Code.Nested code
  | [], code, yields => by
    unfold emitAll at yields
    exact yields.pure ▸ .nil
  | p :: rest, code, yields => by
    obtain ⟨own, others, first, later, rfl⟩ := emitAll_cons yields
    exact (emitPlaced_nested p first).append (emitAll_nested rest later)

end

end

open Emission (Yields)
open Placed (Within)

variable {run : Run} {stage : Stage} {code : List Code}

theorem emitAll_mem {placed : List Placed} (yields : Yields (emitAll run stage placed) code)
    {p : Placed} (member : p ∈ placed) :
    ∃ own, Yields (emitPlaced run stage p) own ∧ own <:+: code := by
  induction placed generalizing code with
  | nil => cases member
  | cons q rest ih =>
    obtain ⟨first, others, head, later, rfl⟩ := emitAll_cons yields
    obtain rfl | member := mem_cons.1 member
    · exact ⟨first, head, infix_append [] first others⟩
    · obtain ⟨own, emitted, holds⟩ := ih later member
      exact ⟨own, emitted, holds.trans (suffix_append first others).isInfix⟩

def IsBranches (count : Nat) (code : List Code) : Prop :=
  ∃ branches : List (String × List Code), branches.length = count ∧
    (∀ b ∈ branches, Code.Nested b.2) ∧ code = branches.flatMap fun b => Code.branch b.1 b.2

theorem IsBranches.cons {count : Nat} (branches : IsBranches count code) {body : List Code}
    (inside : Code.Nested body) (head : String) :
    IsBranches (count + 1) (Code.branch head body ++ code) := by
  obtain ⟨parts, length, nested, rfl⟩ := branches
  exact ⟨(head, body) :: parts, by simp [length], forall_mem_cons.2 ⟨inside, nested⟩, rfl⟩

def BranchCode (run : Run) (c : NodeId) (k : Nat) (body code : List Code) : Prop :=
  ∃ declared front head out value back, run.declare c 0 none = .ok declared ∧
    run.outputName c 0 = .ok out ∧ run.branchText c k = .ok value ∧ IsBranches k front ∧
    Code.Nested body ∧
    code = declared :: (front ++ Code.branch head (body ++ [.statement s!"{out} = {value}"]) ++ back)

theorem BranchCode.isInfix {c : NodeId} {k : Nat} {body : List Code}
    (branch : run.BranchCode c k body code) : body <:+: code := by
  obtain ⟨declared, front, head, out, value, back, _, _, _, _, _, rfl⟩ := branch
  exact ⟨declared :: (front ++ [.line head, .openScope .braces]),
    .statement s!"{out} = {value}" :: .closeScope false :: back, by simp [Code.branch]⟩

theorem emitBranches_get {id : NodeId} {conditions : List String} {out : String} {j k : Nat}
    {branches : List (List Placed)} {members : List Placed}
    (yields : Yields (emitBranches run stage id conditions out j branches) code)
    (branch : branches[k]? = some members) :
    ∃ front head body value back, IsBranches k front ∧ run.branchText id (j + k) = .ok value ∧
      Yields (emitAll run stage members) body ∧
      code = front ++ Code.branch head (body ++ [.statement s!"{out} = {value}"]) ++ back := by
  induction k generalizing j branches code with
  | zero =>
    obtain _ | ⟨first, rest⟩ := branches
    · cases branch
    · obtain ⟨body, value, others, emitted, text, _, rfl⟩ := emitBranches_cons yields
      cases branch
      exact ⟨[], _, body, value, others, ⟨[], rfl, by simp, rfl⟩, text, emitted, rfl⟩
  | succ k ih =>
    obtain _ | ⟨first, rest⟩ := branches
    · cases branch
    · obtain ⟨body', last, others, earlier, _, later, rfl⟩ := emitBranches_cons yields
      obtain ⟨front, head, body, value, back, parts, text, emitted, rfl⟩ := ih later branch
      have inside : Code.Nested (body' ++ [.statement s!"{out} = {last}"]) :=
        (emitAll_nested first earlier).append (.of_line rfl)
      refine ⟨_, head, body, value, back, parts.cons inside (branchHead conditions j), ?_, emitted,
        by simp⟩
      rwa [Nat.add_right_comm, Nat.add_assoc] at text

theorem emitPlaced_branch {id : NodeId} {branches : List (List Placed)} {k : Nat}
    {members : List Placed} (follows : (Placed.node id branches).Follows run.branchMembers)
    (yields : Yields (emitPlaced run stage (.node id branches)) code)
    (branch : branches[k]? = some members) :
    ∃ body, Yields (emitAll run stage members) body ∧ run.BranchCode id k body code := by
  obtain ⟨plain, _⟩ | ⟨_, _, declared, out, chain, _, _, _, declares, named, chained, rfl⟩ :=
    emitPlaced_cases yields
  · have empty := branchTotal_of_plain plain
    cases follows with
    | node _ _ same _ =>
      have length : branches.length = 0 := by
        rw [← empty, branchTotal, ← same, length_map]
      rw [eq_nil_of_length_eq_zero length] at branch
      cases branch
  · obtain ⟨front, head, body, value, back, parts, text, emitted, rfl⟩ :=
      emitBranches_get chained branch
    exact ⟨body, emitted, declared, front, head, out, value, back, declares, named,
      Nat.zero_add k ▸ text, parts, emitAll_nested members emitted, rfl⟩

theorem emitPlaced_within {p q : Placed} (within : Within p q)
    (follows : q.Follows run.branchMembers) (yields : Yields (emitPlaced run stage q) code) :
    ∃ own, Yields (emitPlaced run stage p) own ∧ own <:+: code := by
  induction within generalizing code with
  | self => exact ⟨code, yields, infix_rfl⟩
  | inside listed member within ih =>
    obtain ⟨k, at_k⟩ := mem_iff_getElem?.1 listed
    obtain ⟨body, emitted, branch⟩ := emitPlaced_branch follows yields at_k
    obtain ⟨inner, placed, holds⟩ := emitAll_mem emitted member
    obtain ⟨own, yields, inside⟩ := ih (follows.within (.inside listed member .self)) placed
    exact ⟨own, yields, (inside.trans holds).trans branch.isInfix⟩

end Run

end MaterialShader
