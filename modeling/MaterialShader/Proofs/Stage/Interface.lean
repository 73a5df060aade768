import MaterialShader.Proofs.Stage.Written
import MaterialShader.Shader

/-!
The interface of a stage:
-/

namespace MaterialShader

open List
open Result (bind_ok pure_ok)
open InterfaceVariable (ofVariable)

variable {s : Stage} {d : Dialect}

def Block.cleared (b : Block) : Block :=
  { b with members := b.members.map fun v => { v with assigned := false } }

theorem Block.assign_cleared (b : Block) (name : String) : (b.assign name).cleared = b.cleared := by
  simp only [cleared, assign, map_map, Block.mk.injEq, true_and]
  apply map_congr_left
  intro v _
  by_cases same : v.name = name <;> simp [same]

namespace Stage

structure Keeps (s s' : Stage) : Prop where
  name : s'.name = s.name
  entryPoint : s'.entryPoint = s.entryPoint
  tokens : s'.tokens = s.tokens
  blocks : s'.blocks.map Block.cleared = s.blocks.map Block.cleared

theorem Keeps.trans {s₁ s₂ s₃ : Stage} (first : s₁.Keeps s₂) (second : s₂.Keeps s₃) :
    s₁.Keeps s₃ :=
  ⟨second.name.trans first.name, second.entryPoint.trans first.entryPoint,
    second.tokens.trans first.tokens, second.blocks.trans first.blocks⟩

theorem noteAssigned_keeps (s : Stage) (block name : String) :
    s.Keeps (s.noteAssigned block name) := by
  refine ⟨rfl, rfl, rfl, ?_⟩
  simp only [noteAssigned, map_map]
  apply map_congr_left
  intro b _
  by_cases same : b.name = block <;> simp [same, Block.assign_cleared]

theorem addFunction_keeps (s : Stage) (key : String) : s.Keeps (s.addFunction key) := by
  unfold addFunction
  split <;> exact ⟨rfl, rfl, rfl, rfl⟩

theorem noted_keeps (s : Stage) (c : Code) : s.Keeps (s.noted c) := by
  cases c with
  | function key | definition key text => exact s.addFunction_keeps key
  | assignment block name text =>
    rw [noted]
    split
    · exact ⟨rfl, rfl, rfl, rfl⟩
    · exact s.noteAssigned_keeps block name
  | _ => exact ⟨rfl, rfl, rfl, rfl⟩

theorem writeAll_keeps {code : List Code} {t : Stage} (ok : s.writeAll code = .ok t) :
    s.Keeps t := by
  induction code generalizing s with
  | nil =>
    cases ok
    exact ⟨rfl, rfl, rfl, rfl⟩
  | cons c rest ih =>
    obtain ⟨next, first, later⟩ := writeAll_cons_ok.1 ok
    have noted := s.noted_keeps c
    refine .trans ?_ (ih later)
    rw [(write_ok.1 first).2]
    exact ⟨noted.name, noted.entryPoint, noted.tokens, noted.blocks⟩

end Stage

section

variable {b : Block} {v : StageVariable} {i : InterfaceVariable}
  (ok : ofVariable d b v = .ok i)

include ok

theorem InterfaceVariable.ofVariable_ok :
    i.block = b.name ∧ i.name = v.name ∧ i.typeName = v.type.name := by
  unfold ofVariable at ok
  split at ok
  · obtain ⟨_, _, ok⟩ := bind_ok.1 ok
    cases pure_ok.1 ok
    exact ⟨rfl, rfl, rfl⟩
  · cases pure_ok.1 ok
    exact ⟨rfl, rfl, rfl⟩

theorem InterfaceVariable.name_ofVariable : i.name = v.name :=
  (InterfaceVariable.ofVariable_ok ok).2.1

end

def Block.names (b : Block) : List String := b.members.map StageVariable.name

theorem Block.names_cleared (b : Block) : b.cleared.names = b.names := by
  simp [cleared, names]

namespace Stage

def namesOf (s : Stage) (kind : BlockKind) : List String := (s.blocksOf kind).flatMap Block.names

theorem interface_names {kind : BlockKind} {vs : List InterfaceVariable}
    (ok : s.interface d kind = .ok vs) : vs.map InterfaceVariable.name = s.namesOf kind := by
  obtain ⟨lists, each, ok⟩ := bind_ok.1 ok
  cases pure_ok.1 ok
  have names : lists.map (List.map InterfaceVariable.name) =
      (s.blocksOf kind).map Block.names := by
    refine Result.mapM_ok_map ?_ each
    intro b listed all
    exact Result.mapM_ok_map (fun _ _ => InterfaceVariable.name_ofVariable) all
  rw [map_flatten, names, namesOf, flatMap_def]

theorem interface_cleared (s : Stage) (d : Dialect) (kind : BlockKind) : s.interface d kind = (do
    let blocks ← ((s.blocks.map Block.cleared).filter fun b => b.kind == kind).mapM fun b =>
      b.members.mapM (ofVariable d b)
    return blocks.flatten) := by
  have same : (fun b : Block => b.members.mapM (ofVariable d b)) ∘ Block.cleared =
      fun b => b.members.mapM (ofVariable d b) := by
    funext b
    rw [Function.comp_apply, Block.cleared, mapM_map]
    rfl
  rw [filter_map, mapM_map, same]
  rfl

theorem Keeps.interface {t : Stage} (keeps : s.Keeps t) (d : Dialect) (kind : BlockKind) :
    t.interface d kind = s.interface d kind := by
  rw [interface_cleared, keeps.blocks, ← interface_cleared]

theorem interface_single {kind : BlockKind} {b : Block} (only : s.blocksOf kind = [b])
    {vs : List InterfaceVariable} (ok : s.interface d kind = .ok vs) :
    b.members.mapM (ofVariable d b) = .ok vs := by
  obtain ⟨lists, each, ok⟩ := bind_ok.1 ok
  rw [only, mapM_cons, mapM_nil] at each
  obtain ⟨own, made, each⟩ := bind_ok.1 each
  cases pure_ok.1 each
  cases pure_ok.1 ok
  simpa using made

theorem namesOf_cleared (s : Stage) (kind : BlockKind) :
    s.namesOf kind =
      ((s.blocks.map Block.cleared).filter fun b => b.kind == kind).flatMap Block.names := by
  rw [filter_map, flatMap_map]
  simp only [Block.names_cleared]
  rfl

theorem Keeps.namesOf {t : Stage} (keeps : s.Keeps t) (kind : BlockKind) :
    t.namesOf kind = s.namesOf kind := by
  rw [namesOf_cleared, keeps.blocks, ← namesOf_cleared]

end Stage

def FinishedStage.portNames (f : FinishedStage) : List String :=
  (f.uniforms ++ f.inputs ++ f.outputs).map InterfaceVariable.name

theorem Stage.finish_ok {f : FinishedStage} (ok : s.finish d = .ok f) :
    f.name = s.name ∧ s.finalize = .ok f.source ∧ s.interface d .uniform = .ok f.uniforms ∧
      s.interface d .input = .ok f.inputs ∧ s.interface d .output = .ok f.outputs ∧
      f.entryPoint = s.entryPoint := by
  obtain ⟨source, final, ok⟩ := bind_ok.1 ok
  obtain ⟨uniforms, first, ok⟩ := bind_ok.1 ok
  obtain ⟨inputs, second, ok⟩ := bind_ok.1 ok
  obtain ⟨outputs, third, ok⟩ := bind_ok.1 ok
  cases pure_ok.1 ok
  exact ⟨rfl, Result.inside_ok.1 final, first, second, third, rfl⟩

theorem Stage.finish_ports {f : FinishedStage} (ok : s.finish d = .ok f) :
    f.name = s.name ∧
      f.portNames = s.namesOf .uniform ++ s.namesOf .input ++ s.namesOf .output := by
  obtain ⟨name, _, first, second, third, _⟩ := finish_ok ok
  refine ⟨name, ?_⟩
  simp [FinishedStage.portNames, interface_names first, interface_names second,
    interface_names third]

end MaterialShader
