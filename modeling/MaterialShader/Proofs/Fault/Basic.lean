import MaterialShader.Dialect.Expression
import MaterialShader.Proofs.Result
import MaterialShader.Value.Literal

/-!
Which faults a computation may fail with.
-/

namespace MaterialShader

open List

def Fault.Usual : Fault → Prop
  | .template .. | .noOpenScope .. | .scopesLeftOpen .. => False
  | _ => True

def Fault.Ordinary (f : Fault) : Prop :=
  f.Usual ∧ (∀ name, f ≠ .unknownNode name) ∧ ∀ node category, f ≠ .unknownCategory node category

/-- The fault is not that the output of a node or a socket is missing. -/
def Fault.InRange (f : Fault) : Prop := ∀ node output, f ≠ .danglingReference node output

def Fault.Common (f : Fault) : Prop := f.Ordinary ∧ f.InRange

@[simp] theorem Fault.common_iff {f : Fault} :
    f.Common ↔ (∀ node reason, f ≠ .template node reason) ∧ (∀ stage, f ≠ .noOpenScope stage) ∧
      (∀ stage count, f ≠ .scopesLeftOpen stage count) ∧ (∀ name, f ≠ .unknownNode name) ∧
      (∀ node category, f ≠ .unknownCategory node category) ∧
      ∀ node output, f ≠ .danglingReference node output := by
  cases f <;> simp [Common, Ordinary, Usual, InRange]

class Fault.Kind (P : Fault → Prop) : Prop where
  common : ∀ f, f.Common → P f

theorem Fault.Kind.of_usual {P : Fault → Prop} (usual : ∀ f, f.Usual → P f) : Fault.Kind P :=
  ⟨fun f common => usual f common.1.1⟩

instance : Fault.Kind Fault.Common := ⟨fun _ common => common⟩

instance : Fault.Kind Fault.Usual := .of_usual fun _ usual => usual

instance : Fault.Kind Fault.Ordinary := ⟨fun _ common => common.1⟩

instance : Fault.Kind Fault.InRange := ⟨fun _ common => common.2⟩

/-- Where the computation fails, its fault has the property. -/
def Result.FailsBy {α : Type} (P : Fault → Prop) (x : Result α) : Prop :=
  ∀ f, x = .error f → P f.fault

namespace Result

variable {α β : Type} {P Q : Fault → Prop} {x : Result α}

theorem FailsBy.mono (fails : x.FailsBy P) (weaker : ∀ f, P f → Q f) : x.FailsBy Q :=
  fun f error => weaker _ (fails f error)

@[simp] theorem FailsBy.ok {a : α} : FailsBy P (.ok a : Result α) := by
  rintro f ⟨⟩

@[simp] theorem FailsBy.pure {a : α} : FailsBy P (Pure.pure a : Result α) := .ok

@[simp] theorem failsBy_fail {f : Fault} : FailsBy P (fail f : Result α) ↔ P f := by
  simp [FailsBy, fail]

@[simp] theorem failsBy_bind {f : α → Result β} :
    (x >>= f).FailsBy P ↔ x.FailsBy P ∧ ∀ a, x = .ok a → (f a).FailsBy P := by
  cases x <;> simp [FailsBy, bind, Except.bind]

theorem FailsBy.bind {f : α → Result β} (first : x.FailsBy P)
    (rest : ∀ a, x = .ok a → (f a).FailsBy P) : (x >>= f).FailsBy P :=
  failsBy_bind.2 ⟨first, rest⟩

@[simp] theorem failsBy_map {f : α → β} : (f <$> x).FailsBy P ↔ x.FailsBy P := by
  cases x <;> simp [FailsBy, Functor.map, Except.map]

@[simp] theorem failsBy_inside {place : Place} : (x.inside place).FailsBy P ↔ x.FailsBy P := by
  cases x <;> simp [FailsBy, inside]

@[simp] theorem failsBy_orFail {f : Fault} {x : Option α} :
    (orFail f x).FailsBy P ↔ (x = none → P f) := by
  cases x <;> simp [orFail]

@[simp] theorem failsBy_ite {c : Prop} [Decidable c] {y : Result α} :
    FailsBy P (if c then x else y) ↔ (c → x.FailsBy P) ∧ (¬ c → y.FailsBy P) := by
  split <;> simp_all

theorem FailsBy.mapM {f : α → Result β} {items : List α}
    (each : ∀ a ∈ items, (f a).FailsBy P) : (items.mapM f).FailsBy P := by
  induction items with
  | nil => exact .pure
  | cons a rest ih =>
    rw [forall_mem_cons] at each
    simp [each.1, ih each.2]

theorem failsBy_foldlM {f : β → α → Result β} {items : List α}
    (each : ∀ b, ∀ a ∈ items, (f b a).FailsBy P) (start : β) :
    (items.foldlM f start).FailsBy P := by
  induction items generalizing start with
  | nil => exact .pure
  | cons a rest ih =>
    rw [foldlM_cons, failsBy_bind]
    exact ⟨each start a mem_cons_self, fun next _ =>
      ih (fun b a later => each b a (.tail _ later)) next⟩

end Result

open Result
open Fault (Kind)

variable {P : Fault → Prop} [Kind P]

@[simp] theorem Registry.get_failsBy (r : Registry) (name : String) : (r.get name).FailsBy P := by
  simp [get, Kind.common (P := P)]

namespace Value

@[simp] theorem invalid_failsBy {α : Type} (t : ShaderType) (reason : String) :
    (invalid t reason : Result α).FailsBy P := by
  simp [invalid, Kind.common (P := P)]

@[simp] theorem items_failsBy {α : Type} (t : ShaderType) (what : String) (read : Json → Option α)
    (js : List Json) : (items t what read js).FailsBy P := by
  induction js with
  | nil => exact .ok
  | cons j rest ih =>
    unfold items
    split
    · exact invalid_failsBy _ _
    · exact failsBy_map.2 ih

theorem ofJson_failsBy (j : Json) (t : ShaderType) : (ofJson j t).FailsBy P := by
  have array : (arrayOfJson t j).FailsBy P := by
    unfold arrayOfJson
    split
    · split <;> exact failsBy_map.2 (items_failsBy _ _ _ _)
    · exact invalid_failsBy _ _
  have aggregate : (aggregateOfJson t j).FailsBy P := by
    unfold aggregateOfJson
    split
    · exact .ok
    · split
      · split
        · exact failsBy_map.2 (items_failsBy _ _ _ _)
        · exact invalid_failsBy _ _
      · exact invalid_failsBy _ _
  unfold ofJson
  split
  · exact invalid_failsBy _ _
  · split
    · exact array
    · split
      case h_4 =>
        split
        · split <;> simp
        · exact aggregate
      case h_5 => exact invalid_failsBy _ _
      all_goals split <;> simp

end Value

namespace Dialect

variable (d : Dialect)

section

variable (t : ShaderType)

include t

@[simp] theorem form_failsBy : (d.form t).FailsBy P := by
  simp [form, Kind.common (P := P)]

@[simp] theorem typeName_failsBy : (d.typeName t).FailsBy P := by
  simp [typeName]

@[simp] theorem outputTypeName_failsBy : (d.outputTypeName t).FailsBy P := by
  simp [outputTypeName]

@[simp] theorem initialValue_failsBy (uniform : Bool) :
    (d.initialValue t uniform).FailsBy P := by
  simp [initialValue]

@[simp] theorem componentTexts_failsBy (v : Value) :
    (componentTexts t v).FailsBy P := by
  unfold componentTexts
  split <;> simp [Kind.common (P := P)]

@[simp] theorem literal_failsBy (v : Value) (uniform : Bool) :
    (d.literal t v uniform).FailsBy P := by
  refine .bind (d.form_failsBy t) fun f _ => ?_
  split
  · exact .pure
  · exact .pure
  · split <;> simp
  · split <;> simp
  · exact .pure
  · split <;> simp [Kind.common (P := P)]
  · simp
  · simp
  · simp

@[simp] theorem construct_failsBy (components : List String) :
    (d.construct t components).FailsBy P := by
  refine .bind (d.form_failsBy t) fun f _ => ?_
  split
  · simp [Kind.common (P := P)]
  · split <;> simp [Kind.common (P := P)]

end

@[simp] theorem member_failsBy (variableName : String) (t : ShaderType) (index : Nat) :
    (d.member variableName t index).FailsBy P := by
  unfold member
  split
  · exact .pure
  · refine .bind (d.form_failsBy t) fun f _ => ?_
    split <;> simp [Kind.common (P := P)]

theorem channelText_failsBy (source : String) (t : ShaderType) (channels : String) (c : Char) :
    (d.channelText source t channels c).FailsBy P := by
  unfold channelText
  split <;> simp [Kind.common (P := P)]

@[simp] theorem swizzle_failsBy (source : String) (t : ShaderType) (channels : String)
    (result : ShaderType) : (d.swizzle source t channels result).FailsBy P := by
  refine .bind (.mapM fun c _ => d.channelText_failsBy source t channels c) ?_
  intro parts _
  split
  · split <;> simp [Kind.common (P := P)]
  · exact d.construct_failsBy result parts

@[simp] theorem convert_failsBy (c : Conversion) (t result : ShaderType) (source : String) :
    (d.convert c t result source).FailsBy P := by
  cases c <;> simp [convert]

end Dialect

end MaterialShader
