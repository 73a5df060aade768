import MaterialShader.Assembly.Hardware
import MaterialShader.Proofs.Emission.Declaration

/-!
The variables of a hardware shader as a list.
-/

namespace MaterialShader

open List
open Result (bind_ok pure_ok)

namespace HardwareVariable

def inVertex : HardwareVariable → Bool
  | .vertexInput .. | .vertexUniform .. | .connector .. => true
  | .pixelUniform .. => false

def inPixel : HardwareVariable → Bool
  | .vertexInput .. | .vertexUniform .. => false
  | .pixelUniform .. | .connector .. => true

def connector? : HardwareVariable → Option String
  | .vertexInput .. | .vertexUniform .. | .pixelUniform .. => none
  | .connector name _ => some name

def Changes (x : HardwareVariable) (target : Target) (t : ShaderType) (here : Bool)
    (s s' : Stage) : Prop :=
  if here then s.declareVariable target x.kind x.block x.token x.name t = .ok s' else s' = s

end HardwareVariable

namespace Stage

variable {vertex pixel : Stage} {stages : List Stage} {f : Stage → Result Stage}

theorem updateNamed_vertex (isVertex : vertex.name = vertexStage)
    (ok : updateNamed [vertex, pixel] vertexStage f = .ok stages) :
    ∃ vertex', f vertex = .ok vertex' ∧ stages = [vertex', pixel] := by
  simp only [updateNamed, isVertex, if_true] at ok
  obtain ⟨vertex', changed, ok⟩ := bind_ok.1 ok
  cases pure_ok.1 ok
  exact ⟨vertex', changed, rfl⟩

theorem updateNamed_pixel (isVertex : vertex.name = vertexStage) (isPixel : pixel.name = pixelStage)
    (ok : updateNamed [vertex, pixel] pixelStage f = .ok stages) :
    ∃ pixel', f pixel = .ok pixel' ∧ stages = [vertex, pixel'] := by
  have other : ¬ vertexStage = pixelStage := by decide
  simp only [updateNamed, isVertex, isPixel, other, if_true, if_false] at ok
  obtain ⟨_, inner, ok⟩ := bind_ok.1 ok
  cases pure_ok.1 ok
  obtain ⟨pixel', changed, inner⟩ := bind_ok.1 inner
  cases pure_ok.1 inner
  exact ⟨pixel', changed, rfl⟩

end Stage

namespace Run

theorem enter_ok {run : Run} {vertex pixel : Stage} (isVertex : vertex.name = vertexStage)
    (isPixel : pixel.name = pixelStage) {x : HardwareVariable} {stages : List Stage}
    (ok : run.enter [vertex, pixel] x = .ok stages) :
    ∃ t vertex' pixel', run.types.get x.typeName = .ok t ∧ stages = [vertex', pixel'] ∧
      x.Changes run.target t x.inVertex vertex vertex' ∧
      x.Changes run.target t x.inPixel pixel pixel' := by
  cases x with
  | vertexInput token name typeName | vertexUniform token name typeName =>
    obtain ⟨t, known, ok⟩ := bind_ok.1 ok
    obtain ⟨vertex', changed, rfl⟩ := Stage.updateNamed_vertex isVertex ok
    exact ⟨t, vertex', pixel, known, rfl, changed, rfl⟩
  | pixelUniform token name typeName =>
    obtain ⟨t, known, ok⟩ := bind_ok.1 ok
    obtain ⟨pixel', changed, rfl⟩ := Stage.updateNamed_pixel isVertex isPixel ok
    exact ⟨t, vertex, pixel', known, rfl, rfl, changed⟩
  | connector name typeName =>
    obtain ⟨t, known, ok⟩ := bind_ok.1 ok
    obtain ⟨vertex', _, first, rest, rfl⟩ := forall₂_cons_left_iff.1 (Result.mapM_ok ok)
    obtain ⟨pixel', _, second, none, rfl⟩ := forall₂_cons_left_iff.1 rest
    cases none
    exact ⟨t, vertex', pixel', known, rfl, first, second⟩

end Run

abbrev HardwareVariable.Listed (x : HardwareVariable) : Prop :=
  x.connector? = none ∧ (x.token, x.kind, x.name) ∈ Hardware.tokens

def GeometricKind.fronts? : GeometricKind → Option (String × String)
  | .texcoord => some ("Texcoord_", "texcoord_")
  | .geomColor => some ("Color_", "color_")
  | .geomPropValue => some ("Geomprop_", "geomprop_")
  | _ => none

theorem GeometricKind.inputVariables_ok {options : Options} {kind : GeometricKind} {n : GraphNode}
    {typeName : String} {vs : List HardwareVariable}
    (ok : kind.inputVariables options n typeName = .ok vs) :
    (kind.fronts? = none ∧ ∀ x ∈ vs, x.Listed) ∨
      ∃ own front attr t, kind.fronts? = some (own, front) ∧
        kind.attributeText n typeName = .ok attr ∧
        vs = [.vertexInput ("$in" ++ own ++ attr) ("i_" ++ front ++ attr) t] := by
  cases kind with
  | texcoord | geomColor | geomPropValue =>
    obtain ⟨attr, named, ok⟩ := bind_ok.1 ok
    cases pure_ok.1 ok
    exact .inr ⟨_, _, attr, _, rfl, named, rfl⟩
  | normal =>
    cases pure_ok.1 ok
    refine .inl ⟨rfl, ?_⟩
    split_ifs <;> decide
  | bitangent =>
    unfold inputVariables at ok
    split_ifs at ok
    all_goals
      cases pure_ok.1 ok
      exact .inl ⟨rfl, by decide⟩
  | position | tangent | time | frame | viewDirection =>
    cases pure_ok.1 ok
    exact .inl ⟨rfl, by decide⟩

def fixedConnectors : List String :=
  ["positionWorld", "positionObject", "normalWorld", "normalObject", "tangentWorld",
   "tangentObject", "bitangentWorld", "bitangentObject"]

theorem GeometricKind.connector?_ok {kind : GeometricKind} {n : GraphNode} {typeName c : String}
    (named : kind.connector? n typeName = .ok (some c)) :
    (kind.fronts? = none ∧ c ∈ fixedConnectors) ∨
      ∃ own front attr, kind.fronts? = some (own, front) ∧
        kind.attributeText n typeName = .ok attr ∧ c = front ++ attr := by
  have spaces : ∀ front ∈ ["position", "normal", "tangent", "bitangent"], ∀ world : Bool,
      front ++ (if world then "World" else "Object") ∈ fixedConnectors := by
    decide
  cases kind with
  | position | normal | tangent | bitangent =>
    cases pure_ok.1 named
    exact .inl ⟨rfl, spaces _ (by decide) _⟩
  | texcoord | geomColor | geomPropValue =>
    obtain ⟨attr, text, named⟩ := bind_ok.1 named
    cases pure_ok.1 named
    exact .inr ⟨_, _, attr, rfl, text, rfl⟩
  | viewDirection =>
    cases pure_ok.1 named
    exact .inl ⟨rfl, by decide⟩
  | time | frame => cases pure_ok.1 named

namespace Run

variable {run : Run}

theorem declareNodes_ok {ids : List NodeId} {stages stages' : List Stage}
    (ok : run.declareNodes ids stages = .ok stages') :
    ∃ lists, ids.mapM run.nodeVariables = .ok lists ∧
      lists.flatten.foldlM run.enter stages = .ok stages' := by
  induction ids generalizing stages with
  | nil => exact ⟨[], rfl, ok⟩
  | cons id rest ih =>
    obtain ⟨n, _, ok⟩ := bind_ok.1 ok
    obtain ⟨declared, first, ok⟩ := bind_ok.1 ok
    obtain ⟨vs, listed, entered⟩ := bind_ok.1 (Result.inside_ok.1 first)
    obtain ⟨lists, others, later⟩ := ih ok
    refine ⟨vs :: lists, ?_, ?_⟩
    · rw [mapM_cons]
      exact bind_ok.2 ⟨vs, listed, bind_ok.2 ⟨lists, others, rfl⟩⟩
    · rw [flatten_cons, foldlM_append]
      exact bind_ok.2 ⟨declared, entered, later⟩

end Run

namespace Hardware

variable {run : Run}

theorem declareStages_ok {stages : List Stage} (ok : declareStages run = .ok stages) :
    ∃ lists basics interfaced, run.graph.order.mapM run.nodeVariables = .ok lists ∧
      (basicVariables run.options).foldlM run.enter (emptyStages run.target) = .ok basics ∧
      declareInterface run basics = .ok interfaced ∧
      (pixelUniforms run ++ lists.flatten).foldlM run.enter interfaced = .ok stages := by
  obtain ⟨basics, first, ok⟩ := bind_ok.1 ok
  obtain ⟨interfaced, second, ok⟩ := bind_ok.1 ok
  obtain ⟨uniforms, third, ok⟩ := bind_ok.1 ok
  obtain ⟨lists, listed, entered⟩ := Run.declareNodes_ok ok
  refine ⟨lists, basics, interfaced, listed, first, second, ?_⟩
  rw [foldlM_append]
  exact bind_ok.2 ⟨uniforms, third, entered⟩

end Hardware

end MaterialShader
