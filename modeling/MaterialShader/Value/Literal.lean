import MaterialShader.Json
import MaterialShader.ShaderType

/-!
Literals: values read from JSON, and values built from components.

A single number given for an aggregate of floats fills every component.
-/

namespace MaterialShader.Value

open Numeric

def invalid {α : Type} (t : ShaderType) (reason : String) : Result α :=
  fail (.invalidValue t.name reason)

def items {α : Type} (t : ShaderType) (what : String) (read : Json → Option α) :
    List Json → Result (List α)
  | [] => .ok []
  | j :: rest =>
    match read j with
    | none => invalid t (what ++ " " ++ j.compact)
    | some a => (items t what read rest).map (a :: ·)

def arrayOfJson (t : ShaderType) (j : Json) : Result Value :=
  match j with
  | .arr js =>
    if t.base = .integer then
      (items t "non-integer item" Json.asInt32? js).map .integerArray
    else (items t "non-numeric item" Json.asSingle? js).map .floatArray
  | _ => invalid t s!"expected an array, got {j.compact}"

def aggregateOfJson (t : ShaderType) (j : Json) : Result Value :=
  match j.asSingle? with
  | some x => .ok (.floats (List.replicate t.size x))
  | none =>
    match j with
    | .arr js =>
      if js.length = t.size then (items t "non-numeric component" Json.asSingle? js).map .floats
      else invalid t s!"expected {t.size} components, got {js.length}"
    | _ => invalid t s!"expected {t.size} numbers, got {j.compact}"

/-- A truth value, or a number that is true unless it is zero. -/
def truthOfJson? (j : Json) : Option Bool :=
  match j with
  | .bool b => some b
  | _ => j.asDouble?.map Double.isNonzero

def ofJson (j : Json) (t : ShaderType) : Result Value :=
  if t.isClosure || t.base == .none then
    invalid t "closure and shader types carry no literal values"
  else if t.isArray then arrayOfJson t j
  else
    match t.base with
    | .boolean =>
      match truthOfJson? j with
      | some b => .ok (.boolean b)
      | none => invalid t s!"expected a boolean, got {j.compact}"
    | .integer =>
      match j.asInt32? with
      | some n => .ok (.integer n)
      | none => invalid t s!"expected an integer, got {j.compact}"
    | .string =>
      match j.asString? with
      | some s => .ok (.text s)
      | none => invalid t s!"expected a string, got {j.compact}"
    | .float =>
      if t.size = 1 then
        match j.asSingle? with
        | some x => .ok (.float x)
        | none => invalid t s!"expected a number, got {j.compact}"
      else aggregateOfJson t j
    | .none => invalid t "type carries no value"

def ofComponents (t : ShaderType) (xs : List Single) : Result Value :=
  if !t.isFloatBased || xs.length != t.size then
    invalid t s!"cannot build from {xs.length} float components"
  else
    match xs with
    | [x] => .ok (.float x)
    | _ => .ok (.floats xs)

end MaterialShader.Value
