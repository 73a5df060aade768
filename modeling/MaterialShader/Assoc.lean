/-!
Finite maps as lists of pairs with different keys, in the order in which the keys came in.
-/

namespace MaterialShader.Assoc

variable {κ α : Type} [BEq κ]

def get? (key : κ) : List (κ × α) → Option α
  | [] => none
  | (k, a) :: rest => if k == key then some a else get? key rest

/-- A value takes the place of the one with its key, or the last place. -/
def put (key : κ) (value : α) : List (κ × α) → List (κ × α)
  | [] => [(key, value)]
  | (k, a) :: rest => if k == key then (k, value) :: rest else (k, a) :: put key value rest

def has (key : κ) (entries : List (κ × α)) : Bool := (get? key entries).isSome

/-- Put entries one after the other; the last of a repeated key counts. -/
def putAll (start entries : List (κ × α)) : List (κ × α) :=
  entries.foldl (fun table (k, a) => put k a table) start

theorem get?_put [LawfulBEq κ] [DecidableEq κ] (key k : κ) (value : α)
    (entries : List (κ × α)) :
    get? k (put key value entries) = if key = k then some value else get? k entries := by
  induction entries with
  | nil => simp [put, get?]
  | cons entry rest ih =>
    obtain ⟨first, a⟩ := entry
    simp only [put, beq_iff_eq]
    by_cases here : first = key
    · subst here
      by_cases same : first = k <;> simp [get?, same]
    · by_cases same : first = k
      · subst same
        simp [get?, here, Ne.symm here]
      · simp [get?, here, same, ih]

end MaterialShader.Assoc
