import MaterialShader.Emission.Basic
import MaterialShader.Proofs.Dialect.Naming

/-!
The names of a graph's variables on a target:
-/

namespace MaterialShader

open List

namespace Dialect

theorem length_reserveAll (d : Dialect) (table : NameTable) (names : List String) :
    (d.reserveAll table names).1.length = names.length := by
  induction names generalizing table with
  | nil => rfl
  | cons name rest ih => simp [reserveAll, ih]

end Dialect

namespace Names

def all (names : Names) : List String :=
  names.sockets ++ names.outputs.flatten ++ names.graphOutputs

variable {d : Dialect} {g : Graph} {base table : NameTable} {names : List (List String)}

theorem reserveOutputs_reserved {front : List String} (order : List NodeId)
    (reserved : d.Reserved base (front ++ names.flatten) table) :
    d.Reserved base (front ++ (reserveOutputs d g (table, names) order).2.flatten)
      (reserveOutputs d g (table, names) order).1 := by
  induction order generalizing table names with
  | nil => exact reserved
  | cons id rest ih =>
    simp only [reserveOutputs]
    split
    · rename_i n _
      have next := reserved.append (d.reserveAll_reserved table (n.outputs.map Output.variableName))
      rw [append_assoc] at next
      exact ih (next.subperm ((subperm_append_left front).2 (NameTable.flatten_set_subperm _ _ _)))
    · exact ih reserved

theorem length_reserveOutputs {id : NodeId} {n : GraphNode} {order : List NodeId}
    (found : g.nodes[id]? = some n) (inside : id < names.length)
    (named : id ∈ order ∨ (names.getD id []).length = n.outputs.length) :
    ((reserveOutputs d g (table, names) order).2.getD id []).length = n.outputs.length := by
  induction order generalizing table names with
  | nil => simpa [reserveOutputs] using named
  | cons first rest ih =>
    simp only [reserveOutputs]
    split
    · rename_i n' found'
      apply ih (by simpa using inside)
      by_cases here : first = id
      · subst here
        obtain rfl : n' = n := by simpa [found'] using found
        simp [List.getD, inside, Dialect.length_reserveAll]
      · have here' : id ≠ first := Ne.symm here
        simpa [List.getD, here, here'] using named
    · rename_i missing
      apply ih inside
      by_cases here : first = id
      · subst here
        simp [missing] at found
      · have here' : id ≠ first := Ne.symm here
        simpa [here'] using named

def reserved : NameTable := Assoc.putAll [] (reservedWords.map fun word => (word, 1))

theorem has_reserved {word : String} (member : word ∈ reservedWords) :
    Assoc.has word reserved := by
  rw [reserved, Assoc.has_putAll, map_map]
  exact .inl (mem_map.2 ⟨word, member, rfl⟩)

def tableOf (d : Dialect) (g : Graph) : NameTable :=
  let (_, table) := d.reserveAll reserved (g.inputSockets.map InputSocket.name)
  let (table', _) := reserveOutputs d g (table, List.replicate g.nodes.length []) g.order
  (d.reserveAll table' (g.outputSockets.map OutputSocket.name)).2

theorem ofGraph_reserved (d : Dialect) (g : Graph) :
    d.Reserved reserved (ofGraph d g).all (tableOf d g) := by
  have sockets := d.reserveAll_reserved reserved (g.inputSockets.map InputSocket.name)
  have unnamed : (List.replicate g.nodes.length ([] : List String)).flatten = [] := by simp
  rw [← append_nil (d.reserveAll _ _).1, ← unnamed] at sockets
  have outputs := reserveOutputs_reserved (g := g) g.order sockets
  exact outputs.append (d.reserveAll_reserved _ (g.outputSockets.map OutputSocket.name))

theorem length_sockets (d : Dialect) (g : Graph) :
    (ofGraph d g).sockets.length = g.inputSockets.length := by
  simp [ofGraph, Dialect.length_reserveAll]

theorem ofGraph_nodup (d : Dialect) (g : Graph) : (ofGraph d g).all.Nodup :=
  (ofGraph_reserved d g).distinct

theorem ofGraph_unreserved {d : Dialect} {g : Graph} {name : String}
    (member : name ∈ (ofGraph d g).all) : name ∉ reservedWords := by
  intro word
  have absent := (ofGraph_reserved d g).free name member
  simp [has_reserved word] at absent

theorem ofGraph_accepts {t : Target} {g : Graph} {name : String}
    (member : name ∈ (ofGraph (.ofTarget t) g).all) : t.Accepts name :=
  ((ofGraph_reserved _ g).formed name member).accepts

end Names

/-- All names of a graph's variables can stand in the code of the target. Both searches that make a
name end by themselves, whatever names are in use. -/
theorem ofGraph_names_usable (t : Target) (g : Graph) :
    let d := Dialect.ofTarget t
    let names := Names.ofGraph d g
    (∀ table name,
      NameRule.FollowsAll d.rules (Text.sanitizeChars name.toList) (d.validName name).toList ∧
      d.Chooses table (d.validName name) (d.reserve table name).1) ∧
    names.sockets.length = g.inputSockets.length ∧
    (∀ id n, g.nodes[id]? = some n → id ∈ g.order →
      (names.outputs.getD id []).length = n.outputs.length) ∧
    names.graphOutputs.length = g.outputSockets.length ∧
    names.all.Nodup ∧
    ∀ name ∈ names.all, name ∉ reservedWords ∧ d.isRestricted name = false ∧ t.Accepts name := by
  intro d names
  refine ⟨?_, ?_, ?_, ?_, Names.ofGraph_nodup d g, ?_⟩
  · exact fun table name => ⟨Dialect.validName_follows t name, d.reserve_chooses table name⟩
  · simp [names, Names.ofGraph, Dialect.length_reserveAll]
  · intro id n found ordered
    have inside : id < g.nodes.length := (List.getElem?_eq_some_iff.1 found).1
    exact Names.length_reserveOutputs found (by simpa using inside) (.inl ordered)
  · simp [names, Names.ofGraph, Dialect.length_reserveAll]
  · intro name member
    exact ⟨Names.ofGraph_unreserved member, (Names.ofGraph_reserved d g).unrestricted name member,
      Names.ofGraph_accepts member⟩

end MaterialShader
