import MaterialShader.Proofs.Emission.Resolved

/-!
The attributes that nodes read, and the variables of a hardware shader that carry them.
-/

namespace MaterialShader

open Result Option Text
open String (append_right_inj toList_inj)

namespace Text

theorem sanitize_of_isIdentifier {name : String} (identifier : isIdentifier name.toList) :
    sanitize name = name := by
  have letters := List.all_eq_true.1 (all_of_isIdentifier identifier)
  have kept : (name.toList.map fun c => if isIdentifierChar c then c else '_') = name.toList :=
    (List.map_congr_left fun c member => if_pos (letters c member)).trans (List.map_id _)
  rw [sanitize, sanitizeChars, kept]
  cases shape : name.toList with
  | nil => simp [shape, isIdentifier] at identifier
  | cons c cs =>
    rw [shape, isIdentifier_cons] at identifier
    simp [identifier.1, ← shape]

end Text

theorem Value.intText_inj {m n : Int} (same : intText m = intText n) : m = n := by
  have unlike (k l : Nat) (same : Nat.repr k = "-" ++ Nat.repr (l + 1)) : False := by
    have digits := repr_digits k
    rw [same, String.toList_append, List.all_append, Bool.and_eq_true] at digits
    exact absurd digits.1 (by decide)
  cases m with
  | ofNat k =>
    cases n with
    | ofNat l => exact congrArg _ (repr_inj same)
    | negSucc l => exact (unlike k l same).elim
  | negSucc k =>
    cases n with
    | ofNat l => exact (unlike l k same.symm).elim
    | negSucc l => rw [Nat.succ_inj.1 (repr_inj ((append_right_inj "-").1 same))]

inductive Attribute where
  | position (world : Bool)
  | normal (world : Bool)
  | tangent (world : Bool)
  | bitangent (world : Bool)
  | texcoord (index : Int) (typeName : String)
  | color (index : Int)
  | property (name typeName : String)
  deriving DecidableEq

namespace Attribute

/-- The attributes of the vertex that this one is computed from. -/
def sources (implicitBitangents : Bool) : Attribute → List Attribute
  | .position _ => [.position false]
  | .normal _ => [.normal false]
  | .tangent _ => [.tangent false]
  | .bitangent _ =>
    if implicitBitangents then [.normal false, .tangent false] else [.bitangent false]
  | a => [a]

/-- The same attribute; or properties of one type of which one identifier is made, if not both names
are identifiers. -/
inductive Alike : Attribute → Attribute → Prop
  | refl (a : Attribute) : Alike a a
  | unnamed {name name' : String} (t : String) (same : Text.sanitize name = Text.sanitize name')
      (other : ¬ (Text.isIdentifier name.toList = true ∧ Text.isIdentifier name'.toList = true)) :
      Alike (.property name t) (.property name' t)

def Counted : Attribute → Prop
  | .texcoord index _ | .color index => 0 ≤ index
  | _ => True

def world? : Attribute → Option Bool
  | .position world | .normal world | .tangent world | .bitangent world => some world
  | _ => none

def typeName? : Attribute → Option String
  | .texcoord _ t | .property _ t => some t
  | _ => none

def name (space : Bool → String) : Attribute → String
  | .position world => "position" ++ space world
  | .normal world => "normal" ++ space world
  | .tangent world => "tangent" ++ space world
  | .bitangent world => "bitangent" ++ space world
  | .texcoord index t => "texcoord_" ++ (Value.intText index ++ GeometricKind.texcoord.typeSuffix t)
  | .color index => "color_" ++ Value.intText index
  | .property name t => "geomprop_" ++ (Text.sanitize name ++ ("_" ++ t))

def spaceText (world : Bool) : String := if world then "World" else "Object"

def connector (a : Attribute) : String := a.name spaceText

def vertexInput (a : Attribute) : String := "i_" ++ a.name fun _ => ""

theorem texcoord_inj {i j : Int} {t u : String}
    (same : Value.intText i ++ GeometricKind.texcoord.typeSuffix t =
      Value.intText j ++ GeometricKind.texcoord.typeSuffix u) : i = j ∧ t = u := by
  have plain (i : Int) : '_' ∉ (Value.intText i).toList := by
    rw [Value.intText, Int.toString_eq_repr, Int.repr_eq_if]
    split <;> simp
  have marked (t : String) : (GeometricKind.texcoord.typeSuffix t).toList = [] ∨
      (GeometricKind.texcoord.typeSuffix t).toList.head? = some '_' := by
    rw [GeometricKind.typeSuffix]
    split <;> simp
  have front := eq_of_append (plain i) (plain j) (marked t) (marked u)
    (by simpa [← toList_inj] using same)
  obtain rfl := Value.intText_inj (toList_inj.1 front)
  refine ⟨rfl, ?_⟩
  have suffix := (append_right_inj _).1 same
  simp only [GeometricKind.typeSuffix] at suffix
  split_ifs at suffix with first second second
  · rw [first, second]
  · simp [← toList_inj] at suffix
  · simp [← toList_inj] at suffix
  · exact (append_right_inj "_").1 suffix

theorem property_inj {name name' t u : String} (apart : '_' ∉ t.toList) (apart' : '_' ∉ u.toList)
    (same : Text.sanitize name ++ ("_" ++ t) = Text.sanitize name' ++ ("_" ++ u)) :
    Text.sanitize name = Text.sanitize name' ∧ t = u := by
  have ends : t.toList.reverse = u.toList.reverse := by
    refine eq_of_append (d := '_') (s := '_' :: (Text.sanitize name).toList.reverse)
      (t := '_' :: (Text.sanitize name').toList.reverse) (by simpa using apart)
      (by simpa using apart') (.inr rfl) (.inr rfl) ?_
    simpa [← toList_inj] using congrArg (List.reverse ∘ String.toList) same
  obtain rfl := toList_inj.1 (List.reverse_injective ends)
  exact ⟨(String.append_left_inj _).1 same, rfl⟩

theorem alike_of_name {space : Bool → String} {a b : Attribute}
    (spaces : ∀ world ∈ a.world?, ∀ world' ∈ b.world?, space world = space world' → world = world')
    (apart : ∀ t ∈ a.typeName?, '_' ∉ t.toList) (apart' : ∀ t ∈ b.typeName?, '_' ∉ t.toList)
    (same : a.name space = b.name space) : a.Alike b := by
  -- Different quantities differ in the first letters of their names.
  cases a <;> cases b <;> simp only [name] at same
  case position.position | normal.normal | tangent.tangent | bitangent.bitangent =>
    obtain rfl := spaces _ rfl _ rfl ((append_right_inj _).1 same)
    exact .refl _
  case texcoord.texcoord =>
    obtain ⟨rfl, rfl⟩ := texcoord_inj ((append_right_inj _).1 same)
    exact .refl _
  case color.color =>
    obtain rfl := Value.intText_inj ((append_right_inj _).1 same)
    exact .refl _
  case property.property name t name' u =>
    obtain ⟨names, rfl⟩ := property_inj (apart t rfl) (apart' u rfl)
      ((append_right_inj _).1 same)
    by_cases both : Text.isIdentifier name.toList ∧ Text.isIdentifier name'.toList
    · rw [sanitize_of_isIdentifier both.1, sanitize_of_isIdentifier both.2] at names
      exact names ▸ .refl _
    · exact .unnamed t names both
  all_goals simp [← toList_inj] at same

theorem isIdentifier_name {space : Bool → String} {a : Attribute} (counted : a.Counted)
    (spaces : ∀ world, (space world).toList.all Text.isIdentifierChar)
    (types : ∀ t ∈ a.typeName?, t.toList.all Text.isIdentifierChar) :
    Text.isIdentifier (a.name space).toList := by
  have indexed {i : Int} (natural : 0 ≤ i) :
      (Value.intText i).toList.all Text.isIdentifierChar := by
    obtain ⟨k, rfl⟩ := Int.eq_ofNat_of_zero_le natural
    have digits := List.all_eq_true.1 (repr_digits k)
    exact List.all_eq_true.2 fun c member => isIdentifierChar_of_digit (digits c member)
  cases a <;> rw [name, String.toList_append] <;>
    refine isIdentifier_append (by decide) ?_
  case position | normal | tangent | bitangent => exact spaces _
  case color => exact indexed counted
  case texcoord t =>
    have own := types t rfl
    rw [String.toList_append, List.all_append, indexed counted, GeometricKind.typeSuffix]
    split <;> simp +decide [own]
  case property name t =>
    have own := types t rfl
    have sanitized := all_of_isIdentifier (isIdentifier_sanitizeChars name.toList)
    simp +decide [Text.sanitize, sanitized, own]

theorem sources_object {a b : Attribute} {implicit : Bool} (member : b ∈ a.sources implicit) :
    (∀ world ∈ b.world?, world = false) ∧ (∀ t ∈ b.typeName?, t ∈ a.typeName?) ∧
      (a.Counted → b.Counted) := by
  revert b
  cases a <;> cases implicit <;> simp [sources, world?, typeName?, Counted]

end Attribute

namespace GeometricKind

/-- What a node reads from the geometry; time and frame do not come from it. -/
def attribute? (kind : GeometricKind) (n : GraphNode) (typeName : String) : Option Attribute :=
  let index := (n.literal? "index" >>= Value.int?).getD 0
  match kind with
  | .position => some (.position (isWorldSpace n))
  | .normal => some (.normal (isWorldSpace n))
  | .tangent => some (.tangent (isWorldSpace n))
  | .bitangent => some (.bitangent (isWorldSpace n))
  | .texcoord => some (.texcoord index typeName)
  | .geomColor => some (.color index)
  | .geomPropValue => (n.literal? "geomprop" >>= Value.text?).map (.property · typeName)
  | .viewDirection => some (.position true)
  | .time | .frame => none

variable {kind : GeometricKind} {n : GraphNode} {typeName : String}

theorem attribute?_typeName {a : Attribute} (reads : kind.attribute? n typeName = some a) :
    ∀ t ∈ a.typeName?, t = typeName := by
  cases kind with
  | geomPropValue =>
    obtain ⟨name, _, rfl⟩ := map_eq_some_iff.1 reads
    exact fun _ own => (mem_some.1 own).symm
  | time | frame => cases reads
  | _ =>
    cases reads
    simp [Attribute.typeName?]

theorem attributeText_ok {own front attr : String} (fronts : kind.fronts? = some (own, front))
    (text : kind.attributeText n typeName = .ok attr) : ∃ a, kind.attribute? n typeName = some a ∧
      (∀ space, a.name space = front ++ attr) ∧ ∀ implicit, a.sources implicit = [a] := by
  cases kind with
  | texcoord =>
    cases fronts
    cases text
    exact ⟨_, rfl, fun _ => rfl, fun _ => rfl⟩
  | geomColor =>
    cases fronts
    cases text
    exact ⟨_, rfl, fun _ => by simp [Attribute.name, typeSuffix, indexText], fun _ => rfl⟩
  | geomPropValue =>
    cases fronts
    obtain ⟨name, found, text⟩ := bind_ok.1 text
    cases pure_ok.1 text
    refine ⟨.property name typeName, ?_, fun _ => rfl, fun _ => rfl⟩
    unfold property at found
    split at found
    · rename_i given
      split at found
      · cases found
      · cases found
        rw [attribute?, given]
        rfl
    · cases found
  | _ => cases fronts

theorem connector?_eq {c : String} (named : kind.connector? n typeName = .ok (some c)) :
    ∃ a, kind.attribute? n typeName = some a ∧ c = a.connector := by
  obtain ⟨fixed, _⟩ | ⟨own, front, attr, fronts, text, rfl⟩ := connector?_ok named
  · cases kind with
    | texcoord | geomColor | geomPropValue => cases fixed
    | time | frame => cases pure_ok.1 named
    | _ =>
      cases pure_ok.1 named
      exact ⟨_, rfl, rfl⟩
  · obtain ⟨a, reads, name, _⟩ := attributeText_ok fronts text
    exact ⟨a, reads, (name _).symm⟩

theorem inputVariables_source {options : Options} {vs : List HardwareVariable}
    (ok : kind.inputVariables options n typeName = .ok vs) {token c t : String}
    (member : .vertexInput token c t ∈ vs) : ∃ a, kind.attribute? n typeName = some a ∧
      ∃ b ∈ a.sources options.implicitBitangents, c = b.vertexInput := by
  obtain ⟨fixed, _⟩ | ⟨own, front, attr, t, fronts, text, rfl⟩ := inputVariables_ok ok
  · have uniform (other : .vertexInput token c t ∈ (if isWorldSpace n then
        [HardwareVariable.vertexUniform "$worldInverseTransposeMatrix"
          "u_worldInverseTransposeMatrix" "matrix44"] else [])) : False := by
      split at other <;> simp at other
    cases kind with
    | texcoord | geomColor | geomPropValue => cases fixed
    | position | viewDirection | time | frame =>
      cases pure_ok.1 ok
      simp at member
    | tangent =>
      cases pure_ok.1 ok
      cases List.mem_singleton.1 member
      exact ⟨_, rfl, _, List.mem_singleton.2 rfl, rfl⟩
    | normal =>
      refine ⟨_, rfl, .normal false, List.mem_singleton.2 rfl, ?_⟩
      cases pure_ok.1 ok
      obtain same | other := List.mem_cons.1 member
      · cases same
        rfl
      · exact (uniform other).elim
    | bitangent =>
      refine ⟨_, rfl, ?_⟩
      cases implicit : options.implicitBitangents <;> simp only [inputVariables, implicit] at ok
      · cases pure_ok.1 ok
        cases List.mem_singleton.1 member
        exact ⟨_, List.mem_singleton.2 rfl, rfl⟩
      · cases pure_ok.1 ok
        obtain same | other := List.mem_cons.1 member
        · cases same
          exact ⟨.normal false, .head _, rfl⟩
        · obtain same | other := List.mem_cons.1 other
          · cases same
            exact ⟨.tangent false, .tail _ List.mem_cons_self, rfl⟩
          · exact (uniform other).elim
  · obtain ⟨a, reads, name, alone⟩ := attributeText_ok fronts text
    cases List.mem_singleton.1 member
    refine ⟨a, reads, a, alone _ ▸ List.mem_singleton.2 rfl, ?_⟩
    rw [Attribute.vertexInput, name, ← String.append_assoc]

end GeometricKind

theorem Registry.standard_letters {t : ShaderType} (known : Registry.standard.Knows t) :
    t.name.toList.all Text.isIdentifierChar ∧ '_' ∉ t.name.toList := by
  have all : (standardTypes.all fun t => t.name.toList.all Text.isIdentifierChar &&
      !t.name.toList.contains '_') := by
    decide
  simpa using List.all_eq_true.1 all t (List.mem_of_find?_eq_some known)

namespace Run

/-- What the node reads from the geometry. Lights read the position. -/
def attribute? (run : Run) (id : NodeId) : Option Attribute :=
  match run.realization id with
  | .geometric kind => do
    let n ← (run.node id).toOption
    let o ← (run.firstOutput id).toOption
    kind.attribute? n o.type.name
  | .light => some (.position true)
  | _ => none

/-- The vertex inputs that a node reads: what it asks for, and the position, which is always there. -/
inductive TakesInput (run : Run) (id : NodeId) : String → Prop
  | asked {kind : GeometricKind} {n : GraphNode} {o : Output} {vs : List HardwareVariable}
      {token c t : String} (realized : run.realization id = .geometric kind)
      (node : run.node id = .ok n) (output : run.firstOutput id = .ok o)
      (listed : kind.inputVariables run.options n o.type.name = .ok vs)
      (member : .vertexInput token c t ∈ vs) : TakesInput run id c
  | position {world : Bool} (reads : run.attribute? id = some (.position world)) :
      TakesInput run id "i_position"

variable {run : Run} {id : NodeId} {c : String}

theorem attribute?_eq {kind : GeometricKind} {n : GraphNode} {o : Output}
    (realized : run.realization id = .geometric kind) (node : run.node id = .ok n)
    (output : run.firstOutput id = .ok o) :
    run.attribute? id = kind.attribute? n o.type.name := by
  simp [attribute?, realized, node, output, Except.toOption]

theorem Connects.attribute (connects : run.Connects id c) :
    ∃ a, run.attribute? id = some a ∧ c = a.connector := by
  cases connects with
  | geometric realized node output named =>
    rw [attribute?_eq realized node output]
    exact GeometricKind.connector?_eq named
  | light realized => exact ⟨.position true, by rw [attribute?, realized], by decide⟩

theorem TakesInput.attribute (takes : run.TakesInput id c) : ∃ a, run.attribute? id = some a ∧
    ∃ b ∈ a.sources run.options.implicitBitangents, c = b.vertexInput := by
  cases takes with
  | asked realized node output listed member =>
    rw [attribute?_eq realized node output]
    exact GeometricKind.inputVariables_source listed member
  | position reads => exact ⟨_, reads, .position false, List.mem_singleton.2 rfl, by decide⟩

theorem TakesInput.of_normal {world : Bool} (reads : run.attribute? id = some (.normal world)) :
    run.TakesInput id "i_normal" := by
  unfold attribute? at reads
  split at reads
  · rename_i kind realized
    obtain ⟨n, node, reads⟩ := bind_eq_some_iff.1 reads
    obtain ⟨o, output, reads⟩ := bind_eq_some_iff.1 reads
    rw [toOption_eq_some] at node output
    cases kind with
    | normal => exact .asked realized node output rfl List.mem_cons_self
    | geomPropValue =>
      obtain ⟨_, _, other⟩ := map_eq_some_iff.1 reads
      cases other
    | _ => cases reads
  · cases reads
  · cases reads

theorem attribute?_letters (plain : run.IsPlain) {a : Attribute}
    (reads : run.attribute? id = some a) : ∀ t ∈ a.typeName?,
      t.toList.all Text.isIdentifierChar ∧ '_' ∉ t.toList := by
  unfold attribute? at reads
  split at reads
  · obtain ⟨n, node, reads⟩ := bind_eq_some_iff.1 reads
    obtain ⟨o, output, reads⟩ := bind_eq_some_iff.1 reads
    rw [toOption_eq_some] at node output
    have known := plain.outputs n (node_mem node) o (firstOutput_mem node output)
    intro t own
    rw [GeometricKind.attribute?_typeName reads t own]
    exact Registry.standard_letters known
  · cases reads
    nofun
  · cases reads

end Run

/-- Nodes of a graph over the bundled library that share a connector read the same attribute, and
nodes that share a vertex input read attributes that are computed from the same one. All names are
identifiers, if no index is negative. -/
theorem attributes_apart {target : Target} (hardware : target.isHardware = true) {gen : Generator}
    (made : Generator.create target .bundled = .ok gen) {doc : Document} {s s' : Session} {g : Graph}
    {log : Log} (building : gen.buildGraph doc s = .ok (g, log)) {run : Run}
    (ran : gen.run g s' = .ok run) :
    (∀ id id' c, run.Connects id c → run.Connects id' c → ∃ a a', run.attribute? id = some a ∧
      run.attribute? id' = some a' ∧ a.Alike a') ∧
    (∀ id id' c, run.TakesInput id c → run.TakesInput id' c → ∃ a a', run.attribute? id = some a ∧
      run.attribute? id' = some a' ∧ ∃ b ∈ a.sources run.options.implicitBitangents,
        ∃ b' ∈ a'.sources run.options.implicitBitangents, b.Alike b') ∧
    (∀ id c a, run.attribute? id = some a → a.Counted → run.Connects id c ∨ run.TakesInput id c →
      Text.isIdentifier c.toList = true) ∧
    ∀ x ∈ Hardware.basicVariables run.options, Text.isIdentifier x.name.toList = true := by
  obtain ⟨built, _⟩ := Generator.buildGraph_ready made building
  have plain := Generator.run_isPlain hardware made built ran
  refine ⟨fun id id' c connects connects' => ?_, fun id id' c takes takes' => ?_, ?_, ?_⟩
  · obtain ⟨a, reads, rfl⟩ := connects.attribute
    obtain ⟨a', reads', same⟩ := connects'.attribute
    have spaces : ∀ world world', Attribute.spaceText world = Attribute.spaceText world' →
        world = world' := by
      decide
    exact ⟨a, a', reads, reads', Attribute.alike_of_name (fun world _ world' _ => spaces world world')
      (fun t own => (Run.attribute?_letters plain reads t own).2)
      (fun t own => (Run.attribute?_letters plain reads' t own).2) same⟩
  · obtain ⟨a, reads, b, source, rfl⟩ := takes.attribute
    obtain ⟨a', reads', b', source', same⟩ := takes'.attribute
    obtain ⟨object, types, _⟩ := Attribute.sources_object source
    obtain ⟨object', types', _⟩ := Attribute.sources_object source'
    refine ⟨a, a', reads, reads', b, source, b', source',
      Attribute.alike_of_name ?_ ?_ ?_ ((String.append_right_inj "i_").1 same)⟩
    · intro world own world' own' _
      rw [object world own, object' world' own']
    · exact fun t own => (Run.attribute?_letters plain reads t (types t own)).2
    · exact fun t own => (Run.attribute?_letters plain reads' t (types' t own)).2
  · intro id c a reads counted either
    have letters := Run.attribute?_letters plain reads
    obtain connects | takes := either
    · obtain ⟨_, reads', rfl⟩ := connects.attribute
      cases reads.symm.trans reads'
      exact Attribute.isIdentifier_name counted (by decide) fun t own => (letters t own).1
    · obtain ⟨_, reads', b, source, rfl⟩ := takes.attribute
      cases reads.symm.trans reads'
      obtain ⟨_, types, counts⟩ := Attribute.sources_object source
      have name : Text.isIdentifier (b.name fun _ => "").toList = true :=
        Attribute.isIdentifier_name (counts counted) (by decide) fun t own =>
          (letters t (types t own)).1
      rw [Attribute.vertexInput, String.toList_append]
      exact Text.isIdentifier_append (by decide) (Text.all_of_isIdentifier name)
  · unfold Hardware.basicVariables
    split <;> decide

def normalsDocument : Document where
  version := "1"
  metadata := ⟨"normals", none, none⟩
  inputs := []
  nodes :=
    [⟨"outer", "normal", "vector3", none, [("space", .str "world")], [], []⟩,
     ⟨"inner", "normal", "vector3", none, [("space", .str "object")], [], []⟩]
  connections := []
  outputs := [⟨"out1", "vector3", ⟨"outer", "out"⟩⟩, ⟨"out2", "vector3", ⟨"inner", "out"⟩⟩]
  nodegraphs := []

theorem normalsRun_ok : ∃ g log run,
    (Generator.bundled .glsl).buildGraph normalsDocument {} = .ok (g, log) ∧
    (Generator.bundled .glsl).run g {} = .ok run ∧ run.TakesInput 0 "i_normal" ∧
    run.TakesInput 1 "i_normal" ∧ run.attribute? 0 = some (.normal true) ∧
    run.attribute? 1 = some (.normal false) := by
  have works : ((Generator.bundled .glsl).buildGraph normalsDocument {}).toOption.any fun out =>
      ((Generator.bundled .glsl).run out.1 {}).toOption.any fun run =>
        decide (run.attribute? 0 = some (.normal true) ∧ run.attribute? 1 = some (.normal false)) := by
    simp only [Generator.run_bundled_eq]
    rw [Generator.bundled, Library.bundled_eq]
    decide
  obtain ⟨⟨g, log⟩, built, works⟩ := (any_eq_true _ _).1 works
  obtain ⟨run, ran, reads⟩ := (any_eq_true _ _).1 works
  rw [toOption_eq_some] at built ran
  obtain ⟨first, second⟩ := of_decide_eq_true reads
  exact ⟨g, log, run, built, ran, .of_normal first, .of_normal second, first, second⟩

theorem attributes_apart_normals : ∃ gen g log run, Target.glsl.isHardware = true ∧
    Generator.create .glsl .bundled = .ok gen ∧
    gen.buildGraph normalsDocument {} = .ok (g, log) ∧ gen.run g {} = .ok run ∧
    run.TakesInput 0 "i_normal" ∧ run.TakesInput 1 "i_normal" ∧
    ∃ a a', run.attribute? 0 = some a ∧ run.attribute? 1 = some a' ∧
      ∃ b ∈ a.sources run.options.implicitBitangents,
        ∃ b' ∈ a'.sources run.options.implicitBitangents, b.Alike b' := by
  have made := Generator.create_bundled .glsl
  obtain ⟨g, log, run, built, ran, first, second, _⟩ := normalsRun_ok
  exact ⟨_, g, log, run, rfl, made, built, ran, first, second,
    (attributes_apart rfl made built ran).2.1 0 1 "i_normal" first second⟩

/-- Two nodes share a vertex input and read the normal in different spaces. -/
theorem attributes_share_input : ∃ gen g log run c, Generator.create .glsl .bundled = .ok gen ∧
    gen.buildGraph normalsDocument {} = .ok (g, log) ∧ gen.run g {} = .ok run ∧
    run.TakesInput 0 c ∧ run.TakesInput 1 c ∧ run.attribute? 0 ≠ run.attribute? 1 := by
  obtain ⟨g, log, run, built, ran, first, second, reads, reads'⟩ := normalsRun_ok
  refine ⟨_, g, log, run, "i_normal", Generator.create_bundled .glsl, built, ran, first, second, ?_⟩
  rw [reads, reads']
  decide

end MaterialShader
