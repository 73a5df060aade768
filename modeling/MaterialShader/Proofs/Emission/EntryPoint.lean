import MaterialShader.Proofs.Emission.Published

/-!
Entry points of targets with one stage.
-/

namespace MaterialShader

open List
open Result (bind_ok pure_ok)

namespace Dialect

theorem reserve_eq_iff (d : Dialect) (table : NameTable) (name : String) :
    d.validName name = (d.reserve table name).1 ↔ d.Free table (d.validName name) := by
  have chooses := d.reserve_chooses table name
  refine ⟨fun same => same ▸ chooses.free, fun free => ?_⟩
  generalize (d.reserve table name).1 = chosen at chooses
  cases chooses with
  | itself => rfl
  | numbered k taken => exact absurd free taken

end Dialect

namespace Names

variable {t : Target} {names : Names} {c : String}

/-- The table in which all names of a graph and the reserved words are taken. -/
def taken (names : Names) : NameTable :=
  Assoc.putAll [] ((reservedWords ++ names.all).map fun word => (word, 1))

theorem has_taken : Assoc.has c names.taken ↔ c ∈ reservedWords ∨ c ∈ names.all := by
  rw [taken, Assoc.has_putAll, map_map, ← mem_append]
  simp [Assoc.has, Assoc.get?]

/-- The name can stand beside all those of a graph in the code of the target. -/
structure Usable (t : Target) (names : Names) (c : String) : Prop where
  accepted : t.Accepts c
  unrestricted : (Dialect.ofTarget t).isRestricted c = false
  unreserved : c ∉ reservedWords
  fresh : c ∉ names.all

theorem usable_iff_free (accepted : t.Accepts c) :
    names.Usable t c ↔ (Dialect.ofTarget t).Free names.taken c := by
  have absent : Assoc.has c names.taken = false ↔ c ∉ reservedWords ∧ c ∉ names.all := by
    rw [← Bool.not_eq_true, has_taken, not_or]
  constructor
  · exact fun usable => ⟨absent.2 ⟨usable.unreserved, usable.fresh⟩, usable.unrestricted⟩
  · rintro ⟨free, unrestricted⟩
    exact ⟨accepted, unrestricted, (absent.1 free).1, (absent.1 free).2⟩

end Names

section

variable {target : Target} (single : target.isHardware = false) {lib : Library} {gen : Generator}
  (made : Generator.create target lib = .ok gen) {name : String} {doc : Document} {s : Session}
  {shader : Shader} (ok : (gen.generate name doc s).result = .ok shader)

include single made ok

theorem Generator.generate_entryPoint :
    ∃ g log stage, gen.buildGraph doc s = .ok (g, log) ∧ shader.stages = [stage] ∧
      stage.entryPoint = (Dialect.ofTarget target).validName name ∧
      stage.uniforms.map InterfaceVariable.name = (Names.ofGraph (.ofTarget target) g).sockets := by
  obtain ⟨_, _, made⟩ := bind_ok.1 made
  cases pure_ok.1 made
  obtain ⟨g, log, building, ok⟩ := generate_graph ok
  obtain ⟨run, stages, ran, assembled, _, _, finishing⟩ := generateFromGraph_ok ok
  obtain ⟨realizations, _, ran⟩ := bind_ok.1 ran
  cases pure_ok.1 ran
  have distinct := Names.ofGraph_nodup (.ofTarget target) g
  rw [Names.all, nodup_append, nodup_append] at distinct
  have length := Names.length_sockets (.ofTarget target) g
  obtain ⟨stage, whole, drawn, rfl, keeps, _, entry, last, blocks⟩ :=
    assemble_single length distinct.1.1 single name stages assembled
  obtain ⟨finished, _, finish, rest, same⟩ := forall₂_cons_left_iff.1 finishing
  cases forall₂_nil_left_iff.1 rest
  obtain ⟨_, _, uniforms, _, _, kept⟩ := Stage.finish_ok finish
  refine ⟨g, log, finished, building, same, kept.trans (keeps.entryPoint.trans entry), ?_⟩
  rw [Stage.interface_names uniforms, keeps.namesOf, Stage.namesOf, Stage.blocksOf, blocks,
    filter_cons_of_pos rfl, filter_cons_of_neg (by simp +decide [last]), filter_nil,
    flatMap_singleton]
  exact Hardware.publicVariables_names length

/-- The entry point of a shader with one stage is the valid form of the shader's name. Reserved
behind all names of the stage the name would always be usable, and the entry point is usable exactly
if that would leave it as it is. -/
theorem entry_point_usable_iff :
    ∃ g log stage, gen.buildGraph doc s = .ok (g, log) ∧ shader.stages = [stage] ∧
      let d := Dialect.ofTarget target
      let names := Names.ofGraph d g
      let chosen := (d.reserve names.taken name).1
      stage.entryPoint = d.validName name ∧ target.Accepts stage.entryPoint ∧
      stage.uniforms.map InterfaceVariable.name = names.sockets ∧
      names.Usable target chosen ∧
      (names.Usable target stage.entryPoint ↔ stage.entryPoint = chosen) := by
  obtain ⟨g, log, stage, building, stages, entry, uniforms⟩ :=
    Generator.generate_entryPoint single made ok
  refine ⟨g, log, stage, building, stages, ?_⟩
  intro d names chosen
  have chooses := d.reserve_chooses names.taken name
  have accepted := Dialect.validName_accepts target name
  refine ⟨entry, entry ▸ accepted, uniforms,
    (Names.usable_iff_free chooses.formed.accepts).2 chooses.free, ?_⟩
  rw [entry, Dialect.reserve_eq_iff]
  exact Names.usable_iff_free accepted

end

theorem entry_point_usable_iff_scaled :
    ∃ gen shader, Target.osl.isHardware = false ∧ Generator.create .osl .bundled = .ok gen ∧
      (gen.generate "scaled" scaledDocument {}).result = .ok shader ∧
      ∃ g log stage, gen.buildGraph scaledDocument {} = .ok (g, log) ∧ shader.stages = [stage] ∧
        let d := Dialect.ofTarget .osl
        let names := Names.ofGraph d g
        let chosen := (d.reserve names.taken "scaled").1
        stage.entryPoint = d.validName "scaled" ∧ Target.osl.Accepts stage.entryPoint ∧
        stage.uniforms.map InterfaceVariable.name = names.sockets ∧
        names.Usable .osl chosen ∧
        (names.Usable .osl stage.entryPoint ↔ stage.entryPoint = chosen) := by
  obtain ⟨shader, ok⟩ : ∃ shader,
      ((Generator.bundled .osl).generate "scaled" scaledDocument {}).result = .ok shader := by
    apply Generator.generate_works
    decide +kernel
  have made := Generator.create_bundled .osl
  exact ⟨_, shader, rfl, made, ok, entry_point_usable_iff rfl made ok⟩

/-- Shaders are named as their own parameter and as a type of the language. -/
theorem entry_points_not_reserved :
    ∃ gen shader stage shader' stage', Generator.create .osl .bundled = .ok gen ∧
      (gen.generate "gain" scaledDocument {}).result = .ok shader ∧ shader.stages = [stage] ∧
      stage.entryPoint ∈ stage.uniforms.map InterfaceVariable.name ∧
      (gen.generate "color" scaledDocument {}).result = .ok shader' ∧ shader'.stages = [stage'] ∧
      (Dialect.ofTarget .osl).isRestricted stage'.entryPoint = true := by
  have works (name : String) (listed : name = "gain" ∨ name = "color") : ∃ shader,
      ((Generator.bundled .osl).generate name scaledDocument {}).result = .ok shader := by
    apply Generator.generate_works
    obtain rfl | rfl := listed
    · decide +kernel
    · decide +kernel
  have sockets : (((Generator.bundled .osl).buildGraph scaledDocument {}).toOption.any fun built =>
      (Names.ofGraph (.ofTarget .osl) built.1).sockets.contains
        ((Dialect.ofTarget .osl).validName "gain")) = true := by
    rw [Generator.bundled, Library.bundled_eq]
    decide
  have made := Generator.create_bundled .osl
  obtain ⟨shader, ok⟩ := works "gain" (.inl rfl)
  obtain ⟨shader', ok'⟩ := works "color" (.inr rfl)
  obtain ⟨g, log, stage, building, stages, entry, uniforms⟩ :=
    Generator.generate_entryPoint rfl made ok
  obtain ⟨_, _, stage', _, stages', entry', _⟩ := Generator.generate_entryPoint rfl made ok'
  rw [building] at sockets
  refine ⟨_, shader, stage, shader', stage', made, ok, stages, ?_, ok', stages', ?_⟩
  · rw [entry, uniforms]
    exact List.contains_iff_mem.1 sockets
  · rw [entry']
    decide

end MaterialShader
