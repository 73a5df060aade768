import MaterialShader.Proofs.Builder.Guarded

/-!
The faults of graph building:
-/

namespace MaterialShader

open Result
open Fault (Common InRange Usual)

namespace Network

theorem linkBindings_common (path : String) (around : Surroundings)
    (links : List (String × String)) :
    (linkBindings path around links).FailsBy Common := by
  induction links with
  | nil => exact .ok
  | cons link rest ih =>
    unfold linkBindings
    split
    · simp
    · exact ih
    · exact failsBy_map.2 ih

theorem bindingsOf_common (node : Node) (connections : List Connection) (at_ : String)
    (around : Surroundings) : (bindingsOf node connections at_ around).FailsBy Common := by
  simp [bindingsOf, linkBindings_common]

theorem expand_common (doc : Document) (lib : Library) (levels : Nat) (nodes : List Node)
    (connections : List Connection) (at_ : String) (around : Surroundings) :
    (expand doc lib levels nodes connections at_ around).FailsBy Common := by
  induction levels generalizing nodes connections at_ around with
  | zero => simp [expand]
  | succ levels ih =>
    refine .bind (.mapM fun node _ => ?_) fun _ _ => .pure
    refine .bind (bindingsOf_common _ _ _ _) fun bindings _ => ?_
    split <;> simp [ih]

theorem settle_common (redirects : List Redirect) (b : Binding) :
    (settle redirects b).FailsBy Common := by
  simp [settle]

theorem ofDocument_common (doc : Document) (lib : Library) :
    (ofDocument doc lib).FailsBy Common := by
  have node (redirects : List Redirect) (n : BoundNode) :
      (settleNode redirects n).FailsBy Common := by
    refine .bind (.mapM fun entry _ => settle_common _ _) fun _ _ => ?_
    refine .bind (.mapM fun entry _ => ?_) fun _ _ => .pure
    simp [settle_common]
  have output (redirects : List Redirect) (o : GraphOutput) :
      (settleOutput redirects o).FailsBy Common := by
    simp [settleOutput, settle_common]
  refine .bind (expand_common _ _ _ _ _ _ _) fun whole _ => ?_
  refine .bind (.mapM fun n _ => node _ n) fun _ _ => ?_
  exact .bind (.mapM fun o _ => output _ o) fun _ _ => .pure

end Network

namespace Builder

theorem graph_usual (doc : Document) (net : Network) (b : Builder) :
    Result.FailsBy Usual ((graph doc net).run b) := by
  have guards : Guards (fun _ => True) Usual :=
    .of_ordinary (fun _ _ _ _ _ => trivial) fun _ ordinary => ordinary.1
  have steps := graph_steps guards (fun _ => trivial) (fun _ _ => trivial)
    (fun _ _ _ => trivial) doc net
  exact steps.fails b trivial

theorem inRange_guards {lib : Library} (answers : lib.AnswersGeometry) :
    Guards (fun b => b.library = lib ∧ b.Located InRange) InRange where
  frame _ _ ext holds := ⟨ext.library.trans holds.1, ext.located holds.2⟩
  common _ common := common.2
  located _ holds := holds.2
  answers _ holds := .inl (holds.1 ▸ answers)

theorem graph_inRange {b : Builder} (answers : b.library.AnswersGeometry)
    (located : b.Located InRange) (doc : Document) (net : Network) :
    Result.FailsBy InRange ((graph doc net).run b) := by
  have steps := graph_steps (inRange_guards answers) (fun _ => by simp [InRange])
    (fun _ _ => by simp [InRange])
    (fun _ _ holds => ⟨holds.1, holds.2.sockets, holds.2.geometry⟩) doc net
  exact steps.fails b ⟨rfl, located⟩

end Builder

namespace Graph

theorem sort_common (g : Graph) : g.sort.FailsBy Common := by
  unfold sort
  split <;> simp

theorem foldConstants_common (types : Registry) (options : Options) (g : Graph) :
    (foldConstants types options g).FailsBy Common := by
  unfold foldConstants
  split
  · split
    simp [sort_common]
  · exact .ok

theorem build_failsBy {P : Fault → Prop} (common : ∀ f, f.Common → P f) {doc : Document}
    {lib : Library} {types : Registry} (bound : (Graph.bind doc lib types).FailsBy P)
    (options : Options) : (build doc lib types options).FailsBy P := by
  refine .bind bound fun g _ => ?_
  refine .bind ((sort_common g).mono common) fun sorted _ => ?_
  refine .bind ((sort_common _).mono common) fun ordered _ => ?_
  exact .bind ((foldConstants_common _ _ _).mono common) fun _ _ => .pure

theorem build_usual (doc : Document) (lib : Library) (types : Registry) (options : Options) :
    (build doc lib types options).FailsBy Usual := by
  refine build_failsBy (fun _ common => common.1.1) ?_ options
  refine .bind ((Network.ofDocument_common doc lib).mono fun _ common => common.1.1) fun net _ => ?_
  exact .bind (Builder.graph_usual doc net _) fun _ _ => .pure

theorem build_inRange {lib : Library} (answers : lib.AnswersGeometry) (doc : Document)
    (types : Registry) (options : Options) :
    (build doc lib types options).FailsBy InRange := by
  refine build_failsBy (fun _ common => common.2) ?_ options
  refine .bind ((Network.ofDocument_common doc lib).mono fun _ common => common.2) fun net _ => ?_
  refine .bind (Builder.graph_inRange answers ⟨?_, ?_⟩ doc net) fun _ _ => .pure
  · exact fun name k listed => by cases listed
  · exact fun name id listed => by cases listed

end Graph

end MaterialShader
