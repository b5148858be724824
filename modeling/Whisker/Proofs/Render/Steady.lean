import Whisker.Proofs.Render.Steps
import Whisker.Proofs.View.Steady

/-! Rendering gives the same text and the same warnings on stores that its parts cannot tell apart,
and leaves them so even where it fails. -/

namespace Whisker

namespace Render

section

variable {lib : Library} {c : Contents} {R : Store → Store → Prop} 
  {kept : Loader → Prop} (hR : Run.Blind lib c R kept) {stage : Stage}
  (hk : Loading.AllKeep kept c.template stage.partials) (hu : stage.Uses (Value.Within c))
include hR hk hu

theorem node_blindly (height : Nat) (site : Site) (hs : site.scope.Within c) (n : Node) :
    (Run.blindly hR height).Holds (fun _ => True) fun d => node stage d site n := by
  induction height generalizing site n with
  | zero => exact fun d hd => absurd hd (Nat.not_lt_zero d)
  | succ height ih =>
      let L := Run.blindly hR height
      have hn : ∀ site nodes, Scope.Within c site.scope →
          Renders L (fun d => inOrder (node stage d)) site nodes :=
        fun site nodes hs => inOrder_holds L fun n _ pragmas => ih { site with pragmas } hs n
      have hstep : L.Holds (fun _ => True) fun d => node stage (d + 1) site n := by
        cases n with
        | text => exact L.pure trivial
        | comment => exact L.pure trivial
        | delimiterChange => exact L.pure trivial
        | «variable» name isEscaped =>
            refine L.bind (variable_holds L hk hs (fun _ nodes => hn site nodes hs) hu name isEscaped)
              fun _ _ => L.pure trivial
        | pragma call => exact L.bind (enable_holds L site call) fun _ _ => L.pure trivial
        | inclusion name indent =>
            refine L.bind (inclusion_holds L hk hs (fun scope pragmas nodes hs _ _ => ?_) _) fun _ _ =>
              L.pure trivial
            exact hn _ nodes hs
        | enclosure kind name children body d place indent =>
            cases kind with
            | plain =>
                refine L.bind (section_holds L hk hs (fun _ nodes => hn site nodes hs)
                  (fun v hv label pragmas => ?_) _ _ _) fun _ _ => L.pure trivial
                exact hn _ children (hs.push hv label)
            | inverted =>
                refine L.bind (invertedSection_holds L hs (hn _ children hs) _) fun _ _ => ?_
                exact L.pure trivial
            | block => exact L.bind (K := fun _ => True) (hn site _ hs) fun _ _ => L.pure trivial
            | parent =>
                refine L.bind (parent_holds L hk (fun pragmas nodes _ _ => ?_) _) fun _ _ =>
                  L.pure trivial
                exact hn _ nodes hs
      intro d hd
      cases d with
      | zero => exact .throw _
      | succ d => exact hstep d (by omega)

theorem document_steady (depth : Nat) {view : Value} (hv : view.Within c) (nodes : List Node) :
    Fallible.Steady R (fun _ => True) (document stage depth view nodes) := by
  let L := Run.blindly hR (depth + 1)
  have h : L.Holds (fun _ => True) fun d => document stage d view nodes := by
    refine L.bind (initialPragmas_holds L stage.settings) fun pragmas _ => ?_
    refine L.bind (inOrder_holds L fun n _ pragmas => ?_) fun _ _ => L.pure trivial
    exact node_blindly hR hk hu _ _ (Scope.ofView_within hv) n
  exact h depth (Nat.lt_succ_self depth)

end

/-! ## The cache -/

theorem step_cache (stage : Stage) (cache : Bool) :
    step { stage with settings := { stage.settings with cache } } = step stage := by
  funext depth nested site n
  cases n with
  | enclosure shape name children body d place indent => cases shape <;> rfl
  | _ => rfl

/-- Whether the settings ask for a cache makes no difference to rendering. -/
theorem node_cache (stage : Stage) (cache : Bool) (depth : Nat) :
    node { stage with settings := { stage.settings with cache } } depth = node stage depth := by
  induction depth with
  | zero => rfl
  | succ depth ih =>
      funext site n
      rw [node, node]
      rw [ih, step_cache]

theorem document_cache (stage : Stage) (cache : Bool) (depth : Nat) :
    document { stage with settings := { stage.settings with cache } } depth =
      document stage depth := by
  funext view nodes
  rw [document]
  rw [node_cache]
  rfl

end Render

end Whisker
