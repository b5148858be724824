import Whisker.Engine
import Whisker.Proofs.Render.Guards

/-! Renderings that check each node when they come to it. One that raises no alarm is the rendering
without checks, so the alarm says exactly that a node was come to that does not pass. -/

namespace Whisker

open Run (Guards)

namespace Render

/-- What is asked of a node when a rendering comes to it; it does not change the store. -/
abbrev Check := Nat → Site → Node → Store → Bool

/-- Raises the alarm at a node that does not pass. What the function of a variable has rendered is
not checked. -/
def checked (stage : Stage) (check : Check) (alarm : Failure) :
    Nat → Site → Node → Run (Piece × Pragmas)
  | 0, _, _ => throw .tooDeep
  | depth + 1, site, n => do
    if check depth site n (← get) then
      match n with
      | .variable .. => step stage depth (inOrder (node stage depth)) site n
      | _ => step stage depth (inOrder (checked stage check alarm depth)) site n
    else throw alarm

/-- The nodes of a document from the start, with `one` for each of them. -/
def documentBy (one : Site → Node → Run (Piece × Pragmas)) (settings : Settings) (view : Value)
    (nodes : List Node) : Run Text := do
  let pragmas ← initialPragmas settings
  return (← inOrder one ⟨Scope.ofView view, pragmas, [], []⟩ nodes).1

variable {stage : Stage} {alarm : Failure}

/-- The same values and scopes. -/
def Likeness.same (alarm : Failure) : Likeness alarm where
  value := (· = ·)
  scope := (· = ·)
  ofView h := h ▸ rfl
  push := push_of_eq
  resolve hs depth name := hs ▸ .refl _
  ofValue hv := by
    cases hv
    exact (Guards.refl _).mono fun value _ h => h ▸ .refl (fun _ => rfl) value
  subView := exists_subView_of_eq
  ofSubView := exists_of_eq_subView

theorem Likeness.same_equal (stage : Stage) :
    ((Likeness.same alarm).bond stage stage.escape).Equal where
  eq h := Eq.symm h
  readName_eq _ hp := congrArg (readName · _) hp
  escaped _ _ := Guards.refl _
  applyAll _ _ _ := Guards.refl _
  callable _ _ := ⟨Guards.refl, fun _ => rfl, fun _ _ _ => trivial⟩

/-- A checked rendering raises the alarm, or it is the rendering. -/
theorem checked_guards (check : Check) (depth : Nat) (site : Site) (n : Node) :
    Guards alarm (· = ·) (checked stage check alarm depth site n) (node stage depth site n) := by
  induction depth generalizing site n with
  | zero => exact .refl _
  | succ depth ih =>
      refine .get fun store => ?_
      split
      · have hn : ∀ (site : Site) {scope : Scope}, site.scope = scope → ∀ nodes,
            NestedGuards alarm (inOrder (checked stage check alarm depth))
              (inOrder (node stage depth)) site { site with scope } nodes := by
          rintro site _ rfl nodes
          exact inOrder_guards fun n _ pragmas => ih _ n
        rw [node]
        split
        · exact Guards.refl _ store
        · rename_i hv
          refine step_guards (.same alarm) hn rfl hv (fun v w d body hvw => ?_) store
          exact Bond.lambdaSection_pairs ((Likeness.same alarm).nests hn) rfl rfl
            (Likeness.same_equal stage) hvw d body
      · exact Guards.raise _ store

theorem documentBy_guards (check : Check) (depth : Nat) (view : Value) (nodes : List Node) :
    Guards alarm (· = ·) (documentBy (checked stage check alarm depth) stage.settings view nodes)
      (document stage depth view nodes) := by
  refine .after _ fun pragmas => .bind (inOrder_guards fun n _ pragmas => ?_) ?_
  · exact checked_guards check depth _ n
  · rintro result _ rfl
    exact .refl _

end Render

namespace Engine

/-- Renders a template as an engine does, with a check of each node. -/
def checkedStep (engine : Engine) (check : Render.Check) (alarm : Failure) (depth : Nat)
    (template : Text) (view : Value) (partials : Entries Text) : Run Text := do
  match rootOf view with
  | .error e => throw e
  | .ok root =>
    let document ← Run.load (Loading.template partials template)
    Run.afresh (Render.documentBy (Render.checked (engine.stage partials) check alarm depth)
      engine.settings root document.nodes)

theorem checkedStep_guards (engine : Engine) (check : Render.Check) (alarm : Failure) (depth : Nat)
    (template : Text) (view : Value) (partials : Entries Text) :
    Guards alarm (· = ·) (engine.checkedStep check alarm depth template view partials)
      (engine.renderStep depth template view partials) := by
  unfold checkedStep renderStep
  cases rootOf view with
  | error e => exact .refl _
  | ok root =>
      exact .after _ fun document =>
        (Render.documentBy_guards check depth root document.nodes).afresh

end Engine

end Whisker
