import Whisker.Proofs.Render.Checked
import Whisker.Proofs.View.Texts

/-! Texts of the view are opaque to rendering. It never looks into them, so that to escape them
where they are inserted is to put their escaped texts into the view. -/

namespace Whisker

open Run (Guards)

/-- A function of one text. -/
def Value.ofText (f : Text → Text) : Value :=
  .function (.mk none (.exactly 1) (.compute f (.argument 0))) none false

/-- Escapes with a function of texts. -/
def Stage.escapingWith (f : Text → Text) (stage : Stage) : Stage :=
  { stage with escape := some (.ofText f) }

/-- What can stand for a text: nothing stands for the empty one. -/
def Value.isTextual : Value → Bool
  | .missing | .null | .text _ => true
  | _ => false

namespace Render

/-- Of each variable, that it is escaped, that no filters are in force, and that its name, if it
can be resolved, resolves to a text or to nothing. -/
def textVariables : Check := fun depth site n store =>
  match n with
  | .variable name isEscaped _ =>
    isEscaped && !site.pragmas.isEnabled Pragmas.filters &&
      match ((site.scope.resolve depth name).run store).1 with
      | .ok v => v.isTextual
      | .error _ => true
  | _ => true

variable {f : Text → Text} {alarm : Failure}

/-- A text counts as nothing where its image does. -/
theorem ofValue_guards (hf : ∀ t, f t = [] ↔ t = []) {v w : Value} (h : v.Retexted f w) :
    Guards alarm (SectionValue.Alike (Value.Retexted f)) (SectionValue.ofValue v)
      (SectionValue.ofValue w) := by
  obtain ⟨hv, rfl⟩ := h
  cases v with
  | missing => exact .pure .falsy
  | null => exact .pure .falsy
  | bool b => cases b <;> exact .pure (by constructor)
  | text t =>
      have ht : (f t).isEmpty = t.isEmpty :=
        Bool.eq_iff_iff.mpr (List.isEmpty_iff.trans ((hf t).trans List.isEmpty_iff.symm))
      simp only [Value.mapTexts, SectionValue.ofValue, ht]
      refine .pure ?_
      split <;> constructor
  | list items =>
      have hitems := Value.retexted_items (f := f) hv
      cases items with
      | nil => exact .pure .falsy
      | cons item items => exact .pure (.list hitems)
  | dict entries =>
      cases entries with
      | nil => exact .pure .falsy
      | cons entry entries => exact .pure .frame
  | _ => cases hv

/-- Plain data in one rendering, and the same with other texts in the other. -/
def Likeness.retexted (alarm : Failure) (hf : ∀ t, f t = [] ↔ t = []) : Likeness alarm where
  value := Value.Retexted f
  scope := Scope.Retexted f
  ofView hv := .cons ⟨hv, rfl⟩ .nil
  push hs hv label := .cons ⟨hv, rfl⟩ hs
  resolve hs depth name := Scope.resolve_guards hs depth name
  ofValue := ofValue_guards hf
  subView hv := by cases hv.1
  ofSubView := by
    rintro template view v ⟨hv, he⟩
    cases v <;> first | cases he; done | cases hv

/-- Nothing in plain data can be called. -/
theorem lambdaSection_plain {v : Value} (h : v.isPlain = true) (nested : Nested) (depth : Nat)
    (site : Site) (d : Delimiters) (body : Text) :
    lambdaSection nested depth site d body v = throw .unfit := by
  cases v with
  | missing | null | bool | text | list | dict => rfl
  | _ => cases h

variable {stage : Stage} {site : Site} {scope : Scope}

theorem variable_guards (hs : site.scope.Retexted f scope) {nested nested' : Nested} {depth : Nat}
    {name : Text} {isEscaped : Bool} {place : Place} {store : Store}
    (h : textVariables depth site (.variable name isEscaped place) store = true) :
    Run.GuardsAt alarm (· = ·) store
      (variable_ (stage.escapingWith f) nested depth site name isEscaped)
      (variable_ (stage.escapingWith id) nested' depth { site with scope } name isEscaped) := by
  obtain ⟨⟨rfl, hfilters⟩, hr⟩ :
      (isEscaped = true ∧ site.pragmas.isEnabled Pragmas.filters = false) ∧ _ := by
    simpa only [textVariables, Bool.and_eq_true, Bool.not_eq_true'] using h
  simp only [variable_, variableValue, hfilters, bind_assoc]
  refine .bind (Scope.resolve_guards hs depth name store) fun v w hvw hv => ?_
  change ((site.scope.resolve depth name).run store).1 = .ok v at hv
  simp only [hv] at hr
  obtain ⟨hplain, rfl⟩ := hvw
  cases v with
  | missing => exact .pure rfl
  | null => exact .pure rfl
  | text t =>
      have hstands (f : Text → Text) (t : Text) :
          escaped (stage.escapingWith f) depth t = pure (.text (f t)) := rfl
      simp only [Value.mapTexts, Value.isCallable, Value.isMissing, Filter.applyAll,
        List.foldlM_nil, Bool.not_false, if_true, Bool.false_eq_true, if_false, pure_bind,
        Value.toText, hstands]
      exact .refl _
  | _ => cases hr

/-- A rendering that escapes with `f`, and one that does not escape in the view with other texts. -/
theorem checked_retexted (hf : ∀ t, f t = [] ↔ t = []) (depth : Nat) (site : Site)
    (hs : site.scope.Retexted f scope) (n : Node) :
    Guards alarm (· = ·) (checked (stage.escapingWith f) textVariables alarm depth site n)
      (node (stage.escapingWith id) depth { site with scope } n) := by
  induction depth generalizing site scope n with
  | zero => exact .refl _
  | succ depth ih =>
      refine .get fun store => ?_
      split
      · rename_i hcheck
        have hn : ∀ (site : Site) {scope : Scope}, site.scope.Retexted f scope → ∀ nodes,
            NestedGuards alarm
              (inOrder (checked (stage.escapingWith f) textVariables alarm depth))
              (inOrder (node (stage.escapingWith id) depth)) site { site with scope } nodes :=
          fun site scope hs nodes =>
            inOrder_guards fun n _ pragmas => ih { site with pragmas } hs n
        rw [node]
        split
        · refine .bind (variable_guards hs hcheck) ?_
          rintro piece _ rfl -
          exact .refl _
        · rename_i hv
          refine step_guards (.retexted alarm hf) hn hs hv ?_ store
          rintro v w d body ⟨hplain, rfl⟩
          rw [lambdaSection_plain hplain, lambdaSection_plain (Value.isPlain_mapTexts hplain)]
          exact .refl _
      · exact Guards.raise _ store

theorem documentBy_retexted (stage : Stage) (hf : ∀ t, f t = [] ↔ t = []) (depth : Nat)
    {view view' : Value} (hview : view.Retexted f view') (nodes : List Node) :
    Guards alarm (· = ·)
      (documentBy (checked (stage.escapingWith f) textVariables alarm depth) stage.settings view
        nodes)
      (document (stage.escapingWith id) depth view' nodes) := by
  have hs := (Likeness.retexted alarm hf).ofView hview
  refine .after _ fun pragmas => .bind (inOrder_guards fun n _ pragmas =>
    checked_retexted hf depth ⟨_, pragmas, [], []⟩ hs n) ?_
  rintro result _ rfl
  exact .refl _

end Render

end Whisker
