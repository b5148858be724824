import Whisker.Proofs.Render.Bond
import Whisker.Proofs.Run.Guards

/-! Two renderings side by side, the first of which may raise an alarm. The values that they resolve
may differ, as long as sections and inclusions cannot tell which of the two has which. -/

namespace Whisker

open Run (Guards)

variable {alarm : Failure}

namespace Render

/-- What one rendering has in place of what the other has: scopes in which all names resolve to
values that stand for each other, in sections and as sub-views too. -/
structure Likeness (alarm : Failure) where
  value : Value → Value → Prop
  scope : Scope → Scope → Prop
  ofView {v w : Value} : value v w → scope (Scope.ofView v) (Scope.ofView w)
  push {s s' : Scope} {v w : Value} :
    scope s s' → value v w → ∀ label, scope (s.push v label) (s'.push w label)
  resolve {s s' : Scope} :
    scope s s' → ∀ depth name, Guards alarm value (s.resolve depth name) (s'.resolve depth name)
  ofValue {v w : Value} : value v w →
    Guards alarm (SectionValue.Alike value) (SectionValue.ofValue v) (SectionValue.ofValue w)
  subView {template : Text} {view w : Value} :
    value (.subView template view) w → ∃ view', w = .subView template view' ∧ value view view'
  ofSubView {template : Text} {view v : Value} :
    value v (.subView template view) → ∃ view', v = .subView template view'

/-- Nodes that two renderings come to at these sites end alike. -/
abbrev NestedGuards (alarm : Failure) (nested nested' : Nested) (site site' : Site)
    (nodes : List Node) : Prop :=
  Guards alarm (· = ·) (nested site nodes) (nested' site' nodes)

theorem inOrder_guards {one one' : Site → Node → Run (Piece × Pragmas)} {site : Site}
    {scope : Scope} {nodes : List Node} (h : ∀ n ∈ nodes, ∀ pragmas, Guards alarm (· = ·)
      (one { site with pragmas } n) (one' { site with scope, pragmas } n)) :
    NestedGuards alarm (inOrder one) (inOrder one') site { site with scope } nodes := by
  have hpairs : Guards alarm (fun x y : Rendered => y.1 = x.1 ∧ y.2 = x.2) (inOrder one site nodes)
      (inOrder one' { site with scope } nodes) := by
    refine inOrder_pairs (P := Run.guarding alarm) (R := fun p q => q = p) site rfl ?_
    rintro n hn _ p rfl
    exact (h n hn p).mono fun x y hxy => hxy ▸ ⟨rfl, rfl⟩
  exact hpairs.mono fun x y hxy => (Prod.ext hxy.1 hxy.2).symm

theorem includedSite_guards (settings : Settings) (site : Site) (scope : Scope) (name : Text) :
    Guards alarm (fun s t => ∃ p, s = { site with pragmas := p, chain := name :: site.chain } ∧
        t = { site with scope, pragmas := p, chain := name :: site.chain })
      (includedSite settings site name) (includedSite settings { site with scope } name) := by
  simp only [includedSite]
  split
  · exact .throw _
  · split
    · exact .pure ⟨_, rfl, rfl⟩
    · exact .after _ fun p => .pure ⟨p, rfl, rfl⟩

/-- The two renderings differ in the view and in the escaping. -/
def Likeness.bond (L : Likeness alarm) (stage : Stage) (escape : Option Value) :
    Bond (Run.guarding alarm) stage { stage with escape } where
  value := L.value
  scope := L.scope
  pragmas p q := q = p
  Comes _ _ _ := True
  Opens _ _ := True
  ofView := L.ofView
  push := L.push
  resolve := L.resolve
  ofValue := L.ofValue
  subView := L.subView
  ofSubView := L.ofSubView
  indents := .refl stage
  filtersAside := Pragmas.filtersAside_of_eq
  enable _ _ _ _ h := h ▸ (Guards.refl _).mono fun _ _ => Eq.symm
  inside _ _ := trivial
  enters _ _ _ _ _ := trivial
  included name := found_pairs (Guards.refl (included? stage name))
  template _ _ _ _ _ := (Guards.refl _).mono fun _ _ hd => ⟨hd ▸ rfl, trivial⟩
  includedSite site scope _ _ name _ _ hp _ _ _ := by
    subst hp
    refine (includedSite_guards stage.settings site scope name).mono ?_
    rintro _ _ ⟨p, rfl, rfl⟩
    exact ⟨p, p, rfl, rfl, rfl⟩

variable (L : Likeness alarm) {nested nested' : Nested}
  (hn : ∀ (site : Site) {scope : Scope}, L.scope site.scope scope → ∀ nodes,
    NestedGuards alarm nested nested' site { site with scope } nodes)
  {stage : Stage} {escape : Option Value}
include hn

theorem Likeness.nests : (L.bond stage escape).Nests nested nested' := by
  rintro site scope p hs rfl nodes -
  exact (hn site hs nodes).mono fun x y hxy => hxy ▸ ⟨rfl, rfl⟩

/-- The step of a node other than a variable, if section lambdas do alike. -/
theorem step_guards {depth : Nat} {site : Site} {scope : Scope} (hs : L.scope site.scope scope)
    {n : Node} (hv : ∀ name isEscaped place, n ≠ .variable name isEscaped place)
    (hl : ∀ v w d body, L.value v w →
      Guards alarm (· = ·) (lambdaSection nested depth site d body v)
        (lambdaSection nested' depth { site with scope } d body w)) :
    Guards alarm (· = ·) (step stage depth nested site n)
      (step { stage with escape } depth nested' { site with scope } n) := by
  have hpairs : Guards alarm (L.bond stage escape).Same (step stage depth nested site n)
      (step { stage with escape } depth nested' { site with scope } n) :=
    Bond.step_pairs (L.nests hn) hs rfl trivial (fun _ _ _ h => absurd h (hv _ _ _)) hl
  exact hpairs.mono fun x y hxy => (Prod.ext hxy.1 hxy.2).symm

end Render

end Whisker
