import Whisker.Engine
import Whisker.Proofs.Render.Places
import Whisker.Proofs.Render.Pragmas

/-! Pragmas across parent tags. Those of the including template are nothing to the parent, except
for what stands in the overrides: they fill its blocks, and what they enable is in force from there
to the end of the parent. -/

namespace Whisker

/-! ## Where a call is written -/

/-- A call that a template writes stands in its own text or in that of an override. -/
theorem Node.Writes.source {blocks : Entries (List Node)} {call : PragmaCall} {n : Node}
    (h : n.Writes blocks call) :
    n.Writes [] call ∨ ∃ override ∈ blocks, ∃ m ∈ override.2, m.Writes [] call := by
  induction h with
  | pragma => exact .inl .pragma
  | plain hm _ ih => exact ih.imp_left (.plain hm)
  | inverted hm _ ih => exact ih.imp_left (.inverted hm)
  | @block name children _ _ _ _ m hm _ ih =>
      refine ih.elim (fun hw => ?_) .inr
      cases hg : blocks.get? name with
      | none =>
          rw [hg] at hm
          exact .inl (.block hm hw)
      | some override =>
          rw [hg] at hm
          exact .inr ⟨_, Entries.mem_of_get? hg, m, hm, hw⟩

open Run (Yields)

namespace Render

/-! ## Parents -/

theorem includedSite_start {settings : Settings} (h : settings.partialsInheritPragmas = false)
    {site inner : Site} {name : Text} {store : Store}
    (hi : ((includedSite settings site name).run store).1 = .ok inner) :
    ∃ warnings, Pragmas.ofNames settings.strictPragmas settings.pragmas =
      .ok (inner.pragmas, warnings) := by
  have hsite : Yields (fun _ => True) (fun inner : Site => ∃ warnings,
      Pragmas.ofNames settings.strictPragmas settings.pragmas = .ok (inner.pragmas, warnings))
      (includedSite settings site name) := by
    simp only [includedSite, h, Bool.false_eq_true, if_false]
    split
    · exact .throw _
    · exact .bind (warned_yields _) fun p hp => .pure hp
  exact (hsite store trivial).2 inner hi

/-- Where partials do not inherit pragmas, a parent tag renders the same whatever pragmas are in
force around it, and wherever its overrides stand in what it has inside. The parent starts with the
pragmas of every template. Behind a front part of its nodes those are in force too that this part
writes, with its blocks filled: only overrides that enable pragmas bring them in from outside. -/
theorem parent_insulated {stage : Stage} (h : stage.settings.partialsInheritPragmas = false)
    (depth : Nat) (site : Site) (name indent : Text) (children : List Node) :
    (∀ pragmas children', MovedBlocks (blocksOf children) (blocksOf children') →
      parent stage (inOrder (node stage depth)) site name indent children =
        parent stage (inOrder (node stage depth)) { site with pragmas } name indent children') ∧
    (∀ inner store, ((includedSite stage.settings site name).run store).1 = .ok inner →
      ∃ warnings, Pragmas.ofNames stage.settings.strictPragmas stage.settings.pragmas =
        .ok (inner.pragmas, warnings)) ∧
    let blocks := overrides site.blocks children
    ∀ (inner : Site) front store t pragmas after,
      (inOrder (node stage depth) { inner with blocks } front).run store =
        (.ok (t, pragmas), after) →
      (∀ rest, (inOrder (node stage depth) { inner with blocks } (front ++ rest)).run store = (do
        let (u, pragmas) ← inOrder (node stage depth) { inner with blocks, pragmas } rest
        return (t ++ u, pragmas) : Run Rendered).run after) ∧
      inner.pragmas.Leads blocks front pragmas ∧
      ((∀ override ∈ blocks, ∀ n ∈ override.2, ∀ call, ¬ n.Writes [] call) →
        inner.pragmas.Leads [] front pragmas) := by
  refine ⟨fun pragmas children' hc => ?_, fun inner store => includedSite_start h, ?_⟩
  · have hn : Unmoved (inOrder (node stage depth)) :=
      inOrder_corresponds fun site _ hb _ _ hn => node_moved stage depth site hb hn
    rw [parent_corresponds Node.forall₂_moved hn (overrides_moved (.refl site.blocks) hc)]
    simp only [parent, includedSite, h, Bool.false_eq_true, if_false]
  · intro blocks inner front store t pragmas after hrun
    have hleads : inner.pragmas.Leads blocks front pragmas :=
      (inOrder_leads (node_leads stage depth) { inner with blocks } front store trivial).2 _
        (congrArg Prod.fst hrun)
    refine ⟨inOrder_append hrun, hleads, fun hnone => ?_⟩
    refine hleads.mono fun n hn call hw => ⟨n, hn, hw.source.resolve_right ?_⟩
    rintro ⟨override, ho, m, hm, hw⟩
    exact hnone override ho m hm call hw

/-- Filters are enabled in the including template. -/
def filteringSite : Site :=
  ⟨Scope.ofView (.dict [(['x'], .text ['v'])]), ⟨true, [(Pragmas.filters, [])]⟩, [], []⟩

/-- An override that stands at the place. -/
def overrideAt (place : Place) : Node :=
  .enclosure .block ['a'] [.enclosure .plain ['x'] [.text ['t']] ['t'] .standard place []]
    "{{#x}}t{{/x}}".toList .standard place []

theorem filteringSite_insulated :
    let stage : Stage := ⟨.standard, [(['p'], "{{$a}}{{/a}}{{x|strip}}".toList)], none, []⟩
    let store := Store.fresh (.fresh 0) (.fresh .empty (.memory 1 []) (.empty true) .standard)
    let nested := inOrder (node stage 4)
    let children : List Node := [.pragma ⟨Pragmas.filters, []⟩ .start, overrideAt ⟨12, 1, 13⟩]
    stage.settings.partialsInheritPragmas = false ∧
    MovedBlocks (blocksOf children) (blocksOf [overrideAt .start]) ∧
    ((parent stage nested { filteringSite with pragmas := .none true } ['p'] []
      [overrideAt .start]).run store).1 = .ok ['t'] ∧
    parent stage nested filteringSite ['p'] [] children =
      parent stage nested { filteringSite with pragmas := .none true } ['p'] []
        [overrideAt .start] ∧
    (∃ inner, ((includedSite stage.settings filteringSite ['p']).run store).1 = .ok inner ∧
      ∃ warnings, Pragmas.ofNames true [] = .ok (inner.pragmas, warnings)) ∧
    let blocks := overrides [] children
    let front : List Node := [.enclosure .block ['a'] [] [] .standard .start []]
    (nested { filteringSite with blocks } front).run store =
      (.ok (['t'], filteringSite.pragmas), store) ∧
    (∀ override ∈ blocks, ∀ n ∈ override.2, ∀ call, ¬ n.Writes [] call) ∧
    filteringSite.pragmas.Leads [] front filteringSite.pragmas := by
  intro stage store nested children
  have h : stage.settings.partialsInheritPragmas = false := rfl
  have hmoved : MovedBlocks (blocksOf children) (blocksOf [overrideAt .start]) :=
    .cons ⟨rfl, .cons (.enclosure (.cons .text .nil)) .nil⟩ .nil
  obtain ⟨hsame, hstart, hbehind⟩ := parent_insulated h 4 filteringSite ['p'] [] children
  refine ⟨h, hmoved, by cbv, hsame _ _ hmoved, ⟨_, rfl, hstart _ store rfl⟩, ?_⟩
  intro blocks front
  have hrun : (nested { filteringSite with blocks } front).run store =
      (.ok (['t'], filteringSite.pragmas), store) := rfl
  have hnone : ∀ override ∈ blocks, ∀ n ∈ override.2, ∀ call, ¬ n.Writes [] call := by
    intro override ho n hn call hw
    obtain rfl := List.mem_singleton.mp ho
    obtain rfl := List.mem_singleton.mp hn
    cases hw with
    | plain hm hw =>
        obtain rfl := List.mem_singleton.mp hm
        cases hw
  exact ⟨hrun, hnone, (hbehind filteringSite front store _ _ _ hrun).2.2 hnone⟩

end Render

namespace Engine

/-- A name that is there in a parent if a pragma of its own gives it to the items of the list. -/
def namingPartials : Entries Text := [(['p'], "{{$a}}{{/a}}{{#l}}{{#i}}v{{/i}}{{/l}}".toList)]

def namingView : Value := .dict [(['l'], .list [.bool true])]

/-- What an override enables is in force in the parent behind the block. -/
theorem namingOverride_reaches_parent :
    ∃ engine,
      create .empty .standard (some (.memory 1 [])) none [] none (.fresh 0) = .ok engine ∧
      engine.settings.partialsInheritPragmas = false ∧
      (engine.render "{{<p}}{{$a}}{{/a}}{{/p}}".toList namingView namingPartials).1 = .ok [] ∧
      (engine.render "{{<p}}{{$a}}{{%IMPLICIT-ITERATOR iterator=i}}{{/a}}{{/p}}".toList namingView
        namingPartials).1 = .ok ['v'] :=
  ⟨_, rfl, rfl, by cbv, by cbv⟩

end Engine

end Whisker
