import Whisker.Proofs.Engine.History
import Whisker.Proofs.Render.Around

/-! The tags around a node in the renderings by an engine. -/

namespace Whisker

open Fallible (relabel relabel_bind Fixed)

/-- What fails for the length of a chain fails otherwise. -/
def Failure.retell (full : List Text → Failure) (e : Failure) : Failure :=
  match e with
  | .inclusionTooDeep names => full names
  | e => e

theorem Failure.spares_retell (full : List Text → Failure) : Spares (retell full) := by
  intro e he
  cases e with
  | inclusionTooDeep names => cases he
  | _ => rfl

namespace Engine

/-- Renders a template as an engine does, with the names of the tags that the rendering is in. It
has the failure `lost` at a node whose chain is not just these, or is too long, and `full` at a tag
that was found and compiled but is one too many. -/
def renderAmid (engine : Engine) (lost : Failure) (full : List Text → Failure) (depth : Nat)
    (template : Text) (view : Value) (partials : Entries Text) : Run Text := do
  match rootOf view with
  | .error e => throw e
  | .ok root =>
    let document ← Run.load (Loading.template partials template)
    Run.afresh (Render.documentBy (Render.nodeAmid (engine.stage partials) lost full depth [])
      engine.settings root document.nodes)

variable {g : Failure → Failure} (hg : Failure.Spares g) {engine : Engine}
  {full : List Text → Failure}
  (hfull : ∀ names, names.length = engine.settings.maxPartialDepth + 1 →
    full names = g (.inclusionTooDeep names))
include hg hfull

theorem renderAmid_eq (lost : Failure) (depth : Nat) (template : Text) (view : Value)
    (partials : Entries Text) :
    engine.renderAmid lost full depth template view partials =
      relabel g (engine.renderStep depth template view partials) := by
  unfold renderAmid renderStep
  cases hroot : rootOf view with
  | error e =>
      have hflat := rootOf_flat view
      rw [hroot] at hflat
      exact (Fixed.throw (hg e (Failure.not_isInclusionTooDeep (hflat e rfl)))).symm
  | ok root =>
      dsimp only
      rw [relabel_bind, Run.load_fixed (Loading.template_fixed hg partials template)]
      refine bind_congr fun document => ?_
      rw [Run.relabel_afresh, Render.document, Render.documentBy, relabel_bind]
      congr 1
      have hinitial : relabel g (Render.initialPragmas engine.settings) =
          Render.initialPragmas engine.settings := Render.initialPragmas_fixed hg engine.settings
      have hstage : (engine.stage partials).settings = engine.settings := rfl
      rw [hstage, hinitial]
      refine bind_congr fun pragmas => ?_
      let site : Site := ⟨Scope.ofView root, pragmas, [], []⟩
      have hnodes : Render.inOrder (Render.nodeAmid (engine.stage partials) lost full depth []) site
          document.nodes =
            relabel g (Render.inOrder (Render.node (engine.stage partials) depth) site
              document.nodes) :=
        Render.inOrder_relabel hg site document.nodes fun p n _ =>
          Render.nodeAmid_eq hg hfull (rfl : { site with pragmas := p }.chain.reverse = [])
            (Nat.zero_le _) lost depth n
      rw [relabel_bind, ← hnodes]
      rfl

omit hg hfull

/-- A rendering carries the names of the tags that it is in. It does just what one does that counts
the tags around it, which is never lost, whatever it would fail with: at each node the chain is
that of the tags around the node, and no longer than the limit. It fails for the length of a chain
just where that one comes to a tag that was found and compiled and is one too many, and the chain
then ends with the name of the tag. A tag without a template has no chain to be too long. -/
theorem renderStep_around (engine : Engine) (depth : Nat) (template : Text) (view : Value)
    (partials : Entries Text) :
    (∀ lost full, engine.renderAmid lost full depth template view partials =
      relabel (Failure.retell full) (engine.renderStep depth template view partials)) ∧
    (∀ store names, ((engine.renderStep depth template view partials).run store).1 =
        .error (.inclusionTooDeep names) →
      names.length = engine.settings.maxPartialDepth + 1) ∧
    (∀ nested depth site name (store mid after : Store),
      (Render.subView? depth site name).run store = (.ok none, mid) →
      (Run.load (Loading.included? partials name)).run mid = (.ok none, after) →
      ∀ indent, (Render.inclusion (engine.stage partials) nested depth site name indent).run store =
        (Render.absent engine.settings name).run after) ∧
    ∀ nested site name (store after : Store),
      (Run.load (Loading.included? partials name)).run store = (.ok none, after) →
      ∀ indent children,
        (Render.parent (engine.stage partials) nested site name indent children).run store =
          (Render.absent engine.settings name).run after := by
  refine ⟨?_, ?_, ?_, ?_⟩
  · intro lost full
    exact renderAmid_eq (Failure.spares_retell full) (fun _ _ => rfl) lost depth template view
      partials
  · intro store names hrun
    -- otherwise the failure could be told apart from those of the counting rendering
    let full (names : List Text) : Failure :=
      if names.length = engine.settings.maxPartialDepth + 1 then .inclusionTooDeep names else .unfit
    have hcounted := renderAmid_eq (Failure.spares_retell full)
      (fun names h => (if_pos h).symm : ∀ names : List Text,
        names.length = engine.settings.maxPartialDepth + 1 →
          Failure.inclusionTooDeep names = Failure.retell full (.inclusionTooDeep names))
      .unfit depth template view partials
    have hsame := renderAmid_eq (fun _ _ => rfl : Failure.Spares id)
      (fun names _ => rfl : ∀ names : List Text,
        names.length = engine.settings.maxPartialDepth + 1 →
          Failure.inclusionTooDeep names = id (.inclusionTooDeep names))
      .unfit depth template view partials
    have hrelabel := hcounted.symm.trans (hsame.trans (Fallible.relabel_id _))
    have hfst := congrArg (fun run : Run Text => (run.run store).1) hrelabel
    simp only [Fallible.run_relabel, hrun] at hfst
    have hfailure : (if names.length = engine.settings.maxPartialDepth + 1 then
        Failure.inclusionTooDeep names else .unfit) = .inclusionTooDeep names :=
      Except.error.inj hfst
    by_contra hne
    rw [if_neg hne] at hfailure
    cases hfailure
  · intro nested depth site name store mid after hv h indent
    exact Render.run_inclusion_absent hv h nested indent
  · intro nested site name store after h indent children
    exact Render.run_parent_absent h nested site indent children

/-- An engine that lets only one tag be around a node. -/
def narrow : Engine :=
  ⟨{ Settings.standard with maxPartialDepth := 1 }, none, [],
    .fresh (.fresh 0) (.fresh .empty (.memory 1 []) (.empty true) .standard)⟩

/-- A template that includes another one, which includes nothing. -/
def nesting : Entries Text := [(['p'], "{{>q}}".toList), (['q'], ['x'])]

/-- A chain of one name fits, and the tag that makes it one of two is reported, by the rendering that
counts as well. At the limit a tag without a template is reported for that, and one with a template
for being one too many. -/
theorem narrow_around :
    let site : Site := ⟨[], .none true, [], [['p']]⟩
    let nested : Render.Nested := fun site _ => return ([], site.pragmas)
    let rendered (template : Text) :=
      ((narrow.renderStep 9 template (.dict []) nesting).run narrow.store).1
    rendered "{{>q}}".toList = .ok ['x'] ∧
    rendered "{{>p}}".toList = .error (.inclusionTooDeep [['p'], ['q']]) ∧
    [['p'], ['q']].length = narrow.settings.maxPartialDepth + 1 ∧
    (∀ lost full, ((narrow.renderAmid lost full 9 "{{>p}}".toList (.dict []) nesting).run
      narrow.store).1 = .error (full [['p'], ['q']])) ∧
    ((Render.inclusion (narrow.stage []) nested 9 site ['q'] []).run narrow.store).1 =
      .error (.partialNotFound ['q']) ∧
    ((Render.inclusion (narrow.stage [(['q'], [])]) nested 9 site ['q'] []).run narrow.store).1 =
      .error (.inclusionTooDeep [['p'], ['q']]) := by
  intro site nested rendered
  have hone : ((narrow.renderStep 9 "{{>q}}".toList (.dict []) nesting).run narrow.store).1 =
      .ok ['x'] := by cbv
  have htwo : ((narrow.renderStep 9 "{{>p}}".toList (.dict []) nesting).run narrow.store).1 =
      .error (.inclusionTooDeep [['p'], ['q']]) := by cbv
  obtain ⟨hcounts, hlength, -, -⟩ :=
    renderStep_around narrow 9 "{{>p}}".toList (.dict []) nesting
  have hcounted : ∀ lost full, ((narrow.renderAmid lost full 9 "{{>p}}".toList (.dict []) nesting).run
      narrow.store).1 = .error (full [['p'], ['q']]) := by
    intro lost full
    rw [hcounts lost full, Fallible.run_relabel, htwo]
    rfl
  have habsent := (renderStep_around narrow 9 ['p'] (.dict []) []).2.2.1
  have hmissing := habsent nested 9 site ['q'] narrow.store narrow.store _ rfl rfl []
  exact ⟨hone, htwo, hlength _ _ htwo, hcounted, congrArg Prod.fst hmissing, by cbv⟩

end Engine

end Whisker
