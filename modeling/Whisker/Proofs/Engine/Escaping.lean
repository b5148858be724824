import Whisker.Proofs.Engine.History
import Whisker.Proofs.Render.Escaping
import Whisker.Proofs.Render.Opaque

/-! Escaping, seen from outside. What the view brings in passes through the escaping function last,
and nothing on its way there looks into it. -/

namespace Whisker.Engine

open Run (Guards)

/-! ## Texts of the view -/

/-- Escapes with a function of texts. -/
def escapingWith (f : Text → Text) (engine : Engine) : Engine :=
  { engine with escape := some (.ofText f) }

variable {f : Text → Text} {alarm : Failure}

/-- The root frame depends on no text; a view that is none is refused by its kind. -/
theorem rootOf_retexted {view : Value} (hview : view.isPlain = true) :
    Agree (Value.Retexted f) (rootOf view) (rootOf (view.mapTexts f)) := by
  cases view with
  | missing => exact .ok ⟨rfl, rfl⟩
  | null => exact .ok ⟨rfl, rfl⟩
  | dict entries => exact .ok ⟨hview, rfl⟩
  | bool | text | list => exact .error _
  | _ => cases hview

theorem checkedStep_retexted (engine : Engine) (hf : ∀ t, f t = [] ↔ t = []) {view : Value}
    (hview : view.isPlain = true) (depth : Nat) (template : Text) (partials : Entries Text) :
    Guards alarm (· = ·)
      ((engine.escapingWith f).checkedStep Render.textVariables alarm depth template view partials)
      ((engine.escapingWith id).renderStep depth template (view.mapTexts f) partials) := by
  have hroots := rootOf_retexted (f := f) hview
  unfold checkedStep renderStep
  generalize rootOf view = root at hroots
  generalize rootOf (view.mapTexts f) = root' at hroots
  cases hroots with
  | error e => exact .throw e
  | ok hroot =>
      exact .after _ fun document =>
        (Render.documentBy_retexted (engine.stage partials) hf depth hroot document.nodes).afresh

/-- Escaping the texts of the view when they are inserted is the same as putting their escaped
texts into the view, where each variable that is rendered stands for a text or for nothing. -/
theorem renderStep_retexted (engine : Engine) (hf : ∀ t, f t = [] ↔ t = []) {view : Value}
    (hview : view.isPlain = true) {depth : Nat} {template : Text} {partials : Entries Text}
    {store : Store}
    (h : (((engine.escapingWith f).checkedStep Render.textVariables alarm depth template view
      partials).run store).1 ≠ .error alarm) :
    ((engine.escapingWith f).renderStep depth template view partials).run store =
      ((engine.escapingWith id).renderStep depth template (view.mapTexts f) partials).run store :=
  .trans ((checkedStep_guards _ _ alarm depth template view partials).run_eq h).symm
    ((checkedStep_retexted engine hf hview depth template partials).run_eq h)

/-- A text that looks like a tag where it is inserted, and an empty one. -/
def tagView : Value :=
  .dict [(['x'], .text "\x7d\x7dx\x7b\x7b".toList), (['n'], .text []),
    (['l'], .list [.text ['b', 'a']])]

def tagTemplate : Text := "{{#l}}{{>p}}{{/l}}{{^n}}{{x}}{{/n}}".toList

def tagPartials : Entries Text := [(['p'], "{{.}};".toList)]

/-- To write texts backwards is no escaping that a template could do without. -/
theorem tagView_retexted :
    ∃ engine,
      create .empty .standard (some (.memory 1 [])) none [] none (.fresh 0) = .ok engine ∧
      ((engine.escapingWith List.reverse).renderStep 9 tagTemplate tagView tagPartials).run
          engine.store =
        ((engine.escapingWith id).renderStep 9 tagTemplate (tagView.mapTexts List.reverse)
          tagPartials).run engine.store ∧
      (((engine.escapingWith List.reverse).renderStep 9 tagTemplate tagView tagPartials).run
        engine.store).1 = .ok "ab;{{x}}".toList := by
  obtain ⟨engine, h, hchecked⟩ : ∃ engine,
      create .empty .standard (some (.memory 1 [])) none [] none (.fresh 0) = .ok engine ∧
      (((engine.escapingWith List.reverse).checkedStep Render.textVariables .unfit 9 tagTemplate
        tagView tagPartials).run engine.store).1 = .ok "ab;{{x}}".toList := ⟨_, rfl, by cbv⟩
  have hpasses : (((engine.escapingWith List.reverse).checkedStep Render.textVariables .unfit 9
      tagTemplate tagView tagPartials).run engine.store).1 ≠ .error .unfit := by
    rw [hchecked]
    simp
  refine ⟨engine, h, renderStep_retexted engine (fun _ => List.reverse_eq_nil_iff) rfl hpasses, ?_⟩
  rw [← (checkedStep_guards _ _ .unfit 9 _ _ _).run_eq hpasses, hchecked]

/-! ## Markup -/

theorem checkedStep_inert {lib : Library} {engine : Engine} (h : engine.escape = none)
    (alarm : Failure) (depth : Nat) (template : Text) (view : Value) (partials : Entries Text) :
    Run.Yields (Run.Serving lib) (fun t => Text.isInert t = true)
      (engine.checkedStep Render.inertTemplates alarm depth template view partials) := by
  have hescape : (engine.stage partials).escape = none := h
  unfold checkedStep
  split
  · exact .throw _
  · refine .bind (Render.template_padded partials template) fun document hd => .afresh ?_
    exact Render.documentBy_inert hescape alarm depth _ hd

/-- An engine that escapes for HTML never renders markup that its templates do not have, whatever
is in the view and whatever filters and the functions of variables give. -/
theorem renderStep_inert {files : FileTree} {settings : Settings} {resolver : Option Resolver}
    {filters : Entries Value} {environment : Option Text} {heap : Heap} {engine : Engine}
    {session : List Request} {depth : Nat} {template : Text} {view : Value}
    {partials : Entries Text} {t : Text}
    (h : create files settings resolver none filters environment heap = .ok engine)
    (hchecked : (((engine.after session).checkedStep Render.inertTemplates alarm depth template
      view partials).run (engine.after session).store).1 ≠ .error alarm)
    (ht : (((engine.after session).renderStep depth template view partials).run
      (engine.after session).store).1 = .ok t) :
    ∀ c ∈ t, c ∉ Text.markup := by
  have hs := after_holds h (Eq.refl (session.foldl Holdings.add engine.holdings))
  generalize engine.after session = engine at hs hchecked ht
  rw [← (checkedStep_guards engine _ alarm depth template view partials).run_eq hchecked] at ht
  obtain ⟨-, hinert⟩ := checkedStep_inert hs.escape_eq alarm depth template view partials
    engine.store hs.serves
  exact (Text.isInert_iff t).mp (hinert t ht)

/-- A filter that gives markup. -/
def bolden : Value :=
  let body : Expr := .concat [.literal (.text "<b>".toList), .argument 0]
  .function (.mk none (.exactly 1) body) none false

/-- A list that is printed with quotes in it. -/
def quoteView : Value := .dict [(['x'], .list [.text ['\'']])]

theorem quoteView_inert :
    ∃ engine,
      create .empty { Settings.standard with pragmas := [Pragmas.filters] } (some (.memory 1 []))
        none [(['b'], bolden)] none (.fresh 0) = .ok engine ∧
      ((engine.renderStep 9 "{{x|b}}".toList quoteView []).run engine.store).1 =
        .ok "&lt;b&gt;[&quot;&#39;&quot;]".toList ∧
      ∀ c ∈ "&lt;b&gt;[&quot;&#39;&quot;]".toList, c ∉ Text.markup := by
  let settings : Settings := { Settings.standard with pragmas := [Pragmas.filters] }
  let stage : Stage := ⟨settings, [], none, [(['b'], bolden)]⟩
  obtain ⟨engine, h, hstage, hstore⟩ : ∃ engine,
      create .empty settings (some (.memory 1 [])) none [(['b'], bolden)] none (.fresh 0) =
        .ok engine ∧
      engine.stage [] = stage ∧ engine.store = .fresh (.fresh 0) engine.store.loader :=
    ⟨_, rfl, rfl, rfl⟩
  obtain ⟨_, hgiven, hs, -⟩ := create_holds h
  obtain rfl := hgiven _ rfl
  let lib : Library := ⟨.empty, .memory 1 [], .standard⟩
  have ht : lib.template [] "{{x|b}}".toList = .ok [.variable "x|b".toList true .start] := by cbv
  have hchecked : ((engine.checkedStep Render.inertTemplates .unfit 9 "{{x|b}}".toList quoteView
      []).run engine.store).1 = .ok "&lt;b&gt;[&quot;&#39;&quot;]".toList := by
    obtain ⟨loader, -, hrun⟩ := run_template ht hs.serves (Render.documentBy
      (Render.checked (engine.stage []) Render.inertTemplates .unfit 9) engine.settings quoteView)
    refine hrun.trans ?_
    rw [hstage, hstore, hs.settings_eq]
    rfl
  have hpasses : ((engine.checkedStep Render.inertTemplates .unfit 9 "{{x|b}}".toList quoteView
      []).run engine.store).1 ≠ .error .unfit := by
    rw [hchecked]
    simp
  rw [(checkedStep_guards engine _ .unfit 9 _ _ _).run_eq hpasses] at hchecked
  exact ⟨engine, h, hchecked, @renderStep_inert _ _ _ _ _ _ _ _ [] _ _ _ _ _ h hpasses hchecked⟩

end Whisker.Engine
