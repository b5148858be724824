import Mathlib
import Whisker.Proofs.Engine.History
import Whisker.Proofs.Render.Skipped

/-! Lines that leave no trace. A section that is skipped and stands on its own lines renders as if
it were not written, and so does a comment. -/

namespace Whisker

open Node (Whole Enclosable)
open Token (loneLine IsPadding)

/-- Whether a section of this kind is left out where its name is falsy, or where it is not. -/
def Enclosure.skippedIf? : Enclosure → Option Bool
  | .plain => some true
  | .inverted => some false
  | _ => none

/-- Lines between the two tags of a section, which stand on lines of their own. -/
def Token.sectionLines (kind : Enclosure) (name indent behind lines indent' behind' : Text) : Text :=
  loneLine indent (kind.sigil :: name) behind ++ (lines ++ loneLine indent' ('/' :: name) behind')

namespace Engine

theorem template_of_parse {files : FileTree} {resolver : Resolver} {partials : Entries Text}
    {t : Text} {nodes : List Node}
    (hname : Library.included? ⟨files, resolver, .standard⟩ partials t = .ok none)
    (ht : Node.parse .standard t = .ok nodes) :
    Library.template ⟨files, resolver, .standard⟩ partials t = .ok nodes := by
  rw [Library.template, hname]
  change (Node.parse .standard t).mapError _ = _
  rw [ht]
  rfl

theorem pure_root {l : Ledger} {view root : Value} (h : view.Pure l) (hr : rootOf view = .ok root) :
    root.Pure l := by
  rcases eq_of_rootOf hr with rfl | rfl
  · exact h
  · exact .dict (by simp)

section

variable {files : FileTree} {settings : Settings} {escape : Option Value} {engine : Engine}
  {own : Holdings} {I : Inventory} {view : Value} {partials : Entries Text}
  (hs : Holds engine files settings escape own) (hstandard : settings.delimiters = .standard)
  (hbound : I.bound ≤ engine.store.heap.nextIdentity)
  (hfresh : ∀ n, engine.store.heap.nextIdentity ≤ n → engine.store.Untouched n)
  (hescape : ∀ f, escape = some f → f.Pure I.engine)
  (hfilters : ∀ entry ∈ own.filters, entry.2.Pure I.engine) (hview : view.Pure I.view)

section

include hbound hfresh

/-- A rendering can start wherever the loader serves the library. -/
theorem ready_start {lib : Library} {loader : Loader} (hl : loader.Serves lib) :
    I.Ready lib { engine.store with met := [], loader } := by
  refine ⟨hbound, fun n hn v hv => ?_, fun n hn => ?_, hl⟩
  · rw [Store.itemsOf_of_met_eq_nil rfl] at hv
    split at hv
    · cases hv
    · exact I.items n hn v hv
  · exact ⟨rfl, (hfresh n hn).drained, (hfresh n hn).calls⟩

end

include hs hstandard hbound hfresh hescape hfilters hview

/-- Lines that make one node are not missed, if the node is skipped. -/
theorem renderStep_between {a lines b : Text} {front back : List Node} {n : Node}
    (ha : Whole .standard a front) (hn : Whole .standard lines [n]) (htext : n.isText = false)
    (hb : Node.parse .standard b = .ok back)
    (hname : Library.included? ⟨files, own.resolver, .standard⟩ partials (a ++ b) = .ok none)
    (hname' : Library.included? ⟨files, own.resolver, .standard⟩ partials (a ++ (lines ++ b)) =
      .ok none) (depth : Nat)
    (hskips : ∀ root, rootOf view = .ok root → ∀ s, I.Ready ⟨files, own.resolver, .standard⟩ s →
      I.Level { engine.store with met := [] } s →
      Render.Skips I ⟨files, own.resolver, .standard⟩ (engine.stage partials) depth root front n s) :
    ((engine.renderStep (depth + 1) (a ++ (lines ++ b)) view partials).run engine.store).1 =
      ((engine.renderStep (depth + 1) (a ++ b) view partials).run engine.store).1 := by
  cases hroot : rootOf view with
  | error e =>
      rw [renderStep, renderStep, hroot]
  | ok root =>
      have hserves := hstandard ▸ hs.serves
      obtain ⟨n', back', hparse, hn', hback'⟩ :=
        Node.parse_between Delimiters.solid_standard ha hn htext hb
      obtain ⟨back'', hparse'', hback''⟩ := ha.parse_append Delimiters.solid_standard hb
      obtain ⟨loader, hloader, hrun⟩ := run_renderStep engine hroot
        (template_of_parse hname' hparse) hserves (depth + 1)
      obtain ⟨loader', hloader', hrun'⟩ := run_renderStep engine hroot
        (template_of_parse hname hparse'') hserves (depth + 1)
      have hfront := Node.forall₂_moved front
      have hmoved := Render.document_moved (engine.stage partials) (depth + 1) root
        (List.rel_append hfront (.cons hn' hback'))
      have hmoved'' := Render.document_moved (engine.stage partials) (depth + 1) root
        (List.rel_append hfront hback'')
      rw [hrun, hrun', Render.document_splice, ← hmoved, ← hmoved'']
      have hready := ready_start hbound hfresh hloader
      refine Render.document_skips (hs.uses hescape hfilters partials) ?_ hready
        (ready_start hbound hfresh hloader') depth ⟨fun _ _ => rfl, fun _ _ _ => rfl, rfl⟩
        (hskips root hroot _ hready ⟨fun _ _ => rfl, fun _ _ _ => rfl, rfl⟩) back
      exact pure_root hview hroot

end

/-- A section that is skipped leaves no trace, if its tags stand on lines of their own and the view is
pure: with these lines, whatever is between the tags, a text renders to the same as without them. So
it does with a comment that stands on a line of its own. Pure also means that no iterator made before
the rendering is inside the view of a sub-view, where reading it would not go without effects. -/
theorem renderStep_skips {files : FileTree} {settings : Settings} {resolver : Option Resolver}
    {escape : Option Value} {filters : Entries Value} {environment : Option Text} {heap : Heap}
    {engine : Engine} {session : List Request} {own : Holdings} {I : Inventory} {view : Value}
    {partials : Entries Text} {a lines b indent behind indent' behind' : Text}
    {front inner back : List Node}
    (h : create files settings resolver escape filters environment heap = .ok engine)
    (hown : session.foldl Holdings.add engine.holdings = own)
    (hstandard : settings.delimiters = .standard)
    (hbound : I.bound ≤ (engine.after session).store.heap.nextIdentity)
    (hfresh : ∀ n, (engine.after session).store.heap.nextIdentity ≤ n →
      (engine.after session).store.Untouched n)
    (hescape : ∀ f, escape = some f → f.Pure I.engine)
    (hfilters : ∀ entry ∈ own.filters, entry.2.Pure I.engine) (hview : view.Pure I.view)
    (ha : Node.parse .standard a = .ok front) (hae : a.EndsLine)
    (had : ∀ next, ¬ Node.Within (.delimiterChange next) front)
    (hl : Node.parse .standard lines = .ok inner) (hle : lines.EndsLine)
    (hld : ∀ next, ¬ Node.Within (.delimiterChange next) inner)
    (hb : Node.parse .standard b = .ok back) (hi : IsPadding indent) (hbehind : IsPadding behind)
    (hi' : IsPadding indent') (hbehind' : IsPadding behind')
    (hname : Library.included? ⟨files, own.resolver, .standard⟩ partials (a ++ b) = .ok none)
    (depth : Nat) :
    let engine := engine.after session
    let lib : Library := ⟨files, own.resolver, .standard⟩
    let result (t : Text) :=
      ((engine.renderStep (depth + 1) t view partials).run engine.store).1
    (∀ kind falsy name, Enclosure.skippedIf? kind = some falsy → name ≠ [] → Enclosable name →
      let section_ := Token.sectionLines kind name indent behind lines indent' behind'
      lib.included? partials (a ++ (section_ ++ b)) = .ok none →
      (∀ root, rootOf view = .ok root →
        Render.Means (engine.stage partials) depth root front name falsy
          { engine.store with met := [] }) →
      result (a ++ (section_ ++ b)) = result (a ++ b)) ∧
    ∀ comment, ¬ ['}', '}'] <:+: comment → comment.getLast? ≠ some '}' →
      let line := loneLine indent ('!' :: comment) behind
      lib.included? partials (a ++ (line ++ b)) = .ok none →
      result (a ++ (line ++ b)) = result (a ++ b) := by
  have hs := after_holds h hown
  generalize engine.after session = engine at hs hbound hfresh ⊢
  intro engine lib result
  have hwhole := Node.whole_of_parse ha hae had
  have hinner := Node.whole_of_parse hl hle hld
  have huses := hs.uses hescape hfilters partials
  have hserves := hs.serves
  rw [hstandard] at hserves
  have hstart : I.Ready lib { engine.store with met := [] } := ready_start hbound hfresh hserves
  constructor
  · intro kind falsy name hkind hn he section_ hname' hmeans
    obtain ⟨children, body, d, place, padding, hsection⟩ :=
      hinner.exists_enclosure hi hbehind hi' hbehind' kind hn he
    refine renderStep_between hs hstandard hbound hfresh hescape hfilters hview hwhole hsection rfl
      hb hname hname' depth fun root hroot s hready hlevel => ?_
    have hroot' := pure_root hview hroot
    have hm := (hmeans root hroot).level huses hroot' hstart hready depth hlevel
    cases kind with
    | plain =>
        cases hkind
        exact hm.skips_section huses hroot' hready depth children body d place padding
    | inverted =>
        cases hkind
        exact hm.skips_invertedSection huses hroot' hready depth children body d place padding
    | block => cases hkind
    | parent => cases hkind
  · intro comment hc hlast line hname'
    obtain ⟨content, hcomment⟩ := Node.exists_whole_comment hi hbehind hc hlast
    refine renderStep_between hs hstandard hbound hfresh hescape hfilters hview hwhole hcomment rfl
      hb hname hname' depth fun root hroot s hready _ => ?_
    exact Render.skips_comment huses (pure_root hview hroot) hready depth front content

/-- A text, and an iterator that has nothing. -/
def idleView : Value := .dict [(['n'], .iterator (some 0) []), (['x'], .text ['v'])]

def idleInventory : Inventory := ⟨1, fun _ => [], fun _ => False, by simp, by simp⟩

theorem idleView_pure : idleView.Pure idleInventory.view := by
  have hiterator : (Value.iterator (some 0) []).Pure idleInventory.view := by
    refine .iterator (fun n hn => ?_) (fun n _ _ => ⟨trivial, rfl⟩) (by simp)
    cases hn
    exact .inl Nat.one_pos
  exact .dict (List.forall_mem_cons.mpr ⟨hiterator, List.forall_mem_singleton.mpr (.text ['v'])⟩)

def idleFront : Text := "A{{x}}\n".toList

/-- The partial is missing. -/
def idleLines : Text := "{{>p}}\n".toList

def idleBack : Text := "{{^n}}B{{/n}}".toList

def idleSection (kind : Enclosure) (name : Text) : Text :=
  Token.sectionLines kind name [' '] ['\t'] idleLines [] []

theorem idleView_skips :
    ∃ engine,
      create .empty .standard (some (.memory 1 [])) none [] none (.fresh 1) = .ok engine ∧
      let result (t : Text) := ((engine.renderStep 10 t idleView []).run engine.store).1
      result (idleFront ++ (idleSection .plain ['n'] ++ idleBack)) =
        result (idleFront ++ idleBack) ∧
      result (idleFront ++ (idleSection .inverted ['x'] ++ idleBack)) =
        result (idleFront ++ idleBack) ∧
      result (idleFront ++ (loneLine [' '] ['!', 'c'] ['\t'] ++ idleBack)) =
        result (idleFront ++ idleBack) ∧
      result (idleFront ++ idleBack) = .ok "Av\nB".toList := by
  have ha : Node.parse .standard idleFront =
      .ok [.text ['A'], .variable ['x'] true ⟨1, 1, 2⟩, .text ['\n']] := by cbv
  have hl : Node.parse .standard idleLines = .ok [.inclusion ['p'] (some [])] := by cbv
  have hb : Node.parse .standard idleBack =
      .ok [.enclosure .inverted ['n'] [.text ['B']] ['B'] .standard .start []] := by cbv
  have had : ∀ next, ¬ Node.Within (.delimiterChange next)
      [.text ['A'], .variable ['x'] true ⟨1, 1, 2⟩, .text ['\n']] := by
    intro next h
    iterate 3
      cases h with
      | tail h => ?_
    cases h
  have hld : ∀ next, ¬ Node.Within (.delimiterChange next) [.inclusion ['p'] (some [])] := by
    intro next h
    cases h with
    | tail h => cases h
  have hnone (t : Text) :
      Library.included? ⟨.empty, .memory 1 [], .standard⟩ [] t = .ok none := rfl
  obtain ⟨engine, h, hown, hstage, hstore⟩ : ∃ engine,
      create .empty .standard (some (.memory 1 [])) none [] none (.fresh 1) = .ok engine ∧
      [].foldl Holdings.add engine.holdings = ⟨.memory 1 [], []⟩ ∧
      engine.stage [] = ⟨.standard, [], none, []⟩ ∧
      engine.store = .fresh (.fresh 1) engine.store.loader := ⟨_, rfl, rfl, rfl, rfl⟩
  have hmeans (name : Text) (falsy : Bool) (hlook : ∀ store : Store, store.heap = .fresh 1 →
      store.met = [] → ∃ value, ((Render.look 9 (Scope.ofView idleView) name).run store).1 =
        .ok value ∧ value.isFalsy = falsy) (root : Value) (hroot : rootOf idleView = .ok root) :
      Render.Means (engine.stage []) 9 root
        [.text ['A'], .variable ['x'] true ⟨1, 1, 2⟩, .text ['\n']] name falsy
        { engine.store with met := [] } := by
    cases hroot
    rw [hstage, hstore]
    intro state after hrun
    cases hrun
    exact hlook _ rfl rfl
  have hfresh : ∀ n, 1 ≤ n → (Store.fresh (.fresh 1) engine.store.loader).Untouched n :=
    fun n _ => ⟨rfl, List.not_mem_nil, rfl⟩
  have hpadding : IsPadding [' '] ∧ IsPadding ['\t'] ∧ IsPadding [] := by simp [IsPadding]; decide
  have hends : idleFront.EndsLine ∧ idleLines.EndsLine :=
    ⟨.inr ⟨"A{{x}}".toList, rfl⟩, .inr ⟨"{{>p}}".toList, rfl⟩⟩
  obtain ⟨hsection, hcomment⟩ := renderStep_skips (I := idleInventory) h hown rfl
    (hstore ▸ Nat.le_refl 1) (hstore ▸ hfresh) (by simp) (by simp) idleView_pure ha hends.1 had hl
    hends.2 hld hb hpadding.1 hpadding.2.1 hpadding.2.2 hpadding.2.2 (hnone _) 9
  refine ⟨engine, h, ?_, ?_, ?_, ?_⟩
  · exact hsection .plain true ['n'] rfl (by simp) (.singleton rfl (by decide)) (hnone _)
      (hmeans _ _ fun store hh hm => by
        obtain ⟨heap, met, warnings, loader⟩ := store
        cases hh
        cases hm
        exact ⟨_, rfl, rfl⟩)
  · exact hsection .inverted false ['x'] rfl (by simp) (.singleton rfl (by decide)) (hnone _)
      (hmeans _ _ fun store hh hm => ⟨_, rfl, rfl⟩)
  · exact hcomment ['c'] (by decide) (by decide) (hnone _)
  · have ht : Library.template ⟨.empty, .memory 1 [], .standard⟩ [] (idleFront ++ idleBack) =
      .ok [.text ['A'], .variable ['x'] true ⟨1, 1, 2⟩, .text ['\n'],
        .enclosure .inverted ['n'] [.text ['B']] ['B'] .standard ⟨7, 2, 1⟩ []] := by cbv
    have hroot : rootOf idleView = .ok idleView := rfl
    obtain ⟨loader, -, hrun⟩ := run_renderStep_of_create h hroot ht 10
    exact hrun.trans rfl

end Engine

end Whisker
