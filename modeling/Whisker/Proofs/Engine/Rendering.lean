import Whisker.Proofs.Engine.History
import Whisker.Proofs.Render.Ending
import Whisker.Proofs.Render.Iterators

/-! Renderings of an engine. Those of plain data end where the overrides of blocks can be ranked,
and sub-views apart any of them gets the items of a one-shot iterator wherever it comes to it. -/

namespace Whisker.Engine

open Node (RankedDocument)

/-- The document of a template, if there is one, is ranked. -/
def RanksTemplate (rank : Text → Nat) (lib : Library) (partials : Entries Text)
    (nameOrText : Text) : Prop :=
  ∀ nodes, lib.template partials nameOrText = .ok nodes → RankedDocument rank nodes

/-- Rendering ends, if overrides lead only to blocks of lower rank. The templates may include each
other in circles, and the view may hold iterators and views with templates of their own. -/
theorem renderStep_ends {files : FileTree} {settings : Settings} {resolver : Option Resolver}
    {escape : Option Value} {filters : Entries Value} {environment : Option Text} {heap : Heap}
    {engine : Engine} {session : List Request} {held : Holdings} {rank : Text → Nat}
    {template : Text} {view : Value} {partials : Entries Text}
    (h : create files settings resolver escape filters environment heap = .ok engine)
    (hheld : session.foldl Holdings.add engine.holdings = held)
    (hescape : ∀ f, escape = some f → f.CallEnds)
    (hfilters : ∀ entry ∈ held.filters, entry.2.CallEnds)
    (hpartials : ∀ name nodes,
      Library.included? ⟨files, held.resolver, settings.delimiters⟩ partials name =
        .ok (some nodes) → RankedDocument rank nodes)
    (htemplate : RanksTemplate rank ⟨files, held.resolver, settings.delimiters⟩ partials template)
    (hview : view.Within
      (.data (RanksTemplate rank ⟨files, held.resolver, settings.delimiters⟩ partials))) :
    ∃ outcome, Run.EndsAs
      (fun depth => (engine.after session).renderStep depth template view partials)
      (engine.after session).store outcome := by
  have hs := after_holds h hheld
  generalize engine.after session = engine at hs
  let lib : Library := ⟨files, held.resolver, settings.delimiters⟩
  have hincluded : ∀ nodes, Render.Included lib (RanksTemplate rank lib partials) partials nodes →
      RankedDocument rank nodes := by
    rintro nodes (⟨name, hn⟩ | ⟨t, ht, hn⟩)
    · exact hpartials name nodes hn
    · exact ht nodes hn
  have hends : Run.Ends lib (RanksTemplate rank lib partials) (fun _ => True)
      fun depth => engine.renderStep depth template view partials :=
    renderStep_holds (Run.ending lib (RanksTemplate rank lib partials)) htemplate hview
      fun root nodes hroot hn => Render.document_ends (hs.uses hescape hfilters partials) hincluded
        hroot (htemplate _ hn)
  obtain ⟨outcome, ho, -⟩ := hends engine.store ⟨hs.serves, by simp [hs.met_eq]⟩
  exact ⟨outcome, ho⟩

/-- Partials that include themselves, and one that includes the other. -/
def circle : Entries Text := [(['p'], "{{$a}}{{/a}}{{>q}}".toList), (['q'], "{{>q}}".toList)]

/-- The override of a block with another block inside, and the name of a sub-view. -/
def circling : Text := "{{%SUB-VIEWS}}{{<p}}{{$a}}{{$b}}{{>s}}{{/b}}{{/a}}{{/p}}".toList

def circleView : Value := .dict [(['s'], .subView ['q'] (onceView 0))]

def shout : Value := .function (.mk (some 1) (.exactly 1) (.upper (.argument 0))) none false

theorem circling_ends :
    ∃ engine,
      create .empty .standard (some (.memory 1 [])) none [(['f'], shout)] none (.fresh 2) =
        .ok engine ∧
      ∃ outcome, Run.EndsAs (fun depth => engine.renderStep depth circling circleView circle)
        engine.store outcome := by
  let lib : Library := ⟨.empty, .memory 1 [], .standard⟩
  let rank (name : Text) : Nat := if name = ['a'] then 1 else 0
  let p : List Node :=
    [.enclosure .block ['a'] [] [] .standard .start [], .inclusion ['q'] none]
  let q : List Node := [.inclusion ['q'] (some [])]
  let inner : Node :=
    .enclosure .block ['b'] [.inclusion ['s'] none] "{{>s}}".toList .standard ⟨26, 1, 27⟩ []
  let block : Node :=
    .enclosure .block ['a'] [inner] "{{$b}}{{>s}}{{/b}}".toList .standard ⟨20, 1, 21⟩ []
  let parent : Node :=
    .enclosure .parent ['p'] [block] "{{$a}}{{$b}}{{>s}}{{/b}}{{/a}}".toList .standard
      ⟨14, 1, 15⟩ []
  have hp : lib.ofText "{{$a}}{{/a}}{{>q}}".toList = .ok p := by cbv
  have hq : lib.ofText "{{>q}}".toList = .ok q := by cbv
  have ht : lib.template circle circling = .ok [.pragma ⟨Pragmas.subViews, []⟩ .start, parent] := by
    cbv
  have rp : RankedDocument rank p := by
    refine ⟨2, List.forall_mem_cons.mpr ⟨.block (by decide) (by simp), ?_⟩⟩
    exact List.forall_mem_singleton.mpr .inclusion
  have rq : RankedDocument rank q := ⟨0, List.forall_mem_singleton.mpr .inclusion⟩
  have hpartials : ∀ name nodes, lib.included? circle name = .ok (some nodes) →
      RankedDocument rank nodes := by
    refine fun name nodes => Library.forall_included? (P := fun _ => RankedDocument rank) ?_
      fun _ _ _ hs => by cases hs
    refine List.forall_mem_cons.mpr ⟨fun nodes hn => ?_, List.forall_mem_singleton.mpr ?_⟩
    · cases hp.symm.trans hn
      exact rp
    · intro nodes hn
      cases hq.symm.trans hn
      exact rq
  have htemplate : RanksTemplate rank lib circle circling := by
    intro nodes hn
    cases ht.symm.trans hn
    refine ⟨0, List.forall_mem_cons.mpr ⟨.pragma, List.forall_mem_singleton.mpr (.parent ?_)⟩⟩
    refine List.forall_mem_singleton.mpr (List.forall_mem_singleton.mpr ?_)
    exact .block (by decide) (List.forall_mem_singleton.mpr .inclusion)
  have hview : circleView.Within (.data (RanksTemplate rank lib circle)) := by
    refine .dict (List.forall_mem_singleton.mpr (.subView ?_ ?_))
    · intro nodes hn
      rw [show lib.template circle ['q'] = .ok q by cbv] at hn
      cases hn
      exact rq
    · refine .dict (List.forall_mem_singleton.mpr (.iterator trivial ?_))
      exact List.forall_mem_singleton.mpr (.text _)
  have hshout : shout.CallEnds := fun v store => ⟨_, .ok _, 0, fun _ _ => rfl⟩
  obtain ⟨engine, h, hheld⟩ : ∃ engine,
      create .empty .standard (some (.memory 1 [])) none [(['f'], shout)] none (.fresh 2) =
        .ok engine ∧
      [].foldl Holdings.add engine.holdings = ⟨.memory 1 [], [(['f'], shout)]⟩ := ⟨_, rfl, rfl⟩
  exact ⟨engine, h, renderStep_ends h hheld (by simp) (List.forall_mem_singleton.mpr hshout)
    hpartials htemplate hview⟩

/-! ## Blocks that lead back to themselves -/

/-- The override of a block has a block of the same name inside. -/
def reentrant : Text := "{{<p}}{{$a}}{{$a}}{{/a}}{{/a}}{{/p}}".toList

def blockTemplate : Entries Text := [(['p'], "{{$a}}{{/a}}".toList)]

/-- The templates have no text, but there is no depth at which the rendering ends. -/
theorem reentrant_never_ends :
    ∃ engine,
      create .empty .standard (some (.memory 1 [])) none [] none (.fresh 0) = .ok engine ∧
      ∀ depth, ((engine.renderStep depth reentrant (.dict []) blockTemplate).run engine.store).1 =
        .error .tooDeep := by
  obtain ⟨engine, h⟩ : ∃ engine,
    create .empty .standard (some (.memory 1 [])) none [] none (.fresh 0) = .ok engine := ⟨_, rfl⟩
  refine ⟨engine, h, fun depth => ?_⟩
  let lib : Library := ⟨.empty, .memory 1 [], .standard⟩
  let block (place : Place) (children : List Node) (body : Text) : Node :=
    .enclosure .block ['a'] children body .standard place []
  let inner := block ⟨12, 1, 13⟩ [] []
  let children : List Node := [block ⟨6, 1, 7⟩ [inner] "{{$a}}{{/a}}".toList]
  let parent : Node :=
    .enclosure .parent ['p'] children "{{$a}}{{$a}}{{/a}}{{/a}}".toList .standard .start []
  let site : Site := ⟨Scope.ofView (.dict []), .none true, [], []⟩
  let stage : Stage := ⟨.standard, blockTemplate, none, []⟩
  have hp : lib.included? blockTemplate ['p'] = .ok (some [block .start [] []]) := by cbv
  have ht : lib.template blockTemplate reentrant = .ok [parent] := by cbv
  have hsite (store : Store) : ∃ pragmas, (Render.includedSite .standard site ['p']).run store =
      (.ok { site with pragmas, chain := [['p']] }, store) := ⟨_, rfl⟩
  have hnode (store : Store) (hs : store.loader.Serves lib) :
      ((Render.node stage depth site parent).run store).1 = .error .tooDeep := by
    have ho : (Render.overrides [] children).get? ['a'] = some [inner] := rfl
    exact Render.run_parent_reentered hp ⟨_, _, _, _, _, rfl⟩ ho ⟨_, _, _, _, _, rfl⟩ hsite depth
      _ _ _ _ hs
  have hroot : rootOf (.dict []) = .ok (.dict []) := rfl
  obtain ⟨loader, hloader, hrun⟩ := run_renderStep_of_create h hroot ht depth
  rw [hrun]
  change ((Render.inOrder (Render.node stage depth) site [parent] >>= _).run _).1 = _
  rw [Fallible.run_bind, Render.run_inOrder_cons_error (Prod.ext (hnode _ hloader) rfl)]

/-! ## One-shot iterators -/

/-- After any session an engine renders a view without sub-views as if it had come to any of the
iterators first. To the end each has the items that it had when the rendering started. -/
theorem renderStep_meetAll {files : FileTree} {settings : Settings} {resolver : Option Resolver}
    {escape : Option Value} {filters : Entries Value} {environment : Option Text} {heap : Heap}
    {engine : Engine} {session : List Request} {own : Holdings} {held : Nat → List Value}
    {bound : Nat} {view root : Value} {template : Text} {partials : Entries Text}
    {nodes : List Node}
    (h : create files settings resolver escape filters environment heap = .ok engine)
    (hown : session.foldl Holdings.add engine.holdings = own)
    (hbuilt : ∀ n, ∀ v ∈ held n, v.IsBuilt)
    (hbound : bound ≤ (engine.after session).store.heap.nextIdentity)
    (hescape : ∀ f, escape = some f → f.Within (.holding held bound))
    (hfilters : ∀ entry ∈ own.filters, entry.2.Within (.holding held bound))
    (hview : view.Within (.holding held bound)) (hroot : rootOf view = .ok root)
    (ht : Library.template ⟨files, own.resolver, settings.delimiters⟩ partials template = .ok nodes)
    (depth : Nat) :
    ∃ loader, ∀ ids : List Nat, (∀ n ∈ ids, n < bound) →
      let store : Store := { (engine.after session).store with met := [], loader }
      let rendering := Render.document ((engine.after session).stage partials) depth root nodes
      (((engine.after session).renderStep depth template view partials).run
          (engine.after session).store).1 =
          ((Run.meetAll held ids >>= fun _ => rendering).run store).1 ∧
        ∀ n, n < bound → (rendering.run store).2.itemsOf n (held n) =
          if store.heap.drained.contains n then [] else held n := by
  have hs := after_holds h hown
  generalize engine.after session = engine at hs hbound ⊢
  obtain ⟨loader, hloader, hrun⟩ := run_renderStep engine hroot ht hs.serves depth
  refine ⟨loader, fun ids hids => ?_⟩
  obtain ⟨hv, -, hitems⟩ := Render.document_meetAll hbuilt (hs.uses hescape hfilters partials)
    (rootOf_within hview hroot) { engine.store with met := [], loader } hbound rfl hloader depth
    nodes hids
  exact ⟨hrun.trans hv.symm, hitems⟩

/-- An object with an iterator, and a property that gives the same iterator. -/
def sharedView : Value :=
  .object (.mk [(['n'], .iterator (some 0) [.text ['x'], .text ['y']])] []
    [(['m'], .mk (some 1) (.exactly 0) (.member ['n']))] none none none [])

def sharedTemplate : Text := "{{n.1}}{{#m}}{{.}}{{/m}}{{^n}}-{{/n}}".toList

theorem sharedView_meetAll :
    ∃ engine,
      create .empty .standard (some (.memory 1 [])) (some shout) [] none (.fresh 2) = .ok engine ∧
      ∃ nodes loader, Node.parse .standard sharedTemplate = .ok nodes ∧
        ((engine.renderStep 9 sharedTemplate sharedView []).run engine.store).1 =
          ((Run.meetAll (fun _ => [.text ['x'], .text ['y']]) [0] >>= fun _ =>
            Render.document (engine.stage []) 9 sharedView nodes).run
              { engine.store with met := [], loader }).1 ∧
        ((engine.renderStep 9 sharedTemplate sharedView []).run engine.store).1 =
          .ok ['Y', 'X', 'Y'] := by
  let lib : Library := ⟨.empty, .memory 1 [], .standard⟩
  let held (_ : Nat) : List Value := [.text ['x'], .text ['y']]
  let nodes : List Node :=
    [.variable ['n', '.', '1'] true .start,
      .enclosure .plain ['m'] [.variable ['.'] true ⟨13, 1, 14⟩] "{{.}}".toList .standard
        ⟨7, 1, 8⟩ [],
      .enclosure .inverted ['n'] [.text ['-']] ['-'] .standard ⟨24, 1, 25⟩ []]
  have hparse : Node.parse .standard sharedTemplate = .ok nodes := by cbv
  have ht : lib.template [] sharedTemplate = .ok nodes := by
    change (Node.parse .standard sharedTemplate).mapError Failure.template = _
    rw [hparse]
    rfl
  have hitems : ∀ v ∈ held 0, v.Within (.holding held 2) := by
    simp only [held, List.forall_mem_cons]
    exact ⟨.text _, .text _, by simp⟩
  have hbuilt : ∀ n, ∀ v ∈ held n, v.IsBuilt := by
    simp only [held, List.forall_mem_cons]
    exact fun _ => ⟨fun _ => rfl, fun _ => rfl, by simp⟩
  have hview : sharedView.Within (.holding held 2) := by
    refine .object (.mk none [] (List.forall_mem_singleton.mpr ?_) (by simp)
      (List.forall_mem_singleton.mpr (.mk _ trivial (.member _))) (by simp) (by simp))
    exact .iterator (fun _ _ _ => rfl) hitems
  have hshout : ∀ f, some shout = some f → f.Within (.holding held 2) := by
    rintro f ⟨⟩
    exact .function false (.mk _ trivial (.upper (.argument 0))) (by simp)
  obtain ⟨engine, h, hown, hnext, hstage, hstore⟩ : ∃ engine,
      create .empty .standard (some (.memory 1 [])) (some shout) [] none (.fresh 2) = .ok engine ∧
      [].foldl Holdings.add engine.holdings = ⟨.memory 1 [], []⟩ ∧
      2 ≤ (engine.after []).store.heap.nextIdentity ∧
      engine.stage [] = ⟨.standard, [], some shout, []⟩ ∧
      engine.store = .fresh (.fresh 2) engine.store.loader :=
    ⟨_, rfl, rfl, Nat.le_refl 2, rfl, rfl⟩
  obtain ⟨loader, hmeet⟩ :=
    renderStep_meetAll h hown hbuilt hnext hshout (by simp) hview rfl ht 9
  have hids : ∀ n ∈ [0], n < 2 := by simp
  refine ⟨engine, h, nodes, loader, hparse, (hmeet [0] hids).1, (hmeet [0] hids).1.trans ?_⟩
  change ((Run.meetAll held [0] >>= fun _ =>
    Render.document (engine.stage []) 9 sharedView nodes).run
      { engine.store with met := [], loader }).1 = _
  rw [hstage, hstore]
  rfl

/-- The iterator alone, as a sub-view has it. -/
def lettersView : Value := .dict [(['n'], .iterator (some 0) [.text ['x']])]

def lettersTemplate : Text := "{{#n}}{{.}}{{/n}}".toList

/-- The iterator beside a sub-view that has it too. -/
def besideView : Value :=
  .dict [(['n'], .iterator (some 0) [.text ['x']]), (['s'], .subView lettersTemplate lettersView)]

def besideTemplate : Text := "{{%SUB-VIEWS}}{{#n}}{{.}}{{/n}}{{>s}}".toList

/-- What a rendering has read of an iterator is gone for a sub-view in it, which shows the items
where it is rendered for itself. -/
theorem besideView_shows_once :
    ∃ engine,
      create .empty .standard (some (.memory 1 [])) none [] none (.fresh 1) = .ok engine ∧
      (engine.render lettersTemplate lettersView []).1 = .ok ['x'] ∧
      (engine.render besideTemplate besideView []).1 = .ok ['x'] := by
  let lib : Library := ⟨.empty, .memory 1 [], .standard⟩
  let stage : Stage := ⟨.standard, [], none, []⟩
  let site : Site := ⟨Scope.ofView besideView, .none true, [], []⟩
  let letters (place : Place) : Node :=
    .enclosure .plain ['n'] [.variable ['.'] true (place.after "{{#n}}".toList)] "{{.}}".toList
      .standard place []
  let front : List Node := [.pragma ⟨Pragmas.subViews, []⟩ .start, letters ⟨14, 1, 15⟩]
  have hletters : lib.template [] lettersTemplate = .ok [letters .start] := by cbv
  have hbeside : lib.template [] besideTemplate = .ok (front ++ [.inclusion ['s'] none]) := by cbv
  obtain ⟨engine, h⟩ : ∃ engine,
    create .empty .standard (some (.memory 1 [])) none [] none (.fresh 1) = .ok engine := ⟨_, rfl⟩
  refine ⟨engine, h, ?_, ?_⟩
  · have hroot : rootOf lettersView = .ok lettersView := rfl
    obtain ⟨loader, -, hrun⟩ := run_renderStep_of_create h hroot hletters depth
    exact hrun.trans rfl
  · have hroot : rootOf besideView = .ok besideView := rfl
    obtain ⟨loader, hloader, hrun⟩ := run_renderStep_of_create h hroot hbeside depth
    refine hrun.trans ?_
    -- the section reads the iterator, and the sub-view comes to it with no memory of that
    let before : Store := ⟨.fresh 1, [], [], loader⟩
    let after : Store := ⟨⟨1, [], [0]⟩, [(0, [.text ['x']])], [], loader⟩
    let pragmas : Pragmas := ⟨true, [(Pragmas.subViews, [])]⟩
    have hafter : after.loader.Serves lib := hloader
    obtain ⟨document, loader', hl, hn, -⟩ :=
      Run.run_load_of_gives (Loading.template_gives [] lettersTemplate) hletters hafter
    have hsub : (Render.node stage depth { site with pragmas } (.inclusion ['s'] none)).run after =
        (.ok (.text [], pragmas), { after with loader := loader' }) := by
      change (Render.inclusion stage (Render.inOrder (Render.node stage 9999)) 9999 _ _ _ >>= _).run
        after = _
      have hview : (Render.subView? 9999 { site with pragmas } ['s']).run after =
        (.ok (some (lettersTemplate, lettersView)), after) := rfl
      rw [Fallible.run_bind, Render.inclusion, Fallible.run_bind, hview]
      dsimp only
      rw [Fallible.run_bind, hl]
      dsimp only
      rw [hn]
      rfl
    have hnodes : (Render.inOrder (Render.node stage depth) site
        (front ++ [.inclusion ['s'] none])).run before =
          (.ok (['x'], pragmas), { after with loader := loader' }) := by
      rw [Render.inOrder, List.foldlM_append, Fallible.run_bind, Fallible.run_bind]
      rw [show (List.foldlM _ _ front : Run (List Piece × Pragmas)).run before =
        (.ok ([.text ['x'], .text []], pragmas), after) from rfl]
      dsimp only
      rw [List.foldlM_cons, Fallible.run_bind, Fallible.run_bind, hsub]
      rfl
    have hpragmas : (Render.initialPragmas stage.settings).run before =
      (.ok (.none true), before) := rfl
    change ((Render.document stage depth besideView _).run before).1 = _
    rw [Render.document, Fallible.run_bind, hpragmas]
    dsimp only
    rw [Fallible.run_bind, hnodes]
    rfl

end Whisker.Engine
