import Whisker.Proofs.Engine.History
import Whisker.Proofs.Render.Filters

/-! The pragma for filters, seen from outside: it does nothing to templates that ask for no filters,
and elsewhere a variable is inserted as its filters give it. -/

namespace Whisker.Engine

open Whisker.Filter (Stand function?)
open Fallible (Related)
open Render (node shown)

/-- No variable of a template, if there is one, has a bar in its name. -/
def UnbarredTemplate (lib : Library) (partials : Entries Text) (nameOrText : Text) : Prop :=
  ∀ nodes, lib.template partials nameOrText = .ok nodes → Node.Unbarred nodes

theorem rootOf_callFree {sub : Text → Prop} {view root : Value} (h : view.CallFree sub)
    (hr : rootOf view = .ok root) : root.CallFree sub := by
  rcases eq_of_rootOf hr with rfl | rfl
  · exact h
  · exact Value.Within.callFree (.dict (by simp))

section

variable {lib : Library} {engine : Engine} {template : Text} {view : Value} {partials : Entries Text}
  (htemplate : UnbarredTemplate lib partials template)
  (hpartials : ∀ name nodes, lib.included? partials name = .ok (some nodes) → Node.Unbarred nodes)
  (hview : view.CallFree (UnbarredTemplate lib partials))
include htemplate hpartials hview

/-- Without bars in names the pragma for filters can as well be left out of the settings. -/
theorem renderStep_unfiltered (hserves : engine.store.loader.Serves lib)
    (hmet : engine.store.met = []) (depth : Nat) :
    (engine.renderStep depth template view partials).run engine.store =
      ({ engine with settings := engine.settings.unfiltered }.renderStep depth template view
        partials).run engine.store := by
  unfold renderStep
  cases hroot : rootOf view with
  | error e => rfl
  | ok root =>
      obtain ⟨V, U, hV⟩ := rootOf_callFree hview hroot
      have hcalm : engine.store.Calm lib V := ⟨hserves, by simp [hmet]⟩
      have htwins : Related (Store.Twins lib V) (· = ·)
          (do
            let document ← Run.load (Loading.template partials template)
            Run.afresh (Render.document (engine.stage partials) depth root document.nodes))
          (do
            let document ← Run.load (Loading.template partials template)
            Run.afresh (Render.document
              { engine.stage partials with settings := engine.settings.unfiltered } depth root
              document.nodes)) := by
        refine .bind (Run.load_twins (Loading.template_gives partials template)) ?_
        rintro document _ ⟨rfl, nodes, hnodes, rfl⟩
        apply Run.afresh_twins
        exact @Render.document_unfiltered lib _ V (engine.stage partials) U hpartials
          (fun _ ht => ht) depth root hV _ (Library.plain_of_template hnodes (htemplate _ hnodes))
      obtain ⟨hresult, hafter, -⟩ := htwins _ _ ⟨rfl, hcalm⟩
      exact Prod.ext hresult.eq hafter

end

theorem create_pragmas (files : FileTree) (settings : Settings) (pragmas : List Text)
    (resolver : Option Resolver) (escape : Option Value) (filters : Entries Value)
    (environment : Option Text) (heap : Heap) :
    create files { settings with pragmas } resolver escape filters environment heap =
      (create files settings resolver escape filters environment heap).map
        fun engine => { engine with settings := { settings with pragmas } } := by
  have hstandard : standardResolver files { settings with pragmas } =
      standardResolver files settings := rfl
  unfold create
  rw [hstandard]
  cases resolver with
  | some given => rfl
  | none => cases standardResolver files settings <;> rfl

/-- With the pragma for filters added to its settings an engine does the same, after any session,
to any template and view: the same text or failure, and the same state, as long as no variable in
the templates has a bar in its name and the view has nothing to call. And where the pragma is in
force, a variable behind bars is inserted as its filters give it, one after another, or fails at the
first one that is unknown, when those before it are done. -/
theorem filters_conservative {files : FileTree} {settings : Settings} {resolver : Option Resolver}
    {escape : Option Value} {filters : Entries Value} {environment : Option Text} {heap : Heap}
    {engine : Engine} {front back : List Text}
    (h : create files settings resolver escape filters environment heap = .ok engine)
    (hpragmas : settings.pragmas = front ++ back) :
    let filtering : Settings := { settings with pragmas := front ++ Pragmas.filters :: back }
    create files filtering resolver escape filters environment heap =
        .ok { engine with settings := filtering } ∧
      (∀ session depth template view partials,
        let current := engine.after session
        let held := session.foldl Holdings.add engine.holdings
        let lib : Library := ⟨files, held.resolver, settings.delimiters⟩
        UnbarredTemplate lib partials template →
        (∀ name nodes, lib.included? partials name = .ok (some nodes) → Node.Unbarred nodes) →
        view.CallFree (UnbarredTemplate lib partials) →
          ({ current with settings := filtering }.renderStep depth template view partials).run
              current.store =
            (current.renderStep depth template view partials).run current.store) ∧
      ∀ (stage : Stage) depth (site : Site) (head : Text) (parts : List Text) isEscaped place
          (store after : Store) v,
        site.pragmas.isEnabled Pragmas.filters = true →
        '|' ∉ head → (∀ part ∈ parts, '|' ∉ part) →
        (site.scope.resolve depth (Text.strip head)).run store = (.ok v, after) →
        v.isCallable = false →
        let tag : Node := .variable (head ++ parts.flatMap ('|' :: ·)) isEscaped place
        let names := (parts.map Text.strip).filter (!·.isEmpty)
        let outcome := (node stage (depth + 1) site tag).run store
        (v.isMissing = true → outcome = (.ok (.text [], site.pragmas), after)) ∧
        (v.isMissing = false → ∀ functions, Stand depth stage.filters names functions →
          outcome = (do
            let w ← functions.foldlM (fun w f => f w) v
            let piece ← shown stage depth isEscaped w
            return (piece, site.pragmas) : Run (Piece × Pragmas)).run after) ∧
        (v.isMissing = false → ∀ before unknown rest functions,
          names = before ++ unknown :: rest → Stand depth stage.filters before functions →
          function? depth stage.filters unknown = none →
          outcome = (do
            let _ ← functions.foldlM (fun w f => f w) v
            throw (.unknownFilter unknown) : Run (Piece × Pragmas)).run after) := by
  intro filtering
  refine ⟨?_, ?_, ?_⟩
  · rw [create_pragmas, h]
    rfl
  · intro session depth template view partials current held lib htemplate hpartials hview
    have hs : Holds current files settings escape held := after_holds h rfl
    have hsettings : current.settings = settings := hs.settings_eq
    have hsame : filtering.unfiltered = settings.unfiltered := by
      simp [Settings.unfiltered, filtering, hpragmas]
    have hplain := renderStep_unfiltered htemplate hpartials hview hs.serves hs.met_eq depth
    have hfiltering := @renderStep_unfiltered lib { current with settings := filtering } template
      view partials htemplate hpartials hview hs.serves hs.met_eq depth
    rw [hsettings] at hplain
    rw [hplain]
    refine hfiltering.trans ?_
    dsimp only
    rw [hsame]
  · intro stage depth site head parts isEscaped place store after v hfilters hhead hparts hresolve
      hcall tag names outcome
    have hrun : outcome = (do
        let piece ← Render.inserted stage depth isEscaped names v
        return (piece, site.pragmas) : Run (Piece × Pragmas)).run after :=
      Render.run_filtered stage hfilters hhead hparts hresolve hcall isEscaped place
    refine ⟨fun hmissing => ?_, fun hfound functions hstand => ?_,
      fun hfound before unknown rest functions hnames hstand hunknown => ?_⟩
    · rw [hrun, Render.inserted_missing stage isEscaped names hmissing]
      rfl
    · rw [hrun, Render.inserted_of_not_missing stage isEscaped names hfound,
        Filter.applyAll_known hstand, bind_assoc]
    · rw [hrun, Render.inserted_of_not_missing stage isEscaped names hfound, hnames,
        Filter.applyAll_unknown hstand hunknown, bind_assoc, bind_assoc]
      rfl

/-- A template with a partial, and no bar but in the view. -/
def barless : Text := "{{ x }}{{>p}}".toList

def barlessPartials : Entries Text := [(['p'], "{{{y}}}".toList)]

def barView : Value := .dict [(['x'], .text "a<".toList), (['y'], .text "|b".toList)]

theorem barless_conserved :
    ∃ engine,
      create .empty .standard (some (.memory 1 [])) none [] none (.fresh 0) = .ok engine ∧
      let filtering : Settings := { Settings.standard with pragmas := [Pragmas.filters] }
      let site : Site := ⟨Scope.ofView barView, ⟨true, [(Pragmas.filters, [])]⟩, [], []⟩
      let rendered (name : String) :=
        ((node ⟨.standard, [], none, []⟩ 9 site (.variable name.toList true .start)).run
          engine.store).1
      create .empty filtering (some (.memory 1 [])) none [] none (.fresh 0) =
        .ok { engine with settings := filtering } ∧
      ({ engine with settings := filtering }.renderStep 9 barless barView barlessPartials).run
          engine.store =
        (engine.renderStep 9 barless barView barlessPartials).run engine.store ∧
      rendered "x | upper |" = .ok (.text "A&lt;".toList, site.pragmas) ∧
      rendered "x | upper || nope | lower" = .error (.unknownFilter "nope".toList) := by
  obtain ⟨engine, h, hheld⟩ : ∃ engine,
      create .empty .standard (some (.memory 1 [])) none [] none (.fresh 0) = .ok engine ∧
      [].foldl Holdings.add engine.holdings = ⟨.memory 1 [], []⟩ := ⟨_, rfl, rfl⟩
  obtain ⟨hcreate, hconserved, hfilters⟩ := @filters_conservative _ _ _ _ _ _ _ _ [] [] h rfl
  let lib : Library := ⟨.empty, .memory 1 [], .standard⟩
  have hroot : lib.template barlessPartials barless =
      .ok [.variable ['x'] true .start, .inclusion ['p'] none] := by cbv
  have hpartial : lib.ofText "{{{y}}}".toList = .ok [.variable ['y'] false .start] := by cbv
  have htemplate : UnbarredTemplate lib barlessPartials barless := by
    intro nodes hn
    cases hroot.symm.trans hn
    intro n hm
    simp only [List.mem_cons, List.not_mem_nil, or_false] at hm
    rcases hm with rfl | rfl
    · exact .variable (by decide)
    · exact .inclusion
  have hpartials : ∀ name nodes, lib.included? barlessPartials name = .ok (some nodes) →
      Node.Unbarred nodes := by
    refine fun name nodes => Library.forall_included? (P := fun _ => Node.Unbarred) ?_
      fun _ _ _ hs => by cases hs
    refine List.forall_mem_singleton.mpr fun nodes hn => ?_
    cases hpartial.symm.trans hn
    exact List.forall_mem_singleton.mpr (.variable (by decide))
  have hview : barView.CallFree (UnbarredTemplate lib barlessPartials) := by
    apply Value.Within.callFree
    apply Value.Within.dict
    intro entry hm
    simp only [List.mem_cons, List.not_mem_nil, or_false] at hm
    rcases hm with rfl | rfl
    · exact .text _
    · exact .text _
  let site : Site := ⟨Scope.ofView barView, ⟨true, [(Pragmas.filters, [])]⟩, [], []⟩
  have hx : (site.scope.resolve 8 ['x']).run engine.store = (.ok (.text "a<".toList), engine.store) :=
    rfl
  let upper (v : Value) : Run Value := ExceptT.mk (pure (.ok (.text (Text.upper v.toText))))
  refine ⟨engine, h, hcreate, ?_, ?_, ?_⟩
  · have hsame := hconserved [] 9 barless barView barlessPartials
    rw [hheld] at hsame
    exact hsame htemplate hpartials hview
  · have hrun := (hfilters ⟨.standard, [], none, []⟩ 8 site ['x', ' '] [" upper ".toList, []] true .start
      engine.store engine.store _ (by rfl) (by decide) (by decide) hx rfl).2.1 rfl [upper]
      (.cons rfl .nil)
    exact congrArg Prod.fst hrun
  · have hrun := (hfilters ⟨.standard, [], none, []⟩ 8 site ['x', ' ']
      [" upper ".toList, [], " nope ".toList, " lower".toList] true .start engine.store engine.store
      _ (by rfl) (by decide) (by decide) hx rfl).2.2 rfl ["upper".toList] "nope".toList
      ["lower".toList] [upper] rfl (.cons rfl .nil) rfl
    exact congrArg Prod.fst hrun

end Whisker.Engine
