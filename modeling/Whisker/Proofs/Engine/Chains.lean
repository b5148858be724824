import Whisker.Proofs.Engine.History
import Whisker.Proofs.Render.Chains

/-! Alarms about the length of chains. Where the view is passive, an engine raises one only for a
chain that the templates have. Overrides can make chains longer than any path of tags. -/

namespace Whisker.Engine

open Render (ChainsFit IsPath Reaches TagsStay TooLong)
open Run (Tame)

theorem renderStep_tame (lib : Library) (engine : Engine) (depth : Nat) (template : Text)
    {view : Value} (hv : view.Passive) (partials : Entries Text) :
    Tame lib (fun names => ∃ nodes, lib.template partials template = .ok nodes ∧
        TooLong engine.settings.maxPartialDepth lib partials nodes names)
      (fun _ => True) (engine.renderStep depth template view partials) := by
  unfold renderStep
  split
  · rename_i e he
    exact .fail ((rootOf_flat view).reports he)
  · rename_i root hroot
    have hpassive : root.Passive := by
      rcases eq_of_rootOf hroot with rfl | rfl
      · exact hv
      · exact .dict (by simp)
    apply Tame.bind (.load (Loading.template_gives partials template)
      (lib.template_flat partials template))
    rintro document ⟨nodes, hn, rfl⟩
    have hd := Render.document_tame lib (engine.stage partials) document.nodes depth hpassive
    exact .afresh (hd.allow fun names hlong => ⟨_, hn, hlong⟩)

/-- After any session an alarm in the rendering of a passive view names a chain from the template,
one that is longer than the limit. Where all chains fit, there is none, and where no override has a
tag in it, paths of tags are all that has to fit. -/
theorem renderStep_inclusionTooDeep {files : FileTree} {settings : Settings}
    {resolver : Option Resolver} {escape : Option Value} {filters : Entries Value}
    {environment : Option Text} {heap : Heap} {engine : Engine} {session : List Request}
    {held : Holdings} {view : Value}
    (h : create files settings resolver escape filters environment heap = .ok engine)
    (hheld : session.foldl Holdings.add engine.holdings = held) (hview : view.Passive)
    (depth : Nat) (template : Text) (partials : Entries Text) :
    let lib : Library := ⟨files, held.resolver, settings.delimiters⟩
    let current := engine.after session
    let outcome := ((current.renderStep depth template view partials).run current.store).1
    (∀ names, outcome = .error (.inclusionTooDeep names) →
      ∃ nodes, lib.template partials template = .ok nodes ∧
        TooLong settings.maxPartialDepth lib partials nodes names) ∧
    ((∀ nodes, lib.template partials template = .ok nodes →
        ChainsFit settings.maxPartialDepth lib partials nodes) →
      ∀ names, outcome ≠ .error (.inclusionTooDeep names)) ∧
    ((∀ nodes, lib.template partials template = .ok nodes → TagsStay lib partials nodes ∧
        ∀ path inner, IsPath lib partials nodes path inner →
          path.length ≤ settings.maxPartialDepth) →
      ∀ names, outcome ≠ .error (.inclusionTooDeep names)) := by
  intro lib current outcome
  have hs : Holds current files settings escape held := after_holds h hheld
  have halarm : ∀ names, outcome = .error (.inclusionTooDeep names) →
      ∃ nodes, lib.template partials template = .ok nodes ∧
        TooLong settings.maxPartialDepth lib partials nodes names := by
    intro names he
    obtain ⟨-, hr⟩ := renderStep_tame lib current depth template hview partials current.store
      ⟨hs.serves, by simp [hs.met_eq]⟩
    have hrun : ((current.renderStep depth template view partials).run current.store).1 =
      .error (.inclusionTooDeep names) := he
    rw [hrun, hs.settings_eq] at hr
    exact hr names rfl
  have hnone (hfit : ∀ nodes, lib.template partials template = .ok nodes →
      ChainsFit settings.maxPartialDepth lib partials nodes) :
      ∀ names, outcome ≠ .error (.inclusionTooDeep names) := by
    intro names he
    obtain ⟨nodes, hn, hchain, hlong⟩ := halarm names he
    have hshort := hfit nodes hn _ hchain
    rw [List.length_reverse] at hshort
    omega
  refine ⟨halarm, hnone, fun hpaths => hnone fun nodes hn => ?_⟩
  obtain ⟨hstay, hlimit⟩ := hpaths nodes hn
  exact hstay.chainsFit hlimit

/-! ## Tags that move -/

/-- A parent, and a partial in an override. -/
def moving : Text := "{{<p}}{{$a}}{{>q}}{{/a}}{{/p}}".toList

def movingPartials : Entries Text := [(['p'], "{{$a}}{{/a}}".toList), (['q'], ['x'])]

def movingLibrary : Library := ⟨.empty, .memory 1 [], .standard⟩

def movingParent : Node :=
  .enclosure .parent ['p']
    [.enclosure .block ['a'] [.inclusion ['q'] none] "{{>q}}".toList .standard ⟨6, 1, 7⟩ []]
    "{{$a}}{{>q}}{{/a}}".toList .standard .start []

def emptyBlock : Node := .enclosure .block ['a'] [] [] .standard .start []

theorem template_moving :
    movingLibrary.template movingPartials moving = .ok [movingParent] := by cbv

theorem included?_moving {name : Text} {nodes : List Node}
    (h : movingLibrary.included? movingPartials name = .ok (some nodes)) :
    name = ['p'] ∧ nodes = [emptyBlock] ∨ name = ['q'] ∧ nodes = [.text ['x']] := by
  have hp : movingLibrary.ofText "{{$a}}{{/a}}".toList = .ok [emptyBlock] := by cbv
  have hq : movingLibrary.ofText ['x'] = .ok [.text ['x']] := by cbv
  refine Library.forall_included? (P := fun name nodes => name = ['p'] ∧ nodes = [emptyBlock] ∨
    name = ['q'] ∧ nodes = [.text ['x']]) ?_ (fun _ _ _ hs => by cases hs) h
  refine List.forall_mem_cons.mpr ⟨fun nodes hn => ?_, List.forall_mem_singleton.mpr ?_⟩
  · cases hp.symm.trans hn
    exact .inl ⟨rfl, rfl⟩
  · intro nodes hn
    cases hq.symm.trans hn
    exact .inr ⟨rfl, rfl⟩

theorem not_names_moving {name : Text} {nodes : List Node}
    (h : movingLibrary.included? movingPartials name = .ok (some nodes)) :
    ∀ n ∈ nodes, ∀ other, ¬ n.Names other := by
  intro n hn other hother
  rcases included?_moving h with ⟨-, rfl⟩ | ⟨-, rfl⟩
  · cases List.mem_singleton.mp hn
    cases hother with
    | inside hm => cases hm
  · cases List.mem_singleton.mp hn
    cases hother

/-- No template has a tag for another one that has tags, so that no path has two names. -/
theorem length_path_moving {root nodes : List Node} {path : List Text}
    (h : IsPath movingLibrary movingPartials root path nodes) : path.length ≤ 1 := by
  cases h with
  | nil => simp
  | cons hp hn h _ =>
      cases hp with
      | nil => simp
      | cons _ _ _ ho => exact absurd h (not_names_moving ho _ hn _)

/-- A partial that is in no override. -/
def staying : Text := "{{>q}}".toList

theorem template_staying :
    movingLibrary.template movingPartials staying = .ok [.inclusion ['q'] (some [])] := by cbv

theorem tagsStay_staying : TagsStay movingLibrary movingPartials [.inclusion ['q'] (some [])] := by
  intro path nodes hp n hn m hm name hname
  cases hp with
  | nil =>
      cases List.mem_singleton.mp hn
      cases hm
  | cons _ _ _ ho =>
      obtain ⟨other, hother⟩ := hm.exists_names
      exact not_names_moving ho n hn other hother

/-- The override is rendered inside the parent, and what it includes inside both. -/
theorem reaches_moving {blocks : Entries (List Node)} {chain : List Text} {n : Node}
    (h : Reaches movingLibrary movingPartials [movingParent] blocks chain n) :
    (blocks = [] ∧ chain = [] ∧ n = movingParent) ∨
      (blocks = [(['a'], [.inclusion ['q'] none])] ∧ chain = [['p']] ∧
        (n = emptyBlock ∨ n = .inclusion ['q'] none)) ∨
      (chain = [['q'], ['p']] ∧ n = .text ['x']) := by
  induction h with
  | root h => simp [List.mem_singleton.mp h]
  | inside _ h ih =>
      rcases ih with ⟨rfl, rfl, rfl⟩ | ⟨rfl, rfl, rfl | rfl⟩ | ⟨rfl, rfl⟩
      · cases h
      · cases h with
        | block h => simp [List.mem_singleton.mp h]
      · cases h
      · cases h
  | enters _ h ho hm ih =>
      rcases ih with ⟨rfl, rfl, rfl⟩ | ⟨rfl, rfl, rfl | rfl⟩ | ⟨rfl, rfl⟩
      · cases h
        rcases included?_moving ho with ⟨-, rfl⟩ | ⟨h, -⟩
        · simp [List.mem_singleton.mp hm, Render.overrides, Render.blocksOf, Entries.ofPairs,
            Entries.put]
        · cases h
      · cases h
      · cases h
        rcases included?_moving ho with ⟨h, -⟩ | ⟨-, rfl⟩
        · cases h
        · simp [List.mem_singleton.mp hm]
      · cases h

def limited (limit : Nat) : Settings := { Settings.standard with maxPartialDepth := limit }

/-- Two names are enough for the chains, and of one that is too long there is an alarm. A tag that
stays needs one name only. -/
theorem moving_alarms :
    ∃ spacious narrow,
      create .empty (limited 2) (some (.memory 1 [])) none [] none (.fresh 0) = .ok spacious ∧
      create .empty (limited 1) (some (.memory 1 [])) none [] none (.fresh 0) = .ok narrow ∧
      let rendered (engine : Engine) (template : Text) :=
        ((engine.renderStep 9 template (.dict []) movingPartials).run engine.store).1
      (∀ nodes, movingLibrary.template movingPartials moving = .ok nodes →
        ChainsFit 2 movingLibrary movingPartials nodes) ∧
      (∀ names, rendered spacious moving ≠ .error (.inclusionTooDeep names)) ∧
      rendered spacious moving = .ok ['x'] ∧
      rendered narrow moving = .error (.inclusionTooDeep [['p'], ['q']]) ∧
      (∃ nodes, movingLibrary.template movingPartials moving = .ok nodes ∧
        TooLong 1 movingLibrary movingPartials nodes [['p'], ['q']]) ∧
      (∀ names, rendered narrow staying ≠ .error (.inclusionTooDeep names)) ∧
      rendered narrow staying = .ok ['x'] := by
  have hfit : ∀ nodes, movingLibrary.template movingPartials moving = .ok nodes →
      ChainsFit 2 movingLibrary movingPartials nodes := by
    intro nodes hn chain hchain
    cases template_moving.symm.trans hn
    cases hchain with
    | nil => simp
    | enters hn h _ =>
        rcases reaches_moving hn with ⟨-, rfl, -⟩ | ⟨-, rfl, -⟩ | ⟨-, rfl⟩
        · simp
        · simp
        · cases h
  have hstays : ∀ nodes, movingLibrary.template movingPartials staying = .ok nodes →
      TagsStay movingLibrary movingPartials nodes ∧
        ∀ path inner, IsPath movingLibrary movingPartials nodes path inner → path.length ≤ 1 := by
    intro nodes hn
    cases template_staying.symm.trans hn
    exact ⟨tagsStay_staying, fun path inner => length_path_moving⟩
  obtain ⟨spacious, h, hheld, htext⟩ : ∃ engine,
      create .empty (limited 2) (some (.memory 1 [])) none [] none (.fresh 0) = .ok engine ∧
      [].foldl Holdings.add engine.holdings = ⟨.memory 1 [], []⟩ ∧
      ((engine.renderStep 9 moving (.dict []) movingPartials).run engine.store).1 = .ok ['x'] :=
    ⟨_, rfl, rfl, by cbv⟩
  obtain ⟨narrow, h', hheld', halarm, hstaying⟩ : ∃ engine,
      create .empty (limited 1) (some (.memory 1 [])) none [] none (.fresh 0) = .ok engine ∧
      [].foldl Holdings.add engine.holdings = ⟨.memory 1 [], []⟩ ∧
      ((engine.renderStep 9 moving (.dict []) movingPartials).run engine.store).1 =
        .error (.inclusionTooDeep [['p'], ['q']]) ∧
      ((engine.renderStep 9 staying (.dict []) movingPartials).run engine.store).1 = .ok ['x'] :=
    ⟨_, rfl, rfl, by cbv, by cbv⟩
  have hview : Value.Passive (.dict []) := .dict (by simp)
  have hspacious := renderStep_inclusionTooDeep h hheld hview 9 moving movingPartials
  have hnarrow := renderStep_inclusionTooDeep h' hheld' hview 9 moving movingPartials
  have hstay := renderStep_inclusionTooDeep h' hheld' hview 9 staying movingPartials
  exact ⟨spacious, narrow, h, h', hfit, hspacious.2.1 hfit, htext, halarm, hnarrow.1 _ halarm,
    hstay.2.2 hstays, hstaying⟩

/-- All paths fit the limit, but the chain that an override makes does not. -/
theorem moving_too_deep :
    ∃ engine,
      create .empty (limited 1) (some (.memory 1 [])) none [] none (.fresh 0) = .ok engine ∧
      (∀ template ∈ [moving, ['p'], ['q']], ∃ root,
        movingLibrary.template movingPartials template = .ok root ∧
        ∀ path nodes, IsPath movingLibrary movingPartials root path nodes → path.length ≤ 1) ∧
      (engine.render moving (.dict []) movingPartials).1 =
        .error (.inclusionTooDeep [['p'], ['q']]) := by
  have hp : movingLibrary.template movingPartials ['p'] = .ok [emptyBlock] := by cbv
  have hq : movingLibrary.template movingPartials ['q'] = .ok [.text ['x']] := by cbv
  obtain ⟨engine, h, halarm⟩ : ∃ engine,
      create .empty (limited 1) (some (.memory 1 [])) none [] none (.fresh 0) = .ok engine ∧
      (engine.render moving (.dict []) movingPartials).1 =
        .error (.inclusionTooDeep [['p'], ['q']]) := ⟨_, rfl, by cbv⟩
  refine ⟨engine, h, ?_, halarm⟩
  simp only [List.forall_mem_cons]
  exact ⟨⟨_, template_moving, fun _ _ => length_path_moving⟩,
    ⟨_, hp, fun _ _ => length_path_moving⟩, ⟨_, hq, fun _ _ => length_path_moving⟩, by simp⟩

end Whisker.Engine
