import Whisker.Engine.Session
import Whisker.Proofs.Engine.History
import Whisker.Proofs.Library.Once
import Whisker.Proofs.Run.Kept

/-! Each template is resolved and built once between two clearings of the cache, whatever is rendered
and compiled meanwhile, and whatever of it fails. -/

namespace Whisker.Engine

/-! ## Requests -/

/-- Requests that change neither the templates of the resolver nor what is cached of them. -/
def Request.LeavesTemplates : Request → Prop
  | .addTemplate .. | .clearCache => False
  | _ => True

/-- The texts that a request gives as templates. -/
def Request.texts : Request → List Text
  | .render template _ partials => template :: partials.map (·.2)
  | .compile template => [template]
  | _ => []

/-- The values that come with a request are allowed. -/
def Request.Within (c : Contents) : Request → Prop
  | .render _ view _ => view.Within c
  | .addFilter _ f => f.Within c
  | _ => True

/-- A request between two clearings of the cache, with texts of templates that are `given`. -/
structure Request.Keeps (given : Text → Prop) (c : Contents) (request : Request) : Prop where
  leaves : request.LeavesTemplates
  within : request.Within c
  texts : ∀ t ∈ request.texts, given t

/-- The queries of a session, the latest first. -/
def queriesOf (engine : Engine) : List Request → List Query
  | [] => []
  | request :: requests =>
    (engine.serve request).2.queriesOf requests ++ (engine.serve request).2.store.loader.queries

/-- Views with any functions and iterators, and sub-views of these templates. -/
def anySubView (template : Text → Prop) : Contents := ⟨fun _ _ => True, fun _ => True, template⟩

theorem lasts_anySubView (template : Text → Prop) (next : Nat) :
    (anySubView template).Lasts next :=
  ⟨fun _ _ => trivial, fun _ _ _ => trivial, fun _ _ => trivial⟩

/-! ## Sessions -/

/-- An engine between two clearings of its cache. The queries so far are in `log`, and the cache was
`old` at some time. -/
structure Once (lib : Library) (given template : Text → Prop) (log : List Query) (old : Cache)
    (engine : Engine) : Prop where
  loader : engine.quiet.store.loader.Once lib given log old
  serves : engine.store.loader.Serves lib
  uses : ∀ partials, (engine.stage partials).Uses (Value.Within (anySubView template))

namespace Once

variable {lib : Library} {given template : Text → Prop} {log : List Query} {old : Cache}
  {engine : Engine}

theorem restart (h : engine.Once lib given template log old) :
    engine.Once lib given template log engine.store.loader.cache :=
  ⟨{ h.loader with stays := fun _ _ hf => hf }, h.serves, h.uses⟩

/-- The queries of a request go into the log. -/
theorem logged {loader : Loader} (h : loader.Once lib given log old) :
    Loader.Once lib given (loader.queries ++ log) old { loader with queries := [] } :=
  ⟨h.files, h.resolver, h.delimiters, h.enabled, h.admits, h.stays, h.asked⟩

theorem quiet_serves (h : engine.Once lib given template log old) :
    engine.quiet.store.loader.Serves lib :=
  ⟨h.serves.files, h.serves.resolver, h.serves.delimiters, h.serves.entries⟩

/-- The engine behind a step that changed nothing but the store. -/
theorem of_store (h : engine.Once lib given template log old) (store : Store)
    (hl : store.loader.Once lib given log old) (hs : store.loader.Serves lib) :
    Once lib given template (store.loader.queries ++ log) old { engine with store } :=
  ⟨logged hl, hs, h.uses⟩

variable {partials : Entries Text} (hp : ∀ entry ∈ partials, given entry.2)
include hp

theorem load {t : Text} (h : engine.Once lib given template log old) (ht : given t) :
    let after := ((Loading.template partials t).run engine.quiet.store.loader).2
    after.Once lib given log old ∧ after.Serves lib :=
  ⟨(Loading.template_once h.loader hp ht).1, (Loading.template_gives partials t _ h.quiet_serves).2⟩

theorem renderStep (hsub : ∀ t, template t → given t)
    (h : engine.Once lib given template log old) {view : Value}
    (hv : view.Within (anySubView template)) {t : Text} (ht : given t) (depth : Nat) :
    let after := ((engine.renderStep depth t view partials).run engine.quiet.store).2
    after.loader.Once lib given log old ∧ after.loader.Serves lib := by
  obtain ⟨hl, hs⟩ := h.load hp ht
  dsimp only
  rw [Engine.renderStep]
  split
  · exact ⟨h.loader, h.quiet_serves⟩
  · rename_i root hroot
    rw [Fallible.run_bind, Run.run_load]
    rcases hr : (Loading.template partials t).run engine.quiet.store.loader with ⟨e | document, after⟩
    · rw [hr] at hl hs
      exact ⟨hl, hs⟩
    · rw [hr] at hl hs
      have hk : Loading.AllKeep (Loader.Once lib given log old) template partials :=
        Loading.allKeep_once hp hsub
      have hstart : Store.Keeping lib (anySubView template) (Loader.Once lib given log old)
          { engine.quiet.store with loader := after, met := [] } := ⟨hs, hl, by simp⟩
      have hend := Render.document_keeps (lasts_anySubView template) hk (h.uses partials) depth
        (rootOf_within hv hroot) document.nodes hstart
      exact ⟨hend.kept, hend.serves⟩

omit hp in
theorem serve (hsub : ∀ t, template t → given t) (h : engine.Once lib given template log old)
    {request : Request} (hr : request.Keeps given (anySubView template)) :
    (engine.serve request).2.Once lib given template
      ((engine.serve request).2.store.loader.queries ++ log) old := by
  obtain ⟨hleaves, hw, ht⟩ := hr
  cases request with
  | render t view partials =>
      obtain ⟨ht, hp⟩ := List.forall_mem_cons.mp ht
      obtain ⟨hl, hs⟩ := h.renderStep (List.forall_mem_map.mp hp) hsub hw ht depth
      exact h.of_store _ hl hs
  | compile t =>
      have hnone : ∀ entry ∈ ([] : Entries Text), given entry.2 := by simp
      obtain ⟨hl, hs⟩ := h.load hnone (ht t List.mem_cons_self)
      exact h.of_store { engine.quiet.store with
        loader := ((Loading.template [] t).run engine.quiet.store.loader).2 } hl hs
  | tokenize t => exact ⟨h.loader, h.quiet_serves, h.uses⟩
  | addFilter name f =>
      rw [Engine.serve, perform_addFilter]
      dsimp only
      split
      · refine ⟨h.loader, h.quiet_serves, fun partials => ⟨(h.uses partials).escape, ?_⟩⟩
        intro entry he
        rcases Entries.mem_put he with rfl | he
        · exact hw
        · exact (h.uses partials).filters entry he
      · exact ⟨h.loader, h.quiet_serves, h.uses⟩
  | addTemplate name text => exact hleaves.elim
  | clearCache => exact hleaves.elim

omit hp in
theorem after (hsub : ∀ t, template t → given t) (h : engine.Once lib given template log old)
    {requests : List Request} (hr : ∀ request ∈ requests, request.Keeps given (anySubView template)) :
    (engine.after requests).Once lib given template (engine.queriesOf requests ++ log) old := by
  induction requests generalizing engine log with
  | nil => exact h
  | cons request requests ih =>
      obtain ⟨hr, hrs⟩ := List.forall_mem_cons.mp hr
      have hnext := ih (h.serve hsub hr) hrs
      rw [← List.append_assoc] at hnext
      exact hnext

omit hp in
/-- Compiling gives the document that is in the cache behind it. -/
theorem compile (h : engine.Once lib given template log old) {t : Text} (ht : given t)
    {document : Document} (hd : (engine.quiet.compile t).1 = .ok document) :
    (engine.serve (.compile t)).2.store.loader.cache.find? (lib.keyOf [] t) = some document :=
  (Loading.template_once h.loader (by simp) ht).2 document hd

end Once

/-- An engine with an empty cache starts anew. -/
theorem once_of_empty {engine : Engine} (h : engine.store.loader.cache = .empty true)
    (given : Text → Prop) {template : Text → Prop}
    (hu : ∀ partials, (engine.stage partials).Uses (Value.Within (anySubView template))) :
    engine.Once ⟨engine.store.loader.files, engine.store.loader.resolver,
      engine.store.loader.delimiters⟩ given template [] (.empty true) := by
  have hcache : engine.quiet.store.loader.cache = .empty true := h
  have hnone : ∀ key, (Cache.empty true).find? key = none := fun _ => rfl
  refine ⟨⟨rfl, rfl, rfl, ?_, ?_, ?_, ?_⟩, ⟨rfl, rfl, rfl, ?_⟩, hu⟩
  · rw [hcache]
    rfl
  · simp [hcache, Cache.empty]
  · simp [hnone]
  · intro name nodes _
    rw [hcache, hnone]
    rfl
  · simp [h, hnone]

/-! ## Once for each template -/

/-- What an engine does with templates in a session. -/
structure LoadsOnce (lib : Library) (given : Text → Prop) (engine : Engine)
    (requests : List Request) : Prop where
  /-- The resolver is asked at most once for a name that it has a text for, if the text compiles. -/
  asked : ∀ name nodes, lib.ofName? name = .ok (some nodes) →
    (engine.queriesOf requests).filter (·.name = name) = [] ∨
      (engine.queriesOf requests).filter (·.name = name) = lib.ask name
  /-- What was built for a key stays. -/
  stays : ∀ front back key document, requests = front ++ back →
    (engine.after front).store.loader.cache.find? key = some document →
      (engine.after requests).store.loader.cache.find? key = some document
  /-- A template that compiles twice gives the same document. -/
  compiled : ∀ front middle back t document document',
    requests = front ++ .compile t :: (middle ++ .compile t :: back) →
      ((engine.after front).quiet.compile t).1 = .ok document →
      ((engine.after (front ++ .compile t :: middle)).quiet.compile t).1 = .ok document' →
        document' = document
  /-- Names that the resolver supplied, and texts that were given. -/
  keys : ∀ entry ∈ (engine.after requests).store.loader.cache.entries, lib.Admits given entry.1

theorem after_append (engine : Engine) (front back : List Request) :
    engine.after (front ++ back) = (engine.after front).after back :=
  List.foldl_append

section

variable {lib : Library} {given template : Text → Prop} {engine : Engine}
  (hsub : ∀ t, template t → given t)
include hsub

theorem Once.find?_after {log : List Query} {old : Cache}
    (h : engine.Once lib given template log old) {requests : List Request}
    (hr : ∀ request ∈ requests, request.Keeps given (anySubView template)) {key : Cache.Key}
    {document : Document} (hf : engine.store.loader.cache.find? key = some document) :
    (engine.after requests).store.loader.cache.find? key = some document :=
  (h.restart.after hsub hr).loader.stays key document hf

theorem Once.compile_eq {log : List Query} {old : Cache}
    (h : engine.Once lib given template log old) {t : Text} {middle : List Request}
    (hr : ∀ request ∈ .compile t :: middle, request.Keeps given (anySubView template))
    {document document' : Document} (hd : (engine.quiet.compile t).1 = .ok document)
    (hd' : ((engine.after (.compile t :: middle)).quiet.compile t).1 = .ok document') :
    document' = document := by
  obtain ⟨hcompile, hmiddle⟩ := List.forall_mem_cons.mp hr
  have ht : given t := hcompile.texts t List.mem_cons_self
  have hfound := (h.serve hsub hcompile).find?_after hsub hmiddle (h.compile ht hd)
  have hlater := h.after hsub hr
  have hagain : ∀ request ∈ [Request.compile t], request.Keeps given (anySubView template) :=
    List.forall_mem_singleton.mpr hcompile
  have hstill := hlater.find?_after hsub hagain hfound
  have hfound' := hlater.compile ht hd'
  exact Option.some.inj (hfound'.symm.trans hstill)

end

/-- From an empty cache that is on, with templates and cache left alone, the resolver is asked at
most once for a name whose text compiles, no document is built again under its key, and the keys are
names that the resolver supplied and texts given as templates, partials of a call or templates of
sub-views. -/
theorem loadsOnce {engine : Engine} (hempty : engine.store.loader.cache = .empty true)
    {template : Text → Prop}
    (hengine : ∀ partials, (engine.stage partials).Uses (Value.Within (anySubView template)))
    {requests : List Request} (hleaves : ∀ request ∈ requests, request.LeavesTemplates)
    (hwithin : ∀ request ∈ requests, request.Within (anySubView template)) :
    LoadsOnce ⟨engine.store.loader.files, engine.store.loader.resolver,
      engine.store.loader.delimiters⟩ (fun t => template t ∨ ∃ request ∈ requests, t ∈ request.texts)
      engine requests := by
  let given (t : Text) : Prop := template t ∨ ∃ request ∈ requests, t ∈ request.texts
  have hsub : ∀ t, template t → given t := fun t ht => .inl ht
  have hkeeps : ∀ request ∈ requests, request.Keeps given (anySubView template) :=
    fun request hm => ⟨hleaves request hm, hwithin request hm, fun t ht => .inr ⟨request, hm, ht⟩⟩
  have hstart := once_of_empty hempty given hengine
  have hend := hstart.after hsub hkeeps
  refine ⟨?_, ?_, ?_, hend.loader.admits⟩
  · intro name nodes hn
    have hquiet : (engine.after requests).quiet.store.loader.queries = [] := rfl
    have hasked := hend.loader.asked name nodes hn
    rw [hquiet, List.nil_append, List.append_nil] at hasked
    cases hf : (engine.after requests).quiet.store.loader.cache.find?
      ((⟨engine.store.loader.files, engine.store.loader.resolver,
        engine.store.loader.delimiters⟩ : Library).nameKey name) with
    | none => exact .inl (by simpa only [hf, Option.elim_none] using hasked)
    | some _ => exact .inr (by simpa only [hf, Option.elim_some] using hasked)
  · rintro front back key document rfl hf
    obtain ⟨hfront, hback⟩ := List.forall_mem_append.mp hkeeps
    rw [after_append]
    exact (hstart.after hsub hfront).find?_after hsub hback hf
  · rintro front middle back t document document' rfl hd hd'
    obtain ⟨hfront, hback⟩ := List.forall_mem_append.mp hkeeps
    rw [after_append] at hd'
    have hmiddle : ∀ request ∈ .compile t :: middle, request.Keeps given (anySubView template) := by
      intro request hm
      exact hback request (by simp only [List.mem_cons, List.mem_append] at hm ⊢; tauto)
    exact (hstart.after hsub hfront).compile_eq hsub hmiddle hd hd'

/-- A view with a lambda that renders its section twice. -/
def echoView : Value :=
  let echo : Expr := .render (.concat [.argument 0, .argument 0])
  .dict [(['f'], .function (.mk none (.exactly 2) echo) none false), (['x'], .text ['1'])]

def echoes : Resolver := .memory 1 [(['p'], "{{#f}}{{x}}{{/f}}".toList)]

/-- A session with a lambda and with a request that fails. -/
def echoing : List Request :=
  [.render ['p'] echoView [], .render "{{#f}}".toList echoView [], .compile ['p'],
    .render "{{>p}}{{>q}}.".toList echoView [(['q'], ['z'])], .compile ['p']]

/-- The text that the lambda renders is not kept. -/
theorem echoing_loadsOnce :
    ∃ engine,
      create .empty .standard (some echoes) none [] none (.fresh 0) = .ok engine ∧
      LoadsOnce ⟨.empty, echoes, .standard⟩
        (fun t => False ∨ ∃ request ∈ echoing, t ∈ request.texts) engine echoing ∧
      (engine.queriesOf echoing).filter (·.name = ['p']) = [⟨1, ['p']⟩] ∧
      (engine.after echoing).store.loader.cache.entries.map (·.1.id) =
        [['p'], "{{>p}}{{>q}}.".toList, ['z']] := by
  obtain ⟨engine, h, hempty, hlib, hstage, hasked, hkeys⟩ : ∃ engine,
      create .empty .standard (some echoes) none [] none (.fresh 0) = .ok engine ∧
      engine.store.loader.cache = .empty true ∧
      (⟨engine.store.loader.files, engine.store.loader.resolver,
        engine.store.loader.delimiters⟩ : Library) = ⟨.empty, echoes, .standard⟩ ∧
      (∀ partials, engine.stage partials = ⟨.standard, partials, none, []⟩) ∧
      (engine.queriesOf echoing).filter (·.name = ['p']) = [⟨1, ['p']⟩] ∧
      (engine.after echoing).store.loader.cache.entries.map (·.1.id) =
        [['p'], "{{>p}}{{>q}}.".toList, ['z']] :=
    ⟨_, rfl, rfl, rfl, fun _ => rfl, by cbv, by cbv⟩
  have hengine : ∀ partials,
      (engine.stage partials).Uses (Value.Within (anySubView fun _ => False)) := by
    intro partials
    rw [hstage]
    exact ⟨by simp, by simp⟩
  have hecho : echoView.Within (anySubView fun _ => False) := by
    refine .dict (List.forall_mem_cons.mpr ⟨.function false (.mk _ trivial (.render (.concat ?_))) ?_,
      List.forall_mem_singleton.mpr (.text _)⟩)
    · simp [Expr.Within.argument]
    · simp
  have hleaves : ∀ request ∈ echoing, request.LeavesTemplates := by
    simp [echoing, Request.LeavesTemplates]
  have hwithin : ∀ request ∈ echoing, request.Within (anySubView fun _ => False) := by
    simp [echoing, Request.Within, hecho]
  have honce := loadsOnce hempty hengine hleaves hwithin
  rw [hlib] at honce
  exact ⟨engine, h, honce, hasked, hkeys⟩

end Whisker.Engine
