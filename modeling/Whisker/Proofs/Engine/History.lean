import Mathlib
import Whisker.Engine.Session
import Whisker.Proofs.Render.Steady
import Whisker.Proofs.Run.Alike

/-! History makes no difference: after any session an engine serves a request as a new engine does
that was given the same templates and filters, with or without a cache. -/

namespace Whisker.Engine

open Run (Steady)

variable {P : Nat → Prop} {lib : Library} {engine other : Engine}

/-! ## Rendering and compiling -/

theorem eq_of_rootOf {view root : Value} (h : rootOf view = .ok root) :
    root = view ∨ root = .dict [] := by
  cases view <;> cases h <;> simp

theorem rootOf_within {c : Contents} {view root : Value} (h : view.Within c)
    (hr : rootOf view = .ok root) : root.Within c := by
  rcases eq_of_rootOf hr with rfl | rfl
  · exact h
  · exact .dict (by simp)

theorem rootOf_flat (view : Value) : Flat (rootOf view) := by
  cases view <;> first | exact .ok _ | exact .error rfl

/-- What passes from steps to the whole holds of a rendering, if it holds of the document. -/
theorem renderStep_holdsOf {c : Contents} {function passed : Value → Prop} {kept : Loader → Prop}
    (L : Run.LogicOf lib c function passed kept) {template : Text} (ht : c.template template)
    {view : Value} (hv : view.Within c) {partials : Entries Text}
    (hk : Loading.Keeps kept (Loading.template partials template))
    (hd : ∀ root nodes, root.Within c → lib.template partials template = .ok nodes →
      L.Holds (fun _ => True) fun d => Render.document (engine.stage partials) d root nodes) :
    L.Holds (fun _ => True) fun d => engine.renderStep d template view partials := by
  have hroot := (rootOf_flat view).conclusive
  unfold renderStep
  split
  · rename_i e he
    exact L.throw fun h => hroot (by rw [he, h])
  · rename_i root hr
    refine L.load hk (Loading.template_gives partials template) (lib.template_flat _ _).conclusive
      ?_ ?_
    · rintro document document' _ h rfl d
      rw [h]
    · rintro document _ hn rfl
      exact L.afresh ht (hd root _ (rootOf_within hv hr) hn)

theorem renderStep_holds {c : Contents} {function passed : Value → Prop}
    (L : Run.Logic lib c function passed) {template : Text} (ht : c.template template)
    {view : Value} (hv : view.Within c) {partials : Entries Text}
    (hd : ∀ root nodes, root.Within c → lib.template partials template = .ok nodes →
      L.Holds (fun _ => True) fun d => Render.document (engine.stage partials) d root nodes) :
    L.Holds (fun _ => True) fun d => engine.renderStep d template view partials :=
  renderStep_holdsOf L ht hv (fun _ _ => trivial) hd

theorem renderStep_steady (hs : ∀ partials, (engine.stage partials).Uses (Value.IdsIn P))
    (depth : Nat) (template : Text) {view : Value} (hv : view.IdsIn P) (partials : Entries Text) :
    Steady P lib (fun _ => True) (engine.renderStep depth template view partials) := by
  let L := Run.blindly (Run.blind_alike P lib) (depth + 1)
  refine renderStep_holds L trivial hv.within (fun root nodes hroot _ d _ => ?_) depth
    (Nat.lt_succ_self depth)
  exact Render.document_steady (Run.blind_alike P lib) (Loading.allKeep_true _ _)
    ((hs partials).mono fun _ hf => hf.within) d hroot nodes

theorem renderStep_met (depth : Nat) (template : Text) (view : Value) (partials : Entries Text)
    (store : Store) :
    ((engine.renderStep depth template view partials).run store).2.met = store.met := by
  rw [renderStep]
  split
  · rfl
  · rw [Fallible.run_bind, Run.run_load]
    cases ((Loading.template partials template).run store.loader).1 <;> rfl

/-- What is done with the document of a template starts with no iterator met. -/
theorem run_template {partials : Entries Text} {template : Text} {nodes : List Node}
    (ht : lib.template partials template = .ok nodes) {store : Store}
    (hs : store.loader.Serves lib) (f : List Node → Run Text) :
    ∃ loader, loader.Serves lib ∧
      ((Run.load (Loading.template partials template) >>= fun document =>
        Run.afresh (f document.nodes)).run store).1 =
        ((f nodes).run { store with met := [], loader }).1 := by
  obtain ⟨document, loader, hl, rfl, hloader⟩ :=
    Run.run_load_of_gives (Loading.template_gives partials template) ht hs
  refine ⟨loader, hloader, ?_⟩
  rw [Fallible.run_bind, hl]
  rfl

theorem run_renderStep (engine : Engine) {view root : Value} (hroot : rootOf view = .ok root)
    {partials : Entries Text} {template : Text} {nodes : List Node}
    (ht : lib.template partials template = .ok nodes) {store : Store}
    (hs : store.loader.Serves lib) (depth : Nat) :
    ∃ loader, loader.Serves lib ∧
      ((engine.renderStep depth template view partials).run store).1 =
        ((Render.document (engine.stage partials) depth root nodes).run
          { store with met := [], loader }).1 := by
  rw [renderStep, hroot]
  exact run_template ht hs (Render.document (engine.stage partials) depth root)

/-- The two engines differ in their caches only, as far as identities in `P` go. -/
structure Alike (P : Nat → Prop) (lib : Library) (engine other : Engine) : Prop where
  settings_eq : ∃ cache, other.settings = { engine.settings with cache }
  escape_eq : other.escape = engine.escape
  filters_eq : other.filters = engine.filters
  stage : ∀ partials, (engine.stage partials).Uses (Value.IdsIn P)
  store : Store.Alike P lib engine.store other.store

namespace Alike

theorem renderStep_eq (h : Alike P lib engine other) (depth : Nat) (template : Text)
    (view : Value) (partials : Entries Text) :
    other.renderStep depth template view partials =
      engine.renderStep depth template view partials := by
  obtain ⟨cache, hc⟩ := h.settings_eq
  unfold renderStep Engine.stage
  rw [hc, h.escape_eq, h.filters_eq]
  simp only [Render.document_cache ⟨engine.settings, partials, engine.escape, engine.filters⟩]

theorem render (h : Alike P lib engine other) (template : Text) {view : Value} (hv : view.IdsIn P)
    (partials : Entries Text) :
    (other.render template view partials).1 = (engine.render template view partials).1 ∧
      Store.Alike P lib (engine.render template view partials).2.store
        (other.render template view partials).2.store := by
  obtain ⟨hr, hs⟩ := renderStep_steady h.stage depth template hv partials _ _ h.store
  rw [Engine.render, perform]
  rw [h.renderStep_eq]
  exact ⟨(hr.mono fun _ _ h => h.1).eq.symm, hs⟩

theorem compile (h : Alike P lib engine other) (template : Text) :
    Agree (fun a b => a.nodes = b.nodes) (engine.compile template).1 (other.compile template).1 ∧
      Store.Alike P lib (engine.compile template).2.store (other.compile template).2.store := by
  obtain ⟨hr, hs⟩ := Run.load_related (Loading.template_gives [] template) _ _ h.store
  exact ⟨hr.mono fun _ _ ⟨_, _, ha, hb⟩ => ha.trans hb.symm, hs⟩

end Alike

/-! ## Requests -/

/-- The identities that a request brings along for a rendering. -/
def Request.IdsIn (P : Nat → Prop) : Request → Prop
  | .render _ view _ => view.IdsIn P
  | _ => True

theorem perform_addFilter (name : Text) (f : Value) (engine : Engine) :
    Request.perform (.addFilter name f) engine =
      if f.isCallable then
        (.ok .done, { engine with filters := engine.filters.put name f })
      else (.error (.filterNotCallable name), engine) := by
  unfold Request.perform addFilter
  dsimp only
  split <;> rfl

theorem perform_addTemplate (name text : Text) (engine : Engine) :
    Request.perform (.addTemplate name text) engine =
      match templateStore? engine.store.loader.resolver with
      | some target => (.ok .done, (engine.setTemplate target.key name text).clearCache)
      | none => (.error .fixedTemplates, engine) := by
  unfold Request.perform addTemplate
  dsimp only
  cases templateStore? engine.store.loader.resolver <;> rfl

theorem Alike.serve_eq (h : Alike P lib engine.quiet other.quiet) {request : Request}
    (hr : request.IdsIn P) : (other.serve request).1 = (engine.serve request).1 := by
  cases request with
  | render template view partials =>
      obtain ⟨hv, hs⟩ := h.render template hr partials
      exact Outcome.ext (congrArg (Except.map Answer.text) hv) hs.warnings.symm
  | compile template =>
      obtain ⟨hv, hs⟩ := h.compile template
      refine Outcome.ext ?_ hs.warnings.symm
      exact (hv.map (P := (· = ·)) fun a b hab => congrArg Answer.document hab).eq.symm
  | tokenize text =>
      obtain ⟨cache, hc⟩ := h.settings_eq
      refine Outcome.ext ?_ rfl
      change Except.map _ (Except.mapError _ (Token.scan other.quiet.settings.delimiters text)) = _
      rw [hc]
      rfl
  | addFilter name f =>
      refine Outcome.ext ?_ ?_ <;> simp only [serve, perform_addFilter] <;> split <;> rfl
  | addTemplate name text =>
      have hl : other.quiet.store.loader.resolver = engine.quiet.store.loader.resolver :=
        h.store.right.resolver.trans h.store.left.resolver.symm
      refine Outcome.ext ?_ ?_ <;> simp only [serve, perform_addTemplate, hl] <;> split <;> rfl
  | clearCache => rfl

/-! ## Sessions -/

/-- An engine of these settings that was given what is held, with no document out of date. -/
structure Holds (engine : Engine) (files : FileTree) (settings : Settings)
    (escape : Option Value) (held : Holdings) : Prop where
  settings_eq : engine.settings = settings
  escape_eq : engine.escape = escape
  filters_eq : engine.filters = held.filters
  met_eq : engine.store.met = []
  serves : engine.store.loader.Serves ⟨files, held.resolver, settings.delimiters⟩

namespace Holds

variable {files : FileTree} {settings : Settings} {escape : Option Value} {held : Holdings}

theorem quiet (h : Holds engine files settings escape held) :
    Holds engine.quiet files settings escape held :=
  ⟨h.settings_eq, h.escape_eq, h.filters_eq, h.met_eq, h.serves.files, h.serves.resolver,
    h.serves.delimiters, h.serves.entries⟩

theorem holdings_eq (h : Holds engine files settings escape held) : engine.holdings = held := by
  rw [holdings]
  rw [h.filters_eq, h.serves.resolver]

theorem uses {function : Value → Prop} (h : Holds engine files settings escape held)
    (he : ∀ f, escape = some f → function f) (hf : ∀ entry ∈ held.filters, function entry.2)
    (partials : Entries Text) : (engine.stage partials).Uses function := by
  refine ⟨fun f hs => he f (h.escape_eq.symm.trans hs), fun entry hm => hf entry ?_⟩
  rwa [← h.filters_eq]

theorem alike {cache : Bool} (h : Holds engine files settings escape held)
    (h' : Holds other files { settings with cache } escape held)
    (hs : ∀ partials, (engine.stage partials).Uses (Value.IdsIn P))
    (hheap : Heap.Alike P engine.store.heap other.store.heap) :
    Alike P ⟨files, held.resolver, settings.delimiters⟩ engine.quiet other.quiet := by
  refine ⟨⟨cache, ?_⟩, h'.escape_eq.trans h.escape_eq.symm, h'.filters_eq.trans h.filters_eq.symm,
    hs, hheap, h.met_eq.trans h'.met_eq.symm, ?_, rfl, h.quiet.serves, h'.quiet.serves⟩
  · exact h'.settings_eq.trans (by rw [← h.settings_eq]; rfl)
  · simp [h.quiet.met_eq]

theorem alike_self (h : Holds engine files settings escape held) :
    Alike (fun _ => True) ⟨files, held.resolver, settings.delimiters⟩ engine.quiet
      engine.quiet := by
  refine h.alike h (fun partials => ⟨?_, ?_⟩) ⟨rfl, ?_, ?_⟩
  · exact fun f _ => Value.idsIn_of_forall (fun _ => trivial) f
  · exact fun entry _ => Value.idsIn_of_forall (fun _ => trivial) entry.2
  · exact fun _ _ => trivial
  · exact fun n _ => .refl _ n

theorem serve (h : Holds engine files settings escape held) (request : Request) :
    Holds (engine.serve request).2 files settings escape (held.add request) := by
  have hq := h.quiet
  cases request with
  | render template view partials =>
      have hv := Value.idsIn_of_forall (fun _ => trivial) view
      refine ⟨hq.settings_eq, hq.escape_eq, hq.filters_eq, ?_,
        (h.alike_self.render template hv partials).2.left⟩
      exact (renderStep_met _ _ _ _ _).trans hq.met_eq
  | compile template =>
      exact ⟨hq.settings_eq, hq.escape_eq, hq.filters_eq, hq.met_eq,
        (h.alike_self.compile template).2.left⟩
  | tokenize text => exact hq
  | addFilter name f =>
      rw [Engine.serve, Holdings.add]
      rw [perform_addFilter]
      dsimp only
      split
      · refine ⟨hq.settings_eq, hq.escape_eq, ?_, hq.met_eq, hq.serves⟩
        exact congrArg (Entries.put name f) hq.filters_eq
      · exact hq
  | addTemplate name text =>
      rw [Engine.serve, Holdings.add]
      rw [perform_addTemplate, hq.serves.resolver]
      cases templateStore? held.resolver with
      | some target =>
          refine ⟨hq.settings_eq, hq.escape_eq, hq.filters_eq, hq.met_eq, hq.serves.files, ?_,
            hq.serves.delimiters, ?_⟩
          · exact congrArg (Resolver.modify _ _) hq.serves.resolver
          · intro key document hd
            cases hd
      | none => exact hq
  | clearCache =>
      refine ⟨hq.settings_eq, hq.escape_eq, hq.filters_eq, hq.met_eq, hq.serves.files,
        hq.serves.resolver, hq.serves.delimiters, ?_⟩
      intro key document hd
      cases hd

theorem after (h : Holds engine files settings escape held) (session : List Request) :
    Holds (engine.after session) files settings escape (session.foldl Holdings.add held) := by
  induction session generalizing engine held with
  | nil => exact h
  | cons request session ih => exact ih (h.serve request)

end Holds

theorem create_holds {files : FileTree} {settings : Settings} {resolver : Option Resolver}
    {escape : Option Value} {filters : Entries Value} {environment : Option Text} {heap : Heap}
    (h : create files settings resolver escape filters environment heap = .ok engine) :
    ∃ held, (∀ given, resolver = some given → given = held) ∧
      Holds engine files settings escape ⟨held, filters⟩ ∧ engine.store.heap = heap := by
  have hloader : ∀ held cache, Loader.Serves (.fresh files held (.empty cache) settings.delimiters)
      ⟨files, held, settings.delimiters⟩ := by
    refine fun held cache => ⟨rfl, rfl, rfl, ?_⟩
    intro key document hd
    cases hd
  cases resolver with
  | some given =>
      cases h
      exact ⟨given, by simp, ⟨rfl, rfl, rfl, rfl, hloader given _⟩, rfl⟩
  | none =>
      change (standardResolver files settings >>= _) = _ at h
      cases hr : standardResolver files settings with
      | error e =>
          rw [hr] at h
          cases h
      | ok held =>
          rw [hr] at h
          cases h
          exact ⟨held, by simp, ⟨rfl, rfl, rfl, rfl, hloader held _⟩, rfl⟩

/-- An engine that was just made with a resolver renders the document of a template, and nothing was
done before. -/
theorem run_renderStep_of_create {files : FileTree} {settings : Settings} {given : Resolver}
    {escape : Option Value} {filters : Entries Value} {environment : Option Text} {heap : Heap}
    (h : create files settings (some given) escape filters environment heap = .ok engine)
    {view root : Value} (hroot : rootOf view = .ok root) {partials : Entries Text}
    {template : Text} {nodes : List Node}
    (ht : Library.template ⟨files, given, settings.delimiters⟩ partials template = .ok nodes)
    (depth : Nat) :
    ∃ loader : Loader, loader.Serves ⟨files, given, settings.delimiters⟩ ∧
      ((engine.renderStep depth template view partials).run engine.store).1 =
        ((Render.document ⟨settings, partials, escape, filters⟩ depth root nodes).run
          (.fresh heap loader)).1 := by
  obtain ⟨_, hgiven, hs, -⟩ := create_holds h
  obtain rfl := hgiven _ rfl
  cases h
  exact run_renderStep _ hroot ht hs.serves depth

theorem after_holds {files : FileTree} {settings : Settings} {resolver : Option Resolver}
    {escape : Option Value} {filters : Entries Value} {environment : Option Text} {heap : Heap}
    {session : List Request} {held : Holdings}
    (h : create files settings resolver escape filters environment heap = .ok engine)
    (hheld : session.foldl Holdings.add engine.holdings = held) :
    Holds (engine.after session) files settings escape held := by
  obtain ⟨_, -, h0, -⟩ := create_holds h
  have hs := h0.after session
  rwa [← h0.holdings_eq, hheld] at hs

/-! ## History -/

/-- A heap that is like the engine's own wherever the request can look: at the functions that the
engine was given, at those that come with the request, and at what is still to be built. Of the
views of earlier requests it may remember anything. -/
structure Recalls (engine : Engine) (request : Request) (heap : Heap) : Prop where
  next : engine.store.heap.nextIdentity = heap.nextIdentity
  fresh : ∀ n, engine.store.heap.nextIdentity ≤ n → engine.store.heap.SameAt heap n
  escape : ∀ f, engine.escape = some f → f.IdsIn (engine.store.heap.SameAt heap)
  filters : ∀ entry ∈ engine.filters, entry.2.IdsIn (engine.store.heap.SameAt heap)
  request : request.IdsIn (engine.store.heap.SameAt heap)

/-- After any session, requests that failed included, an engine serves a request as a fresh one does
that was given the same templates and filters, whether its cache is off or on. -/
theorem serve_after_eq_fresh {files : FileTree} {settings : Settings} {resolver : Option Resolver}
    {escape : Option Value} {filters : Entries Value} {environment environment' : Option Text}
    {heap heap' : Heap} {cache : Bool} {engine fresh : Engine} {held : Holdings}
    {session : List Request} {request : Request}
    (h : create files settings resolver escape filters environment heap = .ok engine)
    (hheld : session.foldl Holdings.add engine.holdings = held)
    (hfresh : create files { settings with cache } (some held.resolver) escape held.filters
      environment' heap' = .ok fresh)
    (hr : Recalls (engine.after session) request heap') :
    ((engine.after session).serve request).1 = (fresh.serve request).1 := by
  obtain ⟨_, -, h0, -⟩ := create_holds h
  have hs := h0.after session
  rw [← h0.holdings_eq, hheld] at hs
  obtain ⟨_, hgiven, hf, hheap⟩ := create_holds hfresh
  obtain rfl := hgiven _ rfl
  have ha := hs.alike hf (fun partials => ⟨hr.escape, hr.filters⟩)
    ⟨hr.next.trans (congrArg _ hheap.symm), hr.fresh, fun n hn => by rwa [hheap]⟩
  exact (ha.serve_eq hr.request).symm

/-- A view with an iterator, which can be read once. -/
def onceView (n : Nat) : Value := .dict [(['n'], .iterator (some n) [.text ['1']])]

def libraryOf (text : Text) : Resolver := .memory 1 [(['p'], text)]

def newText : Text := "{{#n}}new{{/n}}".toList

/-- A session that fills the cache, fails, and replaces the template. -/
def changes : List Request :=
  [.render ['p'] (onceView 0) [(['p'], "given".toList)], .render ['p'] (onceView 0) [],
    .compile "{{#p}}".toList, .addTemplate ['p'] newText]

/-- The fresh heap does not know the iterator that the session read. -/
theorem changes_eq_fresh :
    ∃ engine fresh,
      create .empty .standard (some (libraryOf "{{#n}}old{{/n}}".toList)) none [] none (.fresh 1) =
        .ok engine ∧
      create .empty { Settings.standard with cache := false } (some (libraryOf newText)) none []
        none (.fresh 1) = .ok fresh ∧
      Recalls (engine.after changes) (.render ['p'] (onceView 1) []) (.fresh 1) ∧
      (engine.after changes).store.heap.drained = [0] ∧
      ((engine.after changes).serve (.render ['p'] (onceView 1) [])).1 =
        (fresh.serve (.render ['p'] (onceView 1) [])).1 ∧
      (fresh.serve (.render ['p'] (onceView 1) [])).1 = ⟨.ok (.text "new".toList), []⟩ := by
  obtain ⟨engine, h, hheld, hheap⟩ : ∃ engine,
      create .empty .standard (some (libraryOf "{{#n}}old{{/n}}".toList)) none [] none (.fresh 1) =
        .ok engine ∧
      changes.foldl Holdings.add engine.holdings = ⟨libraryOf newText, []⟩ ∧
      (engine.after changes).store.heap = ⟨1, [], [0]⟩ := ⟨_, rfl, by cbv, by cbv⟩
  obtain ⟨_, -, h0, -⟩ := create_holds h
  have hs := h0.after changes
  rw [← h0.holdings_eq, hheld] at hs
  have hsame : ∀ n, 1 ≤ n → Heap.SameAt ⟨1, [], [0]⟩ (.fresh 1) n := by
    intro n hn
    have hne : n ≠ 0 := by omega
    exact ⟨rfl, by simp [Heap.fresh, hne]⟩
  have hr : Recalls (engine.after changes) (.render ['p'] (onceView 1) []) (.fresh 1) := by
    refine ⟨?_, ?_, ?_, ?_, ?_⟩
    · rw [hheap]
      rfl
    · rw [hheap]
      exact hsame
    · simp [hs.escape_eq]
    · simp [hs.filters_eq]
    · rw [hheap]
      refine .dict (List.forall_mem_singleton.mpr (.iterator ?_ ?_))
      · intro n hn
        cases hn
        exact hsame 1 (Nat.le_refl 1)
      · exact List.forall_mem_singleton.mpr (.text ['1'])
  obtain ⟨fresh, hfresh, hnew⟩ : ∃ fresh,
      create .empty { Settings.standard with cache := false } (some (libraryOf newText)) none []
        none (.fresh 1) = .ok fresh ∧
      (fresh.serve (.render ['p'] (onceView 1) [])).1 = ⟨.ok (.text "new".toList), []⟩ :=
    ⟨_, rfl, by cbv⟩
  exact ⟨engine, fresh, h, hfresh, hr, by rw [hheap], serve_after_eq_fresh h hheld hfresh hr,
    hnew⟩

end Whisker.Engine
