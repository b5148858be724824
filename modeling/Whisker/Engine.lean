import Whisker.Render

/-! Engines: templates compiled through a cache and rendered against views. A call that fails leaves
behind what it did to the cache, the counters and the warnings. -/

namespace Whisker

structure Engine where
  settings : Settings
  escape : Option Value
  filters : Entries Value
  store : Store

namespace Engine

/-- How deep sections, inclusions and calls may be nested in a rendering. -/
def depth : Nat := 10000

/-! ## Making engines -/

/-- The resolver of an engine that was given none: templates in memory, and behind them the
template paths of the settings. -/
def standardResolver (files : FileTree) (settings : Settings) : Except Failure Resolver := do
  let inMemory := (Resolver.aggregate 0 []).attach 2 (.memory 1 [])
  if settings.templatePaths.isEmpty then return inMemory
  let shelf ← Shelf.ofPaths files settings.templatePaths settings.templateSuffix ['/']
  return inMemory.attach Resolver.standardPriority (.files 2 shelf)

/-- An engine. The environment may switch its cache on or off; `heap` is what the values built
before it remember. -/
def create (files : FileTree) (settings : Settings) (resolver : Option Resolver)
    (escape : Option Value) (filters : Entries Value) (environment : Option Text)
    (heap : Heap) : Except Failure Engine := do
  let resolver ← match resolver with
    | some resolver => pure resolver
    | none => standardResolver files settings
  let cache := Cache.empty (Cache.isEnabled environment (some settings.cache))
  let loader := Loader.fresh files resolver cache settings.delimiters
  return ⟨settings, escape, filters, Store.fresh heap loader⟩

/-! ## Calls -/

def perform {α : Type} (step : Run α) (engine : Engine) : Except Failure α × Engine :=
  let (result, store) := step.run engine.store
  (result, { engine with store })

/-- The root frame of a view: no view is an empty dictionary, and only dictionaries and objects
have the structure that a root needs. -/
def rootOf (view : Value) : Except Failure Value :=
  match view with
  | .null => .ok (.dict [])
  | .dict _ | .missing | .iterator .. | .subView .. | .function .. | .renderer | .object _ =>
    .ok view
  | _ => .error (.unstructuredView view.kindName)

def stage (engine : Engine) (partials : Entries Text) : Stage :=
  ⟨engine.settings, partials, engine.escape, engine.filters⟩

/-- Renders a template, given by its name or text, against a view. -/
def renderStep (engine : Engine) (depth : Nat) (template : Text) (view : Value)
    (partials : Entries Text) : Run Text := do
  match rootOf view with
  | .error e => throw e
  | .ok root =>
    let document ← Run.load (Loading.template partials template)
    Run.afresh (Render.document (engine.stage partials) depth root document.nodes)

def render (template : Text) (view : Value) (partials : Entries Text) (engine : Engine) :
    Except Failure Text × Engine :=
  engine.perform (engine.renderStep depth template view partials)

/-- Compiles a template, given by its name or text. -/
def compile (template : Text) (engine : Engine) : Except Failure Document × Engine :=
  engine.perform (Run.load (Loading.template [] template))

def tokenize (text : Text) (engine : Engine) : Except TemplateError (List Token) :=
  Token.scan engine.settings.delimiters text

def addFilter (name : Text) (f : Value) (engine : Engine) : Except Failure Engine :=
  if f.isCallable then .ok { engine with filters := engine.filters.put name f }
  else .error (.filterNotCallable name)

/-- The resolver in memory that new templates go to. -/
def templateStore? (resolver : Resolver) : Option Resolver :=
  match resolver with
  | .memory .. => some resolver
  | .aggregate .. => resolver.member? (·.kind = .memory)
  | _ => none

def mapLoader (f : Loader → Loader) (engine : Engine) : Engine :=
  { engine with store := { engine.store with loader := f engine.store.loader } }

def clearCache : Engine → Engine :=
  mapLoader fun loader => { loader with cache := loader.cache.clear }

/-- Changes a resolver without touching the cache. -/
def setTemplate (key : Nat) (name text : Text) : Engine → Engine :=
  mapLoader fun loader =>
    { loader with resolver := loader.resolver.modify key (Resolver.setTemplate name text) }

/-- Adds a template in memory and clears the cache. -/
def addTemplate (name text : Text) (engine : Engine) : Except Failure Engine :=
  match templateStore? engine.store.loader.resolver with
  | some target => .ok (engine.setTemplate target.key name text).clearCache
  | none => .error .fixedTemplates

/-- The text that the resolver has for a name. -/
def resolve (name : Text) (engine : Engine) : Except Failure (Option Text) × Engine :=
  engine.perform (Run.load (Loading.resolve name))

/-! ## Traces -/

/-- The engine with no warnings and no queries on record. -/
def quiet (engine : Engine) : Engine :=
  { engine with
    store := { engine.store with
      warnings := []
      loader := { engine.store.loader with queries := [] } } }

end Engine

end Whisker
