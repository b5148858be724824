import Whisker.Engine

/-! Sessions: requests that an engine serves one after another. A request that fails leaves the
engine as it then is. -/

namespace Whisker.Engine

inductive Request where
  | render (template : Text) (view : Value) (partials : Entries Text)
  | compile (template : Text)
  | tokenize (text : Text)
  | addFilter (name : Text) (f : Value)
  | addTemplate (name text : Text)
  | clearCache

/-- What a request that succeeds gives. Of a document only the nodes count. -/
inductive Answer where
  | text (t : Text)
  | document (nodes : List Node)
  | tokens (tokens : List Token)
  | done

/-- How a request ended, and the warnings that came with it. -/
@[ext] structure Outcome where
  result : Except Failure Answer
  warnings : List String

/-- The engine after a change that may be refused. -/
def changed (engine : Engine) (change : Except Failure Engine) : Except Failure Answer × Engine :=
  match change with
  | .ok engine => (.ok .done, engine)
  | .error e => (.error e, engine)

def Request.perform (request : Request) (engine : Engine) : Except Failure Answer × Engine :=
  match request with
  | .render template view partials =>
    let (result, engine) := engine.render template view partials
    (result.map .text, engine)
  | .compile template =>
    let (result, engine) := engine.compile template
    (result.map fun document => .document document.nodes, engine)
  | .tokenize text => (((engine.tokenize text).mapError .template).map .tokens, engine)
  | .addFilter name f => engine.changed (engine.addFilter name f)
  | .addTemplate name text => engine.changed (engine.addTemplate name text)
  | .clearCache => (.ok .done, engine.clearCache)

def serve (engine : Engine) (request : Request) : Outcome × Engine :=
  let (result, engine) := request.perform engine.quiet
  (⟨result, engine.store.warnings⟩, engine)

/-- The engine after a session, whatever became of its requests. -/
def after (engine : Engine) (requests : List Request) : Engine :=
  requests.foldl (fun engine request => (engine.serve request).2) engine

/-! ## Holdings -/

/-- What an engine was given: the templates that it can find and its filters. -/
structure Holdings where
  resolver : Resolver
  filters : Entries Value

def holdings (engine : Engine) : Holdings := ⟨engine.store.loader.resolver, engine.filters⟩

/-- Only filters and templates that are accepted are held. -/
def Holdings.add (held : Holdings) (request : Request) : Holdings :=
  match request with
  | .addFilter name f =>
    if f.isCallable then { held with filters := held.filters.put name f } else held
  | .addTemplate name text =>
    match templateStore? held.resolver with
    | some target =>
      { held with resolver := held.resolver.modify target.key (Resolver.setTemplate name text) }
    | none => held
  | _ => held

end Whisker.Engine
