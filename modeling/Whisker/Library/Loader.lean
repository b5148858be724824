import Whisker.Library.Cache
import Whisker.Library.Resolver

/-! Loading: from the name or text of a template to its document, through the cache. -/

namespace Whisker

/-- A resolver that was asked for a name. -/
structure Query where
  key : Nat
  name : Text
deriving DecidableEq

structure Loader where
  files : FileTree
  resolver : Resolver
  cache : Cache
  /-- The delimiters that templates start with. -/
  delimiters : Delimiters
  /-- The identity of the next document. -/
  nextDocument : Nat
  /-- The queries so far, the latest first. -/
  queries : List Query

/-- The loader before anything was loaded. -/
def Loader.fresh (files : FileTree) (resolver : Resolver) (cache : Cache) (d : Delimiters) :
    Loader :=
  ⟨files, resolver, cache, d, 0, []⟩

/-- A failed step keeps what it did to the loader. -/
abbrev Loading := ExceptT Failure (StateM Loader)

namespace Loading

/-- Builds a document without looking at the cache. -/
def build (d : Delimiters) (source : Text) : Loading Document := do
  match Node.parse d source with
  | .error e => throw (.template e)
  | .ok nodes =>
    modifyGet fun loader =>
      (⟨loader.nextDocument, nodes⟩, { loader with nextDocument := loader.nextDocument + 1 })

def cached? (key : Cache.Key) : Loading (Option Document) :=
  modifyGet fun loader =>
    let (found, cache) := loader.cache.get? key
    (found, { loader with cache })

def store (key : Cache.Key) (document : Document) : Loading Unit :=
  modify fun loader => { loader with cache := loader.cache.put key document }

/-- Asks the resolver for the text of a name. -/
def resolve (name : Text) : Loading (Option Text) := do
  let answer ← modifyGet fun loader =>
    let answer := loader.resolver.resolve loader.files name
    let queries := answer.asked.map fun key => Query.mk key name
    (answer, { loader with queries := queries.reverse ++ loader.queries })
  match answer.result with
  | .ok text => return text
  | .error e => throw e

/-- The document of a text, from the cache or built. -/
def ofText (source : Text) : Loading Document := do
  let d := (← get).delimiters
  let key : Cache.Key := ⟨.text, source, d.texts⟩
  match ← cached? key with
  | some document => return document
  | none =>
    let document ← build d source
    store key document
    return document

/-- The document of a name, from the cache or built from the resolver's text, if it has one. -/
def ofName? (name : Text) : Loading (Option Document) := do
  let d := (← get).delimiters
  let key : Cache.Key := ⟨.name, name, d.texts⟩
  match ← cached? key with
  | some document => return some document
  | none =>
    match ← resolve name with
    | none => return none
    | some source =>
      let document ← build d source
      store key document
      return some document

/-- The document of a partial. Partials given for the call come before the library, and are known
by their text. -/
def included? (given : Entries Text) (name : Text) : Loading (Option Document) :=
  match given.get? name with
  | some source => some <$> ofText source
  | none => ofName? name

/-- The document of a template that is given by its name, or by its text if nothing has that
name. -/
def template (given : Entries Text) (nameOrText : Text) : Loading Document := do
  match ← included? given nameOrText with
  | some document => return document
  | none => ofText nameOrText

end Loading

end Whisker
