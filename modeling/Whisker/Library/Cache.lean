import Whisker.Template.Node
import Whisker.Text.Case

/-! The cache of compiled documents, kept until it is cleared. -/

namespace Whisker

/-- A compiled template. Documents built at different times differ in their identity. -/
structure Document where
  id : Nat
  nodes : List Node

namespace Cache

/-- Whether a template is known by its name or is given by its text. -/
inductive Source where
  | name
  | text
deriving DecidableEq

structure Key where
  source : Source
  id : Text
  /-- The delimiters that the template starts with, as texts. -/
  delimiters : List Text
deriving DecidableEq

end Cache

structure Cache where
  enabled : Bool
  entries : List (Cache.Key × Document)
  hits : Nat
  misses : Nat

namespace Cache

def empty (enabled : Bool) : Cache := ⟨enabled, [], 0, 0⟩

/-- The words that switch the cache off in the environment. -/
def offWords : List Text := ["0", "false", "no", "off", ""].map String.toList

/-- The environment decides if it says anything, then the setting; the default is on. -/
def isEnabled (environment : Option Text) (setting : Option Bool) : Bool :=
  match environment with
  | some word => !offWords.contains (Text.lower (Text.strip word))
  | none => setting.getD true

def find? (cache : Cache) (key : Key) : Option Document :=
  (cache.entries.find? fun entry => entry.1 = key).map (·.2)

/-- Looks a document up and counts the hit or the miss. A cache that is off counts nothing. -/
def get? (cache : Cache) (key : Key) : Option Document × Cache :=
  if !cache.enabled then (none, cache)
  else match cache.find? key with
    | some document => (some document, ⟨cache.enabled, cache.entries, cache.hits + 1, cache.misses⟩)
    | none => (none, ⟨cache.enabled, cache.entries, cache.hits, cache.misses + 1⟩)

/-- Entries with the document under the key, in place of an older one. -/
def putEntry (key : Key) (document : Document) :
    List (Key × Document) → List (Key × Document)
  | [] => [(key, document)]
  | (known, old) :: entries =>
    if known = key then (key, document) :: entries
    else (known, old) :: putEntry key document entries

def put (cache : Cache) (key : Key) (document : Document) : Cache :=
  if cache.enabled then
    ⟨cache.enabled, putEntry key document cache.entries, cache.hits, cache.misses⟩
  else cache

def contains (cache : Cache) (key : Key) : Bool := (cache.find? key).isSome

def clear (cache : Cache) : Cache := empty cache.enabled

end Cache

end Whisker
