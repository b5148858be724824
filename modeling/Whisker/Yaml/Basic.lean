import Whisker.Calendar
import Whisker.Failure
import Whisker.Number.Binary64

/-! The data of a YAML document, and why a text has none. -/

namespace Whisker

inductive Yaml where
  | null
  | bool (b : Bool)
  | int (i : Int)
  | float (x : Binary64)
  | text (t : Text)
  | bytes (content : List UInt8)
  | date (d : Date)
  | moment (m : Moment)
  | list (items : List Yaml)
  /-- A list that does not change: a pair, or a list that is a key. -/
  | tuple (items : List Yaml)
  /-- The keys of a mapping without values. -/
  | keySet (items : List Yaml)
  /-- The entries of a mapping; `ordered` says that their order matters. -/
  | dict (ordered : Bool) (entries : List (Yaml × Yaml))
  /-- A collection inside itself. -/
  | cycle (isList : Bool)

namespace Yaml

/-! ## Keys -/

/-- What a key is compared by: truth values and whole floats count as numbers, and moments in a zone
as points in time. -/
inductive KeyForm where
  | null
  | number (i : Int)
  | float (x : Binary64)
  | text (t : Text)
  | bytes (content : List UInt8)
  | date (d : Date)
  | moment (m : Moment)
  | instant (i : Int)
  | list (items : List KeyForm)
deriving BEq

mutual

/-- Scalars and tuples of such can be keys. -/
def keyForm? : Yaml → Option KeyForm
  | .null => some .null
  | .bool b => some (.number (if b then 1 else 0))
  | .int i => some (.number i)
  | .float x => some ((x.toInt?.map KeyForm.number).getD (.float x))
  | .text t => some (.text t)
  | .bytes content => some (.bytes content)
  | .date d => some (.date d)
  | .moment m => some (if m.zone.isSome then .instant m.instant else .moment m)
  | .tuple items => (keyForms? items).map .list
  | .list _ | .keySet _ | .dict .. | .cycle _ => none

def keyForms? : List Yaml → Option (List KeyForm)
  | [] => some []
  | item :: items =>
    match keyForm? item, keyForms? items with
    | some form, some forms => some (form :: forms)
    | _, _ => none

end

/-- A list is a tuple when it is a key. -/
def asKey : Yaml → Yaml
  | .list items => .tuple items
  | v => v

def sameKey (a b : Yaml) : Bool :=
  match a.keyForm?, b.keyForm? with
  | some s, some t => s == t
  | _, _ => false

/-! ## Entries -/

/-- Puts an entry in the place of one with the same key, or behind all. -/
def putEntry (key value : Yaml) : List (Yaml × Yaml) → List (Yaml × Yaml)
  | [] => [(key, value)]
  | (known, old) :: rest =>
    if sameKey known key then (known, value) :: rest else (known, old) :: putEntry key value rest

def putAll (entries more : List (Yaml × Yaml)) : List (Yaml × Yaml) :=
  more.foldl (fun entries (key, value) => putEntry key value entries) entries

/-! ## Nothing -/

/-- What counts as nothing: an empty document, and likewise every zero and empty value. -/
def isNothing : Yaml → Bool
  | .null => true
  | .bool b => !b
  | .int i => i = 0
  | .float x => x.isZero
  | .text t => t.isEmpty
  | .bytes content => content.isEmpty
  | .list items | .tuple items | .keySet items => items.isEmpty
  | .dict _ entries => entries.isEmpty
  | .date _ | .moment _ | .cycle _ => false

/-! ## Defects -/

/-- Why a YAML text has no data. -/
inductive Defect where
  | malformed
  /-- A character, a scalar or a key that its kind does not allow. -/
  | failure (f : Failure)
deriving DecidableEq

end Yaml

end Whisker
