import Mathlib
import Whisker.View.Build
import Whisker.View.Heap
import Whisker.View.Printed

/-! Renaming the identities inside values. Nothing but the identities changes, so that a renamed
value prints the same and has its items and members in the same places. -/

namespace Whisker

theorem Entries.get?_map {β γ : Type} (g : β → γ) (entries : Entries β) (key : Text) :
    Entries.get? (entries.map fun entry => (entry.1, g entry.2)) key =
      (entries.get? key).map g := by
  induction entries with
  | nil => rfl
  | cons entry entries ih =>
      obtain ⟨known, b⟩ := entry
      rw [List.map_cons, get?, get?]
      split
      · rfl
      · exact ih

/-- The bodies of functions are left alone. -/
def Function.rename (ρ : Nat → Nat) : Function → Function
  | .mk id arity body => .mk (id.map ρ) arity body

theorem Function.arity_rename (ρ : Nat → Nat) (f : Function) : (f.rename ρ).arity = f.arity := by
  cases f
  rfl

def Method.rename (ρ : Nat → Nat) : Method → Method
  | .bound f => .bound (f.rename ρ)
  | .static f => .static (f.rename ρ)

namespace Value

mutual

/-- The value with `ρ n` in place of each identity `n`. -/
def rename (ρ : Nat → Nat) : Value → Value
  | .list items => .list (renameItems ρ items)
  | .tuple items => .tuple (renameItems ρ items)
  | .record name fields => .record name (renameEntries ρ fields)
  | .dict entries => .dict (renameEntries ρ entries)
  | .iterator id items => .iterator (id.map ρ) (renameItems ρ items)
  | .subView template view => .subView template (rename ρ view)
  | .function f (some receiver) bound => .function (f.rename ρ) (some (rename ρ receiver)) bound
  | .function f none bound => .function (f.rename ρ) none bound
  | .object o => .object (renameObject ρ o)
  | v => v

def renameObject (ρ : Nat → Nat) : Object → Object
  | .mk attributes methods properties (some items) length call printed =>
    .mk (renameEntries ρ attributes) (methods.map fun entry => (entry.1, entry.2.rename ρ))
      (properties.map fun entry => (entry.1, entry.2.rename ρ)) (some (renameItems ρ items)) length
      (call.map (Function.rename ρ)) printed
  | .mk attributes methods properties none length call printed =>
    .mk (renameEntries ρ attributes) (methods.map fun entry => (entry.1, entry.2.rename ρ))
      (properties.map fun entry => (entry.1, entry.2.rename ρ)) none length
      (call.map (Function.rename ρ)) printed

def renameItems (ρ : Nat → Nat) : List Value → List Value
  | [] => []
  | item :: items => rename ρ item :: renameItems ρ items

def renameEntries (ρ : Nat → Nat) : List (Text × Value) → List (Text × Value)
  | [] => []
  | (name, value) :: entries => (name, rename ρ value) :: renameEntries ρ entries

end

variable (ρ : Nat → Nat)

theorem renameItems_eq_map (items : List Value) : renameItems ρ items = items.map (rename ρ) := by
  induction items with
  | nil => rfl
  | cons item items ih => rw [renameItems, ih, List.map_cons]

theorem renameEntries_eq_map (entries : List (Text × Value)) :
    renameEntries ρ entries = entries.map fun entry => (entry.1, entry.2.rename ρ) := by
  induction entries with
  | nil => rfl
  | cons entry entries ih => rw [renameEntries, ih, List.map_cons]

theorem get?_renameEntries (entries : List (Text × Value)) (key : Text) :
    Entries.get? (renameEntries ρ entries) key = (Entries.get? entries key).map (rename ρ) := by
  rw [renameEntries_eq_map, Entries.get?_map]

theorem rename_function (f : Function) (receiver : Option Value) (bound : Bool) :
    (Value.function f receiver bound).rename ρ =
      .function (f.rename ρ) (receiver.map (rename ρ)) bound := by
  cases receiver <;> rfl

theorem renameObject_mk (attributes : List (Text × Value)) (methods : List (Text × Method))
    (properties : List (Text × Function)) (items : Option (List Value)) (length : Option Int)
    (call : Option Function) (printed : Text) :
    renameObject ρ (.mk attributes methods properties items length call printed) =
      .mk (renameEntries ρ attributes) (methods.map fun entry => (entry.1, entry.2.rename ρ))
        (properties.map fun entry => (entry.1, entry.2.rename ρ)) (items.map (renameItems ρ)) length
        (call.map (Function.rename ρ)) printed := by
  cases items <;> rfl

/-! ## What stays the same -/

mutual

theorem printed_rename (v : Value) : (v.rename ρ).printed = v.printed := by
  cases v with
  | list items =>
      exact congrArg (fun items => '[' :: commaSeparated items ++ [']']) (printedItems_rename items)
  | tuple items =>
      have hmany := congrArg (fun items => '(' :: commaSeparated items ++ [')'])
        (printedItems_rename items)
      rcases items with _ | ⟨item, _ | ⟨other, items⟩⟩
      · rfl
      · exact congrArg (fun item => '(' :: item ++ [',', ')']) (printed_rename item)
      · exact hmany
  | record name fields =>
      exact congrArg (fun fields => name ++ '(' :: commaSeparated fields ++ [')'])
        (printedFields_rename fields)
  | dict entries =>
      exact congrArg (fun entries => '\x7b' :: commaSeparated entries ++ ['\x7d'])
        (printedEntries_rename entries)
  | subView template view =>
      exact congrArg (fun view => "SubView(template=".toList ++ Text.quoted template ++
        ", view=".toList ++ view ++ [')']) (printed_rename view)
  | function f receiver bound => cases receiver <;> rfl
  | object o =>
      obtain ⟨_, _, _, items, _, _, _⟩ := o
      cases items <;> rfl
  | _ => rfl

theorem printedItems_rename (items : List Value) :
    printedItems (renameItems ρ items) = printedItems items := by
  cases items with
  | nil => rfl
  | cons item items => exact congrArg₂ List.cons (printed_rename item) (printedItems_rename items)

theorem printedFields_rename (fields : List (Text × Value)) :
    printedFields (renameEntries ρ fields) = printedFields fields := by
  cases fields with
  | nil => rfl
  | cons field fields =>
      obtain ⟨name, value⟩ := field
      exact congrArg₂ (fun value fields => (name ++ '=' :: value) :: fields) (printed_rename value)
        (printedFields_rename fields)

theorem printedEntries_rename (entries : List (Text × Value)) :
    printedEntries (renameEntries ρ entries) = printedEntries entries := by
  cases entries with
  | nil => rfl
  | cons entry entries =>
      obtain ⟨name, value⟩ := entry
      exact congrArg₂
        (fun value entries => (Text.quoted name ++ ": ".toList ++ value) :: entries)
        (printed_rename value) (printedEntries_rename entries)

end

theorem toText_rename (v : Value) : (v.rename ρ).toText = v.toText := by
  cases v with
  | text t => rfl
  | function f receiver bound => cases receiver <;> rfl
  | _ => exact printed_rename ρ _

end Value

/-! ## Objects -/

namespace Object

variable (ρ : Nat → Nat) (o : Object)

theorem attributes_rename :
    (Value.renameObject ρ o).attributes = Value.renameEntries ρ o.attributes := by
  obtain ⟨_, _, _, _, _, _, _⟩ := o
  rw [Value.renameObject_mk, attributes, attributes]

theorem methods_rename :
    (Value.renameObject ρ o).methods =
      o.methods.map fun entry => (entry.1, entry.2.rename ρ) := by
  obtain ⟨_, _, _, _, _, _, _⟩ := o
  rw [Value.renameObject_mk, methods, methods]

theorem properties_rename :
    (Value.renameObject ρ o).properties =
      o.properties.map fun entry => (entry.1, entry.2.rename ρ) := by
  obtain ⟨_, _, _, _, _, _, _⟩ := o
  rw [Value.renameObject_mk, properties, properties]

theorem items_rename :
    (Value.renameObject ρ o).items = o.items.map (Value.renameItems ρ) := by
  obtain ⟨_, _, _, _, _, _, _⟩ := o
  rw [Value.renameObject_mk, items, items]

theorem call_rename : (Value.renameObject ρ o).call = o.call.map (Function.rename ρ) := by
  obtain ⟨_, _, _, _, _, _, _⟩ := o
  rw [Value.renameObject_mk, call, call]

theorem size?_rename : (Value.renameObject ρ o).size? = o.size? := by
  obtain ⟨_, _, _, _, _, _, _⟩ := o
  rw [Value.renameObject_mk, size?, size?]
  rfl

theorem readItems_rename :
    (Value.renameObject ρ o).readItems =
      o.readItems.map fun found => found.map (Value.renameItems ρ) := by
  rw [readItems, readItems, items_rename]
  cases o.items with
  | none => rfl
  | some items =>
      simp only [Option.map_some, size?_rename]
      cases o.size? with
      | error e => rfl
      | ok promised =>
          dsimp only
          split <;> rfl

end Object

namespace Value

variable (ρ : Nat → Nat)

theorem isCallable_rename (v : Value) : (v.rename ρ).isCallable = v.isCallable := by
  cases v with
  | function f receiver bound => cases receiver <;> rfl
  | object o =>
      rw [rename, isCallable, isCallable, Object.call_rename, Option.isSome_map]
  | _ => rfl

end Value

end Whisker
