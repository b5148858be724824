import Mathlib.Data.List.Forall2
import Whisker.Proofs.Render.Iterators

/-! Values that differ only in what their objects keep to themselves. A veil leaves some names of an
object to be seen; what is under the others may be anything, or not there at all. -/

namespace Whisker

/-- Whether a name is for templates to use. Names of dictionaries are so whatever they are. -/
def Text.isPublic (name : Text) : Bool := name.head? ≠ some '_'

theorem none_or_some_of_rel {α β : Type} {R : α → β → Prop} {found : Option α}
    {found' : Option β} (h : Option.Rel R found found') :
    found = none ∧ found' = none ∨ ∃ a b, found = some a ∧ found' = some b ∧ R a b := by
  cases h with
  | none => exact .inl ⟨rfl, rfl⟩
  | some h => exact .inr ⟨_, _, rfl, rfl, h⟩

/-! ## Entries -/

namespace Entries

variable {β γ : Type}

/-- The same names in the same order, with related values. -/
inductive Pairs (R : β → γ → Prop) : Entries β → Entries γ → Prop where
  | nil : Pairs R [] []
  | cons (name) {b c es es'} (h : R b c) (hrest : Pairs R es es') :
      Pairs R ((name, b) :: es) ((name, c) :: es')

/-- The entries of some names only. -/
def shown (S : Text → Bool) (entries : Entries β) : Entries β :=
  entries.filter fun entry => S entry.1

variable {R : β → γ → Prop} {es : Entries β} {es' : Entries γ}

theorem Pairs.get? (h : Pairs R es es') (name : Text) :
    Option.Rel R (es.get? name) (es'.get? name) := by
  induction h with
  | nil => exact .none
  | cons known h _ ih =>
      rw [Entries.get?, Entries.get?]
      split
      · exact .some h
      · exact ih

theorem Pairs.values (h : Pairs R es es') :
    List.Forall₂ R (es.map (·.2)) (es'.map (·.2)) := by
  induction h with
  | nil => exact .nil
  | cons name h _ ih => exact .cons h ih

theorem Pairs.length_eq (h : Pairs R es es') : es'.length = es.length := by
  have hlength := h.values.length_eq
  rwa [List.length_map, List.length_map, eq_comm] at hlength

theorem Pairs.isEmpty_eq (h : Pairs R es es') : es'.isEmpty = es.isEmpty := by
  cases h <;> rfl

theorem Pairs.same {R : β → β → Prop} {es : Entries β} (h : ∀ entry ∈ es, R entry.2 entry.2) :
    Pairs R es es := by
  induction es with
  | nil => exact .nil
  | cons entry es ih =>
      obtain ⟨he, h⟩ := List.forall_mem_cons.mp h
      exact .cons entry.1 he (ih h)

theorem shown_all (es : Entries β) : shown (fun _ => true) es = es :=
  List.filter_eq_self.mpr fun _ _ => rfl

theorem shown_cons (S : Text → Bool) (name : Text) (b : β) (es : Entries β) :
    shown S ((name, b) :: es) = if S name then (name, b) :: shown S es else shown S es :=
  List.filter_cons

theorem get?_shown {S : Text → Bool} {name : Text} (hname : S name = true) (es : Entries β) :
    get? (shown S es) name = get? es name := by
  induction es with
  | nil => rfl
  | cons entry es ih =>
      obtain ⟨known, b⟩ := entry
      rw [shown_cons]
      split
      · rw [get?, get?, ih]
      · rename_i hknown
        have hne : known ≠ name := by
          rintro rfl
          exact hknown hname
        rw [get?, if_neg hne, ih]

/-- What is seen under a name that is shown. -/
theorem Pairs.get?_of_shown {S : Text → Bool} (h : Pairs R (shown S es) (shown S es')) {name : Text}
    (hname : S name = true) : Option.Rel R (es.get? name) (es'.get? name) := by
  have hget := h.get? name
  rwa [get?_shown hname, get?_shown hname] at hget

end Entries

/-! ## Veils -/

/-- The expression reads no members of its receiver but these. -/
inductive Expr.Reads (S : Text → Bool) : Expr → Prop where
  | literal (v) : Reads S (.literal v)
  | argument (i) : Reads S (.argument i)
  | callCount : Reads S .callCount
  | concat {parts} (h : ∀ e ∈ parts, Reads S e) : Reads S (.concat parts)
  | upper {e} (h : Reads S e) : Reads S (.upper e)
  | reverse {e} (h : Reads S e) : Reads S (.reverse e)
  | compute (f) {e} (h : Reads S e) : Reads S (.compute f e)
  | render {e} (h : Reads S e) : Reads S (.render e)
  | member {name} (h : S name = true) : Reads S (.member name)
  | lambda (arity) {body} (h : Reads S body) : Reads S (.lambda arity body)
  | raise (kind message) : Reads S (.raise kind message)

/-- A static method has no receiver to read of. -/
def Method.Reads (S : Text → Bool) : Method → Prop
  | .bound f => f.body.Reads S
  | .static _ => True

def Function.IsBuilt (f : Function) : Prop := ∀ next, f.build.run next = (f, next)

def Method.IsBuilt (m : Method) : Prop := ∀ next, m.build.run next = (m, next)

/-- An object that uses nothing but these names of its own under them, and when it is called. What
it has under other names is built, as values are that live before a rendering: a literal in the code
of a function is the only value that has no identity yet. -/
structure Object.Discreet (S : Text → Bool) (o : Object) : Prop where
  methods : ∀ entry ∈ o.methods, S entry.1 = true → entry.2.Reads S
  properties : ∀ entry ∈ o.properties, S entry.1 = true → entry.2.body.Reads S
  call : ∀ f, o.call = some f → f.body.Reads S
  hidden_attributes : ∀ entry ∈ o.attributes, S entry.1 = false → entry.2.IsBuilt
  hidden_methods : ∀ entry ∈ o.methods, S entry.1 = false → entry.2.IsBuilt
  hidden_properties : ∀ entry ∈ o.properties, S entry.1 = false → entry.2.IsBuilt

mutual

/-- The values are the same, but for what objects have under hidden names. Of the values themselves
the names in the set are shown, of what is inside them all public names, and of a receiver the names
that its function reads. -/
inductive Value.Veiled : (Text → Bool) → Value → Value → Prop where
  | missing {S} : Value.Veiled S .missing .missing
  | null {S} : Value.Veiled S .null .null
  | bool {S} (b) : Value.Veiled S (.bool b) (.bool b)
  | int {S} (i) : Value.Veiled S (.int i) (.int i)
  | float {S} (x) : Value.Veiled S (.float x) (.float x)
  | text {S} (t) : Value.Veiled S (.text t) (.text t)
  | bytes {S} (content) : Value.Veiled S (.bytes content) (.bytes content)
  | buffer {S} (content) : Value.Veiled S (.buffer content) (.buffer content)
  | list {S items items'} (h : List.Forall₂ (Value.Veiled Text.isPublic) items items') :
      Value.Veiled S (.list items) (.list items')
  | tuple {S items items'} (h : List.Forall₂ (Value.Veiled Text.isPublic) items items') :
      Value.Veiled S (.tuple items) (.tuple items')
  | record {S} (name) {fields fields'}
      (h : Entries.Pairs (Value.Veiled Text.isPublic) fields fields') :
      Value.Veiled S (.record name fields) (.record name fields')
  | dict {S entries entries'}
      (h : Entries.Pairs (Value.Veiled Text.isPublic) entries entries') :
      Value.Veiled S (.dict entries) (.dict entries')
  | iterator {S} (id) {items items'}
      (h : List.Forall₂ (Value.Veiled Text.isPublic) items items') :
      Value.Veiled S (.iterator id items) (.iterator id items')
  | subView {S} (template) {view view'} (h : Value.Veiled Text.isPublic view view') :
      Value.Veiled S (.subView template view) (.subView template view')
  | function {S f f'} (bound) (hf : Function.Veiled f f') :
      Value.Veiled S (.function f none bound) (.function f' none bound)
  | method {S X f f' receiver receiver'} (bound) (hf : Function.Veiled f f')
      (hreads : f.body.Reads X) (h : Value.Veiled X receiver receiver') :
      Value.Veiled S (.function f (some receiver) bound) (.function f' (some receiver') bound)
  | renderer {S} : Value.Veiled S .renderer .renderer
  | object {S X o o'} (hX : ∀ name, S name = true → X name = true) (h : Object.Veiled X o o') :
      Value.Veiled S (.object o) (.object o')

inductive Object.Veiled : (Text → Bool) → Object → Object → Prop where
  | mk {S o o'}
      (hattributes : Entries.Pairs (Value.Veiled Text.isPublic) (Entries.shown S o.attributes)
        (Entries.shown S o'.attributes))
      (hmethods : Entries.Pairs Method.Veiled (Entries.shown S o.methods)
        (Entries.shown S o'.methods))
      (hproperties : Entries.Pairs Function.Veiled (Entries.shown S o.properties)
        (Entries.shown S o'.properties))
      (hitems : Option.Rel (List.Forall₂ (Value.Veiled Text.isPublic)) o.items o'.items)
      (hlength : o'.length = o.length) (hcall : Option.Rel Function.Veiled o.call o'.call)
      (hprinted : o'.printed = o.printed) (hdiscreet : o.Discreet S) (hdiscreet' : o'.Discreet S) :
      Object.Veiled S o o'

inductive Method.Veiled : Method → Method → Prop where
  | bound {f f'} (h : Function.Veiled f f') : Method.Veiled (.bound f) (.bound f')
  | static {f f'} (h : Function.Veiled f f') : Method.Veiled (.static f) (.static f')

inductive Function.Veiled : Function → Function → Prop where
  | mk (id arity) {body body'} (h : Expr.Veiled body body') :
      Function.Veiled (.mk id arity body) (.mk id arity body')

/-- Objects in the literals of the code may differ as well. -/
inductive Expr.Veiled : Expr → Expr → Prop where
  | literal {v w} (h : Value.Veiled Text.isPublic v w) : Expr.Veiled (.literal v) (.literal w)
  | argument (i) : Expr.Veiled (.argument i) (.argument i)
  | callCount : Expr.Veiled .callCount .callCount
  | concat {parts parts'} (h : List.Forall₂ Expr.Veiled parts parts') :
      Expr.Veiled (.concat parts) (.concat parts')
  | upper {e e'} (h : Expr.Veiled e e') : Expr.Veiled (.upper e) (.upper e')
  | reverse {e e'} (h : Expr.Veiled e e') : Expr.Veiled (.reverse e) (.reverse e')
  | compute (f) {e e'} (h : Expr.Veiled e e') : Expr.Veiled (.compute f e) (.compute f e')
  | render {e e'} (h : Expr.Veiled e e') : Expr.Veiled (.render e) (.render e')
  | member (name) : Expr.Veiled (.member name) (.member name)
  | lambda (arity) {body body'} (h : Expr.Veiled body body') :
      Expr.Veiled (.lambda arity body) (.lambda arity body')
  | raise (kind message) : Expr.Veiled (.raise kind message) (.raise kind message)

end

/-- The same values for whoever uses public names only. -/
abbrev Value.SameOutside (v w : Value) : Prop := v.Veiled Text.isPublic w

/-! ## The same value -/

theorem Expr.reads_all (e : Expr) : e.Reads fun _ => true := by
  cases e with
  | concat parts => exact .concat fun e he => Expr.reads_all e
  | upper e => exact .upper (Expr.reads_all e)
  | reverse e => exact .reverse (Expr.reads_all e)
  | compute f e => exact .compute f (Expr.reads_all e)
  | render e => exact .render (Expr.reads_all e)
  | member name => exact .member rfl
  | lambda arity body => exact .lambda arity (Expr.reads_all body)
  | _ => constructor
termination_by sizeOf e

theorem Object.discreet_all (o : Object) : o.Discreet fun _ => true := by
  refine ⟨fun entry _ _ => ?_, fun entry _ _ => ?_, fun f _ => ?_, ?_, ?_, ?_⟩
  · cases entry.2 with
    | bound f => exact Expr.reads_all f.body
    | static f => trivial
  · exact Expr.reads_all entry.2.body
  · exact Expr.reads_all f.body
  all_goals exact fun _ _ h => nomatch h

mutual

/-- With any veil a value is the same as itself. -/
theorem Value.Veiled.refl (S : Text → Bool) (v : Value) : v.Veiled S v := by
  cases v with
  | list items => exact .list (List.forall₂_same.mpr fun v hv => Value.Veiled.refl _ v)
  | tuple items => exact .tuple (List.forall₂_same.mpr fun v hv => Value.Veiled.refl _ v)
  | record name fields =>
      refine .record name (.same fun field hf => ?_)
      have := Entries.sizeOf_lt_of_mem hf
      exact Value.Veiled.refl _ field.2
  | dict entries =>
      refine .dict (.same fun entry he => ?_)
      have := Entries.sizeOf_lt_of_mem he
      exact Value.Veiled.refl _ entry.2
  | iterator id items =>
      exact .iterator id (List.forall₂_same.mpr fun v hv => Value.Veiled.refl _ v)
  | subView template view => exact .subView template (Value.Veiled.refl _ view)
  | function f receiver bound =>
      cases receiver with
      | none => exact .function bound (Function.Veiled.refl f)
      | some receiver =>
          exact .method bound (Function.Veiled.refl f) (Expr.reads_all f.body)
            (Value.Veiled.refl _ receiver)
  | object o => exact .object (fun _ _ => rfl) (Object.Veiled.refl o)
  | _ => constructor
termination_by sizeOf v

theorem Object.Veiled.refl (o : Object) : o.Veiled (fun _ => true) o := by
  have hdiscreet := o.discreet_all
  obtain ⟨attributes, methods, properties, items, length, call, printed⟩ := o
  refine .mk ?_ ?_ ?_ ?_ rfl ?_ rfl hdiscreet hdiscreet
  · rw [Entries.shown_all]
    refine .same fun entry he => ?_
    have : sizeOf entry.2 < sizeOf attributes := Entries.sizeOf_lt_of_mem he
    exact Value.Veiled.refl _ entry.2
  · rw [Entries.shown_all]
    refine .same fun entry he => ?_
    have : sizeOf entry.2 < sizeOf methods := Entries.sizeOf_lt_of_mem he
    exact Method.Veiled.refl entry.2
  · rw [Entries.shown_all]
    refine .same fun entry he => ?_
    have : sizeOf entry.2 < sizeOf properties := Entries.sizeOf_lt_of_mem he
    exact Function.Veiled.refl entry.2
  · cases items with
    | none => exact .none
    | some items => exact .some (List.forall₂_same.mpr fun v hv => Value.Veiled.refl _ v)
  · cases call with
    | none => exact .none
    | some f => exact .some (Function.Veiled.refl f)
termination_by sizeOf o

theorem Method.Veiled.refl (m : Method) : m.Veiled m := by
  cases m with
  | bound f => exact .bound (Function.Veiled.refl f)
  | static f => exact .static (Function.Veiled.refl f)
termination_by sizeOf m

theorem Function.Veiled.refl (f : Function) : f.Veiled f := by
  cases f with
  | mk id arity body => exact .mk id arity (Expr.Veiled.refl body)
termination_by sizeOf f

theorem Expr.Veiled.refl (e : Expr) : e.Veiled e := by
  cases e with
  | literal v => exact .literal (Value.Veiled.refl _ v)
  | concat parts => exact .concat (List.forall₂_same.mpr fun e he => Expr.Veiled.refl e)
  | upper e => exact .upper (Expr.Veiled.refl e)
  | reverse e => exact .reverse (Expr.Veiled.refl e)
  | compute f e => exact .compute f (Expr.Veiled.refl e)
  | render e => exact .render (Expr.Veiled.refl e)
  | lambda arity body => exact .lambda arity (Expr.Veiled.refl body)
  | _ => constructor
termination_by sizeOf e

end

/-! ## What shows -/

namespace Object.Veiled

variable {S : Text → Bool} {o o' : Object}

theorem items (h : o.Veiled S o') :
    Option.Rel (List.Forall₂ Value.SameOutside) o.items o'.items := by
  cases h with
  | mk _ _ _ hitems _ _ _ _ _ => exact hitems

theorem length_eq (h : o.Veiled S o') : o'.length = o.length := by
  cases h with
  | mk _ _ _ _ hlength _ _ _ _ => exact hlength

theorem call (h : o.Veiled S o') : Option.Rel Function.Veiled o.call o'.call := by
  cases h with
  | mk _ _ _ _ _ hcall _ _ _ => exact hcall

theorem printed_eq (h : o.Veiled S o') : o'.printed = o.printed := by
  cases h with
  | mk _ _ _ _ _ _ hprinted _ _ => exact hprinted

theorem discreet (h : o.Veiled S o') : o.Discreet S := by
  cases h with
  | mk _ _ _ _ _ _ _ hdiscreet _ => exact hdiscreet

theorem size?_eq (h : o.Veiled S o') : o'.size? = o.size? := by
  rw [size?, size?, h.length_eq]

end Object.Veiled

theorem Function.Veiled.arity_eq {f f' : Function} (h : f.Veiled f') : f'.arity = f.arity := by
  cases h
  rfl

namespace Value.Veiled

variable {S : Text → Bool} {v w : Value}

theorem isMissing_eq (h : v.Veiled S w) : w.isMissing = v.isMissing := by
  cases h <;> rfl

theorem isNothing_eq (h : v.Veiled S w) : w.isNothing = v.isNothing := by
  cases h with
  | list h => cases h <;> rfl
  | tuple h => cases h <;> rfl
  | record _ h => exact h.isEmpty_eq
  | dict h => exact h.isEmpty_eq
  | object _ h => rw [isNothing, isNothing, h.length_eq]
  | _ => rfl

theorem isCallable_eq (h : v.Veiled S w) : w.isCallable = v.isCallable := by
  cases h with
  | object _ h =>
      obtain ⟨hc, hc'⟩ | ⟨f, f', hc, hc', -⟩ := none_or_some_of_rel h.call
      · rw [isCallable, isCallable, hc, hc']
      · rw [isCallable, isCallable, hc, hc']
        rfl
  | _ => rfl

end Value.Veiled

namespace Value

theorem printedItems_eq {R : Value → Value → Prop} {items items' : List Value}
    (h : List.Forall₂ R items items')
    (hR : ∀ v ∈ items, ∀ w, R v w → w.printed = v.printed) :
    printedItems items' = printedItems items := by
  induction h with
  | nil => rfl
  | cons h _ ih =>
      obtain ⟨hitem, hR⟩ := List.forall_mem_cons.mp hR
      rw [printedItems, printedItems, hitem _ h, ih hR]

theorem printedFields_eq {R : Value → Value → Prop} {fields fields' : Entries Value}
    (h : Entries.Pairs R fields fields')
    (hR : ∀ field ∈ fields, ∀ w, R field.2 w → w.printed = field.2.printed) :
    printedFields fields' = printedFields fields := by
  induction h with
  | nil => rfl
  | cons name h _ ih =>
      obtain ⟨hfield, hR⟩ := List.forall_mem_cons.mp hR
      rw [printedFields, printedFields, hfield _ h, ih hR]

theorem printedEntries_eq {R : Value → Value → Prop} {entries entries' : Entries Value}
    (h : Entries.Pairs R entries entries')
    (hR : ∀ entry ∈ entries, ∀ w, R entry.2 w → w.printed = entry.2.printed) :
    printedEntries entries' = printedEntries entries := by
  induction h with
  | nil => rfl
  | cons name h _ ih =>
      obtain ⟨hentry, hR⟩ := List.forall_mem_cons.mp hR
      rw [printedEntries, printedEntries, hentry _ h, ih hR]

theorem Veiled.printed_eq {S : Text → Bool} {v w : Value} (h : v.Veiled S w) :
    w.printed = v.printed := by
  cases h with
  | list h =>
      have hitems := printedItems_eq h fun v hv w hvw => Veiled.printed_eq hvw
      exact congrArg (fun items => '[' :: commaSeparated items ++ [']']) hitems
  | tuple h =>
      have hitems := printedItems_eq h fun v hv w hvw => Veiled.printed_eq hvw
      have hmany := congrArg (fun items => '(' :: commaSeparated items ++ [')']) hitems
      cases h with
      | nil => rfl
      | cons hitem hrest =>
          cases hrest with
          | nil => exact congrArg (fun item => '(' :: item ++ [',', ')']) (Veiled.printed_eq hitem)
          | cons => exact hmany
  | record name h =>
      have hfields := printedFields_eq h fun field hf w hw => by
        have := Entries.sizeOf_lt_of_mem hf
        exact Veiled.printed_eq hw
      exact congrArg (fun fields => name ++ '(' :: commaSeparated fields ++ [')']) hfields
  | dict h =>
      have hentries := printedEntries_eq h fun entry he w hw => by
        have := Entries.sizeOf_lt_of_mem he
        exact Veiled.printed_eq hw
      exact congrArg (fun entries => '\x7b' :: commaSeparated entries ++ ['\x7d']) hentries
  | subView template h =>
      exact congrArg (fun view => "SubView(template=".toList ++ Text.quoted template ++
        ", view=".toList ++ view ++ [')']) (Veiled.printed_eq h)
  | object _ h => exact h.printed_eq
  | _ => rfl
termination_by sizeOf v

theorem Veiled.toText_eq {S : Text → Bool} {v w : Value} (h : v.Veiled S w) :
    w.toText = v.toText := by
  have hprinted := h.printed_eq
  cases h with
  | text t => rfl
  | _ => exact hprinted

end Value

end Whisker
