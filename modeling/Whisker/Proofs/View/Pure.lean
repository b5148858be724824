import Whisker.Proofs.View.Rename

/-! Pure values: calling what is inside them gives the same each time, and tells nothing of how
often it was called. A ledger tells the identities that may be inside. -/

namespace Whisker

/-- The identities of a rendering. -/
structure Ledger where
  /-- Those below `bound` are of what was built before. -/
  bound : Nat
  /-- Those from `start` to `next` were handed out since. -/
  start : Nat
  next : Nat
  /-- What the iterators that were built before held. -/
  held : Nat → List Value
  /-- Iterators that were built before may be met. -/
  iterators : Prop
  /-- Sub-views may share them. -/
  shared : Prop
  /-- Functions that were built before and may be called more often in one run than in another. -/
  quiet : Nat → Prop
  /-- Other functions that were built before may be called as well. -/
  others : Prop

namespace Expr

/-- Evaluating the expression does not look at the number of calls. -/
inductive Countless : Expr → Prop where
  | literal (v) : Countless (.literal v)
  | argument (i) : Countless (.argument i)
  | concat {parts} (h : ∀ e ∈ parts, Countless e) : Countless (.concat parts)
  | upper {e} (h : Countless e) : Countless (.upper e)
  | reverse {e} (h : Countless e) : Countless (.reverse e)
  | compute (f) {e} (h : Countless e) : Countless (.compute f e)
  | render {e} (h : Countless e) : Countless (.render e)
  | member (name) : Countless (.member name)
  | lambda (arity body) : Countless (.lambda arity body)
  | raise (kind message) : Countless (.raise kind message)

end Expr

namespace Ledger

/-- An identity that may be inside a value. -/
def Has (l : Ledger) (n : Nat) : Prop := n < l.bound ∨ l.start ≤ n ∧ n < l.next

/-- A function with this body may be called if it was built before. -/
def Calls (l : Ledger) (n : Nat) (body : Expr) : Prop :=
  (l.quiet n → body.Countless) ∧ (l.others ∨ l.quiet n)

/-- The ledger when identities up to `next` are handed out. -/
def upTo (l : Ledger) (next : Nat) : Ledger := { l with next }

/-- The ledger before identities were handed out. -/
def past (l : Ledger) : Ledger := l.upTo l.start

/-- The ledger of what is inside sub-views. -/
def inside (l : Ledger) : Ledger := { l with iterators := l.iterators ∧ l.shared }

end Ledger

mutual

/-- A value that is pure as far as the ledger goes. -/
inductive Value.Pure : Ledger → Value → Prop where
  | missing {l} : Value.Pure l .missing
  | null {l} : Value.Pure l .null
  | bool {l} (b) : Value.Pure l (.bool b)
  | int {l} (i) : Value.Pure l (.int i)
  | float {l} (x) : Value.Pure l (.float x)
  | text {l} (t) : Value.Pure l (.text t)
  | bytes {l} (content) : Value.Pure l (.bytes content)
  | buffer {l} (content) : Value.Pure l (.buffer content)
  | list {l items} (h : ∀ v ∈ items, Value.Pure l v) : Value.Pure l (.list items)
  | tuple {l items} (h : ∀ v ∈ items, Value.Pure l v) : Value.Pure l (.tuple items)
  | record {l} (name) {fields} (h : ∀ field ∈ fields, Value.Pure l field.2) :
      Value.Pure l (.record name fields)
  | dict {l entries} (h : ∀ entry ∈ entries, Value.Pure l entry.2) : Value.Pure l (.dict entries)
  | iterator {l id items} (hid : ∀ n, id = some n → l.Has n)
      (ho : ∀ n, id = some n → n < l.bound → l.iterators ∧ items = l.held n)
      (h : ∀ v ∈ items, Value.Pure l v) : Value.Pure l (.iterator id items)
  | subView {l} (template) {view} (h : Value.Pure l.inside view) :
      Value.Pure l (.subView template view)
  | function {l f receiver} (bound) (hf : Function.Pure l f)
      (h : ∀ v, receiver = some v → Value.Pure l v) : Value.Pure l (.function f receiver bound)
  | renderer {l} : Value.Pure l .renderer
  | object {l o} (h : Object.Pure l o) : Value.Pure l (.object o)

inductive Object.Pure : Ledger → Object → Prop where
  | mk {l attributes methods properties items call} (length printed)
      (hattributes : ∀ entry ∈ attributes, Value.Pure l entry.2)
      (hmethods : ∀ entry ∈ methods, Method.Pure l entry.2)
      (hproperties : ∀ entry ∈ properties, Function.Pure l entry.2)
      (hitems : ∀ vs, items = some vs → ∀ v ∈ vs, Value.Pure l v)
      (hcall : ∀ f, call = some f → Function.Pure l f) :
      Object.Pure l (.mk attributes methods properties items length call printed)

inductive Method.Pure : Ledger → Method → Prop where
  | bound {l f} (h : Function.Pure l f) : Method.Pure l (.bound f)
  | static {l f} (h : Function.Pure l f) : Method.Pure l (.static f)

inductive Function.Pure : Ledger → Function → Prop where
  | mk {l id body} (arity) (hid : ∀ n, id = some n → l.Has n)
      (hc : ∀ n, id = some n → n < l.bound → l.Calls n body) (h : Expr.Pure l body) :
      Function.Pure l (.mk id arity body)

/-- Literals were written before any identities were handed out. -/
inductive Expr.Pure : Ledger → Expr → Prop where
  | literal {l v} (h : Value.Pure l.past v) : Expr.Pure l (.literal v)
  | argument {l} (i) : Expr.Pure l (.argument i)
  | callCount {l} : Expr.Pure l .callCount
  | concat {l parts} (h : ∀ e ∈ parts, Expr.Pure l e) : Expr.Pure l (.concat parts)
  | upper {l e} (h : Expr.Pure l e) : Expr.Pure l (.upper e)
  | reverse {l e} (h : Expr.Pure l e) : Expr.Pure l (.reverse e)
  | compute {l} (f) {e} (h : Expr.Pure l e) : Expr.Pure l (.compute f e)
  | render {l e} (h : Expr.Pure l e) : Expr.Pure l (.render e)
  | member {l} (name) : Expr.Pure l (.member name)
  | lambda {l} (arity) {body} (h : Expr.Pure l body) : Expr.Pure l (.lambda arity body)
  | raise {l} (kind message) : Expr.Pure l (.raise kind message)

end

/-! ## Larger ledgers -/

/-- Whatever one ledger allows, the other one does. -/
structure Ledger.Le (l l' : Ledger) : Prop where
  bound : l'.bound = l.bound
  held : l'.held = l.held
  quiet : l'.quiet = l.quiet
  has : ∀ n, l.Has n → l'.Has n
  iterators : l.iterators → l'.iterators
  shared : l.shared → l'.shared
  others : l.others → l'.others

namespace Ledger.Le

variable {l l' : Ledger}

theorem past_has {n : Nat} : l.past.Has n ↔ n < l.bound := by
  simp only [past, upTo, Has]
  omega

theorem past (h : l.Le l') : l.past.Le l'.past := by
  refine ⟨h.bound, h.held, h.quiet, fun n hn => ?_, h.iterators, h.shared, h.others⟩
  rw [past_has] at hn ⊢
  rw [h.bound]
  exact hn

theorem inside (h : l.Le l') : l.inside.Le l'.inside :=
  ⟨h.bound, h.held, h.quiet, h.has, And.imp h.iterators h.shared, h.shared, h.others⟩

theorem inside_le (l : Ledger) : l.inside.Le l :=
  ⟨rfl, rfl, rfl, fun _ h => h, And.left, id, id⟩

theorem upTo {next later : Nat} (h : next ≤ later) : (l.upTo next).Le (l.upTo later) := by
  refine ⟨rfl, rfl, rfl, fun n hn => ?_, id, id, id⟩
  simp only [Ledger.upTo, Has] at hn ⊢
  omega

/-- What was there before goes on being there. -/
theorem past_upTo (next : Nat) : l.past.Le (l.upTo next) :=
  ⟨rfl, rfl, rfl, fun _ hn => .inl (past_has.mp hn), id, id, id⟩

theorem calls (h : l.Le l') {n : Nat} {body : Expr} (hc : l.Calls n body) : l'.Calls n body := by
  rw [Calls, h.quiet]
  exact ⟨hc.1, hc.2.imp_left h.others⟩

end Ledger.Le

mutual

theorem Value.Pure.mono {l l' : Ledger} (hl : l.Le l') {v : Value} : v.Pure l → v.Pure l'
  | .missing => .missing
  | .null => .null
  | .bool b => .bool b
  | .int i => .int i
  | .float x => .float x
  | .text t => .text t
  | .bytes content => .bytes content
  | .buffer content => .buffer content
  | .list h => .list fun v hv => (h v hv).mono hl
  | .tuple h => .tuple fun v hv => (h v hv).mono hl
  | .record name h => .record name fun field hf => (h field hf).mono hl
  | .dict h => .dict fun entry he => (h entry he).mono hl
  | .iterator hid ho h =>
      .iterator (fun n hn => hl.has n (hid n hn))
        (fun n hn hlt => by
          rw [hl.held]
          exact (ho n hn (hl.bound ▸ hlt)).imp_left hl.iterators)
        fun v hv => (h v hv).mono hl
  | .subView template h => .subView template (h.mono hl.inside)
  | .function bound hf h => .function bound (hf.mono hl) fun v hv => (h v hv).mono hl
  | .renderer => .renderer
  | .object h => .object (h.mono hl)

theorem Object.Pure.mono {l l' : Ledger} (hl : l.Le l') {o : Object} : o.Pure l → o.Pure l'
  | .mk length printed hattributes hmethods hproperties hitems hcall =>
      .mk length printed (fun entry he => (hattributes entry he).mono hl)
        (fun entry he => (hmethods entry he).mono hl)
        (fun entry he => (hproperties entry he).mono hl)
        (fun vs hvs v hv => (hitems vs hvs v hv).mono hl) fun f hf => (hcall f hf).mono hl

theorem Method.Pure.mono {l l' : Ledger} (hl : l.Le l') {m : Method} : m.Pure l → m.Pure l'
  | .bound h => .bound (h.mono hl)
  | .static h => .static (h.mono hl)

theorem Function.Pure.mono {l l' : Ledger} (hl : l.Le l') {f : Function} : f.Pure l → f.Pure l'
  | .mk arity hid hc h =>
      .mk arity (fun n hn => hl.has n (hid n hn))
        (fun n hn hlt => hl.calls (hc n hn (hl.bound ▸ hlt))) (h.mono hl)

theorem Expr.Pure.mono {l l' : Ledger} (hl : l.Le l') {e : Expr} : e.Pure l → e.Pure l'
  | .literal h => .literal (h.mono hl.past)
  | .argument i => .argument i
  | .callCount => .callCount
  | .concat h => .concat fun e he => (h e he).mono hl
  | .upper h => .upper (h.mono hl)
  | .reverse h => .reverse (h.mono hl)
  | .compute f h => .compute f (h.mono hl)
  | .render h => .render (h.mono hl)
  | .member name => .member name
  | .lambda arity h => .lambda arity (h.mono hl)
  | .raise kind message => .raise kind message

end

variable {l : Ledger}

namespace Object.Pure

variable {o : Object}

theorem attributes (h : o.Pure l) : ∀ entry ∈ o.attributes, entry.2.Pure l := by
  cases h with
  | mk _ _ hattributes _ _ _ _ => exact hattributes

theorem methods (h : o.Pure l) : ∀ entry ∈ o.methods, entry.2.Pure l := by
  cases h with
  | mk _ _ _ hmethods _ _ _ => exact hmethods

theorem properties (h : o.Pure l) : ∀ entry ∈ o.properties, entry.2.Pure l := by
  cases h with
  | mk _ _ _ _ hproperties _ _ => exact hproperties

theorem items (h : o.Pure l) : ∀ vs, o.items = some vs → ∀ v ∈ vs, v.Pure l := by
  cases h with
  | mk _ _ _ _ _ hitems _ => exact hitems

theorem call (h : o.Pure l) : ∀ f, o.call = some f → f.Pure l := by
  cases h with
  | mk _ _ _ _ _ _ hcall => exact hcall

end Object.Pure

/-! ## Renaming -/

/-- A renaming that moves only identities that were handed out does nothing to older values. -/
theorem Function.Pure.rename_eq_self {ρ : Nat → Nat} (hρ : ∀ n, l.Has n → ρ n = n) {f : Function}
    (h : f.Pure l) : f.rename ρ = f := by
  obtain ⟨arity, hid, -, -⟩ := h
  rename_i id body
  have hsame : id.map ρ = id := by
    cases id with
    | none => rfl
    | some n => exact congrArg some (hρ n (hid n rfl))
  rw [Function.rename, hsame]

theorem Method.Pure.rename_eq_self {ρ : Nat → Nat} (hρ : ∀ n, l.Has n → ρ n = n) {m : Method}
    (h : m.Pure l) : m.rename ρ = m := by
  cases h with
  | bound h => exact congrArg _ (h.rename_eq_self hρ)
  | static h => exact congrArg _ (h.rename_eq_self hρ)

theorem map_items_eq_self {α : Type} {g : α → α} {items : List α} (h : ∀ a ∈ items, g a = a) :
    items.map g = items :=
  (List.map_congr_left h).trans (List.map_id' _)

theorem map_entries_eq_self {β : Type} {g : β → β} {entries : Entries β}
    (h : ∀ entry ∈ entries, g entry.2 = entry.2) :
    entries.map (fun entry => (entry.1, g entry.2)) = entries :=
  map_items_eq_self fun entry he => Prod.ext rfl (h entry he)

theorem map_found_eq_self {α : Type} {g : α → α} {found : Option α}
    (h : ∀ a, found = some a → g a = a) : found.map g = found := by
  cases found with
  | none => rfl
  | some a => exact congrArg some (h a rfl)

mutual

theorem Value.Pure.rename_eq_self {ρ : Nat → Nat} {l : Ledger} (hρ : ∀ n, l.Has n → ρ n = n)
    {v : Value} : v.Pure l → v.rename ρ = v
  | .missing | .null | .bool _ | .int _ | .float _ | .text _ | .bytes _ | .buffer _
  | .renderer => rfl
  | .list h => by
      have hitems := map_items_eq_self fun v hv => (h v hv).rename_eq_self hρ
      rw [Value.rename, Value.renameItems_eq_map, hitems]
  | .tuple h => by
      have hitems := map_items_eq_self fun v hv => (h v hv).rename_eq_self hρ
      rw [Value.rename, Value.renameItems_eq_map, hitems]
  | .record name h => by
      have hfields := map_entries_eq_self fun field hf => (h field hf).rename_eq_self hρ
      rw [Value.rename, Value.renameEntries_eq_map, hfields]
  | .dict h => by
      have hentries := map_entries_eq_self fun entry he => (h entry he).rename_eq_self hρ
      rw [Value.rename, Value.renameEntries_eq_map, hentries]
  | .iterator hid _ h => by
      have hitems := map_items_eq_self fun v hv => (h v hv).rename_eq_self hρ
      have hsame := map_found_eq_self fun n hn => hρ n (hid n hn)
      rw [Value.rename, Value.renameItems_eq_map, hitems, hsame]
  | .subView template h => by
      have hinside : ∀ n, l.inside.Has n → ρ n = n := hρ
      rw [Value.rename, h.rename_eq_self hinside]
  | .function bound hf h => by
      have hreceiver := map_found_eq_self fun v hv => (h v hv).rename_eq_self hρ
      rw [Value.rename_function, hf.rename_eq_self hρ, hreceiver]
  | .object h => by rw [Value.rename, h.rename_eq_self hρ]

theorem Object.Pure.rename_eq_self {ρ : Nat → Nat} {l : Ledger} (hρ : ∀ n, l.Has n → ρ n = n)
    {o : Object} : o.Pure l → Value.renameObject ρ o = o
  | .mk length printed hattributes hmethods hproperties hitems hcall => by
      have ha := map_entries_eq_self fun entry he => (hattributes entry he).rename_eq_self hρ
      have hm := map_entries_eq_self fun entry he => (hmethods entry he).rename_eq_self hρ
      have hp := map_entries_eq_self fun entry he => (hproperties entry he).rename_eq_self hρ
      have hi := map_found_eq_self fun vs hvs => (Value.renameItems_eq_map ρ vs).trans
        (map_items_eq_self fun v hv => (hitems vs hvs v hv).rename_eq_self hρ)
      have hc := map_found_eq_self fun f hf => (hcall f hf).rename_eq_self hρ
      rw [Value.renameObject_mk, Value.renameEntries_eq_map, ha, hm, hp, hi, hc]

end

end Whisker
