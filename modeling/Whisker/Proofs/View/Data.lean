import Mathlib
import Whisker.Proofs.Fallible
import Whisker.Proofs.Text.Numeral
import Whisker.Scope

/-! Names in plain data. Resolving one gives a value or says that there is none, as long as each of
its parts that asks for an item of a sequence can be read as a number. -/

namespace Whisker

/-! ## Digits and paddings -/

namespace Text

/-- The code points of the blanks. -/
def blankCodes : List Nat :=
  List.range' 0x09 5 ++ List.range' 0x1c 5 ++ [0x85, 0xa0, 0x1680] ++ List.range' 0x2000 11 ++
    [0x2028, 0x2029, 0x202f, 0x205f, 0x3000]

theorem mem_blankCodes {c : Char} (h : isBlank c = true) : c.toNat ∈ blankCodes := by
  simp only [isBlank, Bool.or_eq_true, Bool.and_eq_true, decide_eq_true_eq, beq_iff_eq] at h
  simp only [blankCodes, List.mem_append, List.mem_range'_1, List.mem_cons, List.not_mem_nil]
  omega

theorem digits_of_mem_blankCodes : ∀ n ∈ blankCodes,
    (decimalZeros.find? fun start => start ≤ n && n < start + 10) = none ∧
      (otherDigitRanges.any fun (low, high) => low ≤ n && n ≤ high) = false := by decide

theorem not_isBlank_of_isDigit {c : Char} (h : isDigit c = true) : isBlank c = false := by
  by_contra hb
  obtain ⟨hdecimal, hother⟩ :=
    digits_of_mem_blankCodes c.toNat (mem_blankCodes (Bool.not_eq_false _ ▸ hb))
  rw [isDigit, decimalValue?, inRanges, hdecimal, hother] at h
  cases h

end Text

namespace Value

theorem not_isPadding_of_asksForItem {key : Text} (h : asksForItem key = true) :
    ∀ c ∈ key, Text.isPadding c = false := by
  intro c hc
  have hdigits := (Bool.and_eq_true_iff.mp h).2
  rw [← List.takeWhile_append_dropWhile (p := (· = '-')) (l := key)] at hc
  rcases List.mem_append.mp hc with hc | hc
  · have hminus := List.mem_takeWhile_imp hc
    rw [decide_eq_true_eq] at hminus
    rw [hminus]
    rfl
  · have hblank := Text.not_isBlank_of_isDigit (List.all_eq_true.mp hdigits c hc)
    simp [Text.isPadding, hblank]

/-- An item is asked for by a numeral that can be read, or the lookup fails. -/
theorem exists_readInteger_of_asksForItem {key : Text} (h : asksForItem key = true) :
    (∃ i, Text.readInteger 10 key = .ok i) ↔ Text.isNumeral key = true :=
  Text.exists_readInteger_iff (not_isPadding_of_asksForItem h)

theorem item_of_readInteger (items : List Value) {key : Text} {i : Int}
    (h : Text.readInteger 10 key = .ok i) :
    item items key = pure ((itemAt? items i).getD .missing) := by
  rw [item, h]

theorem run_item_of_not_isNumeral (items : List Value) {key : Text} (h : asksForItem key = true)
    (hn : Text.isNumeral key = false) (store : Store) :
    ∃ e, (item items key).run store = (.error e, store) := by
  have hread := mt (exists_readInteger_of_asksForItem h).mp (by simp [hn])
  unfold item
  split
  · rename_i i hi
    exact absurd ⟨i, hi⟩ hread
  · exact ⟨_, rfl⟩
  · exact ⟨_, rfl⟩

/-! ## Data -/

/-- Scalars, and lists, tuples and dictionaries of such data. -/
inductive IsData : Value → Prop where
  | null : IsData .null
  | bool (b) : IsData (.bool b)
  | int (i) : IsData (.int i)
  | float (x) : IsData (.float x)
  | text (t) : IsData (.text t)
  | bytes (content) : IsData (.bytes content)
  | buffer (content) : IsData (.buffer content)
  | list {items} (h : ∀ v ∈ items, IsData v) : IsData (.list items)
  | tuple {items} (h : ∀ v ∈ items, IsData v) : IsData (.tuple items)
  | dict {entries} (h : ∀ entry ∈ entries, IsData entry.2) : IsData (.dict entries)

/-- Data, or the mark that there is none. -/
def Found (v : Value) : Prop := v = .missing ∨ v.IsData

end Value

open Value (IsData Found asksForItem)

/-- The step finds data or nothing, and leaves the store as it is. -/
def Run.Finds (x : Run Value) : Prop := ∀ store, ∃ v, Found v ∧ x.run store = (.ok v, store)

namespace Run.Finds

theorem pure {v : Value} (h : Found v) : Finds (Pure.pure v) := fun _ => ⟨v, h, rfl⟩

theorem bind {x : Run Value} {f : Value → Run Value} (h : Finds x)
    (hf : ∀ v, Found v → Finds (f v)) : Finds (x >>= f) := by
  intro store
  obtain ⟨v, hv, hx⟩ := h store
  obtain ⟨w, hw, hf⟩ := hf v hv store
  refine ⟨w, hw, ?_⟩
  rw [Fallible.run_bind, hx]
  exact hf

end Run.Finds

open Run (Finds)

namespace Value

variable {key : Text} (hk : asksForItem key = true → Text.isNumeral key = true)
include hk

theorem item_finds {items : List Value} (h : ∀ v ∈ items, IsData v)
    (ha : asksForItem key = true) : Finds (item items key) := by
  obtain ⟨i, hi⟩ := (exists_readInteger_of_asksForItem ha).mpr (hk ha)
  rw [item_of_readInteger items hi]
  apply Finds.pure
  cases hitem : itemAt? items i with
  | none => exact .inl rfl
  | some v => exact .inr (h v (mem_of_itemAt? hitem))

theorem lookup_finds {v : Value} (h : v.IsData) (depth : Nat) : Finds (v.lookup depth key) := by
  cases h with
  | list h | tuple h =>
      simp only [lookup]
      split
      · exact item_finds hk h ‹_›
      · exact .pure (.inl rfl)
  | @dict entries h =>
      apply Finds.pure
      cases hf : Entries.get? entries key with
      | none => exact .inl rfl
      | some v => exact .inr (h _ (Entries.mem_of_get? hf))
  | _ => exact .pure (.inl rfl)

end Value

/-! ## Names -/

namespace Scope

theorem settle_of_isData {v : Value} (h : v.IsData) : settle v = pure v := by
  cases h <;> rfl

theorem settle_finds {v : Value} (h : Found v) : Finds (settle v) := by
  rcases h with rfl | h
  · exact .pure (.inl rfl)
  · rw [settle_of_isData h]
    exact .pure (.inr h)

theorem resolveHead_finds {key : Text} (hk : asksForItem key = true → Text.isNumeral key = true)
    {scope : Scope} (h : ∀ frame ∈ scope, frame.value.IsData) (depth : Nat) :
    Finds (resolveHead depth key scope) := by
  induction scope with
  | nil => exact .pure (.inl rfl)
  | cons frame frames ih =>
      obtain ⟨hv, h⟩ := List.forall_mem_cons.mp h
      rw [resolveHead]
      split
      · exact .pure (.inr hv)
      · refine .bind (Value.lookup_finds hk hv depth) fun v hv => ?_
        split
        · exact ih h
        · exact .pure hv

theorem descend_finds {keys : List Text}
    (hk : ∀ key ∈ keys, asksForItem key = true → Text.isNumeral key = true) {v : Value}
    (h : Found v) (depth : Nat) : Finds (descend depth v keys) := by
  induction keys generalizing v with
  | nil => exact .pure h
  | cons key keys ih =>
      obtain ⟨hkey, hk⟩ := List.forall_mem_cons.mp hk
      rw [descend]
      rcases h with rfl | h
      · exact .pure (.inl rfl)
      · split
        · exact .pure (.inr h)
        · rw [settle_of_isData h, pure_bind]
          exact .bind (Value.lookup_finds hkey h depth) fun w hw => ih hk hw

theorem resolve_finds {name : Text}
    (hk : ∀ key ∈ Text.pieces (· = '.') name, asksForItem key = true → Text.isNumeral key = true)
    {scope : Scope} (h : ∀ frame ∈ scope, frame.value.IsData) (depth : Nat) :
    Finds (scope.resolve depth name) := by
  rw [resolve]
  split
  · apply settle_finds
    cases scope with
    | nil => exact .inl rfl
    | cons frame frames => exact .inr (h frame List.mem_cons_self)
  · split
    · exact .pure (.inl rfl)
    · rename_i head rest hpieces
      rw [hpieces] at hk
      obtain ⟨hhead, hrest⟩ := List.forall_mem_cons.mp hk
      refine .bind (resolveHead_finds hhead h depth) fun v hv => ?_
      exact .bind (descend_finds hrest hv depth) fun w hw => settle_finds hw

/-! ## Names that fail -/

/-- Dictionaries inside each other, the innermost of which has the empty list. -/
def nested (keys : List Text) : Value := keys.foldr (fun key v => .dict [(key, v)]) (.list [])

theorem nested_isData (keys : List Text) : (nested keys).IsData := by
  induction keys with
  | nil => exact .list (by simp)
  | cons key keys ih => exact .dict (List.forall_mem_singleton.mpr ih)

theorem lookup_nested (key : Text) (keys : List Text) (depth : Nat) :
    (nested (key :: keys)).lookup depth key = pure (nested keys) := by
  simp [nested, Value.lookup, Entries.get?]

theorem resolveHead_nested (key : Text) (keys : List Text) (depth : Nat) :
    resolveHead depth key (ofView (nested (key :: keys))) = pure (nested keys) := by
  rw [ofView, resolveHead, if_neg (by simp), lookup_nested, pure_bind]
  cases keys <;> rfl

section

variable {key : Text} (ha : asksForItem key = true) (hn : Text.isNumeral key = false)
include ha hn

theorem run_lookup_nested_nil (depth : Nat) (store : Store) :
    ∃ e, ((nested []).lookup depth key).run store = (.error e, store) := by
  change ∃ e, (Value.lookup depth (.list []) key).run store = _
  rw [Value.lookup, if_pos ha]
  exact Value.run_item_of_not_isNumeral [] ha hn store

theorem run_descend_nested (front back : List Text) (depth : Nat) (store : Store) :
    ∃ e, (descend depth (nested front) (front ++ key :: back)).run store = (.error e, store) := by
  induction front with
  | nil =>
      obtain ⟨e, he⟩ := run_lookup_nested_nil ha hn depth store
      refine ⟨e, ?_⟩
      change ((nested []).lookup depth key >>= fun v => descend depth v back).run store = _
      rw [Fallible.run_bind, he]
  | cons first front ih =>
      obtain ⟨e, he⟩ := ih
      refine ⟨e, ?_⟩
      change ((nested (first :: front)).lookup depth first >>= fun v =>
        descend depth v (front ++ key :: back)).run store = _
      rw [lookup_nested, pure_bind]
      exact he

/-- Where a part of a name is no numeral, there is data in which it cannot be resolved. -/
theorem run_resolve_nested {name : Text} {front back : List Text}
    (hname : Text.pieces (· = '.') name = front ++ key :: back) (depth : Nat) (store : Store) :
    ∃ e, ((ofView (nested front)).resolve depth name).run store = (.error e, store) := by
  have hdot : name ≠ ['.'] := by
    rintro rfl
    have hmem : key ∈ Text.pieces (· = '.') ['.'] := by simp [hname]
    have hempty : key = [] := by simpa [Text.pieces] using hmem
    rw [hempty] at ha
    cases ha
  rw [resolve, if_neg hdot, hname]
  cases front with
  | nil =>
      obtain ⟨e, he⟩ := run_lookup_nested_nil ha hn depth store
      refine ⟨e, ?_⟩
      have hhead : (resolveHead depth key (ofView (nested []))).run store = (.error e, store) := by
        change ((nested []).lookup depth key >>= _).run store = _
        rw [Fallible.run_bind, he]
      dsimp only [List.nil_append]
      rw [Fallible.run_bind, hhead]
  | cons first front =>
      obtain ⟨e, he⟩ := run_descend_nested ha hn front back depth store
      refine ⟨e, ?_⟩
      dsimp only [List.cons_append]
      rw [resolveHead_nested, pure_bind, Fallible.run_bind, he]

end

/-- The names that can be resolved in all plain data are those of which each part that asks for an
item is a numeral: a name is then found or said to be missing. -/
theorem resolve_finds_iff (name : Text) :
    (∀ scope : Scope, (∀ frame ∈ scope, frame.value.IsData) → ∀ depth store,
        ∃ v, Found v ∧ (scope.resolve depth name).run store = (.ok v, store)) ↔
      ∀ key ∈ Text.pieces (· = '.') name, asksForItem key = true → Text.isNumeral key = true := by
  constructor
  · intro h key hkey ha
    by_contra hn
    obtain ⟨front, back, hname⟩ := List.append_of_mem hkey
    let store : Store := .fresh (.fresh 0) (.fresh .empty (.memory 0 []) (.empty true) .standard)
    obtain ⟨e, he⟩ := run_resolve_nested ha (Bool.not_eq_true _ ▸ hn) hname 0 store
    have hdata : ∀ frame ∈ ofView (nested front), frame.value.IsData :=
      List.forall_mem_singleton.mpr (nested_isData front)
    obtain ⟨v, -, hv⟩ := h (ofView (nested front)) hdata 0 store
    cases he.symm.trans hv
  · intro hk scope h depth
    exact resolve_finds hk h depth

/-- A digit character that has no place in a numeral asks for an item, and no item is found. -/
theorem resolve_superscript_fails :
    let scope := ofView (.list [.text ['x']])
    let store := Store.fresh (.fresh 0) (.fresh .empty (.memory 0 []) (.empty true) .standard)
    (∀ frame ∈ scope, frame.value.IsData) ∧
      (scope.resolve 0 ['²']).run store = (.error (.badNumeral 10 ['²']), store) := by
  intro scope store
  refine ⟨List.forall_mem_singleton.mpr (.list (List.forall_mem_singleton.mpr (.text _))), ?_⟩
  have ha : asksForItem ['²'] = true := by decide
  have hr : Text.readInteger 10 ['²'] = .error .malformed := by decide
  change ((Value.lookup 0 (.list [.text ['x']]) ['²'] >>= _) >>= _).run store = _
  rw [Value.lookup, if_pos ha, Value.item, hr]
  rfl

end Scope

end Whisker
