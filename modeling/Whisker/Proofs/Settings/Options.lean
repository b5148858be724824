import Whisker.Proofs.Fallible
import Whisker.Settings.Options

/-! Reading options to its end. An option that cannot be read is a problem to report, and no reason to
stop: only a value that fails when its items are counted stops the reading. -/

namespace Whisker

/-! ## Reading to the end -/

namespace Reading

/-- Reading gives a result, whatever was read before. -/
def Succeeds {α : Type} (x : Reading α) : Prop := ∀ heap, ∃ a, (x.run heap).1 = .ok a

variable {α β : Type}

theorem succeeds_pure (a : α) : Succeeds (pure a) := fun _ => ⟨a, rfl⟩

theorem Succeeds.bind {x : Reading α} {f : α → Reading β} (h : Succeeds x)
    (hf : ∀ a, Succeeds (f a)) : Succeeds (x >>= f) := by
  intro heap
  obtain ⟨a, ha⟩ := h heap
  rw [Fallible.run_bind]
  rcases hx : x.run heap with ⟨result, after⟩
  rw [hx] at ha
  cases ha
  exact hf a after

theorem Succeeds.map {x : Reading α} (h : Succeeds x) (f : α → β) : Succeeds (f <$> x) := by
  rw [map_eq_pure_bind]
  exact h.bind fun a => succeeds_pure (f a)

theorem succeeds_iterator (id : Identity) (items : List Value) : Succeeds (iterator id items) := by
  cases id with
  | none => exact succeeds_pure items
  | some id => exact fun heap => ⟨_, rfl⟩

end Reading

/-- A value that does not fail when its items are counted. -/
def Value.Countable (v : Value) : Prop := ∀ o, v = .object o → ∃ items, o.readItems = .ok items

namespace Settings

open Reading (Succeeds succeeds_pure)

/-! ## Fields -/

namespace Field

variable {α : Type}

theorem succeeds_whole (read : Value → Except ProblemKind α) (v : Value) :
    Succeeds (whole read v) :=
  succeeds_pure _

theorem succeeds_listItems? (v : Value) : Succeeds (listItems? v) := by
  cases v with
  | iterator id items => exact (Reading.succeeds_iterator id items).map some
  | _ => exact succeeds_pure _

theorem succeeds_list (read : Value → Except ProblemKind α) (v : Value) :
    Succeeds (list read v) := by
  apply (succeeds_listItems? v).bind
  intro items
  cases items with
  | none => exact succeeds_pure _
  | some items => exact succeeds_pure _

theorem succeeds_partsOf? {v : Value} (h : v.Countable) : Succeeds (Delimiters.partsOf? v) := by
  cases v with
  | iterator id items => exact (Reading.succeeds_iterator id items).map some
  | object o =>
      obtain ⟨items, hitems⟩ := h o rfl
      intro heap
      refine ⟨items, ?_⟩
      change o.readItems = .ok items
      exact hitems
  | _ => exact succeeds_pure _

/-- A value that is no pair of marks says no more than that. -/
theorem saysUnfit_of_ofValue {v : Value} (h : v.Countable) {heap : Heap} {e : Failure}
    (he : ((Delimiters.ofValue v).run heap).1 = .error e) : saysUnfit e = true := by
  obtain ⟨parts, hparts⟩ := succeeds_partsOf? h heap
  rw [Delimiters.ofValue, Fallible.run_bind] at he
  rcases hp : (Delimiters.partsOf? v).run heap with ⟨result, after⟩
  rw [hp] at hparts he
  cases hparts
  cases parts with
  | none =>
      cases he
      rfl
  | some parts =>
      simp only at he
      split at he
      · cases he
      · cases he
        rfl

theorem succeeds_delimiters {v : Value} (h : v.Countable) : Succeeds (delimiters v) := by
  intro heap
  rw [delimiters, Fallible.run_tryCatch, map_eq_pure_bind, Fallible.run_bind]
  rcases hv : (Delimiters.ofValue v).run heap with ⟨result, after⟩
  cases result with
  | ok d => exact ⟨_, rfl⟩
  | error e =>
      have hunfit := saysUnfit_of_ofValue h (congrArg Prod.fst hv)
      simp only [hunfit, if_true]
      exact ⟨_, rfl⟩

end Field

/-! ## Options -/

namespace Options

variable {α β : Type} {options : Options}

/-- Checking comes to an end, whatever problems there are already. -/
def Completes (x : Checking α) : Prop := ∀ problems, Succeeds (x.run problems)

theorem completes_pure (a : α) : Completes (pure a) := fun problems =>
  succeeds_pure (a, problems)

theorem Completes.bind {x : Checking α} {f : α → Checking β} (h : Completes x)
    (hf : ∀ a, Completes (f a)) : Completes (x >>= f) := by
  intro problems
  rw [StateT.run_bind]
  exact (h problems).bind fun result => hf result.1 result.2

theorem exists_mem_of_get? {name : Text} {v : Value} (h : options.get? name = some v) :
    ∃ entry ∈ options, entry.2 = v := by
  obtain ⟨entry, hm, he⟩ := List.exists_of_findSome?_eq_some h
  refine ⟨entry, hm, ?_⟩
  rcases entry with ⟨known, v'⟩
  cases known with
  | text t =>
      rw [Option.ite_none_right_eq_some] at he
      exact Option.some.inj he.2
  | _ => cases he

theorem completes_read {name : String} {field : Field α} {standard : α}
    (h : ∀ entry ∈ options, Succeeds (field entry.2)) :
    Completes (options.read name field standard) := by
  rw [read]
  cases hv : options.get? name.toList with
  | none => exact completes_pure standard
  | some v =>
      obtain ⟨entry, hm, rfl⟩ := exists_mem_of_get? hv
      have hfield : Completes (liftM (field entry.2) : Checking (Except Field.Problems α)) :=
        fun problems => (h entry hm).map fun result => (result, problems)
      apply hfield.bind
      intro result
      cases result with
      | ok x => exact completes_pure x
      | error found => exact fun problems => succeeds_pure _

theorem completes_readAll (h : ∀ entry ∈ options, entry.2.Countable) :
    Completes options.readAll := by
  have hwhole {α : Type} (name : String) (read : Value → Except ProblemKind α) (standard : α) :
      Completes (options.read name (Field.whole read) standard) :=
    completes_read fun entry _ => Field.succeeds_whole read entry.2
  have hlist {α : Type} (name : String) (read : Value → Except ProblemKind α) (standard : List α) :
      Completes (options.read name (Field.list read) standard) :=
    completes_read fun entry _ => Field.succeeds_list read entry.2
  have hdelimiters : Completes
      (options.read "delimiters" Field.delimiters Settings.standard.delimiters) :=
    completes_read fun entry hm => Field.succeeds_delimiters (h entry hm)
  refine hdelimiters.bind fun _ => (hlist _ _ _).bind fun _ => (hwhole _ _ _).bind fun _ =>
    (hwhole _ _ _).bind fun _ => (hwhole _ _ _).bind fun _ => (hwhole _ _ _).bind fun _ =>
    (hwhole _ _ _).bind fun _ => (hlist _ _ _).bind fun _ => (hwhole _ _ _).bind fun _ =>
    (hwhole _ _ _).bind fun _ => completes_pure _

end Options

/-- Options give settings, or at least one problem. -/
theorem ofOptions_settles {options : Options} (h : ∀ entry ∈ options, entry.2.Countable)
    (heap : Heap) :
    (∃ settings, ((ofOptions options).run heap).1 = .ok (.ok settings)) ∨
      ∃ problems, problems ≠ [] ∧ ((ofOptions options).run heap).1 = .ok (.error problems) := by
  obtain ⟨result, hresult⟩ := Options.completes_readAll h
    (options.filterMap fun entry => Options.nameProblem? entry.1) heap
  rw [ofOptions, Fallible.run_bind]
  rcases hr : (options.readAll.run
    (options.filterMap fun entry => Options.nameProblem? entry.1)).run heap with ⟨outcome, after⟩
  rw [hr] at hresult
  cases hresult
  obtain ⟨settings, problems⟩ := result
  by_cases hp : problems.isEmpty
  · refine .inl ⟨settings, ?_⟩
    simp only [hr, hp, if_true]
    rfl
  · refine .inr ⟨problems.mergeSort fun a b => Step.placeLe a.place b.place, ?_, ?_⟩
    · intro hnil
      have hlength := congrArg List.length hnil
      rw [List.length_mergeSort] at hlength
      exact hp (List.isEmpty_iff_length_eq_zero.mpr hlength)
    · simp only [hr, hp]
      rfl

end Settings

end Whisker
