import Mathlib
import Whisker.Proofs.Library.Loading
import Whisker.Proofs.Render.Bond
import Whisker.Proofs.Render.Order
import Whisker.Proofs.View.Follows

/-! Renderings in two runs that have handed out identities differently. A pure view that no
sub-view shares an iterator with renders to the same text in both. -/

namespace Whisker

open Run (Follows)
open Value (rename renameItems renameEntries)

variable {S : Shifting} {m : Nat}

/-! ## Values -/

namespace Value

theorem isMissing_rename (ρ : Nat → Nat) (v : Value) : (v.rename ρ).isMissing = v.isMissing := by
  cases v with
  | function f receiver bound => cases receiver <;> rfl
  | _ => rfl

theorem isEmpty_renameItems (ρ : Nat → Nat) (items : List Value) :
    (renameItems ρ items).isEmpty = items.isEmpty := by
  cases items <;> rfl

theorem isEmpty_renameEntries (ρ : Nat → Nat) (entries : List (Text × Value)) :
    (renameEntries ρ entries).isEmpty = entries.isEmpty := by
  cases entries <;> rfl

theorem length_renameItems (ρ : Nat → Nat) (items : List Value) :
    (renameItems ρ items).length = items.length := by
  rw [renameItems_eq_map, List.length_map]

theorem length_renameEntries (ρ : Nat → Nat) (entries : List (Text × Value)) :
    (renameEntries ρ entries).length = entries.length := by
  rw [renameEntries_eq_map, List.length_map]

end Value

theorem Piece.ofValue_rename (ρ : Nat → Nat) (v : Value) :
    Piece.ofValue (v.rename ρ) = Piece.ofValue v := by
  cases v with
  | text t => rfl
  | object o => simp only [rename, ofValue, Object.size?_rename]
  | function f receiver bound => cases receiver <;> rfl
  | list items | tuple items =>
      exact congrArg (fun b : Bool => Except.ok (if b then Piece.text [] else .unfit))
        (Value.isEmpty_renameItems ρ items)
  | record _ entries | dict entries =>
      exact congrArg (fun b : Bool => Except.ok (if b then Piece.text [] else .unfit))
        (Value.isEmpty_renameEntries ρ entries)
  | _ => rfl

namespace Run.Follows

variable {α β ι κ : Type}

theorem error (e : Failure) {Q : Nat → α → β → Prop} :
    Follows S Q (ExceptT.mk (Pure.pure (.error e))) (ExceptT.mk (Pure.pure (.error e))) m :=
  .throw e

theorem foldlM {R : ι → κ → Prop} {f : α → ι → Run α} {g : α → κ → Run α} {items : List ι}
    {items' : List κ} (hi : List.Forall₂ R items items')
    (h : ∀ a i j later, m ≤ later → R i j → Follows S (fun _ a b => b = a) (f a i) (g a j) later)
    (a : α) :
    Follows S (fun _ a b => b = a) (items.foldlM f a) (items'.foldlM g a) m := by
  induction hi generalizing m a with
  | nil => exact .pure fun _ _ => rfl
  | cons hij _ ih =>
      rw [List.foldlM_cons, List.foldlM_cons]
      refine .bind_same (h a _ _ m (Nat.le_refl m) hij) fun a later hle => ?_
      exact ih (fun a i j last hlast => h a i j last (Nat.le_trans hle hlast)) a

theorem mapM {f : ι → Run α} {items : List ι}
    (h : ∀ i later, m ≤ later → Follows S (fun _ a b => b = a) (f i) (f i) later) :
    Follows S (fun _ a b => b = a) (items.mapM f) (items.mapM f) m := by
  induction items generalizing m with
  | nil => exact .pure fun _ _ => rfl
  | cons i items ih =>
      rw [List.mapM_cons]
      refine .bind_same (h i m (Nat.le_refl m)) fun a later hle => ?_
      refine .bind_same (ih fun i last hlast => h i last (Nat.le_trans hle hlast))
        fun as _ _ => .pure fun _ _ => rfl

end Run.Follows

/-! ## Sections -/

namespace SectionValue

theorem ofItems_alike {items : List Value} (h : ∀ v ∈ items, v.Pure (S.ledger.upTo m)) :
    (ofItems items).Alike (S.Moves m) (ofItems (renameItems S.shift items)) := by
  rw [ofItems, ofItems, Value.isEmpty_renameItems]
  split
  · exact .falsy
  · refine .list ?_
    rw [Value.renameItems_eq_map, List.forall₂_map_right_iff, List.forall₂_same]
    exact fun v hv => ⟨h v hv, rfl⟩

/-- A value that is settled means the same in both runs. -/
theorem ofValue_follows {v : Value} (h : v.Pure (S.ledger.upTo m)) (hs : v.Settled) :
    Follows S (fun n => SectionValue.Alike (S.Moves n)) (ofValue v) (ofValue (v.rename S.shift))
      m := by
  have hitems {items : List Value} (h : ∀ v ∈ items, v.Pure (S.ledger.upTo m)) :
      Follows S (fun n => SectionValue.Alike (S.Moves n)) (Pure.pure (ofItems items))
        (Pure.pure (ofItems (renameItems S.shift items))) m :=
    .pure fun n hn => ofItems_alike fun v hv => S.pure_later (h v hv) hn
  have hframe : Follows S (fun n => SectionValue.Alike (S.Moves n)) (Pure.pure .frame)
      (Pure.pure .frame) m := .pure fun _ _ => .frame
  have hfalsy : Follows S (fun n => SectionValue.Alike (S.Moves n)) (Pure.pure .falsy)
      (Pure.pure .falsy) m := .pure fun _ _ => .falsy
  have hempty (empty : Bool) : Follows S (fun n => SectionValue.Alike (S.Moves n))
      (Pure.pure (if empty then .falsy else .frame))
      (Pure.pure (if empty then .falsy else .frame)) m := by
    cases empty
    · exact hframe
    · exact hfalsy
  unfold ofValue
  rw [Value.isCallable_rename]
  split
  · exact .pure fun _ _ => .lambda
  · rename_i hcall
    cases h with
    | list h | tuple h => exact hitems h
    | @record _ _ fields h =>
        have hfields : (renameEntries S.shift fields).map (·.2) =
            renameItems S.shift (fields.map (·.2)) := by
          rw [Value.renameEntries_eq_map, Value.renameItems_eq_map, List.map_map, List.map_map]
          rfl
        have hrecord := hitems (List.forall_mem_map.mpr h)
        rw [← hfields] at hrecord
        exact hrecord
    | iterator => exact absurd rfl (hs _ _)
    | buffer content =>
        have hsame : renameItems S.shift (Value.ofBytes content) = Value.ofBytes content := by
          rw [Value.renameItems_eq_map, Value.ofBytes, List.map_map]
          rfl
        have hbytes : ∀ v ∈ Value.ofBytes content, v.Pure (S.ledger.upTo m) :=
          List.forall_mem_map.mpr fun b _ => .int _
        have hbuffer := hitems hbytes
        rw [hsame] at hbuffer
        exact hbuffer
    | @dict _ entries h =>
        have hdict := hempty entries.isEmpty
        simp only [rename, Value.isEmpty_renameEntries]
        exact hdict
    | bool b =>
        cases b
        · exact hfalsy
        · exact hframe
    | missing | null => exact hfalsy
    | text t => exact hempty t.isEmpty
    | bytes content => exact hempty content.isEmpty
    | function => exact absurd rfl hcall
    | renderer => exact absurd rfl hcall
    | @object _ o h =>
        change Follows S _ (Run.read (Reading.ofResult o.readItems) >>= _)
          (Run.read (Reading.ofResult (Value.renameObject S.shift o).readItems) >>= _) m
        rw [Object.readItems_rename]
        cases hr : o.readItems with
        | error e => exact .throw e
        | ok found =>
            cases found with
            | none => exact hframe
            | some items => exact hitems (h.items items (Object.items_of_readItems hr))
    | _ => exact hframe

end SectionValue

/-! ## Stages -/

namespace Ledger.Le

theorem inside_inside (l : Ledger) : l.inside.Le l.inside.inside :=
  ⟨rfl, rfl, rfl, fun _ h => h, fun h => ⟨h, h.2⟩, id, id⟩

end Ledger.Le

namespace Shifting

/-- Both runs are on one stage, whose functions were there before, and no sub-view shares an
iterator. -/
structure Fits (S : Shifting) (lib : Library) (stage : Stage) : Prop where
  served : S.served = fun loader => loader.Serves lib
  shared : ¬ S.ledger.shared
  escape : ∀ f, stage.escape = some f → f.Pure S.ledger.inside.past
  filters : ∀ entry ∈ stage.filters, entry.2.Pure S.ledger.inside.past

/-- Where two views with templates of their own start. -/
def inner (S : Shifting) (h : ¬ S.ledger.shared) (s t : Store) : Shifting where
  ledger := S.ledger.inside
  other := S.other
  served := S.served
  left := { s with met := [] }
  right := { t with met := [] }
  sound := S.sound.inside
  held := fun hi => (h hi.2).elim
  known := fun hi => (h hi.2).elim

variable {lib : Library} {stage : Stage}

theorem Fits.inner (hf : S.Fits lib stage) (s t : Store) :
    (S.inner hf.shared s t).Fits lib stage where
  served := hf.served
  shared := hf.shared
  escape f he := (hf.escape f he).mono (Ledger.Le.inside_inside _).past
  filters entry he := (hf.filters entry he).mono (Ledger.Le.inside_inside _).past

variable {s t s' t' : Store}

/-- Nothing was met yet where such views start. -/
theorem Alike.inner (hst : S.Alike s t) (h : ¬ S.ledger.shared) :
    (S.inner h s t).Alike { s with met := [] } { t with met := [] } where
  start_le := hst.start_le
  next := hst.next
  items_left := fun hi => (h hi.2).elim
  items_right := fun hi => (h hi.2).elim
  drained_left := fun _ _ _ => Iff.rfl
  drained_right := fun _ _ _ => Iff.rfl
  calls_same := hst.calls_same
  calls_left := fun _ _ _ _ => rfl
  met := fun _ _ => rfl
  drained := hst.drained
  calls := hst.calls
  pure := fun _ _ _ hvs => nomatch hvs
  untouched := fun n hn =>
    ⟨rfl, (hst.untouched n hn).drained, (hst.untouched n hn).calls⟩
  warnings := hst.warnings
  served_left := hst.served_left
  served_right := hst.served_right

/-- What such views have met is forgotten. -/
theorem Alike.outer (hst : S.Alike s t) (h : ¬ S.ledger.shared)
    (hle : s.heap.nextIdentity ≤ s'.heap.nextIdentity) (hafter : (S.inner h s t).Alike s' t') :
    S.Alike { s' with met := s.met } { t' with met := t.met } := by
  have hnot : ¬ (S.inner h s t).ledger.iterators := fun hi => h hi.2
  have hleft : ∀ n, n < S.ledger.bound → (n ∈ s'.heap.drained ↔ n ∈ s.heap.drained) :=
    hafter.drained_left hnot
  have hright : ∀ n, n < S.ledger.bound → (n ∈ t'.heap.drained ↔ n ∈ t.heap.drained) :=
    hafter.drained_right hnot
  have hitems {u u' : Store} (n : Nat) (held : List Value)
      (hd : n ∈ u'.heap.drained ↔ n ∈ u.heap.drained) :
      ({ u' with met := u.met } : Store).itemsOf n held = u.itemsOf n held := by
    have hsame : Store.SameOf { u' with met := u.met } u n := ⟨rfl, hd⟩
    exact hsame.itemsOf_eq held
  refine ⟨Nat.le_trans hst.start_le hle, hafter.next, fun hi n hn => ?_, fun hi n hn => ?_,
    fun hi n hn => ?_, fun hi n hn => ?_, hafter.calls_same, fun ho n hn hq => ?_, hst.met,
    hafter.drained, hafter.calls, fun n hn vs hvs v hv => ?_, fun n hn => ?_, hafter.warnings,
    hafter.served_left, hafter.served_right⟩
  · rw [hitems n _ (hleft n hn), hst.items_left hi n hn]
  · rw [hitems n _ (hright n hn), hst.items_right hi n hn]
  · exact (hleft n hn).trans (hst.drained_left hi n hn)
  · exact (hright n hn).trans (hst.drained_right hi n hn)
  · exact (hafter.calls_left ho n hn hq).trans (hst.calls_left ho n hn hq)
  · exact (hst.pure n hn vs hvs v hv).mono (.upTo hle)
  · have huntouched := hafter.untouched n hn
    exact ⟨(hst.untouched n (Nat.le_trans hle hn)).met, huntouched.drained, huntouched.calls⟩

end Shifting

namespace Run.Follows

variable {α β γ : Type} {lib : Library} {stage : Stage}

theorem load (hf : S.Fits lib stage) {Q : α → β → Prop} {step : Loading α}
    {result : Except Failure β} (h : Loading.Gives lib Q step result) :
    Follows S (fun _ a a' => ∃ b, Q a b ∧ Q a' b) (Run.load step) (Run.load step) m := by
  intro s t hst _
  have hserves : ∀ loader, S.served loader ↔ loader.Serves lib := by simp [hf.served]
  obtain ⟨hv, hs⟩ := h s.loader ((hserves _).mp hst.served_left)
  obtain ⟨hv', ht⟩ := h t.loader ((hserves _).mp hst.served_right)
  rw [Run.run_load, Run.run_load]
  refine ⟨Nat.le_refl _, { hst with
    untouched := fun n hn =>
      ⟨(hst.untouched n hn).met, (hst.untouched n hn).drained, (hst.untouched n hn).calls⟩
    served_left := (hserves _).mpr hs
    served_right := (hserves _).mpr ht }, ?_⟩
  dsimp only
  generalize (step.run s.loader).1 = x at hv
  generalize (step.run t.loader).1 = y at hv'
  cases hv with
  | ok hQ =>
      cases hv' with
      | ok hQ' => exact .ok ⟨_, hQ, hQ'⟩
  | error e =>
      cases hv' with
      | error => exact .error e

theorem afresh (hf : S.Fits lib stage) {x y : Run α}
    (h : ∀ s t, Follows (S.inner hf.shared s t) (fun _ a b => b = a) x y m) :
    Follows S (fun _ a b => b = a) (Run.afresh x) (Run.afresh y) m := by
  intro s t hst hm
  obtain ⟨hle, hafter, hagree⟩ := h s t _ _ (hst.inner hf.shared) hm
  exact ⟨hle, hst.outer hf.shared hle hafter, hagree⟩

end Run.Follows

/-! ## Functions of the engine -/

namespace Shifting.Fits

variable {lib : Library} {stage : Stage} (hf : S.Fits lib stage)
include hf

omit hf in
/-- A function of the engine does not change from one run to the other. -/
theorem call_follows (depth : Nat) {f : Value} (h : f.Pure S.ledger.inside.past) {v : Value}
    (hv : v.Pure (S.ledger.upTo m)) :
    Follows S S.Moves (f.call depth Value.cannotRender [v])
      (f.call depth Value.cannotRender [v.rename S.shift]) m := by
  have hpast : f.Pure S.ledger.past := h.mono (Ledger.Le.inside_le _).past
  have hargs : ∀ w ∈ [v], w.Pure (S.ledger.upTo m) := List.forall_mem_singleton.mpr hv
  have hcall := Value.call_follows depth (fun t _ _ => Value.cannotRender_follows t) hargs
    (hpast.mono (.past_upTo m))
  rwa [S.rename_eq_self hpast] at hcall

theorem escaped_follows (depth : Nat) (t : Text) :
    Follows S (fun _ a b => b = a) (Render.escaped stage depth t) (Render.escaped stage depth t)
      m := by
  unfold Render.escaped
  cases he : stage.escaping? with
  | none => exact .pure fun _ _ => rfl
  | some f =>
      have hpure := hf.escape f (Stage.escape_of_escaping? he)
      refine .bind_value (call_follows depth hpure (.text t)) fun v later _ _ => ?_
      rw [Piece.ofValue_rename]
      split
      · exact .pure fun _ _ => rfl
      · exact .throw _

end Shifting.Fits

namespace Filter

theorem length_rename (ρ : Nat → Nat) (v : Value) : length (v.rename ρ) = length v := by
  have htext := Value.toText_rename ρ v
  cases v with
  | list items | tuple items => exact congrArg Except.ok (Value.length_renameItems ρ items)
  | record _ entries | dict entries =>
      exact congrArg Except.ok (Value.length_renameEntries ρ entries)
  | object o =>
      simp only [rename, length, Object.size?_rename] at htext ⊢
      rw [htext]
  | function f receiver bound =>
      rw [Value.rename_function] at htext ⊢
      exact congrArg (fun t => Except.ok (List.length t)) htext
  | iterator | subView => exact congrArg (fun t => Except.ok (List.length t)) htext
  | _ => rfl

/-- The standard filters make texts and numbers, and look at nothing but texts and lengths. -/
theorem standard?_rename {name : Text} {f : Value → Except Failure Value}
    (hf : standard? name = some f) (ρ : Nat → Nat) (v : Value) : f (v.rename ρ) = f v := by
  rw [standard?] at hf
  split_ifs at hf
  iterate 5
    · cases hf
      simp only [Value.toText_rename]
  · cases hf
    simp only [length_rename]

theorem standard?_plain {name : Text} {f : Value → Except Failure Value} {v w : Value}
    (hf : standard? name = some f) (h : f v = .ok w) : w.Pure S.ledger.past := by
  rw [standard?] at hf
  split_ifs at hf
  iterate 5
    · cases hf
      cases h
      exact .text _
  · cases hf
    dsimp only at h
    cases hl : length v with
    | error e =>
        rw [hl] at h
        cases h
    | ok n =>
        rw [hl] at h
        cases h
        exact .int _

variable {lib : Library} {stage : Stage} (hf : S.Fits lib stage)
include hf

theorem apply_follows (depth : Nat) (name : Text) {v : Value} (h : v.Pure (S.ledger.upTo m)) :
    Follows S S.Moves (apply depth stage.filters name v)
      (apply depth stage.filters name (v.rename S.shift)) m := by
  unfold apply
  cases hown : stage.filters.get? name with
  | some f =>
      exact Shifting.Fits.call_follows depth (hf.filters _ (Entries.mem_of_get? hown)) h
  | none =>
      cases hs : standard? name with
      | none => exact .throw _
      | some f =>
          dsimp only
          rw [standard?_rename hs]
          cases hw : f v with
          | error e => exact .error e
          | ok w =>
              have hpast : w.Pure S.ledger.past := standard?_plain hs hw
              have hvalue := Run.Follows.value (hpast.mono (.past_upTo m))
              rwa [S.rename_eq_self hpast] at hvalue

theorem applyAll_follows (depth : Nat) (names : List Text) {v : Value}
    (h : v.Pure (S.ledger.upTo m)) :
    Follows S S.Moves (applyAll depth stage.filters names v)
      (applyAll depth stage.filters names (v.rename S.shift)) m := by
  induction names generalizing v m with
  | nil => exact .value h
  | cons name names ih =>
      rw [applyAll, applyAll, List.foldlM_cons, List.foldlM_cons]
      exact .bind_value (apply_follows hf depth name h) fun v later _ hv => ih hv

end Filter

/-! ## Nodes -/

def Site.rename (ρ : Nat → Nat) (site : Site) : Site := { site with scope := site.scope.rename ρ }

namespace Render

variable {lib : Library} {stage : Stage}

/-- Documents render alike in any two runs on the stage. -/
def Nests (lib : Library) (stage : Stage) (nested : Nested) : Prop :=
  ∀ {S : Shifting}, S.Fits lib stage → ∀ {m : Nat} {site : Site},
    site.scope.Pure (S.ledger.upTo m) → ∀ nodes,
      Follows S (fun _ a b => b = a) (nested site nodes) (nested (site.rename S.shift) nodes) m

variable {nested : Nested} (hn : Nests lib stage nested) (hf : S.Fits lib stage) (depth : Nat)
  {site : Site} (hs : site.scope.Pure (S.ledger.upTo m))
include hs

theorem pure_later {later : Nat} (hle : m ≤ later) : site.scope.Pure (S.ledger.upTo later) :=
  hs.mono (.upTo hle)

/-! ### Variables -/

section
include hn hf

/-- The text that a function gave is rendered as a document. -/
theorem rendered_follows (d : Delimiters) (t : Text) {γ : Type} {P : Nat → γ → γ → Prop}
    {k : Text → γ} (hk : ∀ t next, m ≤ next → P next (k t) (k t)) :
    Follows S P
      (do
        let document ← Run.load (Loading.build d t)
        return k (← nested site document.nodes).1)
      (do
        let document ← Run.load (Loading.build d t)
        return k (← nested (site.rename S.shift) document.nodes).1) m := by
  refine .bind (.load hf (Loading.build_gives d t)) fun document document' later hle hnodes => ?_
  obtain ⟨nodes, rfl, hnodes⟩ := hnodes
  rw [hnodes]
  refine .bind_same (hn hf (pure_later hs hle) _) fun rendered last hlast => ?_
  exact .pure fun next hnext => hk _ next (by omega)

theorem variableValue_follows (name : Text) :
    Follows S S.Moves (variableValue nested depth site name)
      (variableValue nested depth (site.rename S.shift) name) m := by
  refine .bind (Scope.resolve_follows depth hs name) fun v w later hle hv => ?_
  obtain ⟨⟨hv, rfl⟩, -⟩ := hv
  rw [Value.isCallable_rename]
  split
  · exact .value hv
  · refine .bind_value (Value.call_follows depth (fun t _ _ => Value.cannotRender_follows t)
      (by simp) hv) fun result last hlast hresult => ?_
    have hnested : Follows S S.Moves
        (do
          let document ← Run.load (Loading.build .standard result.toText)
          return .text (← nested site document.nodes).1)
        (do
          let document ← Run.load (Loading.build .standard (result.rename S.shift).toText)
          return .text (← nested (site.rename S.shift) document.nodes).1) last := by
      rw [Value.toText_rename]
      exact rendered_follows hn hf (pure_later hs (Nat.le_trans hle hlast)) _ _
        fun t _ _ => ⟨.text t, rfl⟩
    cases hresult with
    | null => exact .text []
    | @function _ _ receiver _ => cases receiver <;> exact hnested
    | _ => exact hnested

theorem variable_follows (name : Text) (isEscaped : Bool) :
    Follows S (fun _ a b => b = a) (variable_ stage nested depth site name isEscaped)
      (variable_ stage nested depth (site.rename S.shift) name isEscaped) m := by
  have hpragmas : (site.rename S.shift).pragmas = site.pragmas := rfl
  simp only [variable_, hpragmas]
  generalize (if site.pragmas.isEnabled Pragmas.filters then _ else _ : Text × List Text) = parts
  refine .bind_value (variableValue_follows hn hf depth hs parts.1) fun v later _ hv => ?_
  rw [Value.isMissing_rename]
  split
  · exact .pure fun _ _ => rfl
  · refine .bind_value (Filter.applyAll_follows hf depth parts.2 hv) fun result last _ hresult => ?_
    have htext : Follows S (fun _ a b => b = a)
        (if isEscaped then escaped stage depth result.toText else return .text result.toText)
        (if isEscaped then escaped stage depth (result.rename S.shift).toText
          else return .text (result.rename S.shift).toText) last := by
      rw [Value.toText_rename]
      split
      · exact hf.escaped_follows depth _
      · exact .pure fun _ _ => rfl
    cases hresult with
    | null => exact .pure fun _ _ => rfl
    | @function _ _ receiver _ => cases receiver <;> exact htext
    | _ => exact htext

/-! ### Sections -/

theorem lambdaSection_follows (d : Delimiters) (body : Text) {f : Value}
    (h : f.Pure (S.ledger.upTo m)) :
    Follows S (fun _ a b => b = a) (lambdaSection nested depth site d body f)
      (lambdaSection nested depth (site.rename S.shift) d body (f.rename S.shift)) m := by
  have hargs : ∀ v ∈ [Value.text body, .renderer], v.Pure (S.ledger.upTo m) := by
    simp only [List.forall_mem_cons]
    exact ⟨.text _, .renderer, by simp⟩
  refine .bind_value (Value.call_follows depth (fun t later hle => ?_) hargs h)
    fun result later hle hresult => ?_
  · exact rendered_follows (P := fun _ a b => b = a) (k := id) hn hf (pure_later hs hle) d t
      fun _ _ _ => rfl
  · have htext : Follows S (fun _ a b => b = a) (Pure.pure result.toText)
        (Pure.pure (result.rename S.shift).toText) later := by
      rw [Value.toText_rename]
      exact .pure fun _ _ => rfl
    cases hresult with
    | null => exact .pure fun _ _ => rfl
    | @function _ _ receiver _ => cases receiver <;> exact htext
    | _ => exact htext

theorem section_follows (name : Text) (children : List Node) (d : Delimiters) (body : Text) :
    Follows S (fun _ a b => b = a) (section_ nested depth site name children d body)
      (section_ nested depth (site.rename S.shift) name children d body) m := by
  refine .bind (Scope.resolve_follows depth hs name) fun v w later hle hv => ?_
  obtain ⟨⟨hv, rfl⟩, hsettled⟩ := hv
  refine .bind (SectionValue.ofValue_follows hv hsettled) fun value value' last hlast hvalue => ?_
  have hle := Nat.le_trans hle hlast
  have hv := S.pure_later hv hlast
  cases hvalue with
  | falsy => exact .pure fun _ _ => rfl
  | list hitems =>
      refine .foldlM hitems (fun before item item' next hnext hitem => ?_) _
      obtain ⟨hitem, rfl⟩ := hitem
      let inner : Site :=
        ⟨site.scope.push item site.pragmas.iteratorName, before.2, site.blocks, site.chain⟩
      have hpush : inner.scope.Pure (S.ledger.upTo next) :=
        (pure_later hs (Nat.le_trans hle hnext)).push (S.pure_later hitem hnext) _
      exact .bind_same (hn hf hpush children) fun more _ _ => .pure fun _ _ => rfl
  | lambda =>
      exact .bind_same (lambdaSection_follows hn hf depth (pure_later hs hle) d body hv)
        fun text _ _ => .pure fun _ _ => rfl
  | frame =>
      let inner : Site := { site with scope := site.scope.push v none }
      have hpush : inner.scope.Pure (S.ledger.upTo last) := (pure_later hs hle).push hv none
      exact hn hf hpush children

theorem invertedSection_follows (name : Text) (children : List Node) :
    Follows S (fun _ a b => b = a) (invertedSection nested depth site name children)
      (invertedSection nested depth (site.rename S.shift) name children) m := by
  refine .bind (Scope.resolve_follows depth hs name) fun v w later hle hv => ?_
  obtain ⟨⟨hv, rfl⟩, hsettled⟩ := hv
  refine .bind (SectionValue.ofValue_follows hv hsettled) fun value value' last hlast hvalue => ?_
  rw [hvalue.isFalsy_eq]
  split
  · exact hn hf (pure_later hs (Nat.le_trans hle hlast)) children
  · exact .pure fun _ _ => rfl

end

/-! ### Inclusions -/

section

theorem subView?_follows (name : Text) :
    Follows S
      (fun n found found' => found' = found.map (fun view => (view.1, view.2.rename S.shift)) ∧
        ∀ view, found = some view → view.2.Pure (S.ledger.inside.upTo n))
      (subView? depth site name) (subView? depth (site.rename S.shift) name) m := by
  unfold subView?
  have hpragmas : (site.rename S.shift).pragmas = site.pragmas := rfl
  rw [hpragmas]
  split
  · exact .pure fun _ _ => ⟨rfl, by simp⟩
  · refine .bind (Scope.resolve_follows depth hs name) fun v w later hle hv => ?_
    obtain ⟨⟨hv, rfl⟩, -⟩ := hv
    cases hv with
    | @subView _ template view hview =>
        have hinside : view.Pure (S.ledger.inside.upTo later) := hview
        refine .pure fun next hnext => ⟨rfl, ?_⟩
        rintro _ ⟨⟩
        exact hinside.mono (.upTo hnext)
    | @function _ _ receiver _ => cases receiver <;> exact .pure fun _ _ => ⟨rfl, by simp⟩
    | _ => exact .pure fun _ _ => ⟨rfl, by simp⟩

omit hs

include hf in
theorem included?_follows (name : Text) :
    Follows S (fun _ => Option.Rel fun document document' => document'.nodes = document.nodes)
      (included? stage name) (included? stage name) m := by
  refine .bind (.load hf (Loading.included?_gives stage.partials name))
    fun found found' later hle hfound => ?_
  obtain ⟨nodes, hfound, hfound'⟩ := hfound
  rcases hfound.cases hfound' with ⟨rfl, rfl⟩ | ⟨document, document', rfl, rfl, hnodes⟩
  · dsimp only
    split
    · exact .throw _
    · exact .bind (Run.warn_follows _) fun _ _ _ _ _ => .pure fun _ _ => .none
  · exact .pure fun _ _ => .some hnodes.symm

theorem warnings_follow (warnings : List String) :
    Follows S (fun _ _ _ => True) (warnings.forM Run.warn) (warnings.forM Run.warn) m := by
  induction warnings generalizing m with
  | nil => exact .pure fun _ _ => trivial
  | cons warning warnings ih => exact .bind (Run.warn_follows warning) fun _ _ later _ _ => ih

theorem warned_follows (x : Except Failure Pragmas.Warned) :
    Follows S (fun _ a b => b = a) (warned x) (warned x) m := by
  cases x with
  | error e => exact .throw e
  | ok warned => exact .bind (warnings_follow _) fun _ _ _ _ _ => .pure fun _ _ => rfl

theorem initialPragmas_follows (settings : Settings) :
    Follows S (fun _ a b => b = a) (initialPragmas settings) (initialPragmas settings) m :=
  warned_follows _

/-- An inclusion keeps the scope. -/
theorem includedSite_follows (settings : Settings) (site : Site) (name : Text) :
    Follows S (fun _ s t => s.scope = site.scope ∧ t = s.rename S.shift)
      (includedSite settings site name) (includedSite settings (site.rename S.shift) name) m := by
  have hchain : (site.rename S.shift).chain = site.chain := rfl
  have hpragmas : (site.rename S.shift).pragmas = site.pragmas := rfl
  simp only [includedSite, hchain, hpragmas]
  split
  · exact .throw _
  · split
    · exact .pure fun _ _ => ⟨rfl, rfl⟩
    · exact .bind_same (initialPragmas_follows settings) fun _ _ _ => .pure fun _ _ => ⟨rfl, rfl⟩

theorem enable_follows (site : Site) (call : PragmaCall) :
    Follows S (fun _ a b => b = a) (enable site call) (enable (site.rename S.shift) call) m :=
  warned_follows (site.pragmas.enable call.name call.params)

include hn hf hs

theorem inclusion_follows (name indent : Text) :
    Follows S (fun _ a b => b = a) (inclusion stage nested depth site name indent)
      (inclusion stage nested depth (site.rename S.shift) name indent) m := by
  refine .bind (subView?_follows depth hs name) fun found found' later hle hfound => ?_
  obtain ⟨rfl, hpure⟩ := hfound
  cases found with
  | some pair =>
      obtain ⟨template, view⟩ := pair
      refine .bind (.load hf (Loading.template_gives stage.partials template))
        fun document document' next hnext hnodes => ?_
      obtain ⟨nodes, rfl, hnodes⟩ := hnodes
      refine .bind (includedSite_follows stage.settings site name) fun inner _ last hlast hinner => ?_
      obtain ⟨-, rfl⟩ := hinner
      rw [hnodes]
      refine .bind_same (.afresh hf fun s t => ?_) fun rendered _ _ => .pure fun _ _ => rfl
      let inside : Site := { inner with scope := Scope.ofView view }
      have hinside : inside.scope.Pure ((S.inner hf.shared s t).ledger.upTo last) := by
        have hview : view.Pure (S.ledger.inside.upTo later) := hpure _ rfl
        exact List.forall_mem_singleton.mpr (hview.mono (.upTo (Nat.le_trans hnext hlast)))
      exact hn (hf.inner s t) hinside _
  | none =>
      refine .bind (included?_follows hf name) fun document document' next hnext hdocument => ?_
      cases hdocument with
      | none => exact .pure fun _ _ => rfl
      | some hnodes =>
          dsimp only
          rw [hnodes]
          refine .bind (includedSite_follows stage.settings site name)
            fun inner _ last hlast hinner => ?_
          obtain ⟨hscope, rfl⟩ := hinner
          have hinner : inner.scope.Pure (S.ledger.upTo last) := by
            rw [hscope]
            exact pure_later hs (by omega)
          exact .bind_same (hn hf hinner _) fun rendered _ _ => .pure fun _ _ => rfl

theorem parent_follows (name indent : Text) (children : List Node) :
    Follows S (fun _ a b => b = a) (parent stage nested site name indent children)
      (parent stage nested (site.rename S.shift) name indent children) m := by
  refine .bind (included?_follows hf name) fun document document' later hle hdocument => ?_
  cases hdocument with
  | none => exact .pure fun _ _ => rfl
  | some hnodes =>
      dsimp only
      rw [hnodes]
      refine .bind (includedSite_follows stage.settings site name)
        fun inner _ last hlast hinner => ?_
      obtain ⟨hscope, rfl⟩ := hinner
      let inside : Site := { inner with blocks := overrides site.blocks children }
      have hinside : inside.scope.Pure (S.ledger.upTo last) := by
        have hinner : inner.scope.Pure (S.ledger.upTo last) := by
          rw [hscope]
          exact pure_later hs (Nat.le_trans hle hlast)
        exact hinner
      exact .bind_same (hn hf hinside _) fun rendered _ _ => .pure fun _ _ => rfl

end

/-! ### Steps -/

section
include hn hf

theorem step_follows (n : Node) :
    Follows S (fun _ a b => b = a) (step stage depth nested site n)
      (step stage depth nested (site.rename S.shift) n) m := by
  cases n with
  | text content => exact .pure fun _ _ => rfl
  | comment => exact .pure fun _ _ => rfl
  | delimiterChange => exact .pure fun _ _ => rfl
  | «variable» name isEscaped place =>
      exact .bind_same (variable_follows hn hf depth hs name isEscaped) fun _ _ _ =>
        .pure fun _ _ => rfl
  | pragma call place =>
      exact .bind_same (enable_follows site call) fun _ _ _ => .pure fun _ _ => rfl
  | inclusion name indent =>
      exact .bind_same (inclusion_follows hn hf depth hs name _) fun _ _ _ => .pure fun _ _ => rfl
  | enclosure kind name children body d place indent =>
      cases kind with
      | plain =>
          exact .bind_same (section_follows hn hf depth hs name children d body) fun _ _ _ =>
            .pure fun _ _ => rfl
      | inverted =>
          exact .bind_same (invertedSection_follows hn hf depth hs name children) fun _ _ _ =>
            .pure fun _ _ => rfl
      | block => exact .bind_same (hn hf hs _) fun _ _ _ => .pure fun _ _ => rfl
      | parent =>
          exact .bind_same (parent_follows hn hf hs name indent children) fun _ _ _ =>
            .pure fun _ _ => rfl

end

omit hs in
/-- Nodes that render alike one by one give the same pieces. -/
theorem gather_follows {one : Site → Node → Run (Piece × Pragmas)}
    (h : ∀ (inner : Site) later, inner.scope = site.scope → m ≤ later → ∀ n,
      Follows S (fun _ a b => b = a) (one inner n) (one (inner.rename S.shift) n) later)
    (nodes : List Node) (state : List Piece × Pragmas) :
    Follows S (fun _ a b => b = a) (nodes.foldlM (gather one site) state)
      (nodes.foldlM (gather one (site.rename S.shift)) state) m := by
  have hnodes : List.Forall₂ (fun n n' => n' = n) nodes nodes :=
    List.forall₂_same.mpr fun _ _ => rfl
  refine .foldlM hnodes (fun before _ _ later hle hn => ?_) state
  obtain rfl := hn
  exact .bind_same (h { site with pragmas := before.2 } later rfl hle _) fun _ _ _ =>
    .pure fun _ _ => rfl

omit hs in
/-- Nodes that render alike one by one do so in order. -/
theorem inOrder_nests {one : Site → Node → Run (Piece × Pragmas)}
    (h : ∀ {S : Shifting}, S.Fits lib stage → ∀ {m : Nat} {site : Site},
      site.scope.Pure (S.ledger.upTo m) → ∀ n,
        Follows S (fun _ a b => b = a) (one site n) (one (site.rename S.shift) n) m) :
    Nests lib stage (inOrder one) := by
  intro S hf m site hs nodes
  rw [inOrder_eq, inOrder_eq]
  refine .bind_same (gather_follows (fun inner later hscope hle n => ?_) nodes _)
    fun state later _ => ?_
  · have hinner : inner.scope.Pure (S.ledger.upTo later) := by
      rw [hscope]
      exact pure_later hs hle
    exact h hf hinner n
  · refine .bind_same (.mapM fun piece next _ => ?_) fun texts _ _ => .pure fun _ _ => rfl
    cases piece with
    | text t => exact .pure fun _ _ => rfl
    | unfit => exact .throw _

omit hs in
/-- A node renders alike in any two runs on the stage. -/
theorem node_follows (depth : Nat) {S : Shifting} (hf : S.Fits lib stage) {m : Nat} {site : Site}
    (hs : site.scope.Pure (S.ledger.upTo m)) (n : Node) :
    Follows S (fun _ a b => b = a) (node stage depth site n)
      (node stage depth (site.rename S.shift) n) m := by
  induction depth generalizing S m site n with
  | zero => exact .throw _
  | succ depth ih => exact step_follows (inOrder_nests ih) hf depth hs n

end Render

end Whisker
