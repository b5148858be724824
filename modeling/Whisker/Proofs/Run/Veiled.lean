import Whisker.Proofs.Run.Accord
import Whisker.Proofs.View.Finds
import Whisker.Proofs.View.Screened
import Whisker.View.Section

/-! Two runs side by side on values that differ behind a veil. Whatever the runs do with them, they
do the same, and what they come to differs behind a veil at most. -/

namespace Whisker

open Fallible (Related)
open Run (Pairing)

/-- Two stores that differ only in what the items of iterators hide. -/
structure Store.Veiled (s t : Store) : Prop where
  others : t = { s with met := t.met }
  met : List.Forall₂ (fun entry entry' => entry.1 = entry'.1 ∧
    List.Forall₂ Value.SameOutside entry.2 entry'.2) s.met t.met

theorem Store.Veiled.heap_eq {s t : Store} (h : s.Veiled t) : t.heap = s.heap := by
  rw [h.others]

namespace Run

variable {α β : Type} {Q : α → β → Prop}

/-! ## Steps -/

theorem afresh_veiled {x : Run α} {y : Run β} (h : Related Store.Veiled Q x y) :
    Related Store.Veiled Q (afresh x) (afresh y) := by
  intro s t hst
  have hstart : Store.Veiled { s with met := [] } { t with met := [] } := by
    refine ⟨?_, .nil⟩
    rw [hst.others]
  obtain ⟨hv, hafter⟩ := h _ _ hstart
  refine ⟨hv, ?_, hst.met⟩
  exact congrArg (fun after : Store => { after with met := t.met }) hafter.others

def veiling : Pairing where
  Holds := Related Store.Veiled
  pure := .pure
  throw _ := .throw _
  bind := .bind
  afresh := afresh_veiled

/-- A step that has nothing to do with iterators. -/
theorem same_veiled {x : Run α}
    (h : ∀ (store : Store) met,
      x.run { store with met } = ((x.run store).1, { (x.run store).2 with met }))
    (hmet : ∀ store : Store, (x.run store).2.met = store.met) : veiling.Holds (· = ·) x x := by
  intro s t hst
  have hright := h s t.met
  rw [← hst.others] at hright
  rw [hright]
  refine ⟨?_, rfl, ?_⟩
  · cases (x.run s).1 with
    | ok a => exact .ok rfl
    | error e => exact .error e
  · dsimp only
    rw [hmet]
    exact hst.met

theorem load_veiled (step : Loading α) : veiling.Holds (· = ·) (load step) (load step) :=
  same_veiled (fun _ _ => rfl) fun _ => rfl

theorem warn_veiled (message : String) : veiling.Holds (· = ·) (warn message) (warn message) :=
  same_veiled (fun _ _ => rfl) fun _ => rfl

theorem countCall_veiled (id : Identity) : veiling.Holds (· = ·) (countCall id) (countCall id) := by
  cases id with
  | none => exact veiling.pure rfl
  | some n => exact same_veiled (fun _ _ => rfl) fun _ => rfl

theorem read_veiled {x : Reading α} {y : Reading β}
    (h : ∀ heap, Agree Q (x.run heap).1 (y.run heap).1 ∧ (y.run heap).2 = (x.run heap).2) :
    veiling.Holds Q (read x) (read y) := by
  intro s t hst
  obtain ⟨hv, hafter⟩ := h s.heap
  change Agree Q (x.run s.heap).1 (y.run t.heap).1 ∧
    Store.Veiled { s with heap := (x.run s.heap).2 } { t with heap := (y.run t.heap).2 }
  rw [hst.heap_eq, hafter]
  refine ⟨hv, ?_, hst.met⟩
  rw [hst.others]

theorem build_veiled {S : Text → Bool} {v w : Value} (h : v.Veiled S w) :
    veiling.Holds (Value.Veiled S) (build v) (build w) := by
  intro s t hst
  obtain ⟨hv, hnext⟩ := Value.build_pairs h s.heap.nextIdentity
  change Agree _ (.ok (v.build.run s.heap.nextIdentity).1)
      (.ok (w.build.run t.heap.nextIdentity).1) ∧
    Store.Veiled
      { s with heap := { s.heap with nextIdentity := (v.build.run s.heap.nextIdentity).2 } }
      { t with heap := { t.heap with nextIdentity := (w.build.run t.heap.nextIdentity).2 } }
  rw [hst.heap_eq, hnext]
  refine ⟨.ok hv, ?_, hst.met⟩
  rw [hst.others]

theorem lookup_met {met met' : List (Nat × List Value)}
    (h : List.Forall₂ (fun entry entry' => entry.1 = entry'.1 ∧
      List.Forall₂ Value.SameOutside entry.2 entry'.2) met met') (n : Nat) :
    Option.Rel (List.Forall₂ Value.SameOutside) (met.lookup n) (met'.lookup n) := by
  induction h with
  | nil => exact .none
  | @cons entry entry' _ _ h _ ih =>
      rw [List.lookup_cons, List.lookup_cons, ← h.1]
      cases n == entry.1 with
      | true => exact .some h.2
      | false => exact ih

theorem meetIterator_veiled (id : Identity) {items items' : List Value}
    (h : List.Forall₂ Value.SameOutside items items') :
    veiling.Holds (List.Forall₂ Value.SameOutside) (meetIterator id items)
      (meetIterator id items') := by
  cases id with
  | none => exact veiling.pure h
  | some n =>
      intro s t hst
      have hlookup := lookup_met hst.met n
      rw [run_meetIterator, run_meetIterator, hst.heap_eq]
      generalize s.met.lookup n = known at hlookup ⊢
      generalize t.met.lookup n = known' at hlookup ⊢
      cases hlookup with
      | some hknown => exact ⟨.ok hknown, hst⟩
      | none =>
          dsimp only
          split
          · refine ⟨.ok .nil, ?_, .cons ⟨rfl, .nil⟩ hst.met⟩
            rw [hst.others]
          · refine ⟨.ok h, ?_, .cons ⟨rfl, h⟩ hst.met⟩
            rw [hst.others]

/-- A text made of a text shows nothing that is behind a veil. -/
theorem text_veiled {x y : Run Value} (h : veiling.Holds Value.SameOutside x y) (f : Text → Text) :
    veiling.Holds Value.SameOutside (do return .text (f (← x).toText))
      (do return .text (f (← y).toText)) := by
  refine veiling.bind h fun v w hvw => ?_
  rw [hvw.toText_eq]
  exact veiling.pure (.text _)

/-- With a memory of its own a rendering of veiled values is the same altogether. -/
theorem afresh_eq {x y : Run α} (h : veiling.Holds (· = ·) x y) : afresh x = afresh y := by
  funext store
  obtain ⟨hv, hafter⟩ := h { store with met := [] } { store with met := [] } ⟨rfl, .nil⟩
  refine Prod.ext hv.eq ?_
  change ({ (x.run { store with met := [] }).2 with met := store.met } : Store) =
    { (y.run { store with met := [] }).2 with met := store.met }
  rw [hafter.others]

end Run

open Run (veiling)

/-! ## Calls -/

/-- Two calls that show the same, for a body that reads only these names of its receiver. -/
structure Call.Veiled (S : Text → Bool) (c c' : Call) : Prop where
  args : List.Forall₂ Value.SameOutside c.args c'.args
  count : c'.count = c.count
  receiver : Option.Rel (Value.Veiled S) c.receiver c'.receiver
  member {T : Text → Bool} {v w : Value} {name : Text} : v.Veiled T w → T name = true →
    veiling.Holds Value.SameOutside (c.member v name) (c'.member w name)
  render (t : Text) : veiling.Holds (· = ·) (c.render t) (c'.render t)

theorem Call.argument_veiled {S : Text → Bool} {c c' : Call} (hc : c.Veiled S c') (i : Nat) :
    veiling.Holds Value.SameOutside (c.argument i) (c'.argument i) := by
  unfold argument
  obtain ⟨ha, ha'⟩ | ⟨v, w, ha, ha', h⟩ := none_or_some_of_rel (Value.getElem?_pairs hc.args i)
  · rw [ha, ha']
    exact .throw _
  · rw [ha, ha']
    exact veiling.pure h

mutual

theorem Expr.eval_veiled {S : Text → Bool} {c c' : Call} (hc : c.Veiled S c') {e e' : Expr}
    (h : e.Veiled e') (hreads : e.Reads S) :
    veiling.Holds Value.SameOutside (e.eval c) (e'.eval c') := by
  cases h with
  | literal h => exact Run.build_veiled h
  | argument i => exact c.argument_veiled hc i
  | callCount =>
      rw [Expr.eval, Expr.eval, hc.count]
      exact veiling.pure (.int _)
  | concat h =>
      cases hreads with
      | concat hreads =>
          exact veiling.bind_eq (Expr.evalTexts_veiled hc h hreads) fun t => veiling.pure (.text t)
  | upper h =>
      cases hreads with
      | upper hreads => exact Run.text_veiled (Expr.eval_veiled hc h hreads) _
  | reverse h =>
      cases hreads with
      | reverse hreads => exact Run.text_veiled (Expr.eval_veiled hc h hreads) _
  | compute f h =>
      cases hreads with
      | compute _ hreads => exact Run.text_veiled (Expr.eval_veiled hc h hreads) _
  | render h =>
      cases hreads with
      | render hreads =>
          refine veiling.bind (c.argument_veiled hc 1) fun function function' hfunction => ?_
          refine veiling.bind (Expr.eval_veiled hc h hreads) fun v w hvw => ?_
          cases hfunction with
          | renderer =>
              cases hvw with
              | text t => exact veiling.bind_eq (hc.render t) fun t => veiling.pure (.text t)
              | _ => exact .throw _
          | _ => exact .throw _
  | member name =>
      cases hreads with
      | member hname =>
          rw [Expr.eval, Expr.eval]
          obtain ⟨hr, hr'⟩ | ⟨v, w, hr, hr', h⟩ := none_or_some_of_rel hc.receiver
          · rw [hr, hr']
            exact .throw _
          · rw [hr, hr']
            exact hc.member h hname
  | lambda arity h =>
      cases hreads with
      | lambda _ hreads =>
          rw [Expr.eval, Expr.eval]
          obtain ⟨hr, hr'⟩ | ⟨v, w, hr, hr', hvw⟩ := none_or_some_of_rel hc.receiver
          · rw [hr, hr']
            exact Run.build_veiled (.function false (.mk none arity h))
          · rw [hr, hr']
            exact Run.build_veiled (.method false (.mk none arity h) hreads hvw)
  | raise kind message => exact .throw _
termination_by sizeOf e

theorem Expr.evalTexts_veiled {S : Text → Bool} {c c' : Call} (hc : c.Veiled S c')
    {es es' : List Expr} (h : List.Forall₂ Expr.Veiled es es') (hreads : ∀ e ∈ es, Expr.Reads S e) :
    veiling.Holds (· = ·) (Expr.evalTexts c es) (Expr.evalTexts c' es') := by
  cases h with
  | nil => exact veiling.pure rfl
  | cons h hs =>
      obtain ⟨he, hreads⟩ := List.forall_mem_cons.mp hreads
      refine veiling.bind (Expr.eval_veiled hc h he) fun v w hvw => ?_
      refine veiling.bind_eq (Expr.evalTexts_veiled hc hs hreads) fun t => ?_
      rw [hvw.toText_eq]
      exact veiling.pure rfl
termination_by sizeOf es

end

theorem Arity.bind?_veiled (arity : Arity) {args args' : List Value}
    (h : List.Forall₂ Value.SameOutside args args') :
    Option.Rel (List.Forall₂ Value.SameOutside) (arity.bind? args) (arity.bind? args') := by
  have hlength := h.length_eq
  cases arity with
  | exactly n =>
      rw [bind?, bind?, hlength]
      split
      · exact .some h
      · exact .none
  | any => exact .some h
  | optional =>
      rcases h with _ | ⟨h, _ | _⟩
      · exact .some (.cons (.text _) .nil)
      · exact .some (.cons h .nil)
      · exact .none
  | named =>
      cases h with
      | nil => exact .some .nil
      | cons => exact .none
  | namedOptional =>
      cases h with
      | nil => exact .some .nil
      | cons => exact .none
  | namedRequired => exact .none
  | oneOrTwo =>
      rcases h with _ | ⟨h, _ | ⟨h', _ | _⟩⟩
      · exact .none
      · exact .some (.cons h (.cons (.text _) .nil))
      · exact .some (.cons h (.cons h' .nil))
      · exact .none

theorem Function.invoke_veiled {S : Text → Bool} {member member' : Value → Text → Run Value}
    {render render' : Text → Run Text}
    (hm : ∀ {T : Text → Bool} {v w : Value} {name : Text}, v.Veiled T w → T name = true →
      veiling.Holds Value.SameOutside (member v name) (member' w name))
    (hr : ∀ t, veiling.Holds (· = ·) (render t) (render' t)) {receiver receiver' : Option Value}
    (hreceiver : Option.Rel (Value.Veiled S) receiver receiver') {args args' : List Value}
    (hargs : List.Forall₂ Value.SameOutside args args') {f f' : Function} (hf : f.Veiled f')
    (hreads : f.body.Reads S) :
    veiling.Holds Value.SameOutside (f.invoke member render receiver args)
      (f'.invoke member' render' receiver' args') := by
  obtain ⟨id, arity, hbody⟩ := hf
  unfold invoke
  obtain ⟨hb, hb'⟩ | ⟨bound, bound', hb, hb', hbound⟩ :=
    none_or_some_of_rel (arity.bind?_veiled hargs)
  · simp only [Function.arity, hb, hb']
    exact .throw _
  · simp only [Function.arity, hb, hb']
    refine veiling.bind_eq (Run.countCall_veiled id) fun count => ?_
    have hcall : Call.Veiled S ⟨bound, count, receiver, member, render⟩
        ⟨bound', count, receiver', member', render'⟩ := ⟨hbound, rfl, hreceiver, hm, hr⟩
    exact Expr.eval_veiled hcall hbody hreads

namespace Value

theorem cannotRender_veiled (t : Text) :
    veiling.Holds (· = ·) (cannotRender t) (cannotRender t) := .throw _

/-- A member that is shown. -/
theorem member_veiled (depth : Nat) {S : Text → Bool} {v w : Value} {name : Text}
    (h : v.Veiled S w) (hname : S name = true) :
    veiling.Holds SameOutside (member depth v name) (member depth w name) := by
  induction depth generalizing S v w name with
  | zero => exact .throw _
  | succ depth ih =>
      cases h with
      | object hX h =>
          have hself := Value.Veiled.object (fun _ => id) h
          replace hname := hX name hname
          obtain ⟨hattributes, hmethods, hproperties, -, -, -, -, hdiscreet, -⟩ := h
          obtain ⟨hp, hp'⟩ | ⟨f, f', hp, hp', hf⟩ :=
            none_or_some_of_rel (hproperties.get?_of_shown hname)
          · obtain ⟨ha, ha'⟩ | ⟨a, a', ha, ha', h⟩ :=
              none_or_some_of_rel (hattributes.get?_of_shown hname)
            · obtain ⟨hm, hm'⟩ | ⟨m, m', hm, hm', h⟩ :=
                none_or_some_of_rel (hmethods.get?_of_shown hname)
              · simp only [member, hp, hp', ha, ha', hm, hm']
                exact .throw _
              · simp only [member, hp, hp', ha, ha', hm, hm']
                have hreads := hdiscreet.methods _ (Entries.mem_of_get? hm) hname
                cases h with
                | bound hf => exact veiling.pure (.method true hf hreads hself)
                | static hf => exact veiling.pure (.function false hf)
            · simp only [member, hp, hp', ha, ha']
              exact veiling.pure h
          · simp only [member, hp, hp']
            have hreads := hdiscreet.properties _ (Entries.mem_of_get? hp) hname
            exact Function.invoke_veiled ih cannotRender_veiled (.some hself) .nil hf hreads
      | record _ h =>
          obtain ⟨hf, hf'⟩ | ⟨field, field', hf, hf', h⟩ := none_or_some_of_rel (h.get? name)
          · simp only [member, hf, hf']
            exact .throw _
          · simp only [member, hf, hf']
            exact veiling.pure h
      | subView template h =>
          simp only [member]
          split
          · exact veiling.pure (.text _)
          · split
            · exact veiling.pure h
            · exact .throw _
      | _ => exact .throw _

theorem call_veiled {v w : Value} (h : v.SameOutside w) (depth : Nat)
    {render render' : Text → Run Text} (hr : ∀ t, veiling.Holds (· = ·) (render t) (render' t))
    {args args' : List Value} (hargs : List.Forall₂ SameOutside args args') :
    veiling.Holds SameOutside (v.call depth render args) (w.call depth render' args') := by
  cases h with
  | function bound hf =>
      have hnone : Option.Rel (Value.Veiled fun _ => true) none none := .none
      exact Function.invoke_veiled (member_veiled depth) hr hnone hargs hf (Expr.reads_all _)
  | method bound hf hreads h =>
      exact Function.invoke_veiled (member_veiled depth) hr (.some h) hargs hf hreads
  | object _ h =>
      have hself := Value.Veiled.object (fun _ => id) h
      obtain ⟨hc, hc'⟩ | ⟨f, f', hc, hc', hf⟩ := none_or_some_of_rel h.call
      · simp only [call, hc, hc']
        exact .throw _
      · simp only [call, hc, hc']
        exact Function.invoke_veiled (member_veiled depth) hr (.some hself) hargs hf
          (h.discreet.call f hc)
  | _ => exact .throw _

theorem publicMember_veiled {v w : Value} (h : v.SameOutside w) (depth : Nat) (key : Text) :
    veiling.Holds SameOutside (v.publicMember depth key) (w.publicMember depth key) := by
  unfold publicMember
  by_cases hkey : key.head? = some '_'
  · rw [if_pos hkey, if_pos hkey]
    exact veiling.pure .missing
  · rw [if_neg hkey, if_neg hkey]
    have hshown : Text.isPublic key = true := decide_eq_true hkey
    refine veiling.bind (Related.tryCatch (member_veiled depth h hshown) fun e => ?_)
      fun found found' hfound => ?_
    · split
      · exact veiling.pure .missing
      · exact .throw _
    · have hsame : veiling.Holds SameOutside (pure found) (pure found') := veiling.pure hfound
      have hcall := call_veiled hfound depth cannotRender_veiled .nil
      cases hfound with
      | function bound hf | method bound hf =>
          cases bound with
          | false => exact hsame
          | true =>
              simp only [hf.arity_eq]
              split
              · exact hcall
              · exact hsame
      | _ => exact hsame

theorem lookup_veiled {v w : Value} (h : v.SameOutside w) (depth : Nat) (key : Text) :
    veiling.Holds SameOutside (v.lookup depth key) (w.lookup depth key) := by
  have hmember := publicMember_veiled h depth key
  cases h with
  | dict h => exact veiling.pure (getD_pairs .missing (h.get? key))
  | list h =>
      simp only [lookup]
      split
      · exact item_pairs .missing h key
      · exact veiling.pure .missing
  | tuple h =>
      simp only [lookup]
      split
      · exact item_pairs .missing h key
      · exact veiling.pure .missing
  | record _ h =>
      simp only [lookup]
      split
      · exact item_pairs .missing h.values key
      · exact hmember
  | null | bool | int | float | text | bytes | buffer => exact veiling.pure .missing
  | _ => exact hmember

end Value

/-! ## Names -/

namespace Scope

theorem settle_veiled {v w : Value} (h : v.SameOutside w) :
    veiling.Holds Value.SameOutside (settle v) (settle w) := by
  have hsame : veiling.Holds Value.SameOutside (pure v) (pure w) := veiling.pure h
  cases h with
  | iterator id h =>
      exact veiling.bind (Run.meetIterator_veiled id h) fun vs ws hvs => veiling.pure (.tuple hvs)
  | _ => exact hsame

theorem veiling_finds : veiling.Finds Value.SameOutside :=
  ⟨.missing, Value.Veiled.isMissing_eq, Value.lookup_veiled, settle_veiled⟩

end Scope

/-! ## Items -/

theorem Object.Veiled.readItems {S : Text → Bool} {o o' : Object} (h : o.Veiled S o') :
    Agree (Option.Rel (List.Forall₂ Value.SameOutside)) o.readItems o'.readItems := by
  unfold Object.readItems
  rw [h.size?_eq]
  obtain ⟨hi, hi'⟩ | ⟨vs, ws, hi, hi', h⟩ := none_or_some_of_rel h.items
  · rw [hi, hi']
    exact .ok .none
  · rw [hi, hi']
    dsimp only
    split
    · exact .error _
    · split
      · exact .error _
      · exact .ok (.some h)

theorem Reading.run_items?_iterator (n : Nat) (items : List Value) (heap : Heap) :
    (Reading.items? (.iterator (some n) items)).run heap =
      if heap.drained.contains n then (.ok (some []), heap)
      else (.ok (some items), heap.drain n) := by
  change (let got := if heap.drained.contains n then ([], heap) else (items, heap.drain n)
    ((.ok (some got.1), got.2) : Except Failure (Option (List Value)) × Heap)) = _
  split <;> rfl

theorem Reading.items?_veiled {v w : Value} (h : v.SameOutside w) :
    veiling.Holds (Option.Rel (List.Forall₂ Value.SameOutside)) (Run.read (Reading.items? v))
      (Run.read (Reading.items? w)) := by
  refine Run.read_veiled fun heap => ?_
  cases h with
  | list h => exact ⟨.ok (.some h), rfl⟩
  | tuple h => exact ⟨.ok (.some h), rfl⟩
  | record _ h => exact ⟨.ok (.some h.values), rfl⟩
  | buffer content =>
      exact ⟨.ok (.some (List.forall₂_same.mpr fun v _ => Value.Veiled.refl _ v)), rfl⟩
  | object _ h => exact ⟨h.readItems, rfl⟩
  | iterator id h =>
      cases id with
      | none => exact ⟨.ok (.some h), rfl⟩
      | some n =>
          rw [run_items?_iterator, run_items?_iterator]
          split
          · exact ⟨.ok (.some .nil), rfl⟩
          · exact ⟨.ok (.some h), rfl⟩
  | _ => exact ⟨.ok .none, rfl⟩

end Whisker
