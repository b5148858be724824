import Mathlib
import Whisker.Proofs.Run.Shift
import Whisker.Proofs.View.Resolve

/-! Calls, names, sections and filters in two runs that have handed out identities differently. What
is pure gives the same in both, up to the identities. -/

namespace Whisker

open Run (Follows)
open Value (rename renameItems renameEntries)

variable {S : Shifting} {m : Nat}

namespace Shifting

/-- What holds of values goes on holding when more identities are handed out. -/
theorem pure_later {v : Value} {later : Nat} (h : v.Pure (S.ledger.upTo m)) (hle : m ≤ later) :
    v.Pure (S.ledger.upTo later) :=
  h.mono (.upTo hle)

/-- Older values are the same in the second run. -/
theorem rename_eq_self {v : Value} (h : v.Pure S.ledger.past) : v.rename S.shift = v :=
  S.sound.rename_eq_self h

end Shifting

namespace Run.Follows

/-- A value that is at hand in both runs. -/
theorem value {v : Value} (h : v.Pure (S.ledger.upTo m)) :
    Follows S S.Moves (Pure.pure v) (Pure.pure (v.rename S.shift)) m :=
  .pure fun _ hn => ⟨S.pure_later h hn, rfl⟩

/-- A text is the same in both runs. -/
theorem text (t : Text) :
    Follows S S.Moves (Pure.pure (Value.text t)) (Pure.pure (Value.text t)) m :=
  .value (.text t)

theorem missing : Follows S S.Moves (Pure.pure Value.missing) (Pure.pure Value.missing) m :=
  .value .missing

/-- Going on with a value and with what it is in the second run. -/
theorem bind_value {γ δ : Type} {P : Nat → γ → δ → Prop} {x y : Run Value} {f : Value → Run γ}
    {g : Value → Run δ} (h : Follows S S.Moves x y m)
    (hf : ∀ v later, m ≤ later → v.Pure (S.ledger.upTo later) →
      Follows S P (f v) (g (v.rename S.shift)) later) : Follows S P (x >>= f) (y >>= g) m := by
  refine .bind h fun v w later hle hv => ?_
  obtain ⟨hv, rfl⟩ := hv
  exact hf v later hle hv

/-- Going on with something that is the same in both runs. -/
theorem bind_same {α γ δ : Type} {P : Nat → γ → δ → Prop} {x y : Run α} {f : α → Run γ}
    {g : α → Run δ} (h : Follows S (fun _ a b => b = a) x y m)
    (hf : ∀ a later, m ≤ later → Follows S P (f a) (g a) later) :
    Follows S P (x >>= f) (y >>= g) m := by
  refine .bind h fun a b later hle hab => ?_
  obtain rfl := hab
  exact hf b later hle

end Run.Follows

/-! ## Calls -/

/-- What a call sees in the second run. -/
structure Call.Moves (S : Shifting) (m : Nat) (c c' : Call) : Prop where
  pure_args : ∀ v ∈ c.args, v.Pure (S.ledger.upTo m)
  args : c'.args = renameItems S.shift c.args
  pure_receiver : ∀ v, c.receiver = some v → v.Pure (S.ledger.upTo m)
  receiver : c'.receiver = c.receiver.map (rename S.shift)
  member : ∀ v later, m ≤ later → v.Pure (S.ledger.upTo later) → ∀ name,
    Follows S S.Moves (c.member v name) (c'.member (v.rename S.shift) name) later
  render : ∀ t later, m ≤ later →
    Follows S (fun _ t u => u = t) (c.render t) (c'.render t) later

namespace Call.Moves

variable {c c' : Call}

theorem later (h : c.Moves S m c') {later : Nat} (hle : m ≤ later) : c.Moves S later c' :=
  ⟨fun v hv => S.pure_later (h.pure_args v hv) hle, h.args,
    fun v hv => S.pure_later (h.pure_receiver v hv) hle, h.receiver,
    fun v last hlast => h.member v last (Nat.le_trans hle hlast),
    fun t last hlast => h.render t last (Nat.le_trans hle hlast)⟩

theorem argument_follows (h : c.Moves S m c') (i : Nat) :
    Follows S S.Moves (c.argument i) (c'.argument i) m := by
  have hi : c'.args[i]? = c.args[i]?.map (rename S.shift) := by
    rw [h.args, Value.renameItems_eq_map, List.getElem?_map]
  rw [argument, argument, hi]
  cases hv : c.args[i]? with
  | none => exact .throw _
  | some v => exact .value (h.pure_args v (List.mem_of_getElem? hv))

end Call.Moves

mutual

/-- The counts of the calls may differ, if the expression does not look at them. -/
theorem Expr.eval_follows {m : Nat} {c c' : Call} (hc : c.Moves S m c') {e : Expr}
    (hcount : c'.count = c.count ∨ e.Countless) (h : e.Pure (S.ledger.upTo m)) :
    Follows S S.Moves (e.eval c) (e.eval c') m := by
  have htext {f : Text → Text} {e : Expr} (h : Follows S S.Moves (e.eval c) (e.eval c') m) :
      Follows S S.Moves (do return .text (f (← e.eval c).toText))
        (do return .text (f (← e.eval c').toText)) m := by
    refine .bind_value h fun v later _ _ => ?_
    rw [Value.toText_rename]
    exact .text _
  cases h with
  | @literal _ v h =>
      have hv := S.rename_eq_self h
      have hbuild := Run.build_follows (h.mono (.past_upTo m))
      rwa [hv] at hbuild
  | argument i => exact hc.argument_follows i
  | callCount =>
      rcases hcount with hcount | hcount
      · simp only [Expr.eval, hcount]
        exact .value (.int _)
      · cases hcount
  | @concat _ parts h =>
      have hparts : ∀ e ∈ parts, c'.count = c.count ∨ e.Countless := by
        intro e he
        refine hcount.imp_right fun hc => ?_
        cases hc with
        | concat hc => exact hc e he
      exact .bind_same (Expr.evalTexts_follows hc hparts h) fun t later _ => .text t
  | upper h =>
      refine htext (Expr.eval_follows hc (hcount.imp_right fun hc => ?_) h)
      cases hc with
      | upper hc => exact hc
  | reverse h =>
      refine htext (Expr.eval_follows hc (hcount.imp_right fun hc => ?_) h)
      cases hc with
      | reverse hc => exact hc
  | compute f h =>
      refine htext (Expr.eval_follows hc (hcount.imp_right fun hc => ?_) h)
      cases hc with
      | compute _ hc => exact hc
  | @render _ e h =>
      refine .bind_value (hc.argument_follows 1) fun function later hle _ => ?_
      have he : c'.count = c.count ∨ e.Countless := by
        refine hcount.imp_right fun hc => ?_
        cases hc with
        | render hc => exact hc
      refine .bind_value (Expr.eval_follows (hc.later hle) he (h.mono (.upTo hle)))
        fun v last hlast _ => ?_
      -- only the renderer renders, and nothing but a text
      cases function with
      | renderer =>
          cases v with
          | text t =>
              exact .bind_same (hc.render t last (Nat.le_trans hle hlast)) fun u _ _ => .text u
          | function _ receiver _ => cases receiver <;> exact .throw _
          | _ => exact .throw _
      | function _ receiver _ => cases receiver <;> exact .throw _
      | _ => exact .throw _
  | member name =>
      rw [Expr.eval, Expr.eval, hc.receiver]
      cases hr : c.receiver with
      | none => exact .throw _
      | some v => exact hc.member v m (Nat.le_refl m) (hc.pure_receiver v hr) name
  | @lambda _ arity body h =>
      rw [Expr.eval, Expr.eval, hc.receiver]
      have hf : (Value.function (.mk none arity body) c.receiver false).Pure (S.ledger.upTo m) :=
        .function false (.mk arity (by simp) (by simp) h) hc.pure_receiver
      have hbuild := Run.build_follows hf
      rwa [Value.rename_function] at hbuild
  | raise kind message => exact .throw _

theorem Expr.evalTexts_follows {m : Nat} {c c' : Call} (hc : c.Moves S m c') {es : List Expr}
    (hcount : ∀ e ∈ es, c'.count = c.count ∨ e.Countless)
    (h : ∀ e ∈ es, e.Pure (S.ledger.upTo m)) :
    Follows S (fun _ t u => u = t) (Expr.evalTexts c es) (Expr.evalTexts c' es) m := by
  cases es with
  | nil => exact .pure fun _ _ => rfl
  | cons e es =>
      obtain ⟨he, h⟩ := List.forall_mem_cons.mp h
      obtain ⟨hone, hcount⟩ := List.forall_mem_cons.mp hcount
      refine .bind_value (Expr.eval_follows hc hone he) fun v later hle _ => ?_
      refine .bind_same (Expr.evalTexts_follows (hc.later hle) hcount fun e he =>
        (h e he).mono (.upTo hle)) fun t _ _ => .pure fun _ _ => ?_
      rw [Value.toText_rename]

end


theorem Arity.bind?_rename (arity : Arity) (ρ : Nat → Nat) (args : List Value) :
    arity.bind? (renameItems ρ args) = (arity.bind? args).map (renameItems ρ) := by
  have hlength : (renameItems ρ args).length = args.length := by
    rw [Value.renameItems_eq_map, List.length_map]
  cases arity with
  | exactly n =>
      simp only [bind?, hlength]
      split <;> rfl
  | any => rfl
  | named | namedOptional => cases args <;> rfl
  | namedRequired => rfl
  | «optional» | oneOrTwo =>
      cases args with
      | nil => rfl
      | cons arg args =>
          cases args with
          | nil => rfl
          | cons other args => cases args <;> rfl

theorem Arity.pure_of_bind? {l : Ledger} {arity : Arity} {args bound : List Value}
    (h : arity.bind? args = some bound) (ha : ∀ v ∈ args, v.Pure l) : ∀ v ∈ bound, v.Pure l := by
  intro v hv
  rcases mem_of_bind? h v hv with hv | rfl
  · exact ha v hv
  · exact .text _

theorem Function.invoke_follows {member member' : Value → Text → Run Value}
    {render render' : Text → Run Text}
    (hm : ∀ v later, m ≤ later → v.Pure (S.ledger.upTo later) → ∀ name,
      Follows S S.Moves (member v name) (member' (v.rename S.shift) name) later)
    (hr : ∀ t later, m ≤ later → Follows S (fun _ t u => u = t) (render t) (render' t) later)
    {receiver : Option Value} (hreceiver : ∀ v, receiver = some v → v.Pure (S.ledger.upTo m))
    {args : List Value} (ha : ∀ v ∈ args, v.Pure (S.ledger.upTo m)) {f : Function}
    (h : f.Pure (S.ledger.upTo m)) :
    Follows S S.Moves (f.invoke member render receiver args)
      ((f.rename S.shift).invoke member' render' (receiver.map (Value.rename S.shift))
        (renameItems S.shift args)) m := by
  obtain ⟨arity, hid, hcalls, hbody⟩ := h
  simp only [invoke, Function.rename, Function.arity, Function.id, Function.body,
    Arity.bind?_rename]
  cases hb : arity.bind? args with
  | none => exact .throw _
  | some bound =>
      refine .bind (Run.countCall_follows hid hcalls) fun count count' later hle hcount => ?_
      refine Expr.eval_follows ⟨?_, rfl, ?_, rfl, ?_, ?_⟩ hcount (hbody.mono (.upTo hle))
      · exact fun v hv => S.pure_later (Arity.pure_of_bind? hb ha v hv) hle
      · exact fun v hv => S.pure_later (hreceiver v hv) hle
      · exact fun v last hlast => hm v last (Nat.le_trans hle hlast)
      · exact fun t last hlast => hr t last (Nat.le_trans hle hlast)

namespace Value

theorem cannotRender_follows (t : Text) :
    Follows S (fun _ t u => u = t) (cannotRender t) (cannotRender t) m :=
  .throw _

theorem get?_follows {entries : Entries Value}
    (h : ∀ entry ∈ entries, entry.2.Pure (S.ledger.upTo m)) (name : Text) (e : Failure) :
    Follows S S.Moves
      (match Entries.get? entries name with
        | some v => return v
        | none => throw e)
      (match Entries.get? (renameEntries S.shift entries) name with
        | some v => return v
        | none => throw e) m := by
  rw [get?_renameEntries]
  cases hv : Entries.get? entries name with
  | none => exact .throw _
  | some v => exact .value (h _ (Entries.mem_of_get? hv))

theorem member_follows (depth : Nat) {m : Nat} {v : Value} (h : v.Pure (S.ledger.upTo m))
    (name : Text) :
    Follows S S.Moves (member depth v name) (member depth (v.rename S.shift) name) m := by
  induction depth generalizing v m name with
  | zero => exact .throw _
  | succ depth ih =>
      cases h with
      | record _ h => exact get?_follows h name _
      | @object _ o h =>
          rw [rename, member, member]
          simp only [Object.properties_rename, Object.attributes_rename, Object.methods_rename,
            Entries.get?_map, get?_renameEntries]
          cases hf : Entries.get? o.properties name with
          | some f =>
              have hpure := h.properties _ (Entries.mem_of_get? hf)
              exact Function.invoke_follows (fun v later _ hv name => ih hv name)
                (fun t _ _ => cannotRender_follows t) (by simpa using .object h) (by simp) hpure
          | none =>
              cases hv : Entries.get? o.attributes name with
              | some v => exact .value (h.attributes _ (Entries.mem_of_get? hv))
              | none =>
                  cases hmethod : Entries.get? o.methods name with
                  | none => exact .throw _
                  | some method =>
                      have hpure := h.methods _ (Entries.mem_of_get? hmethod)
                      cases hpure with
                      | bound hf => exact .value (.function true hf (by simpa using .object h))
                      | static hf => exact .value (.function false hf (by simp))
      | subView template h =>
          simp only [rename, member]
          split
          · exact .text _
          · split
            · exact .value (h.mono (.inside_le _))
            · exact .throw _
      | @function _ _ receiver _ => cases receiver <;> exact .throw _
      | _ => exact .throw _

theorem call_follows (depth : Nat) {render render' : Text → Run Text}
    (hr : ∀ t later, m ≤ later → Follows S (fun _ t u => u = t) (render t) (render' t) later)
    {args : List Value} (ha : ∀ v ∈ args, v.Pure (S.ledger.upTo m)) {v : Value}
    (h : v.Pure (S.ledger.upTo m)) :
    Follows S S.Moves (v.call depth render args)
      ((v.rename S.shift).call depth render' (renameItems S.shift args)) m := by
  have hm : ∀ v later, m ≤ later → v.Pure (S.ledger.upTo later) → ∀ name,
      Follows S S.Moves (member depth v name) (member depth (v.rename S.shift) name) later :=
    fun v later _ hv name => member_follows depth hv name
  cases h with
  | function bound hf hreceiver =>
      rw [rename_function]
      exact Function.invoke_follows hm hr hreceiver ha hf
  | @object _ o h =>
      simp only [rename, call, Object.call_rename]
      cases hf : o.call with
      | none => exact .throw _
      | some f =>
          exact Function.invoke_follows hm hr (by simpa using .object h) ha (h.call f hf)
  | _ => exact .throw _

/-! ## Names -/

theorem publicMember_follows (depth : Nat) {v : Value} (h : v.Pure (S.ledger.upTo m))
    (key : Text) :
    Follows S S.Moves (publicMember depth v key) (publicMember depth (v.rename S.shift) key) m := by
  unfold publicMember
  split
  · exact .missing
  · refine .bind_value (.tryCatch (member_follows depth h key) fun e => ?_)
      fun found later hle hfound => ?_
    · split
      · exact .missing
      · exact .throw e
    · cases hfound with
      | @function _ f receiver bound hf hreceiver =>
          have hfound := Pure.function bound hf hreceiver
          have hcall : Follows S S.Moves (call depth cannotRender [] (.function f receiver bound))
              (call depth cannotRender [] ((Value.function f receiver bound).rename S.shift)) later :=
            call_follows depth (fun t _ _ => cannotRender_follows t) (by simp) hfound
          have hvalue := Run.Follows.value hfound
          rw [rename_function] at hcall hvalue ⊢
          cases bound with
          | false => exact hvalue
          | true =>
              simp only [Function.arity_rename]
              by_cases ha : f.arity.acceptsNone = true
              · simp only [ha, if_true]
                exact hcall
              · simp only [ha]
                exact hvalue
      | _ => exact .value (by constructor <;> assumption)

theorem itemAt?_rename (ρ : Nat → Nat) (items : List Value) (i : Int) :
    itemAt? (renameItems ρ items) i = (itemAt? items i).map (rename ρ) := by
  rw [renameItems_eq_map, itemAt?, itemAt?, List.length_map, List.getElem?_map,
    List.getElem?_map]
  split
  · split <;> rfl
  · rfl

theorem item_follows {items : List Value} (h : ∀ v ∈ items, v.Pure (S.ledger.upTo m))
    (key : Text) :
    Follows S S.Moves (item items key) (item (renameItems S.shift items) key) m := by
  unfold item
  split
  · rename_i i _
    rw [itemAt?_rename]
    cases hi : itemAt? items i with
    | none => exact .missing
    | some v => exact .value (h v (mem_of_itemAt? hi))
  · exact .throw _
  · exact .throw _

theorem lookup_follows (depth : Nat) {v : Value} (h : v.Pure (S.ledger.upTo m)) (key : Text) :
    Follows S S.Moves (lookup depth v key) (lookup depth (v.rename S.shift) key) m := by
  have hpublic := publicMember_follows depth h key
  cases h with
  | @dict _ entries h =>
      simp only [rename, lookup, get?_renameEntries]
      cases hv : Entries.get? entries key with
      | none => exact .missing
      | some v => exact .value (h _ (Entries.mem_of_get? hv))
  | list h | tuple h =>
      simp only [rename, lookup]
      split
      · exact item_follows h key
      · exact .missing
  | @record _ name fields h =>
      have hitems : (renameEntries S.shift fields).map (·.2) =
          renameItems S.shift (fields.map (·.2)) := by
        rw [renameEntries_eq_map, renameItems_eq_map, List.map_map, List.map_map]
        rfl
      simp only [rename, lookup, hitems]
      split
      · exact item_follows (List.forall_mem_map.mpr h) key
      · exact hpublic
  | missing | iterator | subView | renderer | object => exact hpublic
  | @function _ _ receiver _ => cases receiver <;> exact hpublic
  | _ => exact .missing

end Value

namespace Scope

/-- The scope with `ρ n` in place of each identity `n`. -/
def rename (ρ : Nat → Nat) (scope : Scope) : Scope :=
  scope.map fun frame => ⟨frame.value.rename ρ, frame.label⟩

def Pure (l : Ledger) (scope : Scope) : Prop := ∀ frame ∈ scope, frame.value.Pure l

theorem Pure.mono {l l' : Ledger} {scope : Scope} (h : scope.Pure l) (hl : l.Le l') :
    scope.Pure l' :=
  fun frame hf => (h frame hf).mono hl

theorem Pure.push {l : Ledger} {scope : Scope} (h : scope.Pure l) {v : Value} (hv : v.Pure l)
    (label : Option Text) : Scope.Pure l (scope.push v label) :=
  List.forall_mem_cons.mpr ⟨hv, h⟩

theorem Pure.top {l : Ledger} {scope : Scope} (h : scope.Pure l) : scope.top.Pure l := by
  cases scope with
  | nil => exact .missing
  | cons frame frames => exact h frame List.mem_cons_self

theorem Pure.rename_eq_self {scope : Scope} (h : scope.Pure S.ledger.past) :
    scope.rename S.shift = scope := by
  apply map_items_eq_self
  intro frame hf
  rw [S.rename_eq_self (h frame hf)]

theorem top_rename (ρ : Nat → Nat) (scope : Scope) :
    (scope.rename ρ).top = scope.top.rename ρ := by
  cases scope <;> rfl

/-- A value that is settled stays so in the second run. -/
theorem settle_follows {v : Value} (h : v.Pure (S.ledger.upTo m)) :
    Follows S (fun n v w => S.Moves n v w ∧ v.Settled) (settle v) (settle (v.rename S.shift)) m := by
  have hvalue {v : Value} (h : v.Pure (S.ledger.upTo m)) (hs : v.Settled) :
      Follows S (fun n v w => S.Moves n v w ∧ v.Settled) (pure v) (pure (v.rename S.shift)) m :=
    .pure fun _ hn => ⟨⟨S.pure_later h hn, rfl⟩, hs⟩
  cases h with
  | iterator hid ho h =>
      refine .bind (Run.meetIterator_follows (.iterator hid ho h)) fun vs ws later _ hvs => ?_
      obtain ⟨hvs, rfl⟩ := hvs
      exact .pure fun _ hn =>
        ⟨⟨.tuple fun v hv => S.pure_later (hvs v hv) hn, rfl⟩, by simp [Value.Settled]⟩
  | @function _ f receiver bound hf hr =>
      have h := hvalue (.function bound hf hr) (by simp [Value.Settled])
      cases receiver <;> exact h
  | _ => exact hvalue (by constructor <;> assumption) (by simp [Value.Settled])

theorem resolveHead_follows (depth : Nat) (name : Text) {scope : Scope}
    (h : scope.Pure (S.ledger.upTo m)) :
    Follows S S.Moves (resolveHead depth name scope)
      (resolveHead depth name (scope.rename S.shift)) m := by
  induction scope generalizing m with
  | nil => exact .missing
  | cons frame frames ih =>
      obtain ⟨hv, h⟩ := List.forall_mem_cons.mp h
      rw [rename, List.map_cons, resolveHead, resolveHead]
      split
      · exact .value hv
      · refine .bind_value (Value.lookup_follows depth hv name) fun v later hle hv => ?_
        cases hv with
        | missing => exact ih fun frame hf => S.pure_later (h frame hf) hle
        | @function _ f receiver bound hf hr =>
            have h := Follows.value (.function bound hf hr)
            cases receiver <;> exact h
        | _ => exact .value (by constructor <;> assumption)

theorem descend_follows (depth : Nat) (names : List Text) {v : Value}
    (h : v.Pure (S.ledger.upTo m)) :
    Follows S S.Moves (descend depth v names) (descend depth (v.rename S.shift) names) m := by
  induction names generalizing v m with
  | nil => exact .value h
  | cons name names ih =>
      have hmissing : (v.rename S.shift).isMissing = v.isMissing := by
        cases h with
        | @function _ _ receiver _ => cases receiver <;> rfl
        | _ => rfl
      rw [descend, descend, hmissing]
      split
      · exact .value h
      · refine .bind (settle_follows h) fun v w later hle hv => ?_
        obtain ⟨⟨hv, rfl⟩, -⟩ := hv
        exact .bind_value (Value.lookup_follows depth hv name) fun v last _ hv => ih hv

theorem reach_follows (depth : Nat) {scope : Scope} (h : scope.Pure (S.ledger.upTo m))
    (name : Text) :
    Follows S S.Moves (reach depth scope name) (reach depth (scope.rename S.shift) name) m := by
  unfold reach
  split
  · rw [top_rename]
    exact .value h.top
  · split
    · exact .missing
    · exact .bind_value (resolveHead_follows depth _ h) fun v later _ hv =>
        descend_follows depth _ hv

theorem resolve_follows (depth : Nat) {scope : Scope} (h : scope.Pure (S.ledger.upTo m))
    (name : Text) :
    Follows S (fun n v w => S.Moves n v w ∧ v.Settled) (resolve depth scope name)
      (resolve depth (scope.rename S.shift) name) m := by
  rw [resolve_eq_settle, resolve_eq_settle]
  exact .bind_value (reach_follows depth h name) fun v later _ hv => settle_follows hv

end Scope

end Whisker
