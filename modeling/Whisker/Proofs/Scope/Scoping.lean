import Mathlib
import Whisker.Engine
import Whisker.Proofs.Render.Ending
import Whisker.Proofs.Render.Variables
import Whisker.Proofs.Scope.Session
import Whisker.Proofs.Text.Search

/-! Scoping. A frame hides those below it for the names that it is labelled with or defines, and is
not there for all others. Behind a dot there is no falling back to the frames: the value before the
dot has the name, or it is missing. -/

namespace Whisker

/-! ## Names with a dot -/

namespace Text

variable {p : Char → Bool}

theorem pieces_ne_nil (t : Text) : pieces p t ≠ [] := by
  cases t with
  | nil => simp [pieces]
  | cons c t =>
      rw [pieces]
      split
      · simp
      · split <;> simp

/-- The last piece is what stands behind the last mark. -/
theorem pieces_append {c : Char} (hc : p c = true) (t : Text) {last : Text}
    (hl : ∀ a ∈ last, p a = false) : pieces p (t ++ c :: last) = pieces p t ++ [last] := by
  induction t with
  | nil => simp [pieces, hc, pieces_of_forall hl]
  | cons a t ih =>
      rw [List.cons_append, pieces, pieces, ih]
      cases p a with
      | true => rfl
      | false =>
          cases ht : pieces p t with
          | nil => exact (pieces_ne_nil t ht).elim
          | cons first more => rfl

end Text

/-- The frame is found under a name: this is its label, or the lookup in its value does not come to
nothing. -/
def Frame.Has (frame : Frame) (depth : Nat) (store : Store) (head : Text) : Prop :=
  frame.label = some head ∨ ((frame.value.lookup depth head).run store).1 ≠ .ok .missing

namespace Scope

variable {depth : Nat} {scope other : Scope} {v : Value} {label : Option Text}
  {name head : Text} {rest : List Text} {store after : Store}

theorem resolve_of_pieces (hn : name ≠ ['.']) (hp : Text.pieces (· = '.') name = head :: rest) :
    scope.resolve depth name =
      resolveHead depth head scope >>= fun v => descend depth v rest >>= settle := by
  rw [resolve, if_neg hn, hp]

/-! ## What a frame hides -/

theorem resolveHead_push_of_has (h : Frame.Has ⟨v, label⟩ depth store head) :
    (resolveHead depth head (scope.push v label)).run store =
      (resolveHead depth head (other.push v label)).run store := by
  rw [push, push, resolveHead, resolveHead]
  by_cases hlabel : label = some head
  · rw [if_pos hlabel, if_pos hlabel]
  · have hfound := h.resolve_left hlabel
    rw [if_neg hlabel, if_neg hlabel, Fallible.run_bind, Fallible.run_bind]
    rcases hr : (v.lookup depth head).run store with ⟨result, after⟩
    rw [hr] at hfound
    cases result with
    | error e => rfl
    | ok w =>
        cases w with
        | missing => exact (hfound rfl).elim
        | _ => rfl

theorem resolveHead_push_of_not_has (h : ¬ Frame.Has ⟨v, label⟩ depth store head) :
    (resolveHead depth head (scope.push v label)).run store =
      (resolveHead depth head scope).run ((v.lookup depth head).run store).2 := by
  rw [Frame.Has, not_or, not_not] at h
  obtain ⟨hlabel, hmissing⟩ := h
  rw [push, resolveHead, if_neg hlabel, Fallible.run_bind]
  rcases hr : (v.lookup depth head).run store with ⟨result, after⟩
  rw [hr] at hmissing
  cases hmissing
  rfl

/-- For a name that the innermost frame has, the frames below it do not matter. -/
theorem resolve_push_of_has (hn : name ≠ ['.'])
    (hp : Text.pieces (· = '.') name = head :: rest) (h : Frame.Has ⟨v, label⟩ depth store head) :
    ((scope.push v label).resolve depth name).run store =
      ((other.push v label).resolve depth name).run store := by
  rw [resolve_of_pieces hn hp, resolve_of_pieces hn hp, Fallible.run_bind, Fallible.run_bind,
    resolveHead_push_of_has h]

/-- What the value of a frame has is followed from there. -/
theorem resolve_push_found (scope : Scope) (hn : name ≠ ['.'])
    (hp : Text.pieces (· = '.') name = head :: rest) (hlabel : label ≠ some head)
    (hfound : ((v.lookup depth head).run store).1 ≠ .ok .missing) :
    ((scope.push v label).resolve depth name).run store =
      (v.lookup depth head >>= fun w => descend depth w rest >>= settle).run store := by
  rw [resolve_of_pieces hn hp, push, resolveHead, if_neg hlabel, Fallible.run_bind,
    Fallible.run_bind, Fallible.run_bind]
  rcases hr : (v.lookup depth head).run store with ⟨result, after⟩
  rw [hr] at hfound
  cases result with
  | error e => rfl
  | ok w =>
      cases w with
      | missing => exact (hfound rfl).elim
      | _ => rfl

/-- For any other name the innermost frame does not matter, but for what looking into it did. -/
theorem resolve_push_of_not_has (scope : Scope) (hn : name ≠ ['.'])
    (hp : Text.pieces (· = '.') name = head :: rest)
    (h : ¬ Frame.Has ⟨v, label⟩ depth store head) :
    ((scope.push v label).resolve depth name).run store =
      (scope.resolve depth name).run ((v.lookup depth head).run store).2 := by
  rw [resolve_of_pieces hn hp, resolve_of_pieces hn hp, Fallible.run_bind, Fallible.run_bind,
    resolveHead_push_of_not_has h]

/-- In pure data that cannot be seen: what is resolved behind it is the same, but for identities
that are handed out for it. -/
theorem resolve_after_lookup {held : Nat → List Value} {start : Session}
    (hstart : start.Begins held) (hs : Since held start.store store)
    (hscope : scope.Pure (data held start.store.heap.nextIdentity))
    (hv : v.Pure (data held start.store.heap.nextIdentity)) (depth : Nat) (head name : Text) :
    ∃ ρ : Nat → Nat, (∀ n, n < store.heap.nextIdentity → ρ n = n) ∧
      ((scope.resolve depth name).run ((v.lookup depth head).run store).2).1 =
        ((scope.resolve depth name).run store).1.map (Value.rename ρ) := by
  have hpast := hv.mono (data_le held start.store store)
  have ht : Since held start.store ((v.lookup depth head).run store).2 :=
    Since.look hstart hs (Value.lookup_follows depth (hpast.mono (.past_upTo _)) head)
      (Value.lookup_leaves (Store.remembers_lasting _).toDurable depth v head)
  exact ⟨(hstart.shifting hs ht).shift, fun n hn => Ledger.shift_of_lt hn,
    (resolve_moves hstart hs hscope depth name ht).2⟩

/-! ## What stands behind a dot -/

theorem descend_append (v : Value) (names : List Text) (last : Text) :
    descend depth v (names ++ [last]) = (do
      let w ← descend depth v names
      if w.isMissing then return w
      (← settle w).lookup depth last) := by
  induction names generalizing v with
  | nil =>
      simp only [List.nil_append, descend, pure_bind]
      split
      · rfl
      · simp
  | cons name names ih =>
      simp only [List.cons_append, descend]
      split
      · rename_i hm
        simp [hm]
      · simp only [bind_assoc, ih]

theorem settle_settled (v : Value) : Run.Yields (fun _ => True) Value.Settled (settle v) := by
  cases v with
  | iterator id items => exact .bind (.any _) fun vs _ => .pure (by simp [Value.Settled])
  | _ => exact .pure (by simp [Value.Settled])

theorem resolve_settled (depth : Nat) (scope : Scope) (name : Text) :
    Run.Yields (fun _ => True) Value.Settled (scope.resolve depth name) := by
  rw [resolve_eq_settle]
  exact .bind (.any _) fun v _ => settle_settled v

/-- A name behind a dot is looked up in what stands before the dot, and nowhere else. -/
theorem resolve_dotted (depth : Nat) (scope : Scope) {path last : Text} (hp : path ≠ ['.']) (hne : last ≠ [])
    (hl : '.' ∉ last) :
    scope.resolve depth (path ++ '.' :: last) = (do
      let x ← scope.resolve depth path
      if x.isMissing then return .missing
      settle (← x.lookup depth last)) := by
  have hdotted : path ++ '.' :: last ≠ ['.'] := by
    intro he
    have hlength := congrArg List.length he
    have hpos := List.length_pos_iff.mpr hne
    simp only [List.length_append, List.length_cons, List.length_nil] at hlength
    omega
  obtain ⟨head, rest, hpieces⟩ := List.exists_cons_of_ne_nil
    (Text.pieces_ne_nil (p := (· = '.')) path)
  have hall : Text.pieces (· = '.') (path ++ '.' :: last) = head :: (rest ++ [last]) := by
    rw [Text.pieces_append (by simp) path (Text.forall_ne_of_not_mem hl), hpieces, List.cons_append]
  rw [resolve_of_pieces hdotted hall, resolve_of_pieces hp hpieces]
  simp only [bind_assoc, descend_append]
  apply bind_congr
  intro v
  apply bind_congr
  intro w
  cases w with
  | missing => rfl
  | iterator id items =>
      have hsettle : settle (.iterator id items) =
          Run.meetIterator id items >>= fun vs => pure (.tuple vs) := rfl
      rw [hsettle]
      simp only [Value.isMissing, bind_assoc, pure_bind, Bool.false_eq_true, if_false]
  | _ => rfl

/-- What a value has under a name without a dot is found once the value is pushed. -/
theorem resolve_push_defined {last : Text} {w : Value} (hl : '.' ∉ last)
    (hw : (v.lookup depth last).run store = (.ok w, after)) (hfound : w.isMissing = false) :
    ((scope.push v none).resolve depth last).run store = (settle w).run after := by
  have hn : last ≠ ['.'] := by
    rintro rfl
    exact hl List.mem_cons_self
  have hp := Text.pieces_of_forall (Text.forall_ne_of_not_mem hl)
  have hthere : ((v.lookup depth last).run store).1 ≠ .ok .missing := by
    rw [hw]
    rintro ⟨⟩
    cases hfound
  rw [resolve_push_found scope hn hp (by simp) hthere, Fallible.run_bind, hw]
  rfl

/-- Settling what cannot be called gives what cannot be called. -/
theorem exists_run_settle {w : Value} (h : w.isCallable = false) (store : Store) :
    ∃ v after, (settle w).run store = (.ok v, after) ∧ v.isCallable = false := by
  cases w with
  | iterator id items =>
      cases id with
      | none => exact ⟨.tuple items, store, rfl, rfl⟩
      | some n => exact ⟨_, _, Prod.ext (run_settle_iterator n items store) rfl, rfl⟩
  | _ => exact ⟨_, store, rfl, h⟩

end Scope

/-- To see what a settled value is for a section does nothing. -/
theorem SectionValue.run_ofValue_snd {v : Value} (h : v.Settled) (store : Store) :
    ((ofValue v).run store).2 = store := by
  unfold ofValue
  split
  · rfl
  · cases v with
    | iterator id items => exact (h id items rfl).elim
    | object o =>
        have hread : (Run.read (Reading.items? (.object o))).run store = (o.readItems, store) := rfl
        dsimp only
        rw [Fallible.run_bind, hread]
        cases o.readItems with
        | error e => rfl
        | ok found => cases found <;> rfl
    | bool b => cases b <;> rfl
    | _ => rfl

theorem SectionValue.not_missing_of_frame {v : Value} {store : Store}
    (h : ((ofValue v).run store).1 = .ok .frame) : v.isMissing = false := by
  cases v with
  | missing => cases h
  | _ => rfl

namespace Render

variable {stage : Stage} {site : Site} {path last outer inner : Text} {filters : List Text}
  {store mid after : Store} {x w : Value}

/-! ## Tags -/

/-- A variable behind a dot renders as it does in a section over what stands before the dot, if it
is there and is not called. The section needs one level of depth more. -/
theorem dotted_variable_eq_section (hpath : path ≠ ['.']) (hne : last ≠ []) (hl : '.' ∉ last)
    (hx : Run.EndsAs (fun d => site.scope.resolve d path) store (.ok x, mid))
    (hframe : ((SectionValue.ofValue x).run mid).1 = .ok .frame)
    (hw : Run.EndsAs (fun d => x.lookup d last) mid (.ok w, after))
    (hfound : w.isMissing = false) (hcall : w.isCallable = false)
    (houter : readName site.pragmas outer = (path ++ '.' :: last, filters))
    (hinner : readName site.pragmas inner = (last, filters)) :
    ∃ least, ∀ depth, least ≤ depth → ∀ isEscaped place body d place' indent,
      (inOrder (node stage (depth + 1)) site [.variable outer isEscaped place]).run store =
        (inOrder (node stage (depth + 2)) site
          [.enclosure .plain path [.variable inner isEscaped place] body d place' indent]).run
            store := by
  obtain ⟨-, least, hx⟩ := hx
  obtain ⟨-, least', hw⟩ := hw
  have hsettled : x.Settled := by
    have hyields := (Scope.resolve_settled least site.scope path store trivial).2
    rw [hx least (Nat.le_refl _)] at hyields
    exact hyields x rfl
  have hsection : (SectionValue.ofValue x).run mid = (.ok .frame, mid) :=
    Prod.ext hframe (SectionValue.run_ofValue_snd hsettled mid)
  obtain ⟨v, fin, hsettle, hv⟩ := Scope.exists_run_settle hcall after
  refine ⟨max least least', fun depth hdepth isEscaped place body d place' indent => ?_⟩
  have hpathAt := hx depth (by omega)
  have hpathAbove := hx (depth + 1) (by omega)
  have hlookup := hw depth (by omega)
  dsimp only at hpathAt hpathAbove hlookup
  -- both come to the same value, in the same store
  have hdotted : (site.scope.resolve depth (readName site.pragmas outer).1).run store =
      (.ok v, fin) := by
    rw [houter, Scope.resolve_dotted depth site.scope hpath hne hl, Fallible.run_bind, hpathAt]
    dsimp only
    rw [if_neg (by simp [SectionValue.not_missing_of_frame hframe]), Fallible.run_bind, hlookup]
    exact hsettle
  let inside : Site := { site with scope := site.scope.push x none }
  have hpushed : (inside.scope.resolve depth (readName inside.pragmas inner).1).run mid =
      (.ok v, fin) := by
    rw [hinner]
    exact (Scope.resolve_push_defined hl hlookup hfound).trans hsettle
  have hvariable := run_inOrder_variable stage hdotted hv isEscaped place
  have hinside := run_inOrder_variable stage hpushed hv isEscaped place
  rw [houter] at hvariable
  rw [hinner] at hinside
  rw [hvariable, run_inOrder_frame stage hpathAbove hsection, hinside]

/-- Scoping of names. A name of which the innermost frame has the first part means the same whatever
frames are below it; any other name means what it does without that frame, in pure data but for
identities that are handed out for what is found. A name with a dot is missing where what stands
before the last dot is missing or lacks the rest, and else it means what the rest does once the
value is pushed. So a variable with a dot renders as it does in a section, if the value is a frame
that has the rest and this is not called. -/
theorem names_scoped {name head : Text} {rest : List Text} (hname : name ≠ ['.'])
    (hpieces : Text.pieces (· = '.') name = head :: rest) (hpath : path ≠ ['.']) (hne : last ≠ [])
    (hl : '.' ∉ last) :
    (∀ depth store v label, Frame.Has ⟨v, label⟩ depth store head → ∀ scope other,
      ((Scope.push v label scope).resolve depth name).run store =
        ((Scope.push v label other).resolve depth name).run store) ∧
    (∀ depth store v label, ¬ Frame.Has ⟨v, label⟩ depth store head → ∀ scope,
      ((Scope.push v label scope).resolve depth name).run store =
        (scope.resolve depth name).run ((v.lookup depth head).run store).2 ∧
      ∀ held (start : Scope.Session), start.Begins held → Scope.Since held start.store store →
        scope.Pure (Scope.data held start.store.heap.nextIdentity) →
        v.Pure (Scope.data held start.store.heap.nextIdentity) →
        ∃ ρ : Nat → Nat, (∀ n, n < store.heap.nextIdentity → ρ n = n) ∧
          (((Scope.push v label scope).resolve depth name).run store).1 =
            ((scope.resolve depth name).run store).1.map (Value.rename ρ)) ∧
    (∀ depth scope store x mid, (Scope.resolve depth scope path).run store = (.ok x, mid) →
      (x.isMissing = true →
        (scope.resolve depth (path ++ '.' :: last)).run store = (.ok .missing, mid)) ∧
      (x.isMissing = false → ∀ w after, (x.lookup depth last).run mid = (.ok w, after) →
        (w.isMissing = true →
          (scope.resolve depth (path ++ '.' :: last)).run store = (.ok .missing, after)) ∧
        (w.isMissing = false →
          (scope.resolve depth (path ++ '.' :: last)).run store =
            ((scope.push x none).resolve depth last).run mid))) ∧
    ∀ (stage : Stage) (site : Site) (store mid after : Store) (x w : Value) (outer inner : Text)
        (filters : List Text),
      Run.EndsAs (fun d => site.scope.resolve d path) store (.ok x, mid) →
      ((SectionValue.ofValue x).run mid).1 = .ok .frame →
      Run.EndsAs (fun d => x.lookup d last) mid (.ok w, after) →
      w.isMissing = false → w.isCallable = false →
      readName site.pragmas outer = (path ++ '.' :: last, filters) →
      readName site.pragmas inner = (last, filters) →
      ∃ least, ∀ depth, least ≤ depth → ∀ isEscaped place body d place' indent,
        (inOrder (node stage (depth + 1)) site [.variable outer isEscaped place]).run store =
          (inOrder (node stage (depth + 2)) site
            [.enclosure .plain path [.variable inner isEscaped place] body d place' indent]).run
              store := by
  refine ⟨?_, ?_, ?_, ?_⟩
  · intro depth store v label h scope other
    exact Scope.resolve_push_of_has hname hpieces h
  · intro depth store v label h scope
    have hbelow := Scope.resolve_push_of_not_has scope hname hpieces h
    refine ⟨hbelow, ?_⟩
    intro held start hstart hs hscope hv
    rw [hbelow]
    exact Scope.resolve_after_lookup hstart hs hscope hv depth head name
  · intro depth scope store x mid hx
    have hdotted := Scope.resolve_dotted depth scope hpath hne hl
    constructor
    · intro hm
      rw [hdotted, Fallible.run_bind, hx]
      dsimp only
      rw [if_pos hm]
      rfl
    · intro hm w after hw
      have hthere : (scope.resolve depth (path ++ '.' :: last)).run store =
          (Scope.settle w).run after := by
        rw [hdotted, Fallible.run_bind, hx]
        dsimp only
        rw [if_neg (by simp [hm]), Fallible.run_bind, hw]
      constructor
      · intro hnone
        rw [hthere]
        cases w with
        | missing => rfl
        | _ => cases hnone
      · intro hfound
        rw [hthere]
        exact (Scope.resolve_push_defined hl hw hfound).symm
  · intro stage site store mid after x w outer inner filters hx hframe hw hfound hcall houter hinner
    exact dotted_variable_eq_section hpath hne hl hx hframe hw hfound hcall houter hinner

def outerFrame : Scope := Scope.ofView (.dict [(['a'], .dict [(['b'], .text ['v'])])])

/-- An empty frame hides nothing, and the variable is found as it is in a section. -/
theorem outerFrame_scoped :
    let store := Store.fresh (.fresh 0) (.fresh .empty (.memory 1 []) (.empty true) .standard)
    let site : Site := ⟨outerFrame, .none true, [], []⟩
    (∃ ρ : Nat → Nat, (((outerFrame.push (.dict []) none).resolve 3 "a.b".toList).run store).1 =
      ((outerFrame.resolve 3 "a.b".toList).run store).1.map (Value.rename ρ)) ∧
    ∃ least, ∀ depth, least ≤ depth → ∀ isEscaped place body d place' indent,
      (inOrder (node ⟨.standard, [], none, []⟩ (depth + 1)) site
        [.variable "a.b".toList isEscaped place]).run store =
      (inOrder (node ⟨.standard, [], none, []⟩ (depth + 2)) site
        [.enclosure .plain ['a'] [.variable ['b'] isEscaped place] body d place' indent]).run
          store := by
  intro store site
  let held : Nat → List Value := fun _ => []
  have hbegins : Scope.Session.Begins held ⟨[], store⟩ :=
    ⟨rfl, fun n _ => ⟨rfl, List.not_mem_nil, rfl⟩, by simp [held], by simp [held], by simp⟩
  have hpure : outerFrame.Pure (Scope.data held 0) := by
    have hinner : Value.Pure (Scope.data held 0) (.dict [(['b'], .text ['v'])]) :=
      .dict (List.forall_mem_singleton.mpr (.text _))
    exact List.forall_mem_singleton.mpr (.dict (List.forall_mem_singleton.mpr hinner))
  have hempty : ¬ Frame.Has ⟨.dict [], none⟩ 3 store ['a'] := by
    rw [Frame.Has, not_or, not_not]
    exact ⟨by simp, rfl⟩
  have hpieces : Text.pieces (· = '.') "a.b".toList = ['a'] :: [['b']] := rfl
  have hpath : ['a'] ≠ ['.'] := by decide
  have hlast : '.' ∉ ['b'] := by decide
  obtain ⟨-, hbelow, -, htags⟩ := names_scoped (by decide) hpieces hpath (by decide) hlast
  obtain ⟨ρ, -, hrun⟩ := (hbelow 3 store (.dict []) none hempty outerFrame).2 held ⟨[], store⟩
    hbegins hbegins.since hpure (.dict (by simp))
  have hx : Run.EndsAs (fun d => site.scope.resolve d ['a']) store
      (.ok (.dict [(['b'], .text ['v'])]), store) := ⟨.ok _, 0, fun _ _ => rfl⟩
  have hw : Run.EndsAs (fun d => Value.lookup d (.dict [(['b'], .text ['v'])]) ['b']) store
      (.ok (.text ['v']), store) := ⟨.ok _, 0, fun _ _ => rfl⟩
  exact ⟨⟨ρ, hrun⟩, htags ⟨.standard, [], none, []⟩ site store store store _ _ "a.b".toList ['b'] []
    hx rfl hw rfl rfl rfl rfl⟩

end Render

namespace Engine

/-- A function whose text names something that is in scope twice. -/
def scopedEcho : Value := .function (.mk none (.exactly 0) (.literal (.text "{{t}}".toList))) none false

def twofold : Value :=
  .dict [(['p'], .dict [(['s'], scopedEcho), (['t'], .text ['i'])]), (['t'], .text ['o'])]

def barred : Value := .dict [(['|', 'p'], .dict [(['t'], .text ['x'])])]

/-- What is called renders its text where the tag stands, and there the names of the value before
the dot are not in scope. Also a name with a bar reads otherwise in a variable than in a section. -/
theorem dotted_differs_from_section :
    ∃ engine filtering,
      create .empty .standard (some (.memory 1 [])) none [] none (.fresh 0) = .ok engine ∧
      create .empty { Settings.standard with pragmas := [Pragmas.filters] } (some (.memory 1 []))
        none [] none (.fresh 0) = .ok filtering ∧
      (engine.render "{{p.s}}".toList twofold []).1 = .ok ['o'] ∧
      (engine.render "{{#p}}{{s}}{{/p}}".toList twofold []).1 = .ok ['i'] ∧
      (filtering.render "{{|p.t}}".toList barred []).1 = .ok [] ∧
      (filtering.render "{{#|p}}{{t}}{{/|p}}".toList barred []).1 = .ok ['x'] :=
  ⟨_, _, rfl, rfl, by cbv, by cbv, by cbv, by cbv⟩

end Engine

end Whisker
