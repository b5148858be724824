import Whisker.Proofs.Run.Logic
import Whisker.Proofs.View.Calls

/-! Steps that cannot tell two stores apart. If loading, building, counting and coming to an
iterator cannot, then calls cannot either, and so no step of a rendering can. -/

namespace Whisker

open Fallible (Related Steady)

/-- Stores that the parts of a rendering cannot tell apart, where views hold what is within `c` and
loading keeps the invariant. -/
structure Run.Blind (lib : Library) (c : Contents) (R : Store → Store → Prop)
    (kept : Loader → Prop) : Prop where
  load {α β : Type} {Q : α → β → Prop} {step : Loading α} {result : Except Failure β}
    (hk : Loading.Keeps kept step) (h : Loading.Gives lib Q step result) :
    Related R (fun a a' => ∃ b, result = .ok b ∧ Q a b ∧ Q a' b) (Run.load step) (Run.load step)
  build {v : Value} (h : v.Within c) : Steady R (Value.Within c) (Run.build v)
  countCall {id : Identity} (h : c.callee id) : Steady R (fun _ => True) (Run.countCall id)
  meet {id : Identity} {items : List Value} (ho : c.once id items) (h : ∀ v ∈ items, v.Within c) :
    Steady R (fun vs => ∀ v ∈ vs, v.Within c) (Run.meetIterator id items)
  warn (message : String) : Steady R (fun _ => True) (Run.warn message)
  afresh {α : Type} {K : α → Prop} {step : Run α} {t : Text} (ht : c.template t)
    (h : Steady R K step) : Steady R K (Run.afresh step)

variable {lib : Library} {c : Contents} {R : Store → Store → Prop} {kept : Loader → Prop}

/-! ## Accord -/

/-- Steps that end alike from stores that are alike. -/
def Run.relating (R : Store → Store → Prop) : Run.Accord where
  Holds := Related R
  pure := .pure
  throw _ := .throw _
  bind := .bind

theorem Run.Blind.looks (hR : Run.Blind lib c R kept) : (Run.relating R).Looks c where
  build := hR.build
  countCall := hR.countCall
  tryCatch h hf := .tryCatch h fun e => hf e (Related.throw e)

/-! ## Logic -/

/-- Below `height` of depth the steps cannot tell the stores apart. -/
def Run.blindly (hR : Run.Blind lib c R kept) (height : Nat) :
    Run.LogicOf lib c (Value.Within c) (Value.Within c) kept where
  Holds K step := ∀ d < height, Steady R K (step d)
  pure h _ _ := .pure h
  throw _ _ _ := .throw _
  bind h hn d hd := .bind (h d hd) fun a ha => hn a ha d hd
  load hk h _ hsame hn d hd := by
    refine Related.bind (hR.load hk h) ?_
    rintro a a' ⟨b, hb, ha, ha'⟩
    rw [← hsame ha ha' d]
    exact hn hb ha d hd
  meet ho h _ _ := hR.meet ho h
  warn message _ _ := hR.warn message
  afresh ht h d hd := hR.afresh ht (h d hd)
  publicMember h key d _ := Value.publicMember_same hR.looks d h key
  call h hr ha d hd := Value.call_same hR.looks.toCalls d (fun t => hr t d hd) ha h
  apply h hv d _ :=
    Value.call_same hR.looks.toCalls d Value.cannotRender_same (List.forall_mem_singleton.mpr hv) h
  passed_of_within h := h

end Whisker
