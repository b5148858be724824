import Whisker.Proofs.Render.Order

/-! Variable tags whose values call nothing. -/

namespace Whisker.Render

/-- How the name in a variable tag reads: the name of a value, and those of the filters behind it
where the pragma for filters is in force. -/
def readName (pragmas : Pragmas) (name : Text) : Text × List Text :=
  if pragmas.isEnabled Pragmas.filters then Filter.split name else (name, [])

/-- Inserts the value of a variable. -/
def inserted (stage : Stage) (depth : Nat) (isEscaped : Bool) (filters : List Text) (v : Value) :
    Run Piece := do
  if v.isMissing then return .text []
  match ← Filter.applyAll depth stage.filters filters v with
  | .null => return .text []
  | v => if isEscaped then escaped stage depth v.toText else return .text v.toText

variable (stage : Stage) (nested : Nested) {depth : Nat} {site : Site} {store after : Store}
  {name : Text} {v : Value}

theorem variable_eq (isEscaped : Bool) :
    variable_ stage nested depth site name isEscaped =
      variableValue nested depth site (readName site.pragmas name).1 >>=
        inserted stage depth isEscaped (readName site.pragmas name).2 := rfl

theorem run_variableValue (h : (site.scope.resolve depth name).run store = (.ok v, after))
    (hv : v.isCallable = false) :
    (variableValue nested depth site name).run store = (.ok v, after) := by
  rw [variableValue, Fallible.run_bind, h]
  simp only [hv, Bool.not_false, if_true]
  rfl

/-- A value that is not called is inserted as it is. -/
theorem run_variable
    (h : (site.scope.resolve depth (readName site.pragmas name).1).run store = (.ok v, after))
    (hv : v.isCallable = false) (isEscaped : Bool) :
    (variable_ stage nested depth site name isEscaped).run store =
      (inserted stage depth isEscaped (readName site.pragmas name).2 v).run after := by
  rw [variable_eq, Fallible.run_bind, run_variableValue nested h hv]

theorem inOrder_singleton (one : Site → Node → Run (Piece × Pragmas)) (site : Site) (n : Node) :
    inOrder one site [n] = (do
      let (piece, pragmas) ← one site n
      return (← fit piece, pragmas)) := by
  rw [inOrder_cons]
  apply bind_congr
  rintro ⟨piece, pragmas⟩
  have hnil (pragmas : Pragmas) : inOrder one { site with pragmas } [] = pure ([], pragmas) := rfl
  dsimp only
  rw [join, hnil, pure_bind]
  simp only [List.append_nil]

theorem run_inOrder_variable
    (h : (site.scope.resolve depth (readName site.pragmas name).1).run store = (.ok v, after))
    (hv : v.isCallable = false) (isEscaped : Bool) (place : Place) :
    (inOrder (node stage (depth + 1)) site [.variable name isEscaped place]).run store = (do
      let piece ← inserted stage depth isEscaped (readName site.pragmas name).2 v
      return (← fit piece, site.pragmas) : Run Rendered).run after := by
  have hrun := run_variable stage (inOrder (node stage depth)) h hv isEscaped
  rw [inOrder_singleton, node, step, bind_assoc, Fallible.run_bind, hrun, Fallible.run_bind]
  rfl

/-- A section over a value that is a frame renders its nodes once, with the value in scope. -/
theorem run_inOrder_frame {path : Text} {children : List Node}
    (h : (site.scope.resolve (depth + 1) path).run store = (.ok v, after))
    (hframe : (SectionValue.ofValue v).run after = (.ok .frame, after)) (body : Text)
    (d : Delimiters) (place : Place) (indent : Text) :
    (inOrder (node stage (depth + 2)) site
      [.enclosure .plain path children body d place indent]).run store =
        (inOrder (node stage (depth + 1)) { site with scope := site.scope.push v none }
          children).run after := by
  rw [inOrder_singleton, node, step, section_, bind_assoc, bind_assoc, Fallible.run_bind, h]
  dsimp only
  rw [bind_assoc, Fallible.run_bind, hframe]
  dsimp only
  simp only [pure_bind, fit]
  exact congrArg (fun run : Run Rendered => run.run after) (bind_pure _)

end Whisker.Render
