/-! Text as a sequence of code points, with the searching and splitting that templates need. -/

namespace Whisker

/-- Positions, columns and lengths of a text count code points. -/
abbrev Text := List Char

namespace Text

/-- The same characters as a `String`, for messages and other output. -/
def string (t : Text) : String := String.ofList t

/-! ## Searching -/

/-- The text before and after the first place where `mark` occurs. -/
def cut? (mark : Text) : Text → Option (Text × Text)
  | [] => if mark.isEmpty then some ([], []) else none
  | c :: rest =>
    if mark.isPrefixOf (c :: rest) then some ([], (c :: rest).drop mark.length)
    else (cut? mark rest).map fun (before, after) => (c :: before, after)

theorem eq_of_isPrefixOf {mark t : Text} (h : mark.isPrefixOf t = true) :
    t = mark ++ t.drop mark.length := by
  obtain ⟨s, rfl⟩ := List.isPrefixOf_iff_prefix.mp h
  simp

theorem eq_of_cut? {mark t before after : Text} (h : cut? mark t = some (before, after)) :
    t = before ++ mark ++ after := by
  induction t generalizing before after with
  | nil =>
    simp only [cut?] at h
    split at h <;> simp_all
  | cons c rest ih =>
    simp only [cut?] at h
    split at h
    · next hp =>
      obtain ⟨rfl, rfl⟩ := Prod.mk.inj (Option.some.inj h)
      simpa using eq_of_isPrefixOf hp
    · obtain ⟨⟨b, a⟩, hb, hab⟩ := Option.map_eq_some_iff.mp h
      obtain ⟨rfl, rfl⟩ := Prod.mk.inj hab
      simp [ih hb]

theorem length_of_cut? {mark t before after : Text} (h : cut? mark t = some (before, after)) :
    t.length = before.length + mark.length + after.length := by
  rw [eq_of_cut? h]
  simp only [List.length_append]

/-! ## Splitting -/

/-- The pieces between the characters that satisfy `p`, empty ones included. -/
def pieces (p : Char → Bool) : Text → List Text
  | [] => [[]]
  | c :: rest =>
    if p c then [] :: pieces p rest
    else match pieces p rest with
      | [] => [[c]]
      | piece :: more => (c :: piece) :: more

/-- The pieces between the occurrences of `mark`; a text without it is one piece. -/
def splitOn (mark t : Text) : List Text :=
  if _hm : mark = [] then [t]
  else match _h : cut? mark t with
    | none => [t]
    | some (before, after) =>
      before :: splitOn mark after
termination_by t.length
decreasing_by
  have := length_of_cut? _h
  have : 0 < mark.length := List.length_pos_iff.mpr _hm
  omega

/-- Drops the characters that satisfy `p` from both ends. -/
def trim (p : Char → Bool) (t : Text) : Text :=
  ((t.dropWhile p).reverse.dropWhile p).reverse

/-- The order by code points; a text comes before those that go on after it. -/
def le : Text → Text → Bool
  | [], _ => true
  | _ :: _, [] => false
  | c :: s, d :: t => c.toNat < d.toNat || (c = d && le s t)

/-- The texts one after another with `mark` between them. -/
def join (mark : Text) (texts : List Text) : Text := List.intercalate mark texts

end Text

end Whisker
