import Whisker.Text.Basic

/-! Slices of a text between two offsets. Slices that lie end to end make up the slice over both. -/

namespace Whisker.Text

/-- The part of a text from `start` up to `stop`. -/
def slice (t : Text) (start stop : Nat) : Text := (t.drop start).take (stop - start)

@[simp] theorem slice_self (t : Text) (n : Nat) : slice t n n = [] := by simp [slice]

theorem slice_zero_length (t : Text) : slice t 0 t.length = t := by simp [slice]

theorem slice_append_slice (t : Text) {start middle stop : Nat} (h₁ : start ≤ middle)
    (h₂ : middle ≤ stop) : slice t start middle ++ slice t middle stop = slice t start stop := by
  have hd : t.drop middle = (t.drop start).drop (middle - start) := by
    rw [List.drop_drop]
    congr 1
    omega
  have hs : stop - start = (middle - start) + (stop - middle) := by omega
  rw [slice, slice, slice, hd, hs, List.take_add]

/-- The slice of a text that is given in three parts. -/
theorem slice_middle (front middle rest : Text) {start stop : Nat} (h₁ : start = front.length)
    (h₂ : stop = start + middle.length) : slice (front ++ middle ++ rest) start stop = middle := by
  subst h₁ h₂
  simp [slice]

/-- A slice of a slice is a slice of the whole text, further on. -/
theorem slice_slice (t : Text) {start stop a b : Nat} (h : start + b ≤ stop) :
    slice (slice t start stop) a b = slice t (start + a) (start + b) := by
  rw [slice, slice, slice, List.drop_take, List.take_take, List.drop_drop]
  congr 1
  omega

theorem slice_append_right (front t : Text) (start stop : Nat) :
    slice (front ++ t) (front.length + start) (front.length + stop) = slice t start stop := by
  rw [slice, slice, List.drop_length_add_append, Nat.add_sub_add_left]

theorem slice_append_left {t : Text} {stop : Nat} (h : stop ≤ t.length) (start : Nat)
    (back : Text) : slice (t ++ back) start stop = slice t start stop := by
  by_cases hs : start ≤ t.length
  · rw [slice, slice, List.drop_append_of_le_length hs, List.take_append_of_le_length]
    rw [List.length_drop]
    omega
  · have hempty : stop - start = 0 := by omega
    simp [slice, hempty]

end Whisker.Text
