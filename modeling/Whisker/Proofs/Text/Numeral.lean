import Mathlib.Data.List.TakeWhile
import Whisker.Proofs.Text.Search
import Whisker.Text.Numeral

/-! Numerals in base ten: which texts are read as whole numbers, apart from paddings. -/

namespace Whisker.Text

def isDecimal (c : Char) : Bool := (decimalValue? c).isSome

/-- Decimal digits, not too many, perhaps behind one sign. -/
def isNumeral (t : Text) : Bool :=
  let digits := (splitSign t).2
  !digits.isEmpty && digits.length ≤ longestNumeral && digits.all isDecimal

theorem lt_ten_of_decimalValue? {c : Char} {n : Nat} (h : decimalValue? c = some n) : n < 10 := by
  obtain ⟨start, hs, rfl⟩ := Option.map_eq_some_iff.mp h
  have hrange := List.find?_some hs
  simp only [Bool.and_eq_true, decide_eq_true_eq] at hrange
  omega

/-- Letters are no digits in base ten. -/
theorem digitValue?_ten (c : Char) : digitValue? 10 c = decimalValue? c := by
  unfold digitValue?
  cases h : decimalValue? c with
  | some n => simp [Option.filter, lt_ten_of_decimalValue? h]
  | none =>
      rw [Option.none_or]
      cases ("abcdef".toList.idxOf? c.toLower) with
      | none => rfl
      | some i => simp [Option.filter]

theorem dropBaseMark_ten (t : Text) : dropBaseMark 10 t = t := by
  have hmark : (if 10 = 2 then ['b', 'B'] else if 10 = 8 then ['o', 'O'] else
    if 10 = 16 then ['x', 'X'] else []) = ([] : Text) := rfl
  unfold dropBaseMark
  simp only [hmark, List.contains_nil, Bool.false_eq_true, if_false]
  split <;> rfl

theorem trim_eq_self {p : Char → Bool} {t : Text} (h : ∀ c ∈ t, p c = false) : trim p t = t := by
  rw [trim, dropWhile_eq_self fun c hc => h c (List.mem_of_mem_head? hc)]
  rw [dropWhile_eq_self fun c hc => h c (List.mem_reverse.mp (List.mem_of_mem_head? hc))]
  exact List.reverse_reverse t

/-- Where there is nothing to trim, just the numerals are read. -/
theorem exists_readInteger_iff {t : Text} (h : ∀ c ∈ t, isPadding c = false) :
    (∃ i, readInteger 10 t = .ok i) ↔ isNumeral t = true := by
  have hdigit : (fun c => (digitValue? 10 c).isSome) = isDecimal := by
    funext c
    rw [digitValue?_ten, isDecimal]
  unfold readInteger isNumeral
  rw [trim_eq_self h]
  simp only [dropBaseMark_ten, hdigit]
  generalize (splitSign t).2 = digits
  by_cases hall : digits.all isDecimal = true
  · have htake : digits.takeWhile isDecimal = digits :=
      List.takeWhile_eq_self_iff.mpr (List.all_eq_true.mp hall)
    rw [htake, hall]
    by_cases hlong : longestNumeral < digits.length
    · simp [hlong, Nat.not_le.mpr hlong]
    · cases digits with
      | nil => simp
      | cons c digits =>
          rw [List.length_cons] at hlong
          simp [hlong, Nat.not_lt.mp hlong]
  · have hshort : (digits.takeWhile isDecimal).length < digits.length := by
      have hle := (List.takeWhile_prefix isDecimal (l := digits)).length_le
      have hne : (digits.takeWhile isDecimal).length ≠ digits.length := by
        intro he
        have hself := (List.takeWhile_prefix isDecimal (l := digits)).eq_of_length he
        exact hall (List.all_eq_true.mpr (List.takeWhile_eq_self_iff.mp hself))
      omega
    simp only [hall, hshort, decide_true, Bool.or_true, if_true]
    split <;> simp

end Whisker.Text
