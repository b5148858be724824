import Mathlib
import Whisker.Text.Utf8

/-! Decoding undoes encoding: bytes have a text exactly if they are the encoding of it, character by
character. -/

namespace Whisker.Text

namespace Utf8

theorem continuation?_eq_some_iff {b : UInt8} {x : Nat} :
    continuation? b = some x ↔ x < 64 ∧ b = UInt8.ofNat (x + 128) := by
  have hb := b.toNat_lt
  unfold continuation?
  rw [← UInt8.toNat_inj, UInt8.toNat_ofNat', Option.ite_none_right_eq_some, Option.some_inj,
    Bool.and_eq_true, decide_eq_true_eq, decide_eq_true_eq]
  omega

theorem char?_eq_some_iff {least code : Nat} {c : Char} :
    char? least code = some c ↔ c.toNat = code ∧ least ≤ code := by
  unfold char?
  constructor
  · intro h
    split at h
    · next hv =>
        rw [Option.ite_none_right_eq_some, Option.some_inj] at h
        obtain ⟨hle, rfl⟩ := h
        exact ⟨Char.toNat_ofNatAux hv, hle⟩
    · cases h
  · rintro ⟨rfl, hle⟩
    have hv : c.toNat.isValidChar := c.valid
    have hc : Char.ofNatAux c.toNat hv = c := by
      apply Char.toNat_inj.mp
      exact Char.toNat_ofNatAux hv
    rw [dif_pos hv, if_pos hle, hc]

/-! ## Characters by the number of their bytes -/

variable {c : Char}

theorem encode_one (h : c.toNat < 0x80) : String.utf8EncodeChar c = [UInt8.ofNat c.toNat] := by
  rw [String.utf8EncodeChar]
  exact if_pos (Nat.le_of_lt_succ h)

theorem encode_two (h : 0x80 ≤ c.toNat) (h' : c.toNat < 0x800) :
    String.utf8EncodeChar c =
      [UInt8.ofNat (c.toNat / 64 + 192), UInt8.ofNat (c.toNat % 64 + 128)] := by
  have hlead : c.toNat / 64 % 32 = c.toNat / 64 := by omega
  rw [String.utf8EncodeChar, ← hlead]
  refine (if_neg ?_).trans (if_pos ?_)
  · exact Nat.not_le_of_lt h
  · exact Nat.le_of_lt_succ h'

theorem encode_three (h : 0x800 ≤ c.toNat) (h' : c.toNat < 0x10000) :
    String.utf8EncodeChar c =
      [UInt8.ofNat (c.toNat / 4096 + 224), UInt8.ofNat (c.toNat / 64 % 64 + 128),
        UInt8.ofNat (c.toNat % 64 + 128)] := by
  have hlead : c.toNat / 4096 % 16 = c.toNat / 4096 := by omega
  rw [String.utf8EncodeChar, ← hlead]
  refine (if_neg ?_).trans ((if_neg ?_).trans (if_pos ?_))
  · exact Nat.not_le_of_lt (Nat.lt_of_lt_of_le (by decide) h)
  · exact Nat.not_le_of_lt h
  · exact Nat.le_of_lt_succ h'

theorem encode_four (h : 0x10000 ≤ c.toNat) :
    String.utf8EncodeChar c =
      [UInt8.ofNat (c.toNat / 262144 + 240), UInt8.ofNat (c.toNat / 4096 % 64 + 128),
        UInt8.ofNat (c.toNat / 64 % 64 + 128), UInt8.ofNat (c.toNat % 64 + 128)] := by
  have hvalid : c.toNat < 0xd800 ∨ 0xdfff < c.toNat ∧ c.toNat < 0x110000 := c.valid
  have hlead : c.toNat / 262144 % 8 = c.toNat / 262144 := by omega
  rw [String.utf8EncodeChar, ← hlead]
  refine (if_neg ?_).trans ((if_neg ?_).trans (if_neg ?_))
  · exact Nat.not_le_of_lt (Nat.lt_of_lt_of_le (by decide) h)
  · exact Nat.not_le_of_lt (Nat.lt_of_lt_of_le (by decide) h)
  · exact Nat.not_le_of_lt h

/-! ## Bytes of one character -/

theorem toNat_charOfNat {n : Nat} (h : n < 0x80) : (Char.ofNat n).toNat = n := by
  have hv : n.isValidChar := .inl (Nat.lt_trans h (by decide))
  rw [Char.ofNat, dif_pos hv, Char.toNat_ofNatAux]

theorem eq_ofNat_of_toNat_eq {b : UInt8} {n : Nat} (h : b.toNat = n) : UInt8.ofNat n = b := by
  rw [← h, UInt8.ofNat_toNat]

variable {b b₁ b₂ b₃ : UInt8} {x₁ x₂ x₃ : Nat}

theorem encode_of_one (h : b.toNat < 0x80) :
    String.utf8EncodeChar (Char.ofNat b.toNat) = [b] := by
  have hc := toNat_charOfNat h
  rw [encode_one (hc.symm ▸ h), hc, UInt8.ofNat_toNat]

theorem encode_of_two (hlow : 0xc0 ≤ b.toNat) (hhigh : b.toNat < 0xe0)
    (h₁ : continuation? b₁ = some x₁)
    (hc : char? 0x80 ((b.toNat - 0xc0) * 64 + x₁) = some c) :
    String.utf8EncodeChar c = [b, b₁] := by
  obtain ⟨hx₁, rfl⟩ := continuation?_eq_some_iff.mp h₁
  obtain ⟨hc, hle⟩ := char?_eq_some_iff.mp hc
  have hlead : b.toNat = c.toNat / 64 + 192 := by omega
  have hlast : c.toNat % 64 = x₁ := by omega
  rw [encode_two (by omega) (by omega), eq_ofNat_of_toNat_eq hlead, hlast]

theorem encode_of_three (hlow : 0xe0 ≤ b.toNat) (hhigh : b.toNat < 0xf0)
    (h₁ : continuation? b₁ = some x₁) (h₂ : continuation? b₂ = some x₂)
    (hc : char? 0x800 (((b.toNat - 0xe0) * 64 + x₁) * 64 + x₂) = some c) :
    String.utf8EncodeChar c = [b, b₁, b₂] := by
  obtain ⟨hx₁, rfl⟩ := continuation?_eq_some_iff.mp h₁
  obtain ⟨hx₂, rfl⟩ := continuation?_eq_some_iff.mp h₂
  obtain ⟨hc, hle⟩ := char?_eq_some_iff.mp hc
  have hlead : b.toNat = c.toNat / 4096 + 224 := by omega
  have hmiddle : c.toNat / 64 % 64 = x₁ := by omega
  have hlast : c.toNat % 64 = x₂ := by omega
  rw [encode_three (by omega) (by omega), eq_ofNat_of_toNat_eq hlead, hmiddle, hlast]

theorem encode_of_four (hlow : 0xf0 ≤ b.toNat)
    (h₁ : continuation? b₁ = some x₁) (h₂ : continuation? b₂ = some x₂)
    (h₃ : continuation? b₃ = some x₃)
    (hc : char? 0x10000 ((((b.toNat - 0xf0) * 64 + x₁) * 64 + x₂) * 64 + x₃) = some c) :
    String.utf8EncodeChar c = [b, b₁, b₂, b₃] := by
  obtain ⟨hx₁, rfl⟩ := continuation?_eq_some_iff.mp h₁
  obtain ⟨hx₂, rfl⟩ := continuation?_eq_some_iff.mp h₂
  obtain ⟨hx₃, rfl⟩ := continuation?_eq_some_iff.mp h₃
  obtain ⟨hc, hle⟩ := char?_eq_some_iff.mp hc
  have hlead : b.toNat = c.toNat / 262144 + 240 := by omega
  have hmiddle : c.toNat / 4096 % 64 = x₁ := by omega
  have hmiddle' : c.toNat / 64 % 64 = x₂ := by omega
  have hlast : c.toNat % 64 = x₃ := by omega
  rw [encode_four (by omega), eq_ofNat_of_toNat_eq hlead, hmiddle, hmiddle', hlast]

/-! ## Decoding -/

/-- Only the bytes of a character decode to it. The cases are those of the leading byte. -/
theorem eq_of_decodeChar? {bytes rest : List UInt8} (h : decodeChar? bytes = some (c, rest)) :
    bytes = String.utf8EncodeChar c ++ rest := by
  unfold decodeChar? at h
  simp only [Option.bind_eq_bind, Option.pure_def, Bool.and_eq_true, decide_eq_true_eq] at h
  split at h
  · cases h
  · split at h
    · next hn =>
      obtain ⟨rfl, rfl⟩ := Prod.mk.inj (Option.some.inj h)
      rw [encode_of_one hn]
      rfl
    · split at h
      · cases h
      · split at h
        · next hr =>
          obtain ⟨x₁, h₁, h⟩ := Option.bind_eq_some_iff.mp h
          obtain ⟨c', hc, h⟩ := Option.bind_eq_some_iff.mp h
          obtain ⟨rfl, rfl⟩ := Prod.mk.inj (Option.some.inj h)
          rw [encode_of_two hr.1 hr.2 h₁ hc]
          rfl
        · split at h
          · cases h
          · split at h
            · next hr =>
              obtain ⟨x₁, h₁, h⟩ := Option.bind_eq_some_iff.mp h
              obtain ⟨x₂, h₂, h⟩ := Option.bind_eq_some_iff.mp h
              obtain ⟨c', hc, h⟩ := Option.bind_eq_some_iff.mp h
              obtain ⟨rfl, rfl⟩ := Prod.mk.inj (Option.some.inj h)
              rw [encode_of_three hr.1 hr.2 h₁ h₂ hc]
              rfl
            · split at h
              · cases h
              · split at h
                · next hr =>
                  obtain ⟨x₁, h₁, h⟩ := Option.bind_eq_some_iff.mp h
                  obtain ⟨x₂, h₂, h⟩ := Option.bind_eq_some_iff.mp h
                  obtain ⟨x₃, h₃, h⟩ := Option.bind_eq_some_iff.mp h
                  obtain ⟨c', hc, h⟩ := Option.bind_eq_some_iff.mp h
                  obtain ⟨rfl, rfl⟩ := Prod.mk.inj (Option.some.inj h)
                  rw [encode_of_four hr.1 h₁ h₂ h₃ hc]
                  rfl
                · cases h

section

variable (rest : List UInt8)

theorem decodeChar?_one (h : b.toNat < 0x80) :
    decodeChar? (b :: rest) = some (Char.ofNat b.toNat, rest) := by
  unfold decodeChar?
  exact if_pos h

theorem decodeChar?_two (hlow : 0xc0 ≤ b.toNat) (hhigh : b.toNat < 0xe0)
    (h₁ : continuation? b₁ = some x₁)
    (hc : char? 0x80 ((b.toNat - 0xc0) * 64 + x₁) = some c) :
    decodeChar? (b :: b₁ :: rest) = some (c, rest) := by
  have hn : ¬ b.toNat < 0x80 := by omega
  simp [decodeChar?, hn, hlow, hhigh, h₁, hc]

theorem decodeChar?_three (hlow : 0xe0 ≤ b.toNat) (hhigh : b.toNat < 0xf0)
    (h₁ : continuation? b₁ = some x₁) (h₂ : continuation? b₂ = some x₂)
    (hc : char? 0x800 (((b.toNat - 0xe0) * 64 + x₁) * 64 + x₂) = some c) :
    decodeChar? (b :: b₁ :: b₂ :: rest) = some (c, rest) := by
  have hn : ¬ b.toNat < 0x80 := by omega
  have hn₂ : ¬ b.toNat < 0xe0 := by omega
  simp [decodeChar?, hn, hn₂, hlow, hhigh, h₁, h₂, hc]

theorem decodeChar?_four (hlow : 0xf0 ≤ b.toNat) (hhigh : b.toNat < 0xf8)
    (h₁ : continuation? b₁ = some x₁) (h₂ : continuation? b₂ = some x₂)
    (h₃ : continuation? b₃ = some x₃)
    (hc : char? 0x10000 ((((b.toNat - 0xf0) * 64 + x₁) * 64 + x₂) * 64 + x₃) = some c) :
    decodeChar? (b :: b₁ :: b₂ :: b₃ :: rest) = some (c, rest) := by
  have hn : ¬ b.toNat < 0x80 := by omega
  have hn₂ : ¬ b.toNat < 0xe0 := by omega
  have hn₃ : ¬ b.toNat < 0xf0 := by omega
  simp [decodeChar?, hn, hn₂, hn₃, hlow, hhigh, h₁, h₂, h₃, hc]

end

theorem continuation?_ofNat (n : Nat) :
    continuation? (UInt8.ofNat (n % 64 + 128)) = some (n % 64) :=
  continuation?_eq_some_iff.mpr ⟨Nat.mod_lt n (by decide), rfl⟩

theorem toNat_ofNat_of_lt {n : Nat} (h : n < 256) : (UInt8.ofNat n).toNat = n := by
  rw [UInt8.toNat_ofNat']
  exact Nat.mod_eq_of_lt h

theorem decodeChar?_encode (c : Char) (rest : List UInt8) :
    decodeChar? (String.utf8EncodeChar c ++ rest) = some (c, rest) := by
  have hvalid : c.toNat < 0xd800 ∨ 0xdfff < c.toNat ∧ c.toNat < 0x110000 := c.valid
  by_cases h₁ : c.toNat < 0x80
  · have hlead := toNat_ofNat_of_lt (Nat.lt_trans h₁ (by decide))
    rw [encode_one h₁]
    have hone := decodeChar?_one rest (hlead.symm ▸ h₁)
    rwa [hlead, Char.ofNat_toNat] at hone
  by_cases h₂ : c.toNat < 0x800
  · have hlead := toNat_ofNat_of_lt (n := c.toNat / 64 + 192) (by omega)
    rw [encode_two (by omega) h₂]
    apply decodeChar?_two rest _ _ (continuation?_ofNat _) (char?_eq_some_iff.mpr _) <;> omega
  by_cases h₃ : c.toNat < 0x10000
  · have hlead := toNat_ofNat_of_lt (n := c.toNat / 4096 + 224) (by omega)
    rw [encode_three (by omega) h₃]
    apply decodeChar?_three rest _ _ (continuation?_ofNat _) (continuation?_ofNat _)
      (char?_eq_some_iff.mpr _) <;> omega
  · have hlead := toNat_ofNat_of_lt (n := c.toNat / 262144 + 240) (by omega)
    rw [encode_four (by omega)]
    apply decodeChar?_four rest _ _ (continuation?_ofNat _) (continuation?_ofNat _)
      (continuation?_ofNat _) (char?_eq_some_iff.mpr _) <;> omega

theorem decodeChar?_eq_some_iff {bytes rest : List UInt8} :
    decodeChar? bytes = some (c, rest) ↔ bytes = String.utf8EncodeChar c ++ rest := by
  constructor
  · exact eq_of_decodeChar?
  · rintro rfl
    exact decodeChar?_encode c rest

theorem length_encode_pos (c : Char) : 0 < (String.utf8EncodeChar c).length := by
  rw [String.length_utf8EncodeChar]
  exact c.utf8Size_pos

theorem flatMap_encode_eq_nil_iff {t : Text} :
    t.flatMap String.utf8EncodeChar = [] ↔ t = [] := by
  cases t with
  | nil => simp
  | cons c t =>
      have hc := List.ne_nil_of_length_pos (length_encode_pos c)
      simp [hc]

/-- As many steps as there are bytes are enough, since each takes one away. -/
theorem decodeUpTo_eq_some_iff {n : Nat} {bytes : List UInt8} (h : bytes.length ≤ n) {t : Text} :
    decodeUpTo n bytes = some t ↔ t.flatMap String.utf8EncodeChar = bytes := by
  induction n generalizing bytes t with
  | zero =>
      obtain rfl := List.length_eq_zero_iff.mp (Nat.eq_zero_of_le_zero h)
      rw [decodeUpTo, Option.some_inj, flatMap_encode_eq_nil_iff, eq_comm]
  | succ n ih =>
      cases bytes with
      | nil => rw [decodeUpTo, Option.some_inj, flatMap_encode_eq_nil_iff, eq_comm]
      | cons b tail =>
          have hshort : ∀ c rest, b :: tail = String.utf8EncodeChar c ++ rest → rest.length ≤ n := by
            intro c rest heq
            have hlength := congrArg List.length heq
            have hpos := length_encode_pos c
            rw [List.length_append] at hlength
            omega
          simp only [decodeUpTo, Option.bind_eq_bind, Option.pure_def]
          constructor
          · intro hd
            obtain ⟨⟨c, rest⟩, hc, hd⟩ := Option.bind_eq_some_iff.mp hd
            obtain ⟨more, hm, hd⟩ := Option.bind_eq_some_iff.mp hd
            obtain rfl := Option.some.inj hd
            have hbytes := decodeChar?_eq_some_iff.mp hc
            rw [List.flatMap_cons, (ih (hshort c rest hbytes)).mp hm, hbytes]
          · intro ht
            cases t with
            | nil => cases ht
            | cons c more =>
                rw [List.flatMap_cons] at ht
                have hrest := hshort c _ ht.symm
                rw [← ht, decodeChar?_encode, Option.bind_some, (ih hrest).mpr rfl]
                rfl

end Utf8

/-- The bytes of a text, and no others, decode to it. -/
theorem ofUtf8?_eq_some_iff {bytes : List UInt8} {t : Text} :
    ofUtf8? bytes = some t ↔ t.flatMap String.utf8EncodeChar = bytes :=
  Utf8.decodeUpTo_eq_some_iff (Nat.le_refl _)

theorem eq_of_flatMap_encode_eq {t t' : Text}
    (h : t.flatMap String.utf8EncodeChar = t'.flatMap String.utf8EncodeChar) : t = t' :=
  Option.some.inj ((ofUtf8?_eq_some_iff.mpr h).symm.trans (ofUtf8?_eq_some_iff.mpr rfl))

theorem ofUtf8?_eq_none_iff {bytes : List UInt8} :
    ofUtf8? bytes = none ↔ ∀ t : Text, t.flatMap String.utf8EncodeChar ≠ bytes := by
  simp only [Option.eq_none_iff_forall_ne_some, Ne, ofUtf8?_eq_some_iff]

end Whisker.Text
