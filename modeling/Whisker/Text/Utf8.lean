import Whisker.Text.Basic

/-! Text in files: UTF-8, with any of the usual line ends read as line feeds. -/

namespace Whisker.Text

namespace Utf8

/-- The low six bits of a continuation byte. -/
def continuation? (b : UInt8) : Option Nat :=
  if 0x80 ≤ b.toNat && b.toNat < 0xc0 then some (b.toNat - 0x80) else none

/-- A character of at least `least`, the least code point that needs as many bytes. -/
def char? (least code : Nat) : Option Char :=
  if h : code.isValidChar then if least ≤ code then some (Char.ofNatAux code h) else none
  else none

/-- The character at the start of a text of bytes, and the rest. -/
def decodeChar? : List UInt8 → Option (Char × List UInt8)
  | [] => none
  | b :: rest =>
    let n := b.toNat
    if n < 0x80 then some (Char.ofNat n, rest)
    else match rest with
      | [] => none
      | b₁ :: rest =>
        if 0xc0 ≤ n && n < 0xe0 then do
          let x₁ ← continuation? b₁
          return (← char? 0x80 ((n - 0xc0) * 64 + x₁), rest)
        else match rest with
          | [] => none
          | b₂ :: rest =>
            if 0xe0 ≤ n && n < 0xf0 then do
              let x₁ ← continuation? b₁
              let x₂ ← continuation? b₂
              return (← char? 0x800 (((n - 0xe0) * 64 + x₁) * 64 + x₂), rest)
            else match rest with
              | [] => none
              | b₃ :: rest =>
                if 0xf0 ≤ n && n < 0xf8 then do
                  let x₁ ← continuation? b₁
                  let x₂ ← continuation? b₂
                  let x₃ ← continuation? b₃
                  return (← char? 0x10000 ((((n - 0xf0) * 64 + x₁) * 64 + x₂) * 64 + x₃), rest)
                else none

/-- Decodes as many characters as there are bytes at most. -/
def decodeUpTo : Nat → List UInt8 → Option Text
  | _, [] => some []
  | 0, _ :: _ => none
  | n + 1, bytes => do
    let (c, rest) ← decodeChar? bytes
    return c :: (← decodeUpTo n rest)

end Utf8

/-- The text that the bytes encode, if they are well-formed UTF-8. -/
def ofUtf8? (bytes : List UInt8) : Option Text := Utf8.decodeUpTo bytes.length bytes

/-- A carriage return, alone or before a line feed, becomes a line feed. -/
def unifyLineEnds : Text → Text
  | [] => []
  | '\r' :: '\n' :: rest => '\n' :: unifyLineEnds rest
  | '\r' :: rest => '\n' :: unifyLineEnds rest
  | c :: rest => c :: unifyLineEnds rest

end Whisker.Text
