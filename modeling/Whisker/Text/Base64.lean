import Whisker.Text.Basic

/-! Bytes written in base 64: four characters for three bytes. -/

namespace Whisker.Text

namespace Base64

def alphabet : Text :=
  "ABCDEFGHIJKLMNOPQRSTUVWXYZabcdefghijklmnopqrstuvwxyz0123456789+/".toList

/-- Decodes characters of which `held` holds the values since the last full group, the latest first,
and `pads` counts the padding marks since the last of them. What is not in the alphabet is passed
over. Padding that completes a group ends the text; any other group must be full. -/
def decodeFrom? : List Nat → Nat → Text → Option (List UInt8)
  | held, _, [] => if held.isEmpty then some [] else none
  | held, pads, c :: rest =>
    if c = '=' then
      if 2 ≤ held.length && 4 ≤ held.length + pads + 1 then some []
      else decodeFrom? held (if 2 ≤ held.length then pads + 1 else pads) rest
    else match alphabet.idxOf? c, held with
      | none, _ => decodeFrom? held pads rest
      | some n, [] => decodeFrom? [n] 0 rest
      | some n, [a] => byte (a * 4 + n / 16) (decodeFrom? [n, a] 0 rest)
      | some n, [b, a] => byte (b % 16 * 16 + n / 4) (decodeFrom? [n, b, a] 0 rest)
      | some n, b :: _ => byte (b % 4 * 64 + n) (decodeFrom? [] 0 rest)
where
  byte (n : Nat) (rest : Option (List UInt8)) : Option (List UInt8) :=
    rest.map (UInt8.ofNat n :: ·)

end Base64

/-- The bytes that a text in base 64 stands for. -/
def ofBase64? (t : Text) : Option (List UInt8) := Base64.decodeFrom? [] 0 t

example : ofBase64? "aGk=".toList = some [0x68, 0x69] := by decide

end Whisker.Text
