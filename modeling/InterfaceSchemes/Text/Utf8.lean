import InterfaceSchemes.Text.Basic

/-!
# Texts as bytes

Files hold bytes. A text is stored in UTF-8, and bytes are a text if they are valid UTF-8. For
display every other sequence of bytes is read as well, with a replacement character for each longest
beginning of a character that breaks off.
-/

namespace InterfaceSchemes.Text

/-- The bytes of a text. -/
def toBytes (s : Text) : ByteArray := (String.ofList s).toUTF8

/-- The text of some bytes, if they are valid. -/
def ofBytes? (bytes : ByteArray) : Option Text := (String.fromUTF8? bytes).map String.toList

/-- A character of which some bytes have been read. -/
structure Pending where
  /-- The bits read so far. -/
  bits : Nat
  /-- The number of bytes to come. -/
  missing : Nat
  /-- The least value of the next byte. -/
  low : Nat
  /-- The greatest value of the next byte. -/
  high : Nat

/-- What stands for bytes that are no character. -/
def replacement : Char := '�'

/-- Reads the first byte of a character: the characters that are complete, and what is pending. -/
def firstByte (b : Nat) : Text × Option Pending :=
  if b < 0x80 then ([Char.ofNat b], none)
  else if 0xc2 ≤ b ∧ b ≤ 0xdf then ([], some ⟨b - 0xc0, 1, 0x80, 0xbf⟩)
  else if b = 0xe0 then ([], some ⟨0, 2, 0xa0, 0xbf⟩)
  else if b = 0xed then ([], some ⟨0xd, 2, 0x80, 0x9f⟩)
  else if 0xe1 ≤ b ∧ b ≤ 0xef then ([], some ⟨b - 0xe0, 2, 0x80, 0xbf⟩)
  else if b = 0xf0 then ([], some ⟨0, 3, 0x90, 0xbf⟩)
  else if 0xf1 ≤ b ∧ b ≤ 0xf3 then ([], some ⟨b - 0xf0, 3, 0x80, 0xbf⟩)
  else if b = 0xf4 then ([], some ⟨4, 3, 0x80, 0x8f⟩)
  else ([replacement], none)

/-- Reads one more byte. -/
def nextByte (pending? : Option Pending) (b : Nat) : Text × Option Pending :=
  match pending? with
  | none => firstByte b
  | some p =>
    if p.low ≤ b ∧ b ≤ p.high then
      let bits := 64 * p.bits + (b - 0x80)
      if p.missing = 1 then ([Char.ofNat bits], none)
      else ([], some ⟨bits, p.missing - 1, 0x80, 0xbf⟩)
    else
      let (done, pending?) := firstByte b
      (replacement :: done, pending?)

/-- Reads bytes for display, after those of a character that is pending. -/
def displayFrom (pending? : Option Pending) : List UInt8 → Text
  | [] => if pending?.isSome then [replacement] else []
  | b :: bytes =>
    let (done, pending?) := nextByte pending? b.toNat
    done ++ displayFrom pending? bytes

/-- The text of some bytes for display. -/
def display (bytes : ByteArray) : Text := displayFrom none bytes.toList

end InterfaceSchemes.Text
