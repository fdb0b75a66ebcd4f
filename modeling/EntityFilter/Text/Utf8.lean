/-
This file reads bytes as UTF-8 text, with a replacement character for every malformed sequence.
-/

namespace EntityFilter.Text.Utf8

def replacement : Char := Char.ofNat 0xFFFD

/-- A character whose first bytes have been read: the number of bytes still owed, the range of the
next one, and the bits so far. -/
structure Pending where
  owed : Nat
  low : Nat
  high : Nat
  bits : Nat

/-- The characters that one byte completes, and the character it leaves pending. -/
structure Step where
  complete : List Char
  pending : Option Pending

/-- Reads a byte at the start of a character. -/
def begin (byte : Nat) : Step :=
  if byte < 0x80 then ⟨[Char.ofNat byte], none⟩
  else if byte < 0xC2 then ⟨[replacement], none⟩
  else if byte < 0xE0 then ⟨[], some ⟨1, 0x80, 0xBF, byte - 0xC0⟩⟩
  else if byte = 0xE0 then ⟨[], some ⟨2, 0xA0, 0xBF, 0⟩⟩
  else if byte = 0xED then ⟨[], some ⟨2, 0x80, 0x9F, 0xD⟩⟩
  else if byte < 0xF0 then ⟨[], some ⟨2, 0x80, 0xBF, byte - 0xE0⟩⟩
  else if byte = 0xF0 then ⟨[], some ⟨3, 0x90, 0xBF, 0⟩⟩
  else if byte < 0xF4 then ⟨[], some ⟨3, 0x80, 0xBF, byte - 0xF0⟩⟩
  else if byte = 0xF4 then ⟨[], some ⟨3, 0x80, 0x8F, 4⟩⟩
  else ⟨[replacement], none⟩

/-- Reads a byte. One that cannot continue the pending character ends that character as malformed
and starts the next. -/
def step (pending : Option Pending) (byte : Nat) : Step :=
  match pending with
  | none => begin byte
  | some character =>
      if character.low ≤ byte ∧ byte ≤ character.high then
        let bits := character.bits * 64 + (byte - 0x80)
        if character.owed = 1 then ⟨[Char.ofNat bits], none⟩
        else ⟨[], some ⟨character.owed - 1, 0x80, 0xBF, bits⟩⟩
      else
        let next := begin byte
        ⟨replacement :: next.complete, next.pending⟩

def decodeFrom (pending : Option Pending) : List UInt8 → List Char
  | [] => if pending.isSome then [replacement] else []
  | byte :: rest =>
      let next := step pending byte.toNat
      next.complete ++ decodeFrom next.pending rest

/-- Each maximal malformed sequence of bytes becomes one replacement character. -/
def decode (bytes : List UInt8) : List Char :=
  decodeFrom none bytes

def encode (text : List Char) : List UInt8 :=
  text.flatMap String.utf8EncodeChar

end EntityFilter.Text.Utf8
