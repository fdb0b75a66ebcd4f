/-
This file decodes a form-encoded query string into its pairs of keys and values.
-/
import EntityFilter.Text.Utf8

namespace EntityFilter.Request

/-- The parts of a text between the separators, with empty parts kept. -/
def splitAt (separator : Char) : List Char → List (List Char)
  | [] => [[]]
  | char :: rest =>
      match splitAt separator rest with
      | [] => [[char]]
      | part :: parts => if char = separator then [] :: part :: parts else (char :: part) :: parts

/-- The text before the first separator and the text after it, empty when there is none. -/
def splitFirst (separator : Char) : List Char → List Char × List Char
  | [] => ([], [])
  | char :: rest =>
      if char = separator then ([], rest)
      else
        let (before, after) := splitFirst separator rest
        (char :: before, after)

theorem splitFirst_append {separator : Char} {front : List Char} (plain : separator ∉ front)
    (back : List Char) : splitFirst separator (front ++ separator :: back) = (front, back) := by
  induction front with
  | nil => simp [splitFirst]
  | cons char front inductionHypothesis =>
      obtain ⟨different, others⟩ := not_or.mp (mt List.mem_cons.mpr plain)
      rw [List.cons_append, splitFirst, if_neg (Ne.symm different), inductionHypothesis others]

def hexValue? (byte : UInt8) : Option UInt8 :=
  if 0x30 ≤ byte ∧ byte ≤ 0x39 then some (byte - 0x30)
  else if 0x41 ≤ byte ∧ byte ≤ 0x46 then some (byte - 0x37)
  else if 0x61 ≤ byte ∧ byte ≤ 0x66 then some (byte - 0x57)
  else none

/-- A percent sign without two hexadecimal digits after it stays as it is. -/
def percentDecode : List UInt8 → List UInt8
  | byte :: first :: second :: rest =>
      match if byte = 0x25 then (hexValue? first, hexValue? second) else (none, none) with
      | (some high, some low) => (high * 16 + low) :: percentDecode rest
      | _ => byte :: percentDecode (first :: second :: rest)
  | byte :: rest => byte :: percentDecode rest
  | [] => []

/-- A plus sign is a blank, and encoded bytes are read as UTF-8. -/
def decodeComponent (text : List Char) : List Char :=
  Text.Utf8.decode (percentDecode (Text.Utf8.encode
    (text.map fun char => if char = '+' then ' ' else char)))

/-- The decoded pairs in order. Empty parts are skipped, and a part without an equals sign has
the empty value. -/
def formPairs (query : List Char) : List (List Char × List Char) :=
  ((splitAt '&' query).filter (!·.isEmpty)).map fun part =>
    let (key, value) := splitFirst '=' part
    (decodeComponent key, decodeComponent value)

end EntityFilter.Request
