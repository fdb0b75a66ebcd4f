/-
This file writes pairs as a form-encoded query string and proves that they are read back.
-/
import EntityFilter.Proofs.Text.Utf8
import EntityFilter.Request.FormPairs

namespace EntityFilter.Request

/-- The bytes that stand for themselves: ASCII letters, digits and a few marks. -/
def isPlain (byte : UInt8) : Bool :=
  let char := Char.ofNat byte.toNat
  byte.toNat < 128 && (char.isAlphanum || char == '*' || char == '-' || char == '.' || char == '_')

def hexDigit (value : UInt8) : Char :=
  Char.ofNat (if value < 10 then 0x30 + value.toNat else 0x37 + value.toNat)

/-- A blank is a plus sign, and every other byte that is not plain is two hexadecimal digits after a
percent sign. -/
def encodeByte (byte : UInt8) : List Char :=
  if isPlain byte then [Char.ofNat byte.toNat]
  else if byte = 0x20 then ['+']
  else ['%', hexDigit (byte / 16), hexDigit (byte % 16)]

def encodeComponent (text : List Char) : List Char :=
  (Text.Utf8.encode text).flatMap encodeByte

/-- The texts with a separator between them. -/
def joined (separator : Char) : List (List Char) → List Char
  | [] => []
  | [part] => part
  | part :: next :: rest => part ++ separator :: joined separator (next :: rest)

def encodePair (pair : List Char × List Char) : List Char :=
  encodeComponent pair.1 ++ '=' :: encodeComponent pair.2

/-- The query string of pairs in order. -/
def formText (pairs : List (List Char × List Char)) : List Char :=
  joined '&' (pairs.map encodePair)

/-- What holds of all pairs of hexadecimal digits holds of every byte. -/
theorem forall_byte {holds : UInt8 → Prop}
    (all : ∀ high low : Fin 16, holds (.ofNat (high.val * 16 + low.val))) (byte : UInt8) :
    holds byte := by
  have digits : UInt8.ofNat (byte.toNat / 16 * 16 + byte.toNat % 16) = byte := by
    rw [Nat.div_add_mod', UInt8.ofNat_toNat]
  rw [← digits]
  exact all ⟨byte.toNat / 16, Nat.div_lt_of_lt_mul byte.toNat_lt⟩
    ⟨byte.toNat % 16, Nat.mod_lt _ (by decide)⟩

/-- The characters that have a meaning between the parts of a query string. -/
def separators : List Char := ['&', '=', '?']

theorem all_separators_encodeByte : ∀ byte : UInt8,
    (separators.all fun separator => !(encodeByte byte).contains separator) = true :=
  forall_byte (by decide +kernel)

theorem not_mem_encodeByte {separator : Char} (marks : separator ∈ separators) (byte : UInt8) :
    separator ∉ encodeByte byte := by
  simpa using List.all_eq_true.mp (all_separators_encodeByte byte) separator marks

/-- The bytes of an encoded byte, with the plus sign as a blank. -/
def written (byte : UInt8) : List UInt8 :=
  Text.Utf8.encode ((encodeByte byte).map fun char => if char = '+' then ' ' else char)

def hexByte (value : UInt8) : UInt8 :=
  UInt8.ofNat (hexDigit value).toNat

/-- A byte is written as itself, or as a percent sign and its digits. -/
theorem written_cases : ∀ byte : UInt8,
    (written byte = [byte] ∧ byte ≠ 0x25) ∨
      written byte = [0x25, hexByte (byte / 16), hexByte (byte % 16)] :=
  forall_byte (by decide +kernel)

theorem hexValue?_hexByte : ∀ byte : UInt8, hexValue? (hexByte (byte / 16)) = some (byte / 16) ∧
    hexValue? (hexByte (byte % 16)) = some (byte % 16) ∧ byte / 16 * 16 + byte % 16 = byte :=
  forall_byte (by decide +kernel)

/-- A byte that is no percent sign stays as it is. -/
theorem percentDecode_plain {byte : UInt8} (plain : byte ≠ 0x25) (rest : List UInt8) :
    percentDecode (byte :: rest) = byte :: percentDecode rest := by
  match rest with
  | [] => rfl
  | [_] => rfl
  | _ :: _ :: _ => rw [percentDecode, if_neg plain]

theorem percentDecode_written (byte : UInt8) (rest : List UInt8) :
    percentDecode (written byte ++ rest) = byte :: percentDecode rest := by
  rcases written_cases byte with ⟨itself, plain⟩ | digits
  · rw [itself, List.singleton_append, percentDecode_plain plain]
  · obtain ⟨high, low, whole⟩ := hexValue?_hexByte byte
    rw [digits]
    change percentDecode (0x25 :: hexByte (byte / 16) :: hexByte (byte % 16) :: rest) = _
    rw [percentDecode, if_pos rfl, high, low]
    exact congrArg (· :: percentDecode rest) whole

/-- An encoded text is decoded to itself. -/
theorem decodeComponent_encodeComponent (text : List Char) :
    decodeComponent (encodeComponent text) = text := by
  have bytes (bytes : List UInt8) :
      percentDecode (bytes.flatMap written) = bytes := by
    induction bytes with
    | nil => rfl
    | cons byte bytes inductionHypothesis =>
        rw [List.flatMap_cons, percentDecode_written, inductionHypothesis]
  have spread : Text.Utf8.encode ((encodeComponent text).map
      fun char => if char = '+' then ' ' else char) =
        (Text.Utf8.encode text).flatMap written := by
    rw [encodeComponent, List.map_flatMap, Text.Utf8.encode, List.flatMap_assoc]
    rfl
  rw [decodeComponent, spread, bytes, Text.Utf8.decode_encode]

theorem not_mem_encodeComponent {separator : Char} (marks : separator ∈ separators)
    (text : List Char) : separator ∉ encodeComponent text := by
  intro member
  obtain ⟨byte, _, inByte⟩ := List.mem_flatMap.mp member
  exact not_mem_encodeByte marks byte inByte

/-- An equals sign stands between the key and the value only. -/
theorem not_mem_encodePair {separator : Char} (marks : separator ∈ separators)
    (other : separator ≠ '=') (pair : List Char × List Char) : separator ∉ encodePair pair := by
  rw [encodePair, List.mem_append, List.mem_cons]
  exact not_or.mpr ⟨not_mem_encodeComponent marks pair.1,
    not_or.mpr ⟨other, not_mem_encodeComponent marks pair.2⟩⟩

theorem splitAt_ne_nil (separator : Char) (text : List Char) : splitAt separator text ≠ [] := by
  cases text with
  | nil => exact List.cons_ne_nil _ _
  | cons char rest =>
      rw [splitAt]
      split
      · exact List.cons_ne_nil _ _
      · split <;> exact List.cons_ne_nil _ _

/-- A text without separators is one part. -/
theorem splitAt_plain {separator : Char} {text : List Char} (plain : separator ∉ text) :
    splitAt separator text = [text] := by
  induction text with
  | nil => rfl
  | cons char rest inductionHypothesis =>
      obtain ⟨different, others⟩ := not_or.mp (mt List.mem_cons.mpr plain)
      rw [splitAt, inductionHypothesis others]
      exact if_neg (Ne.symm different)

/-- A separator ends the part before it. -/
theorem splitAt_append {separator : Char} {front : List Char} (plain : separator ∉ front)
    (back : List Char) :
    splitAt separator (front ++ separator :: back) = front :: splitAt separator back := by
  induction front with
  | nil =>
      obtain ⟨part, parts, split⟩ := List.exists_cons_of_ne_nil (splitAt_ne_nil separator back)
      rw [List.nil_append, splitAt, split]
      exact if_pos rfl
  | cons char front inductionHypothesis =>
      obtain ⟨different, others⟩ := not_or.mp (mt List.mem_cons.mpr plain)
      rw [List.cons_append, splitAt, inductionHypothesis others]
      exact if_neg (Ne.symm different)

theorem splitAt_joined {separator : Char} {parts : List (List Char)} (present : parts ≠ [])
    (plain : ∀ part ∈ parts, separator ∉ part) :
    splitAt separator (joined separator parts) = parts := by
  induction parts with
  | nil => exact absurd rfl present
  | cons part parts inductionHypothesis =>
      obtain ⟨first, later⟩ := List.forall_mem_cons.mp plain
      cases parts with
      | nil => exact splitAt_plain first
      | cons next rest =>
          rw [joined, splitAt_append first, inductionHypothesis (List.cons_ne_nil _ _) later]

theorem mem_joined {separator char : Char} {parts : List (List Char)}
    (member : char ∈ joined separator parts) : char = separator ∨ ∃ part ∈ parts, char ∈ part := by
  induction parts with
  | nil => cases member
  | cons part parts inductionHypothesis =>
      cases parts with
      | nil => exact Or.inr ⟨part, List.mem_singleton_self _, member⟩
      | cons next rest =>
          rw [joined, List.mem_append, List.mem_cons] at member
          rcases member with first | between | later
          · exact Or.inr ⟨part, List.mem_cons_self, first⟩
          · exact Or.inl between
          · exact (inductionHypothesis later).imp_right fun ⟨part, listed, inside⟩ =>
              ⟨part, List.mem_cons_of_mem _ listed, inside⟩

/-- A query string of pairs has no question mark to drop. -/
theorem question_not_mem_formText (pairs : List (List Char × List Char)) :
    '?' ∉ formText pairs := by
  intro member
  rcases mem_joined member with between | ⟨part, listed, inside⟩
  · exact absurd between (by decide)
  · obtain ⟨pair, _, rfl⟩ := List.mem_map.mp listed
    exact not_mem_encodePair (by decide) (by decide) pair inside

/-- The query string of pairs is read back as the pairs. -/
theorem formPairs_formText (pairs : List (List Char × List Char)) :
    formPairs (formText pairs) = pairs := by
  cases pairs with
  | nil => rfl
  | cons first rest =>
      have plain : ∀ part ∈ (first :: rest).map encodePair, '&' ∉ part := by
        intro part member
        obtain ⟨pair, _, rfl⟩ := List.mem_map.mp member
        exact not_mem_encodePair (by decide) (by decide) pair
      have present : ∀ part ∈ (first :: rest).map encodePair, (!part.isEmpty) = true := by
        intro part member
        obtain ⟨pair, _, rfl⟩ := List.mem_map.mp member
        simp [encodePair]
      rw [formPairs, formText, splitAt_joined (by simp) plain, List.filter_eq_self.mpr present,
        List.map_map]
      refine (List.map_congr_left fun pair _ => ?_).trans (List.map_id _)
      rw [Function.comp_apply, encodePair,
        splitFirst_append (not_mem_encodeComponent (by decide) pair.1)]
      simp only [decodeComponent_encodeComponent, id]

end EntityFilter.Request
