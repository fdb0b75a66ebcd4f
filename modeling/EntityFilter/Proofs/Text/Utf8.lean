/-
This file proves that a text is read back from its UTF-8 bytes.
-/
import EntityFilter.Text.Utf8

namespace EntityFilter.Text.Utf8

variable {code bits : Nat} (rest : List UInt8)

/-- A byte at the start of a character. -/
theorem decodeFrom_lead {byte : Nat} (small : byte < 256) :
    decodeFrom none (UInt8.ofNat byte :: rest) =
      (begin byte).complete ++ decodeFrom (begin byte).pending rest := by
  rw [decodeFrom, step, UInt8.toNat_ofNat_of_lt' small]

/-- The six bits of a byte in range continue a character. -/
theorem decodeFrom_next {owed low high : Nat} (above : low ≤ code % 64 + 128)
    (below : code % 64 + 128 ≤ high) :
    decodeFrom (some ⟨owed + 2, low, high, bits⟩) (UInt8.ofNat (code % 64 + 128) :: rest) =
      decodeFrom (some ⟨owed + 1, 0x80, 0xBF, bits * 64 + code % 64⟩) rest := by
  rw [decodeFrom, step, UInt8.toNat_ofNat_of_lt' (show _ < 256 by omega)]
  simp [above, below]

theorem decodeFrom_last :
    decodeFrom (some ⟨1, 0x80, 0xBF, bits⟩) (UInt8.ofNat (code % 64 + 128) :: rest) =
      Char.ofNat (bits * 64 + code % 64) :: decodeFrom none rest := by
  have above : 128 ≤ code % 64 + 128 := by omega
  have below : code % 64 + 128 ≤ 191 := by omega
  rw [decodeFrom, step, UInt8.toNat_ofNat_of_lt' (show _ < 256 by omega)]
  simp [below]

/-- The second byte of three is in the range that the first one leaves. -/
theorem begin_three (code : Nat) (large : 2047 < code) (small : code < 65536)
    (valid : code < 0xD800 ∨ 0xDFFF < code) :
    ∃ low high, begin (code / 4096 % 16 + 224) = ⟨[], some ⟨2, low, high, code / 4096⟩⟩ ∧
      low ≤ code / 64 % 64 + 128 ∧ code / 64 % 64 + 128 ≤ high := by
  -- Two first bytes narrow the range: one against longer spellings, one against surrogates.
  by_cases least : code / 4096 = 0
  · have lead : code / 4096 % 16 + 224 = 0xE0 := by omega
    rw [lead, least]
    exact ⟨0xA0, 0xBF, rfl, by omega, by omega⟩
  by_cases surrogates : code / 4096 = 13
  · have lead : code / 4096 % 16 + 224 = 0xED := by omega
    rw [lead, surrogates]
    exact ⟨0x80, 0x9F, rfl, by omega, by omega⟩
  · have lead : begin (code / 4096 % 16 + 224) =
        ⟨[], some ⟨2, 0x80, 0xBF, code / 4096 % 16 + 224 - 0xE0⟩⟩ := by
      rw [begin, if_neg (by omega), if_neg (by omega), if_neg (by omega), if_neg (by omega),
        if_neg (by omega), if_pos (by omega)]
    have high : code / 4096 % 16 + 224 - 0xE0 = code / 4096 := by omega
    rw [lead, high]
    exact ⟨0x80, 0xBF, rfl, by omega, by omega⟩

/-- The second byte of four is in the range that the first one leaves. -/
theorem begin_four (code : Nat) (large : 65535 < code) (valid : code < 0x110000) :
    ∃ low high, begin (code / 262144 % 8 + 240) = ⟨[], some ⟨3, low, high, code / 262144⟩⟩ ∧
      low ≤ code / 4096 % 64 + 128 ∧ code / 4096 % 64 + 128 ≤ high := by
  -- Here one is against longer spellings, and one against codes past the last character.
  by_cases least : code / 262144 = 0
  · have lead : code / 262144 % 8 + 240 = 0xF0 := by omega
    rw [lead, least]
    exact ⟨0x90, 0xBF, rfl, by omega, by omega⟩
  by_cases greatest : code / 262144 = 4
  · have lead : code / 262144 % 8 + 240 = 0xF4 := by omega
    rw [lead, greatest]
    exact ⟨0x80, 0x8F, rfl, by omega, by omega⟩
  · have lead : begin (code / 262144 % 8 + 240) =
        ⟨[], some ⟨3, 0x80, 0xBF, code / 262144 % 8 + 240 - 0xF0⟩⟩ := by
      rw [begin, if_neg (by omega), if_neg (by omega), if_neg (by omega), if_neg (by omega),
        if_neg (by omega), if_neg (by omega), if_neg (by omega), if_pos (by omega)]
    have high : code / 262144 % 8 + 240 - 0xF0 = code / 262144 := by omega
    rw [lead, high]
    exact ⟨0x80, 0xBF, rfl, by omega, by omega⟩

/-- The bytes of a character are read as the character. -/
theorem decodeFrom_encodeChar (char : Char) :
    decodeFrom none (String.utf8EncodeChar char ++ rest) = char :: decodeFrom none rest := by
  have valid : char.val.toNat < 0xD800 ∨
      0xDFFF < char.val.toNat ∧ char.val.toNat < 0x110000 := char.valid
  have same : Char.ofNat char.val.toNat = char := Char.ofNat_toNat char
  unfold String.utf8EncodeChar
  generalize char.val.toNat = code at valid same
  subst same
  dsimp only
  split
  · have one : begin code = ⟨[Char.ofNat code], none⟩ := if_pos (by omega)
    rw [List.singleton_append, decodeFrom_lead rest (by omega), one]
    rfl
  split
  · have two : begin (code / 64 % 32 + 192) =
        ⟨[], some ⟨1, 0x80, 0xBF, code / 64 % 32 + 192 - 0xC0⟩⟩ := by
      rw [begin, if_neg (by omega), if_neg (by omega), if_pos (by omega)]
    have whole : (code / 64 % 32 + 192 - 0xC0) * 64 + code % 64 = code := by omega
    rw [List.cons_append, decodeFrom_lead _ (by omega), two, List.nil_append,
      List.singleton_append, decodeFrom_last, whole]
  split
  · obtain ⟨low, high, three, above, below⟩ :=
      begin_three code (by omega) (by omega) (by omega)
    have whole : (code / 4096 * 64 + code / 64 % 64) * 64 + code % 64 = code := by omega
    rw [List.cons_append, decodeFrom_lead _ (by omega), three, List.nil_append,
      List.cons_append, decodeFrom_next _ above below, List.singleton_append, decodeFrom_last,
      whole]
  · obtain ⟨low, high, four, above, below⟩ := begin_four code (by omega) (by omega)
    have whole : ((code / 262144 * 64 + code / 4096 % 64) * 64 + code / 64 % 64) * 64 + code % 64 =
        code := by omega
    rw [List.cons_append, decodeFrom_lead _ (by omega), four, List.nil_append, List.cons_append,
      decodeFrom_next _ above below, List.cons_append, decodeFrom_next _ (by omega) (by omega),
      List.singleton_append, decodeFrom_last, whole]

theorem decode_encode (text : List Char) : decode (encode text) = text := by
  induction text with
  | nil => rfl
  | cons char text inductionHypothesis =>
      rw [decode, encode, List.flatMap_cons, decodeFrom_encodeChar]
      exact congrArg (char :: ·) inductionHypothesis

end EntityFilter.Text.Utf8
