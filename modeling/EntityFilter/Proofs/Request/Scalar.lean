/-
This file proves that integers and texts of a request are read back as they were written.
-/
import EntityFilter.Json.Printer
import EntityFilter.Proofs.Number.Decimal
import EntityFilter.Request.Scalar

namespace EntityFilter

namespace Request

/-- A value that a request can spell: a 64-bit integer, or a text that does not read as a number. -/
inductive IsScalar : Value → Prop where
  | int {number : Int} (above : -(twoTo 63 : Int) ≤ number) (below : number < twoTo 63) :
      IsScalar (.int number)
  | string {text : String} (kept : decodeScalar text = .string text) : IsScalar (.string text)

instance : DecidablePred IsScalar
  | .number (.int number) =>
      decidable_of_iff (-(twoTo 63 : Int) ≤ number ∧ number < twoTo 63)
        ⟨fun ⟨above, below⟩ => .int above below, fun | .int above below => ⟨above, below⟩⟩
  | .string text =>
      decidable_of_iff (decodeScalar text = .string text) ⟨.string, fun | .string kept => kept⟩
  | .null | .bool _ | .number (.double _) | .array _ | .object _ => isFalse nofun

/-- The spelling of a value: the text of an integer, and a text as it is. -/
def scalarText : Value → String
  | .string text => text
  | value => value.text

theorem scalarText_int (number : Int) : scalarText (.int number) = toString number :=
  String.ofList_toList

/-- The spelling of a value is read back as the value. -/
theorem decodeScalar_scalarText {value : Value} (scalar : IsScalar value) :
    decodeScalar (scalarText value) = value := by
  cases scalar with
  | @int number above below =>
      have canonical : canonicalInteger? (toString number) = some number := by
        rw [canonicalInteger?, Literal.integer?_toString, Option.filter_some]
        simp [above, below]
      rw [scalarText_int, decodeScalar, canonical]
  | string kept => exact kept

end Request

end EntityFilter
