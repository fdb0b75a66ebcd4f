/-
This file reads the values of YAML nodes.
-/
import EntityFilter.Request.Scalar
import EntityFilter.Yaml.Node

namespace EntityFilter.Yaml

/-- A plain scalar that denotes nothing. -/
def isNullText (text : String) : Bool :=
  text == "" || text == "~" || text == "null" || text == "Null" || text == "NULL"

def bool? (text : String) : Option Bool :=
  if text == "true" || text == "True" || text == "TRUE" then some true
  else if text == "false" || text == "False" || text == "FALSE" then some false
  else none

def digitIn? (base : Nat) (char : Char) : Option Nat :=
  (Scanner.hexValue? char).filter (· < base)

/-- The value of digits in a base. -/
def naturalIn? (base : Nat) (digits : List Char) : Option Nat :=
  if digits.isEmpty then none
  else
    digits.foldlM (fun value char => (digitIn? base char).map fun digit => value * base + digit) 0

/-- Digits after a leading zero are no number. -/
def isPadded (digits : List Char) : Bool :=
  digits.length > 1 && digits.head? == some '0' && digits.all Char.isDigit

/-- An integer without its sign, in decimal or after `0x`, `0o` or `0b`. -/
def magnitude? : List Char → Option Nat
  | '0' :: 'x' :: digits => naturalIn? 16 digits
  | '0' :: 'o' :: digits => naturalIn? 8 digits
  | '0' :: 'b' :: digits => naturalIn? 2 digits
  | digits => if isPadded digits then none else naturalIn? 10 digits

def integer? (text : List Char) : Option Int :=
  match text with
  | '-' :: digits => (magnitude? digits).map fun value => -(value : Int)
  | '+' :: digits => (magnitude? digits).map fun value => (value : Int)
  | digits => (magnitude? digits).map fun value => (value : Int)

/-- The double nearest to a decimal with an optional exponent. -/
def decimal? (text : List Char) : Option Double :=
  Double.ofLiteral? (Literal.splitSigned text)

/-- Spellings of numbers that are not finite. -/
def isSpecial (text : String) : Bool :=
  [".inf", ".Inf", ".INF", "+.inf", "+.Inf", "+.INF", "-.inf", "-.Inf", "-.INF", ".nan", ".NaN",
    ".NAN"].contains text

/-- The value of a plain scalar: null, a truth value, a number, or else text. An integer past 64
bits but not past 128 is refused. -/
def plainValue? (text : String) : Option Value :=
  if isNullText text then some .null
  else
    match bool? text, integer? text.toList with
    | some value, _ => some (.bool value)
    | none, some value =>
        if -(twoTo 63) ≤ value ∧ value < twoTo 64 then some (.int value)
        else if -(twoTo 127) ≤ value ∧ value < twoTo 128 then none
        else some (((decimal? text.toList).map fun number =>
          .number (.double number)).getD (.string text))
    | none, none =>
        let unsigned :=
          if text.startsWith "-" || text.startsWith "+" then text.toList.drop 1 else text.toList
        if isPadded unsigned then some (.string text)
        else if isSpecial text then some .null
        else
          some (((decimal? text.toList).map fun number =>
            .number (.double number)).getD (.string text))

namespace Node

/-- A scalar as text, whatever it looks like. -/
def text? : Node → Option String
  | .scalar _ text => some text
  | _ => none

/-- A scalar as text, where a plain null stands for none. -/
def optionalText? : Node → Option (Option String)
  | .scalar plain text => some (if plain && isNullText text then none else some text)
  | _ => none

def bool? : Node → Option Bool
  | .scalar true text => Yaml.bool? text
  | _ => none

/-- A plain integer of 32 bits without a sign. -/
def natural32? : Node → Option Nat
  | .scalar true text =>
      ((Yaml.integer? text.toList).filter fun (value : Int) =>
        text.toList.head? != some '-' && value < twoTo 32).map Int.toNat
  | _ => none

/-- The items of a sequence; nothing written is the empty sequence. -/
def items? : Node → Option (List Node)
  | .sequence items => some items
  | .scalar true text => if text.isEmpty then some [] else none
  | _ => none

/-- The entries of a mapping; nothing written is the empty mapping. -/
def entries? : Node → Option (List (String × Node))
  | .mapping entries => some entries
  | .scalar true text => if text.isEmpty then some [] else none
  | _ => none

mutual
def value? : Node → Option Value
  | .scalar true text => plainValue? text
  | .scalar false text => some (.string text)
  | .sequence items => (itemValues? items).map .array
  | .mapping entries => (entryValues? entries).map fun members => .object (Assoc.ofList members)

def itemValues? : List Node → Option (List Value)
  | [] => some []
  | item :: rest => do
      let value ← value? item
      let values ← itemValues? rest
      pure (value :: values)

def entryValues? : List (String × Node) → Option (List (String × Value))
  | [] => some []
  | (name, node) :: rest => do
      let value ← value? node
      let values ← entryValues? rest
      pure ((name, value) :: values)
end

end Node

/-- The named parts of a mapping as they are read into a record. -/
structure Fields where
  entries : List (String × Node)

namespace Fields

/-- The parts of a mapping, in which none of the known names may stand twice. -/
def ofNode? (known : List String) (node : Node) : Option Fields := do
  let entries ← node.entries?
  if known.all fun name => (entries.filter (·.1 == name)).length ≤ 1 then some ⟨entries⟩
  else none

def required? {Item : Type} (fields : Fields) (name : String) (read : Node → Option Item) :
    Option Item :=
  (Assoc.find? name fields.entries).bind read

/-- A part that may be left out. -/
def optional? {Item : Type} (fields : Fields) (name : String) (read : Node → Option Item)
    (missing : Item) : Option Item :=
  match Assoc.find? name fields.entries with
  | some node => read node
  | none => some missing

end Fields

end EntityFilter.Yaml
