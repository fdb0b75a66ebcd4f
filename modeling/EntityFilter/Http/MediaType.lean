/-
This file reads the media type of a request.
-/
import EntityFilter.Request.FormPairs

namespace EntityFilter

/-- A media type in lower case: its type, the subtype before the last plus sign, and the suffix
after it. -/
structure MediaType where
  type : String
  subtype : String
  suffix : Option String
  deriving DecidableEq, Repr

namespace MediaType

/-- The characters of a name in a header. -/
def isTokenCharacter (char : Char) : Bool :=
  char.isAlphanum || "!#$%&'*+-.^_|~".toList.contains char || char.toNat = 0x60

/-- The reading of parameters after a media type. -/
inductive ParameterState where
  | start
  | name
  | valueStart
  | value
  | quotedStart
  | quoted
  | afterQuoted

def isQuotedCharacter (char : Char) : Bool :=
  char.toNat > 31 && char.toNat ≠ 127 && char ≠ '"'

/-- Whether parameters are well-formed: a name, an equals sign and a value, which may be quoted;
blanks may stand before a name and after a quoted value. -/
def parametersValid : ParameterState → List Char → Bool
  | .start, [] | .value, [] | .afterQuoted, [] | .valueStart, [] => true
  | .name, [] | .quotedStart, [] | .quoted, [] => false
  | .start, char :: rest =>
      if char = ' ' then parametersValid .start rest
      else isTokenCharacter char && parametersValid .name rest
  | .name, char :: rest =>
      if char = '=' then parametersValid .valueStart rest
      else isTokenCharacter char && parametersValid .name rest
  | .valueStart, char :: rest =>
      if char = '"' then parametersValid .quotedStart rest
      else isTokenCharacter char && parametersValid .value rest
  | .value, char :: rest =>
      if char = ';' then parametersValid .start rest
      else isTokenCharacter char && parametersValid .value rest
  | .quotedStart, char :: rest => isQuotedCharacter char && parametersValid .quoted rest
  | .quoted, char :: rest =>
      if char = '"' then parametersValid .afterQuoted rest
      else isQuotedCharacter char && parametersValid .quoted rest
  | .afterQuoted, char :: rest =>
      if char = ';' then parametersValid .start rest
      else char = ' ' && parametersValid .afterQuoted rest

/-- The subtype and the suffix around the last plus sign that is not at the start. -/
def splitSuffix (name : List Char) : List Char × Option (List Char) :=
  match name with
  | [] => ([], none)
  | first :: rest =>
      if rest.contains '+' then
        let suffix := rest.reverse.takeWhile (· != '+')
        (first :: rest.take (rest.length - suffix.length - 1), some suffix.reverse)
      else (name, none)

def ofText? (text : String) : Option MediaType :=
  let (type, rest) := Request.splitFirst '/' text.toList
  let (name, parameters) := Request.splitFirst ';' rest
  if !type.isEmpty && type.all isTokenCharacter && text.toList.contains '/'
      && name.all isTokenCharacter && (!name.isEmpty || !rest.contains ';')
      && parametersValid .start parameters then
    let lower := fun characters : List Char => String.ofList (characters.map Char.toLower)
    let (subtype, suffix) := splitSuffix name
    some ⟨lower type, lower subtype, suffix.map lower⟩
  else none

def isJson (media : MediaType) : Bool :=
  media.type == "application" && (media.subtype == "json" || media.suffix == some "json")

end MediaType

end EntityFilter
