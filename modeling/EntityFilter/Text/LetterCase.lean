/-
This file converts text between lower and upper case by the full rules of the Unicode standard.
-/
import EntityFilter.Text.CaseData

namespace EntityFilter.Text

def CaseRun.shift? (run : CaseRun) (code : Nat) : Option Nat :=
  if run.first ≤ code ∧ code ≤ run.last ∧ (code - run.first) % run.step = 0 then
    some (code + run.shift).toNat
  else none

def inRanges (ranges : List (Nat × Nat)) (code : Nat) : Bool :=
  ranges.any fun range => range.1 ≤ code && code ≤ range.2

/-- The lower case form of one character, apart from its neighbours. -/
def lowerCharacter (char : Char) : List Char :=
  if char.toNat < 128 then [char.toLower]
  else if char.toNat = 0x130 then ['i', Char.ofNat 0x307]
  else [(lowerRuns.findSome? (·.shift? char.toNat)).elim char Char.ofNat]

def upperCharacter (char : Char) : List Char :=
  if char.toNat < 128 then [char.toUpper]
  else
    match upperSequences.find? (·.1 = char.toNat) with
    | some (_, codes) => codes.map Char.ofNat
    | none => [(upperRuns.findSome? (·.shift? char.toNat)).elim char Char.ofNat]

def isCased (char : Char) : Bool :=
  inRanges casedRanges char.toNat

def isCaseIgnorable (char : Char) : Bool :=
  inRanges caseIgnorableRanges char.toNat

/-- Whether a cased letter comes next, once the ignorable characters are skipped. -/
def nextIsCased : List Char → Bool
  | [] => false
  | char :: rest => if isCaseIgnorable char then nextIsCased rest else isCased char

/-- Lower case with the characters before in reverse. A capital sigma at the end of a word becomes
a final sigma. -/
def lowerAfter (before : List Char) : List Char → List Char
  | [] => []
  | char :: rest =>
      let lowered :=
        if char.toNat = 0x3A3 then
          [Char.ofNat (if nextIsCased before && !nextIsCased rest then 0x3C2 else 0x3C3)]
        else lowerCharacter char
      lowered ++ lowerAfter (char :: before) rest

def lowerCharacters (text : List Char) : List Char :=
  lowerAfter [] text

def lowerCase (text : String) : String :=
  String.ofList (lowerCharacters text.toList)

/-- Upper and lower case differ, and the character is its own upper case form. -/
def isUpper (char : Char) : Bool :=
  upperCharacter char == [char] && lowerCharacters [char] != [char]

/-- Upper and lower case differ, and the character is its own lower case form. -/
def isLower (char : Char) : Bool :=
  lowerCharacters [char] == [char] && upperCharacter char != [char]

/-- Equality up to the case of the ASCII letters. -/
def sameAsciiLetters (left right : String) : Bool :=
  left.toList.map Char.toLower == right.toList.map Char.toLower

end EntityFilter.Text
