/-
This file splits JSON text into tokens.
-/
import EntityFilter.Json.Value

namespace EntityFilter.Json

inductive Token where
  | openArray
  | closeArray
  | openObject
  | closeObject
  | comma
  | colon
  | scalar (value : Value)
  deriving DecidableEq, Repr

/-- The token under reading. Characters read so far are in reverse. -/
inductive Reading where
  | between
  | number (read : List Char)
  | word (read : List Char)
  | string (read : List Char)
  | escape (read : List Char)
  /-- The hexadecimal digits of an escaped code unit, after the first unit of a pair if any. -/
  | codeUnit (read : List Char) (first : Option Nat) (digits : Nat) (value : Nat)
  /-- A second code unit has to follow. -/
  | pair (read : List Char) (first : Nat)
  | pairEscape (read : List Char) (first : Nat)

namespace Token

def word? (read : List Char) : Option Token :=
  if read = "null".toList.reverse then some (.scalar .null)
  else if read = "true".toList.reverse then some (.scalar (.bool true))
  else if read = "false".toList.reverse then some (.scalar (.bool false))
  else none

/-- The token that ends before the next character, if one is under reading. -/
def pending? : Reading → Option (List Token)
  | .between => some []
  | .number read => (Number.ofText? read.reverse).map fun number => [.scalar (.number number)]
  | .word read => (word? read).map fun token => [token]
  | _ => none

def isNumberCharacter (char : Char) : Bool :=
  char.isDigit || char == '-' || char == '+' || char == '.' || char == 'e' || char == 'E'

/-- The token that a character starts outside strings, numbers and words. -/
def begin? (char : Char) : Option (List Token × Reading) :=
  if char == ' ' || char == '\n' || char == '\t' || char == '\r' then some ([], .between)
  else if char == '[' then some ([.openArray], .between)
  else if char == ']' then some ([.closeArray], .between)
  else if char == '\x7b' then some ([.openObject], .between)
  else if char == '\x7d' then some ([.closeObject], .between)
  else if char == ',' then some ([.comma], .between)
  else if char == ':' then some ([.colon], .between)
  else if char == '"' then some ([], .string [])
  else if char.isDigit || char == '-' then some ([], .number [char])
  else if char.isAlpha then some ([], .word [char])
  else none

def escaped? (char : Char) : Option Char :=
  if char == '"' || char == '\\' || char == '/' then some char
  else if char == 'b' then some (Char.ofNat 0x08)
  else if char == 'f' then some (Char.ofNat 0x0C)
  else if char == 'n' then some '\n'
  else if char == 'r' then some '\r'
  else if char == 't' then some '\t'
  else none

def hexValue? (char : Char) : Option Nat :=
  if char.isDigit then some (char.toNat - '0'.toNat)
  else if 'a' ≤ char ∧ char ≤ 'f' then some (char.toNat - 'a'.toNat + 10)
  else if 'A' ≤ char ∧ char ≤ 'F' then some (char.toNat - 'A'.toNat + 10)
  else none

/-- A high surrogate needs a low one after it, and a low one needs a high one before it. -/
def codeUnit? (read : List Char) (first : Option Nat) (value : Nat) : Option Reading :=
  match first with
  | none =>
      if 0xD800 ≤ value ∧ value < 0xDC00 then some (.pair read value)
      else if 0xDC00 ≤ value ∧ value < 0xE000 then none
      else some (.string (Char.ofNat value :: read))
  | some high =>
      if 0xDC00 ≤ value ∧ value < 0xE000 then
        some (.string (Char.ofNat (0x10000 + (high - 0xD800) * 0x400 + (value - 0xDC00)) :: read))
      else none

/-- Reads one character. -/
def step? : Reading → Char → Option (List Token × Reading)
  | .string read, char =>
      if char == '"' then some ([.scalar (.string (String.ofList read.reverse))], .between)
      else if char == '\\' then some ([], .escape read)
      else if char.toNat < 0x20 then none
      else some ([], .string (char :: read))
  | .escape read, char =>
      if char == 'u' then some ([], .codeUnit read none 0 0)
      else (escaped? char).map fun char => ([], .string (char :: read))
  | .codeUnit read first digits value, char =>
      (hexValue? char).bind fun digit =>
        let value := value * 16 + digit
        if digits = 3 then (codeUnit? read first value).map fun next => ([], next)
        else some ([], .codeUnit read first (digits + 1) value)
  | .pair read first, char => if char == '\\' then some ([], .pairEscape read first) else none
  | .pairEscape read first, char =>
      if char == 'u' then some ([], .codeUnit read (some first) 0 0) else none
  | .number read, char =>
      if isNumberCharacter char then some ([], .number (char :: read))
      else do
        let tokens ← pending? (.number read)
        let (next, reading) ← begin? char
        pure (tokens ++ next, reading)
  | .word read, char =>
      if char.isAlpha then some ([], .word (char :: read))
      else do
        let tokens ← pending? (.word read)
        let (next, reading) ← begin? char
        pure (tokens ++ next, reading)
  | .between, char => begin? char

def scanFrom? (reading : Reading) : List Char → Option (List Token)
  | [] => pending? reading
  | char :: rest => do
      let (tokens, next) ← step? reading char
      let others ← scanFrom? next rest
      pure (tokens ++ others)

def scan? (text : List Char) : Option (List Token) :=
  scanFrom? .between text

end Token

end EntityFilter.Json
