/-
This file splits a YAML document into tokens.
-/

namespace EntityFilter.Yaml

inductive TokenKind where
  | scalar (plain : Bool) (text : String)
  /-- A scalar with the colon after it. -/
  | key (text : String)
  | dash
  | colon
  | comma
  | openSequence
  | closeSequence
  | openMapping
  | closeMapping
  | documentStart
  | documentEnd
  deriving DecidableEq, Repr

/-- A token and where it starts. -/
structure Token where
  kind : TokenKind
  line : Nat
  column : Nat
  deriving DecidableEq, Repr

/-- The token under reading. Its characters are in reverse, apart from the blanks after them. -/
inductive Reading where
  | between
  | comment
  /-- A number of characters that belong to a token already told. -/
  | skip (count : Nat)
  | plain (read blanks : List Char)
  | quoted (double : Bool) (read blanks : List Char)
  /-- A single quote that stands twice, before the second one. -/
  | quote (read : List Char)
  /-- A quoted scalar after a number of line breaks. -/
  | folded (double : Bool) (read : List Char) (breaks : Nat)
  | escape (read : List Char)
  | code (read : List Char) (digits : Nat) (value : Nat)

structure Scanner where
  reading : Reading
  line : Nat
  column : Nat
  /-- The line holds nothing but blanks so far. -/
  fresh : Bool
  /-- The number of open flow collections. -/
  depth : Nat
  startLine : Nat
  startColumn : Nat

namespace Scanner

def start : Scanner := ⟨.between, 0, 0, true, 0, 0, 0⟩

def isBlankOrEnd (next : Option Char) : Bool :=
  match next with
  | none => true
  | some char => char == ' ' || char == '\t' || char == '\n'

def isFlowIndicator (char : Char) : Bool :=
  char == ',' || char == '[' || char == ']' || char == '\x7b' || char == '\x7d'

/-- Characters that no plain scalar starts with. -/
def isIndicator (char : Char) : Bool :=
  isFlowIndicator char || "-?:#&*!|>%@\"'".toList.contains char || char.toNat = 0x60

/-- Whether a plain scalar may start with a character before another one. -/
def startsPlain (char : Char) (next : Option Char) (inFlow : Bool) : Bool :=
  !isIndicator char
    || char == '-' && !(isBlankOrEnd next)
    || (char == '?' || char == ':') && !inFlow && !(isBlankOrEnd next)

/-- Whether a plain scalar ends before a character. -/
def endsPlain (char : Char) (next : Option Char) (blanks : List Char) (inFlow : Bool) : Bool :=
  char == ':' && isBlankOrEnd next
    || char == '#' && !blanks.isEmpty
    || inFlow && isFlowIndicator char

def simpleEscape? (char : Char) : Option Nat :=
  [('0', 0x00), ('a', 0x07), ('b', 0x08), ('t', 0x09), ('\t', 0x09), ('n', 0x0A), ('v', 0x0B),
    ('f', 0x0C), ('r', 0x0D), ('e', 0x1B), (' ', 0x20), ('"', 0x22), ('/', 0x2F), ('\\', 0x5C),
    ('N', 0x85), ('_', 0xA0), ('L', 0x2028), ('P', 0x2029)].lookup char

def codeDigits? (char : Char) : Option Nat :=
  [('x', 2), ('u', 4), ('U', 8)].lookup char

def hexValue? (char : Char) : Option Nat :=
  if char.isDigit then some (char.toNat - '0'.toNat)
  else if 'a' ≤ char ∧ char ≤ 'f' then some (char.toNat - 'a'.toNat + 10)
  else if 'A' ≤ char ∧ char ≤ 'F' then some (char.toNat - 'A'.toNat + 10)
  else none

/-- One line break is a blank, and more are one fewer. -/
def foldBreaks (breaks : Nat) : List Char :=
  if breaks = 1 then [' '] else List.replicate (breaks - 1) '\n'

def advance (scanner : Scanner) (char : Char) (reading : Reading) : Scanner :=
  if char = '\n' then
    { scanner with reading, line := scanner.line + 1, column := 0, fresh := true }
  else
    { scanner with
      reading
      column := scanner.column + 1
      fresh := scanner.fresh && char == ' ' }

/-- Starts a token at the current character. -/
def opening (scanner : Scanner) (char : Char) (reading : Reading) : Scanner :=
  advance { scanner with startLine := scanner.line, startColumn := scanner.column } char reading

def token (scanner : Scanner) (kind : TokenKind) : Token :=
  ⟨kind, scanner.line, scanner.column⟩

def scalar (scanner : Scanner) (plain : Bool) (read : List Char) : Token :=
  ⟨.scalar plain (String.ofList read.reverse), scanner.startLine, scanner.startColumn⟩

/-- Whether three equal characters stand alone at the start of a line. -/
def isMarker (scanner : Scanner) (mark char : Char) (rest : List Char) : Bool :=
  scanner.column == 0 && char == mark && rest.take 2 == [mark, mark]
    && isBlankOrEnd (rest.drop 2).head?

/-- Reads a character outside scalars and comments. -/
def begin? (scanner : Scanner) (char : Char) (rest : List Char) :
    Option (List Token × Scanner) :=
  let inFlow := scanner.depth > 0
  let single := fun (kind : TokenKind) =>
    some ([scanner.token kind], scanner.advance char .between)
  let nested := fun (kind : TokenKind) (depth : Nat) =>
    some ([scanner.token kind], { scanner.advance char .between with depth })
  if char == '\n' || char == ' ' then some ([], scanner.advance char .between)
  else if char == '\t' then
    if scanner.fresh && !inFlow then none else some ([], scanner.advance char .between)
  else if char == '#' then some ([], scanner.advance char .comment)
  else if scanner.isMarker '-' char rest then
    some ([scanner.token .documentStart], scanner.advance char (.skip 2))
  else if scanner.isMarker '.' char rest then
    some ([scanner.token .documentEnd], scanner.advance char (.skip 2))
  else if char == '[' then nested .openSequence (scanner.depth + 1)
  else if char == '\x7b' then nested .openMapping (scanner.depth + 1)
  else if char == ']' then nested .closeSequence (scanner.depth - 1)
  else if char == '\x7d' then nested .closeMapping (scanner.depth - 1)
  else if char == ',' then single .comma
  else if char == '-' && isBlankOrEnd rest.head? then single .dash
  else if char == ':' && (inFlow || isBlankOrEnd rest.head?) then single .colon
  else if char == '"' then some ([], scanner.opening char (.quoted true [] []))
  else if char == '\'' then some ([], scanner.opening char (.quoted false [] []))
  else if startsPlain char rest.head? inFlow then
    some ([], scanner.opening char (.plain [char] []))
  else none

/-- Reads a character, seen with the characters after it. -/
def step? (scanner : Scanner) (char : Char) (rest : List Char) :
    Option (List Token × Scanner) :=
  match scanner.reading with
  | .between => scanner.begin? char rest
  | .comment =>
      some ([], scanner.advance char (if char = '\n' then .between else .comment))
  | .skip count =>
      some ([], scanner.advance char (if count ≤ 1 then .between else .skip (count - 1)))
  | .plain read blanks =>
      if char == ' ' || char == '\t' then
        some ([], scanner.advance char (.plain read (char :: blanks)))
      else if char == '\n' || endsPlain char rest.head? blanks (scanner.depth > 0) then do
        let (tokens, next) ← begin? { scanner with reading := .between } char rest
        pure (scanner.scalar true read :: tokens, next)
      else if scanner.depth > 0 && char == ':' && rest.head?.any fun next =>
          next == '?' || isFlowIndicator next then none
      else some ([], scanner.advance char (.plain (char :: (blanks ++ read)) []))
  | .quoted double read blanks =>
      if char == ' ' || char == '\t' then
        some ([], scanner.advance char (.quoted double read (char :: blanks)))
      else if char == '\n' then some ([], scanner.advance char (.folded double read 1))
      else if double && char == '"' then
        some ([scanner.scalar false (blanks ++ read)], scanner.advance char .between)
      else if double && char == '\\' then
        some ([], scanner.advance char (.escape (blanks ++ read)))
      else if !double && char == '\'' then
        if rest.head? == some '\'' then
          some ([], scanner.advance char (.quote (blanks ++ read)))
        else some ([scanner.scalar false (blanks ++ read)], scanner.advance char .between)
      else some ([], scanner.advance char (.quoted double (char :: (blanks ++ read)) []))
  | .quote read => some ([], scanner.advance char (.quoted false (char :: read) []))
  | .folded double read breaks =>
      if char == ' ' || char == '\t' then
        some ([], scanner.advance char (.folded double read breaks))
      else if char == '\n' then some ([], scanner.advance char (.folded double read (breaks + 1)))
      else
        let folded := foldBreaks breaks ++ read
        if double && char == '"' || !double && char == '\'' && rest.head? != some '\'' then
          some ([scanner.scalar false folded], scanner.advance char .between)
        else if !double && char == '\'' then some ([], scanner.advance char (.quote folded))
        else if double && char == '\\' then some ([], scanner.advance char (.escape folded))
        else some ([], scanner.advance char (.quoted double (char :: folded) []))
  | .escape read =>
      if char == '\n' then some ([], scanner.advance char (.folded true read 0))
      else
        match simpleEscape? char, codeDigits? char with
        | some value, _ =>
            some ([], scanner.advance char (.quoted true (Char.ofNat value :: read) []))
        | none, some digits => some ([], scanner.advance char (.code read digits 0))
        | none, none => none
  | .code read digits value =>
      (hexValue? char).bind fun digit =>
        let value := value * 16 + digit
        if digits > 1 then some ([], scanner.advance char (.code read (digits - 1) value))
        else if 0xD800 ≤ value ∧ value < 0xE000 ∨ 0x110000 ≤ value then none
        else some ([], scanner.advance char (.quoted true (Char.ofNat value :: read) []))

def finish? (scanner : Scanner) : Option (List Token) :=
  match scanner.reading with
  | .between | .comment | .skip _ => some []
  | .plain read _ => some [scanner.scalar true read]
  | _ => none

def scan? (scanner : Scanner) : List Char → Option (List Token)
  | [] => scanner.finish?
  | char :: rest => do
      let (tokens, next) ← scanner.step? char rest
      let others ← scan? next rest
      pure (tokens ++ others)

end Scanner

/-- Every line break is one character. -/
def unifyBreaks : List Char → List Char
  | [] => []
  | char :: rest =>
      if char = '\r' then
        if rest.head? = some '\n' then unifyBreaks rest else '\n' :: unifyBreaks rest
      else char :: unifyBreaks rest

/-- The characters that a document may hold. -/
def isAllowed (char : Char) : Bool :=
  char == '\t' || char == '\n' || 0x20 ≤ char.toNat && char.toNat < 0x7F || char.toNat == 0x85
    || 0xA0 ≤ char.toNat && char.toNat ≠ 0xFEFF && char.toNat ≠ 0xFFFE && char.toNat ≠ 0xFFFF

/-- A scalar before a colon in its line is a key. -/
def joinKeys : List Token → List Token
  | first :: second :: rest =>
      match first.kind with
      | .scalar _ text =>
          if second.kind = .colon ∧ second.line = first.line then
            { first with kind := .key text } :: joinKeys rest
          else first :: joinKeys (second :: rest)
      | _ => first :: joinKeys (second :: rest)
  | tokens => tokens

/-- The tokens of a document; a byte order mark at its start is skipped. -/
def tokens? (text : String) : Option (List Token) :=
  let characters := unifyBreaks text.toList
  let body := if characters.head? = some (Char.ofNat 0xFEFF) then characters.drop 1 else characters
  if body.all isAllowed then joinKeys <$> Scanner.start.scan? body else none

end EntityFilter.Yaml
