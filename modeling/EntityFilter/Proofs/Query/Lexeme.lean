/-
This file splits SQL text into lexemes. Names and texts stand in quotation marks, and nothing that is
read there holds one.
-/
import EntityFilter.Assoc
import EntityFilter.Query.Compiled

namespace EntityFilter

inductive Keyword where
  | exist
  | select
  | one
  | source
  | naming
  | join
  | on
  | restriction
  | cast
  | text
  | object
  | buildObject
  | record
  | ordering
  | along
  deriving DecidableEq, Repr

namespace Keyword

def all : List Keyword :=
  [exist, select, one, source, naming, join, on, restriction, cast, text, object, buildObject,
    record, ordering, along]

def sql : Keyword → String
  | exist => "EXISTS"
  | select => "SELECT"
  | one => "1"
  | source => "FROM"
  | naming => "AS"
  | join => "JOIN"
  | on => "ON"
  | restriction => "WHERE"
  | cast => "CAST"
  | text => "TEXT"
  | object => "json_object"
  | buildObject => "json_build_object"
  | record => "record"
  | ordering => "ORDER"
  | along => "BY"

end Keyword

/-- What stands in quotation marks. -/
inductive Quotation where
  | name
  | text
  deriving DecidableEq, Repr

def Quotation.mark : Quotation → Char
  | name => '"'
  | text => '\''

/-- The smallest parts of SQL text that mean something. -/
inductive Lexeme where
  | opening
  | closing
  | dot
  | comma
  | name (identifier : String)
  | text (content : String)
  | tableAlias (tableAlias : Alias)
  | parameter (number : Nat)
  | operator (operator : Operator)
  | conjunction (conjunction : Conjunction)
  | order (order : SortOrder)
  | keyword (keyword : Keyword)
  deriving DecidableEq, Repr

/-- The number with the given decimal digits; leading zeros are refused. -/
def decimal? (digits : List Char) : Option Nat :=
  let number := Nat.ofDigitChars 10 digits 0
  if (toString number).toList = digits then some number else none

def AliasRole.ofSuffix? (suffix : List Char) : Option AliasRole :=
  if suffix = [] then some .entity
  else if suffix = "_pivot".toList then some .pivot
  else if suffix = "_through".toList then some .through
  else none

/-- The alias of the characters after its first letter. -/
def Alias.ofRest? (rest : List Char) : Option Alias := do
  let number ← decimal? (rest.takeWhile Char.isDigit)
  let role ← AliasRole.ofSuffix? (rest.dropWhile Char.isDigit)
  pure ⟨number, role⟩

namespace Lexeme

/-- The words that stand for themselves. -/
def words : List (String × Lexeme) :=
  Keyword.all.map (fun word => (word.sql, keyword word))
    ++ Operator.all.map (fun sign => (sign.sql, operator sign))
    ++ [SortOrder.ascending, .descending].map (fun direction => (direction.sql, order direction))
    ++ [("AND", conjunction .and), ("OR", conjunction .or)]

/-- The lexeme that a word stands for. Databases number their parameters after different signs. -/
def ofWord? (dialect : Dialect) : List Char → Option Lexeme
  | 't' :: rest => (Alias.ofRest? rest).map tableAlias
  | '?' :: digits => if dialect = .sqlite then (decimal? digits).map parameter else none
  | '$' :: digits => if dialect = .postgres then (decimal? digits).map parameter else none
  | word => Assoc.find? (String.ofList word) words

def ofQuoted (content : String) : Quotation → Lexeme
  | .name => name content
  | .text => text content

/-- The characters read so far of a word, or in quotation marks. No word is read between words. -/
inductive Reading where
  | word (read : List Char)
  | quoted (quotation : Quotation) (read : List Char)
  deriving DecidableEq, Repr

/-- What a mark stands for, and what is read after it. Other characters belong to words. -/
def mark? (char : Char) : Option (List Lexeme × Reading) :=
  if char = ' ' then some ([], .word [])
  else if char = '(' then some ([opening], .word [])
  else if char = ')' then some ([closing], .word [])
  else if char = '.' then some ([dot], .word [])
  else if char = ',' then some ([comma], .word [])
  else if char = '"' then some ([], .quoted .name [])
  else if char = '\'' then some ([], .quoted .text [])
  else none

def pending? (dialect : Dialect) : List Char → Option (List Lexeme)
  | [] => some []
  | read => (ofWord? dialect read).map fun lexeme => [lexeme]

def scanFrom? (dialect : Dialect) : Reading → List Char → Option (List Lexeme)
  | .word read, [] => pending? dialect read
  | .quoted _ _, [] => none
  | .word read, char :: rest =>
      match mark? char with
      | none => scanFrom? dialect (.word (read ++ [char])) rest
      | some (lexemes, next) => do
          let before ← pending? dialect read
          let others ← scanFrom? dialect next rest
          pure (before ++ lexemes ++ others)
  | .quoted quotation read, char :: rest =>
      if char = quotation.mark then do
        let others ← scanFrom? dialect (.word []) rest
        pure (ofQuoted (String.ofList read) quotation :: others)
      else scanFrom? dialect (.quoted quotation (read ++ [char])) rest

/-- The lexemes of a text; none when a quotation does not end or a word has no meaning. -/
def scan? (dialect : Dialect) (text : List Char) : Option (List Lexeme) :=
  scanFrom? dialect (.word []) text

def isMark (char : Char) : Bool :=
  (mark? char).isSome

/-- No word runs over from one text into the next one. -/
def parted (front back : List Char) : Bool :=
  front.getLast?.any isMark || back.head?.all isMark

variable {dialect : Dialect}

/-- A mark, or the end of the text, ends the word before it. -/
theorem scanFrom?_word {read back : List Char} {lexemes : List Lexeme}
    (ended : pending? dialect read = some lexemes) (begins : back.head?.all isMark = true) :
    scanFrom? dialect (.word read) back = (scan? dialect back).map (lexemes ++ ·) := by
  have between : pending? dialect [] = some [] := rfl
  cases back with
  | nil => simp [scan?, scanFrom?, between, ended]
  | cons char back =>
      obtain ⟨⟨marks, next⟩, marked⟩ := Option.isSome_iff_exists.mp begins
      simp only [scan?, scanFrom?, marked, ended, between]
      cases scanFrom? dialect next back <;> simp

theorem eq_nil_of_mark? {char : Char} {lexemes : List Lexeme} {read : List Char}
    (marked : mark? char = some (lexemes, .word read)) : read = [] := by
  unfold mark? at marked
  grind

/-- Reading goes on after a text as if it started anew. -/
theorem scanFrom?_append {reading : Reading} {front back : List Char} {lexemes : List Lexeme}
    (scanned : scanFrom? dialect reading front = some lexemes)
    (apart : parted front back = true ∨ front = [] ∧ reading = .word []) :
    scanFrom? dialect reading (front ++ back) = (scan? dialect back).map (lexemes ++ ·) := by
  induction front generalizing reading lexemes with
  | nil =>
      cases reading with
      | quoted quotation read => simp [scanFrom?] at scanned
      | word read =>
          rcases apart with begins | ⟨-, between⟩
          · exact scanFrom?_word scanned (by simpa [parted] using begins)
          · obtain rfl : read = [] := by simpa using between
            obtain rfl : lexemes = [] := by simpa [scanFrom?, pending?] using scanned.symm
            simp [scan?]
  | cons char front inductionHypothesis =>
      have apart : parted (char :: front) back = true := by simpa using apart
      -- After the last character no word is open, if that character is a mark.
      have onward {next : Reading} {others : List Lexeme}
          (rest : scanFrom? dialect next front = some others)
          (closes : front = [] → isMark char = true → next = .word []) :
          scanFrom? dialect next (front ++ back) = (scan? dialect back).map (others ++ ·) := by
        refine inductionHypothesis rest ?_
        cases front with
        | cons second front => exact Or.inl (by simpa [parted] using apart)
        | nil =>
            by_cases mark : isMark char = true
            · exact Or.inr ⟨rfl, closes rfl mark⟩
            · exact Or.inl (by simpa [parted, mark] using apart)
      cases reading with
      | word read =>
          rw [List.cons_append]
          rw [scanFrom?] at scanned ⊢
          cases marked : mark? char with
          | none =>
              rw [marked] at scanned
              exact onward scanned fun _ mark => by simp [isMark, marked] at mark
          | some found =>
              obtain ⟨marks, next⟩ := found
              rw [marked] at scanned
              obtain ⟨before, ended, scanned⟩ := Option.bind_eq_some_iff.mp scanned
              obtain ⟨others, rest, same⟩ := Option.bind_eq_some_iff.mp scanned
              obtain rfl : before ++ marks ++ others = lexemes := Option.some.inj same
              have tail := onward rest fun finished _ => by
                cases next with
                | word read => rw [eq_nil_of_mark? marked]
                | quoted quotation read => simp [finished, scanFrom?] at rest
              simp only [ended, tail]
              cases scan? dialect back <;> simp
      | quoted quotation read =>
          rw [List.cons_append]
          rw [scanFrom?] at scanned ⊢
          by_cases quote : char = quotation.mark
          · rw [if_pos quote] at scanned ⊢
            obtain ⟨others, rest, same⟩ := Option.bind_eq_some_iff.mp scanned
            obtain rfl : ofQuoted (String.ofList read) quotation :: others = lexemes :=
              Option.some.inj same
            simp only [onward rest fun _ _ => rfl]
            cases scan? dialect back <;> simp
          · rw [if_neg quote] at scanned ⊢
            exact onward scanned fun finished _ => by simp [finished, scanFrom?] at scanned

/-- Texts that are apart are split one after the other. -/
theorem scan?_append {front back : List Char} {lexemes others : List Lexeme}
    (first : scan? dialect front = some lexemes) (second : scan? dialect back = some others)
    (apart : parted front back = true) :
    scan? dialect (front ++ back) = some (lexemes ++ others) := by
  rw [scan?, scanFrom?_append first (Or.inl apart), second]
  rfl

/-- A word of one lexeme. -/
theorem scan?_word {word : List Char} {lexeme : Lexeme} (present : word ≠ [])
    (plain : ∀ char ∈ word, mark? char = none) (means : ofWord? dialect word = some lexeme) :
    scan? dialect word = some [lexeme] := by
  have general (rest read : List Char) (plain : ∀ char ∈ rest, mark? char = none) :
      scanFrom? dialect (.word read) rest = pending? dialect (read ++ rest) := by
    induction rest generalizing read with
    | nil => rw [scanFrom?, List.append_nil]
    | cons char rest inductionHypothesis =>
        obtain ⟨first, later⟩ := List.forall_mem_cons.mp plain
        rw [scanFrom?, first]
        exact (inductionHypothesis (read ++ [char]) later).trans (by simp)
  rw [scan?, general word [] plain]
  cases word with
  | nil => exact absurd rfl present
  | cons char word => simp [pending?, means]

/-- What does not hold its quotation mark is read as it is. -/
theorem scanFrom?_quoted (quotation : Quotation) {content : List Char}
    (plain : quotation.mark ∉ content) (read : List Char) :
    scanFrom? dialect (.quoted quotation read) (content ++ [quotation.mark]) =
      some [ofQuoted (String.ofList (read ++ content)) quotation] := by
  induction content generalizing read with
  | nil => simp [scanFrom?, pending?]
  | cons char rest inductionHypothesis =>
      obtain ⟨first, later⟩ := not_or.mp (mt List.mem_cons.mpr plain)
      rw [List.cons_append, scanFrom?, if_neg (Ne.symm first)]
      exact (inductionHypothesis later (read ++ [char])).trans (by simp)

/-- A name in quotation marks. -/
theorem scan?_quoted {identifier : String} (quotable : '"' ∉ identifier.toList) :
    scan? dialect (Piece.quoted identifier).toList = some [name identifier] := by
  have marked : mark? '"' = some ([], .quoted .name []) := rfl
  have named : scanFrom? dialect (.quoted .name []) (identifier.toList ++ ['"']) =
      some [name identifier] :=
    (scanFrom?_quoted .name quotable []).trans (by simp [ofQuoted])
  simp [Piece.quoted, scan?, scanFrom?, marked, pending?, named]

/-- A text in quotation marks. -/
theorem scan?_text {content : String} (plain : '\'' ∉ content.toList) :
    scan? dialect ("'" ++ content ++ "'").toList = some [text content] := by
  have marked : mark? '\'' = some ([], .quoted .text []) := rfl
  have written : scanFrom? dialect (.quoted .text []) (content.toList ++ ['\'']) =
      some [text content] :=
    (scanFrom?_quoted .text plain []).trans (by simp [ofQuoted])
  simp [scan?, scanFrom?, marked, pending?, written]

end Lexeme

end EntityFilter
