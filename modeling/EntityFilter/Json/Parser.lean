/-
This file reads JSON text by assembling its tokens on a stack of open containers.
-/
import EntityFilter.Json.Token

namespace EntityFilter.Json

/-- A container that is still open: the items of an array in reverse, the members of an object, or
its members and the name whose value comes next. -/
inductive Frame where
  | array (reversed : List Value)
  | object (members : Members)
  | member (members : Members) (name : String)

/-- What may come next. -/
inductive Position where
  | value
  | firstItem
  | firstName
  | name
  | colon
  | separator
  | finished (value : Value)

structure Assembly where
  stack : List Frame
  position : Position

namespace Assembly

/-- Containers nest less deep than this. -/
def depthLimit : Nat := 128

/-- Puts a finished value into the innermost open container. -/
def complete? (stack : List Frame) (value : Value) : Option Assembly :=
  match stack with
  | [] => some ⟨[], .finished value⟩
  | .array items :: rest => some ⟨.array (value :: items) :: rest, .separator⟩
  | .member members name :: rest =>
      some ⟨.object (Assoc.insert name value members) :: rest, .separator⟩
  | .object _ :: _ => none

def enter? (stack : List Frame) (frame : Frame) (position : Position) : Option Assembly :=
  if stack.length + 1 < depthLimit then some ⟨frame :: stack, position⟩ else none

def startValue? (stack : List Frame) : Token → Option Assembly
  | .openArray => enter? stack (.array []) .firstItem
  | .openObject => enter? stack (.object []) .firstName
  | .scalar value => complete? stack value
  | _ => none

def startName? (stack : List Frame) : Token → Option Assembly
  | .scalar (.string name) =>
      match stack with
      | .object members :: rest => some ⟨.member members name :: rest, .colon⟩
      | _ => none
  | _ => none

def close? (stack : List Frame) : Token → Option Assembly
  | .closeArray =>
      match stack with
      | .array items :: rest => complete? rest (.array items.reverse)
      | _ => none
  | .closeObject =>
      match stack with
      | .object members :: rest => complete? rest (.object members)
      | _ => none
  | _ => none

def step? (assembly : Assembly) (token : Token) : Option Assembly :=
  match assembly.position with
  | .value => startValue? assembly.stack token
  | .firstItem => (close? assembly.stack token).or (startValue? assembly.stack token)
  | .firstName => (close? assembly.stack token).or (startName? assembly.stack token)
  | .name => startName? assembly.stack token
  | .colon => if token = .colon then some { assembly with position := .value } else none
  | .separator =>
      if token = .comma then
        match assembly.stack with
        | .array _ :: _ => some { assembly with position := .value }
        | .object _ :: _ => some { assembly with position := .name }
        | _ => none
      else close? assembly.stack token
  | .finished _ => none

def run? (assembly : Assembly) : List Token → Option Assembly
  | [] => some assembly
  | token :: rest => (step? assembly token).bind (run? · rest)

end Assembly

/-- The value that a text denotes. A repeated member keeps its first position and takes its last
value; nothing but blanks may follow the value. -/
def parse? (text : String) : Option Value := do
  let tokens ← Token.scan? text.toList
  let assembly ← Assembly.run? ⟨[], .value⟩ tokens
  match assembly.position with
  | .finished value => some value
  | _ => none

end EntityFilter.Json
