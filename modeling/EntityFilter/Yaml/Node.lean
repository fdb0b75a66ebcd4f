/-
This file assembles the tokens of a YAML document into a tree.
-/
import EntityFilter.Yaml.Token

namespace EntityFilter.Yaml

/-- A part of a document. The meaning of a plain scalar depends on what it is read as. -/
inductive Node where
  | scalar (plain : Bool) (text : String)
  | sequence (items : List Node)
  | mapping (entries : List (String × Node))
  deriving Repr

namespace Node

/-- What stands where nothing is written. -/
def empty : Node := .scalar true ""

end Node

/-- A collection that is still open. Items and entries are in reverse. -/
inductive Frame where
  /-- A block sequence at a column; a dash without its item may be open. -/
  | blockSequence (column : Nat) (items : List Node) (dash : Bool)
  /-- A block mapping at a column; a key without its value may be open, with its line. -/
  | blockMapping (column : Nat) (entries : List (String × Node)) (key : Option (String × Nat))
  /-- A flow sequence, and whether an item may follow. -/
  | flowSequence (items : List Node) (separated : Bool)
  /-- A flow mapping, whether an entry may follow, and the key without its value. -/
  | flowMapping (entries : List (String × Node)) (separated : Bool) (key : Option String)
  /-- A single entry in a flow sequence. -/
  | flowPair (key : String)

namespace Frame

def isFlow : Frame → Bool
  | .flowSequence _ _ | .flowMapping _ _ _ | .flowPair _ => true
  | _ => false

/-- The column of a block collection. -/
def column? : Frame → Option Nat
  | .blockSequence column _ _ | .blockMapping column _ _ => some column
  | _ => none

/-- The node of a block collection that ends here. -/
def blockNode? : Frame → Option Node
  | .blockSequence _ items dash =>
      some (.sequence (if dash then .empty :: items else items).reverse)
  | .blockMapping _ entries key =>
      some (.mapping (key.elim entries fun key => (key.1, .empty) :: entries).reverse)
  | _ => none

end Frame

/-- A plain scalar that may go on in the next line. -/
structure Leaf where
  text : String
  line : Nat

structure Assembly where
  frames : List Frame
  leaf : Option Leaf
  result : Option Node
  /-- The line of the mark that starts the document, if there is one. -/
  mark : Option Nat
  ended : Bool

namespace Assembly

def start : Assembly := ⟨[], none, none, none, false⟩

def inFlow (assembly : Assembly) : Bool :=
  assembly.frames.head?.any (·.isFlow)

/-- Puts a node into the innermost open collection. -/
def deliver? (assembly : Assembly) (node : Node) : Option Assembly :=
  match assembly.frames with
  | [] => if assembly.result.isNone then some { assembly with result := some node } else none
  | .blockSequence column items true :: rest =>
      some { assembly with frames := .blockSequence column (node :: items) false :: rest }
  | .blockMapping column entries (some (key, _)) :: rest =>
      some { assembly with frames := .blockMapping column ((key, node) :: entries) none :: rest }
  | .flowSequence items true :: rest =>
      some { assembly with frames := .flowSequence (node :: items) false :: rest }
  | .flowMapping entries _ (some key) :: rest =>
      some { assembly with frames := .flowMapping ((key, node) :: entries) false none :: rest }
  | .flowMapping entries true none :: rest =>
      match node with
      | .scalar _ text =>
          some
            { assembly with frames := .flowMapping ((text, .empty) :: entries) false none :: rest }
      | _ => none
  | .flowPair key :: .flowSequence items true :: rest =>
      some
        { assembly with
          frames := .flowSequence (.mapping [(key, node)] :: items) false :: rest }
  | _ => none

/-- Ends the innermost block collection. -/
def closeBlock? (assembly : Assembly) : Option Assembly :=
  match assembly.frames with
  | [] => none
  | frame :: rest =>
      frame.blockNode?.bind fun node => deliver? { assembly with frames := rest } node

/-- Ends the block collections to the right of a column. -/
def unrollTo? (column : Nat) : Nat → Assembly → Option Assembly
  | 0, assembly => some assembly
  | bound + 1, assembly =>
      match assembly.frames.head?.bind Frame.column? with
      | some innermost =>
          if column < innermost then (closeBlock? assembly).bind (unrollTo? column bound)
          else some assembly
      | none => some assembly

/-- A token to the left of block collections ends them. -/
def unroll? (assembly : Assembly) (column : Nat) : Option Assembly :=
  unrollTo? column assembly.frames.length assembly

/-- Whether a node may start at a position. An open key and a mark allow a scalar or a flow
collection in their line, and a block collection only in a later one. -/
def allowsNode (assembly : Assembly) (token : Token) (block : Bool) : Bool :=
  match assembly.frames with
  | [] =>
      assembly.result.isNone && !assembly.ended
        && (!block || assembly.mark.all fun line => line < token.line)
  | .blockSequence column _ dash :: _ => dash && column < token.column
  | .blockMapping column _ (some (_, line)) :: _ =>
      column < token.column && (!block || line < token.line)
  | .blockMapping _ _ none :: _ => false
  | _ => !block

/-- Delivers the open plain scalar. -/
def flush? (assembly : Assembly) : Option Assembly :=
  match assembly.leaf with
  | none => some assembly
  | some leaf => deliver? { assembly with leaf := none } (.scalar true leaf.text)

/-- Whether a scalar in a later line belongs to the open plain scalar. -/
def continues (assembly : Assembly) (leaf : Leaf) (token : Token) : Bool :=
  leaf.line < token.line
    && (assembly.frames.head?.bind Frame.column?).all fun column => column < token.column

def startScalar? (assembly : Assembly) (token : Token) (plain : Bool) (text : String) :
    Option Assembly := do
  let flushed ← flush? assembly
  let ready ← if flushed.inFlow then some flushed else unroll? flushed token.column
  if !ready.allowsNode token false then none
  else if plain then some { ready with leaf := some ⟨text, token.line⟩ }
  else deliver? ready (.scalar false text)

def scalar? (assembly : Assembly) (token : Token) (plain : Bool) (text : String) :
    Option Assembly :=
  match assembly.leaf with
  | some leaf =>
      if plain && assembly.continues leaf token then
        let fold := String.ofList (Scanner.foldBreaks (token.line - leaf.line))
        some { assembly with leaf := some ⟨leaf.text ++ fold ++ text, token.line⟩ }
      else startScalar? assembly token plain text
  | none => startScalar? assembly token plain text

/-- Starts a block mapping with its first key. -/
def newMapping? (assembly : Assembly) (token : Token) (text : String) : Option Assembly :=
  if assembly.allowsNode token true then
    some
      { assembly with
        frames := .blockMapping token.column [] (some (text, token.line)) :: assembly.frames }
  else none

/-- A key goes on with its mapping or starts a new one. -/
def key? (assembly : Assembly) (token : Token) (text : String) : Option Assembly := do
  let flushed ← flush? assembly
  match flushed.frames with
  | .flowMapping entries true none :: rest =>
      some { flushed with frames := .flowMapping entries true (some text) :: rest }
  | .flowSequence items true :: rest =>
      some { flushed with frames := .flowPair text :: .flowSequence items true :: rest }
  | .flowSequence _ false :: _ | .flowMapping _ _ _ :: _ | .flowPair _ :: _ => none
  | _ =>
      let unrolled ← unroll? flushed token.column
      let ready ←
        match unrolled.frames with
        | .blockSequence inner _ _ :: .blockMapping outer _ _ :: _ =>
            if inner = token.column ∧ outer = token.column then closeBlock? unrolled
            else some unrolled
        | _ => some unrolled
      match ready.frames with
      | .blockMapping column entries key :: rest =>
          if column = token.column then
            let entries := key.elim entries fun key => (key.1, .empty) :: entries
            some
              { ready with
                frames := .blockMapping column entries (some (text, token.line)) :: rest }
          else newMapping? ready token text
      | _ => newMapping? ready token text

/-- Starts a block sequence with its first dash. -/
def newSequence? (assembly : Assembly) (token : Token) : Option Assembly :=
  if assembly.allowsNode token true then
    some { assembly with frames := .blockSequence token.column [] true :: assembly.frames }
  else none

/-- A dash goes on with its sequence or starts a new one. A sequence may stand at the column of
the key whose value it is. -/
def dash? (assembly : Assembly) (token : Token) : Option Assembly := do
  let flushed ← flush? assembly
  if flushed.inFlow then none
  else
    let ready ← unroll? flushed token.column
    match ready.frames with
    | .blockSequence column items dash :: rest =>
        if column = token.column then
          let items := if dash then .empty :: items else items
          some { ready with frames := .blockSequence column items true :: rest }
        else newSequence? ready token
    | .blockMapping column _ (some (_, line)) :: _ =>
        if column = token.column ∧ line < token.line then
          some { ready with frames := .blockSequence token.column [] true :: ready.frames }
        else newSequence? ready token
    | _ => newSequence? ready token

def open? (assembly : Assembly) (token : Token) (frame : Frame) : Option Assembly := do
  let flushed ← flush? assembly
  match flushed.frames with
  | .flowMapping _ _ none :: _ | .flowSequence _ false :: _ => none
  | .flowMapping _ _ (some _) :: _ | .flowSequence _ true :: _ | .flowPair _ :: _ =>
      some { flushed with frames := frame :: flushed.frames }
  | _ =>
      let ready ← unroll? flushed token.column
      if ready.allowsNode token false then some { ready with frames := frame :: ready.frames }
      else none

/-- Gives an open key or pair of a flow collection its empty value. -/
def fill? (assembly : Assembly) : Option Assembly :=
  match assembly.frames with
  | .flowPair _ :: _ | .flowMapping _ _ (some _) :: _ => deliver? assembly .empty
  | _ => some assembly

def comma? (assembly : Assembly) : Option Assembly := do
  let filled ← (flush? assembly).bind fill?
  match filled.frames with
  | .flowSequence items false :: rest =>
      some { filled with frames := .flowSequence items true :: rest }
  | .flowMapping entries false none :: rest =>
      some { filled with frames := .flowMapping entries true none :: rest }
  | _ => none

def closeSequence? (assembly : Assembly) : Option Assembly := do
  let filled ← (flush? assembly).bind fill?
  match filled.frames with
  | .flowSequence items _ :: rest =>
      deliver? { filled with frames := rest } (.sequence items.reverse)
  | _ => none

def closeMapping? (assembly : Assembly) : Option Assembly := do
  let filled ← (flush? assembly).bind fill?
  match filled.frames with
  | .flowMapping entries _ none :: rest =>
      deliver? { filled with frames := rest } (.mapping entries.reverse)
  | _ => none

def closeAll? : Nat → Assembly → Option Assembly
  | 0, assembly => if assembly.frames.isEmpty then some assembly else none
  | bound + 1, assembly =>
      if assembly.frames.isEmpty then some assembly
      else (closeBlock? assembly).bind (closeAll? bound)

/-- Ends all block collections. -/
def finish? (assembly : Assembly) : Option Assembly := do
  let flushed ← flush? assembly
  let closed ← closeAll? flushed.frames.length flushed
  pure { closed with ended := true }

/-- A document starts once, before any of its content. -/
def startDocument? (assembly : Assembly) (token : Token) : Option Assembly :=
  if assembly.frames.isEmpty && assembly.leaf.isNone && assembly.result.isNone
      && assembly.mark.isNone && !assembly.ended then
    some { assembly with mark := some token.line }
  else none

def step? (assembly : Assembly) (token : Token) : Option Assembly :=
  match token.kind with
  | .scalar plain text => scalar? assembly token plain text
  | .key text => key? assembly token text
  | .dash => dash? assembly token
  | .comma => comma? assembly
  | .openSequence => open? assembly token (.flowSequence [] true)
  | .openMapping => open? assembly token (.flowMapping [] true none)
  | .closeSequence => closeSequence? assembly
  | .closeMapping => closeMapping? assembly
  | .documentStart => startDocument? assembly token
  | .documentEnd => finish? assembly
  | .colon => none

def run? (assembly : Assembly) : List Token → Option Assembly
  | [] => finish? assembly
  | token :: rest => (step? assembly token).bind (run? · rest)

end Assembly

/-- The tree of a document; none for a malformed one, for an empty one and for more than one. -/
def parse? (text : String) : Option Node := do
  let tokens ← tokens? text
  let assembly ← Assembly.run? .start tokens
  assembly.result

end EntityFilter.Yaml
