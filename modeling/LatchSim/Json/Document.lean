import LatchSim.Json.Value

/-!
# Documents

A document is what a text says up to the place where its syntax breaks, if it does: a tree
whose open containers carry a `Cut`. Building it takes one pass over the tokens and no
recursion, so nesting is bounded only when the tree is read. Reading goes through the tree
in the order of the text and stops at the first fault, be it of syntax or of content.
-/

namespace LatchSim.Json

/-- The faults where a text breaks off: for a reader of values, for a reader that skips
them, and for one that has all it needs and expects the list to close. -/
structure Cut where
  read : Fault
  skim : Fault
  surplus : Fault
  deriving DecidableEq

/-- The containers that a reader of values lets be open at one place. -/
def nestingLimit : Nat := 127

/-- The name of a member, or the fault in its literal. -/
abbrev Key := Except Fault String

inductive Document where
  | null
  | bool (value : Bool)
  | number (literal : Number)
  | string (text : Except Fault String)
  | list (items : List Document) (cut? : Option Cut)
  | object (members : List (Key × Document)) (cut? : Option Cut)
  | broken (cut : Cut)

/-- A container whose contents are being read: what stands before the open place, last
first, and the key of an open member. -/
inductive Frame where
  | list (before : List Document)
  | member (before : List (Key × Document)) (key : Key)

/-- The place that a text has reached. The innermost container is kept apart from the
`outer` frames between members and before the first. -/
inductive Place where
  | value (outer : List Frame)
  | firstItem (outer : List Frame)
  | nextItem (items : List Document) (outer : List Frame)
  | afterItem (items : List Document) (outer : List Frame)
  | firstKey (outer : List Frame)
  | nextKey (members : List (Key × Document)) (outer : List Frame)
  | colon (members : List (Key × Document)) (key : Key) (outer : List Frame)
  | afterMember (members : List (Key × Document)) (outer : List Frame)
  /-- The document is complete; `surplus` tells that more has followed. -/
  | complete (root : Document) (surplus : Bool)
  | stopped (root : Document)

/-- A literal as text. -/
def Key.ofPieces (pieces : List Piece) : Key := String.ofList <$> resolve .closed pieces

namespace Place

/-- The place behind a complete value. -/
def behind (root : Document) : List Frame → Place
  | [] => complete root false
  | .list before :: outer => afterItem (root :: before) outer
  | .member before key :: outer => afterMember ((key, root) :: before) outer

/-- Reads the first token of a value. -/
def startValue? (outer : List Frame) : Token → Option Place
  | .null => some (behind .null outer)
  | .bool b => some (behind (.bool b) outer)
  | .number literal => some (behind (.number literal) outer)
  | .string pieces => some (behind (.string (Key.ofPieces pieces)) outer)
  | .openList => some (firstItem outer)
  | .openObject => some (firstKey outer)
  | _ => none

/-- Closes all open containers at a cut. -/
def closeAll (cut : Cut) (root : Document) : List Frame → Document
  | [] => root
  | .list before :: outer => closeAll cut (.list (root :: before).reverse (some cut)) outer
  | .member before key :: outer =>
    closeAll cut (.object ((key, root) :: before).reverse (some cut)) outer

/-- The document of a text that breaks off here. -/
def cutOff (place : Place) (cut : Cut) : Document :=
  match place with
  | value outer => closeAll cut (.broken cut) outer
  | firstItem outer => closeAll cut (.list [] (some cut)) outer
  | nextItem items outer | afterItem items outer =>
    closeAll cut (.list items.reverse (some cut)) outer
  | firstKey outer => closeAll cut (.object [] (some cut)) outer
  | nextKey members outer | afterMember members outer =>
    closeAll cut (.object members.reverse (some cut)) outer
  | colon members key outer =>
    closeAll cut (.object ((key, .broken cut) :: members).reverse (some cut)) outer
  | complete root _ | stopped root => root

/-- The cut where the text ends here. -/
def cutAtEnd : Place → Cut
  | value _ | nextItem _ _ => ⟨.valueEnds, .valueEnds, .trailingCharacters⟩
  | firstItem _ | afterItem _ _ => ⟨.listEnds, .listEnds, .listEnds⟩
  | nextKey _ _ => ⟨.valueEnds, .objectEnds, .trailingCharacters⟩
  | _ => ⟨.objectEnds, .objectEnds, .trailingCharacters⟩

/-- The cut at a token that cannot stand here. -/
def cutAt (place : Place) (token : Token) : Cut :=
  match place, token with
  | nextItem _ _, .closeList => ⟨.trailingComma, .noValue, .trailingComma⟩
  | value _, .broken _ read skim | firstItem _, .broken _ read skim
  | nextItem _ _, .broken _ read skim => ⟨read, skim, .trailingCharacters⟩
  | value _, _ | firstItem _, _ | nextItem _ _, _ => ⟨.noValue, .noValue, .trailingCharacters⟩
  | afterItem _ _, _ => ⟨.noListSeparator, .noListSeparator, .trailingCharacters⟩
  | nextKey _ _, .closeObject => ⟨.trailingComma, .keyNotString, .trailingCharacters⟩
  | firstKey _, .broken true read skim | nextKey _ _, .broken true read skim =>
    ⟨read, skim, .trailingCharacters⟩
  | firstKey _, _ | nextKey _ _, _ => ⟨.keyNotString, .keyNotString, .trailingCharacters⟩
  | colon _ _ _, _ => ⟨.noColon, .noColon, .trailingCharacters⟩
  | _, _ => ⟨.noObjectSeparator, .noObjectSeparator, .trailingCharacters⟩

/-- The place behind a token that may stand here. -/
def feed? (place : Place) (token : Token) : Option Place :=
  match place, token with
  | value outer, token => startValue? outer token
  | firstItem outer, .closeList => some (behind (.list [] none) outer)
  | firstItem outer, token => startValue? (.list [] :: outer) token
  | nextItem items outer, token => startValue? (.list items :: outer) token
  | afterItem items outer, .comma => some (nextItem items outer)
  | afterItem items outer, .closeList => some (behind (.list items.reverse none) outer)
  | firstKey outer, .closeObject => some (behind (.object [] none) outer)
  | firstKey outer, .string pieces => some (colon [] (Key.ofPieces pieces) outer)
  | nextKey members outer, .string pieces => some (colon members (Key.ofPieces pieces) outer)
  | colon members key outer, .colon => some (value (.member members key :: outer))
  | afterMember members outer, .comma => some (nextKey members outer)
  | afterMember members outer, .closeObject =>
    some (behind (.object members.reverse none) outer)
  | complete root _, _ => some (complete root true)
  | stopped root, _ => some (stopped root)
  | _, _ => none

def feed (place : Place) (token : Token) : Place :=
  match place.feed? token with
  | some next => next
  | none => stopped (place.cutOff (place.cutAt token))

def feedAll (place : Place) (tokens : List Token) : Place := tokens.foldl feed place

end Place

namespace Document

/-- The document of a text, and whether anything follows it. -/
def parse (text : List Char) : Document × Bool :=
  match (Place.value []).feedAll (Token.scan text) with
  | .complete root surplus => (root, surplus)
  | place => (place.cutOff place.cutAtEnd, false)

/-- Reads the one document that a text consists of. -/
def read (decode : Document → Except Fault α) (text : String) : Except Fault α :=
  let (root, surplus) := parse text.toList
  match decode root with
  | .error fault => .error fault
  | .ok result => if surplus then .error .trailingCharacters else .ok result

/-- Passes over a value: only its syntax counts, and neither the depth of its containers
nor the range of its numbers nor the pairing of surrogates. -/
def skim : Document → Except Fault Unit
  | broken cut | list _ (some cut) | object _ (some cut) => .error cut.skim
  | _ => .ok ()

/-- The fault of a value that is not what its place asks for. Scalars are read first. -/
def mistyped (expected : String) : Document → Fault
  | null => .mistyped .null expected
  | bool value => .mistyped (.bool value) expected
  | number literal =>
    match literal.reading with
    | .tooLarge => .numberTooLarge
    | _ => .mistyped (.number literal) expected
  | string (.error fault) => fault
  | string (.ok text) => .mistyped (.string text) expected
  | list _ _ => .mistyped .list expected
  | object _ _ => .mistyped .object expected
  | broken cut => cut.read

def text : Document → Except Fault String
  | string (.ok text) => .ok text
  | other => .error (other.mistyped "a string")

def sample : Document → Except Fault (Option Bool)
  | null => .ok none
  | bool value => .ok (some value)
  | other => .error (other.mistyped "a boolean")

/-- Reads elements in order, and then the end of the list. -/
def elements (decode : Document → Except Fault α) (cut? : Option Cut) :
    List Document → Except Fault (List α)
  | [] =>
    match cut? with
    | none => .ok []
    | some cut => .error cut.read
  | item :: rest => do return (← decode item) :: (← elements decode cut? rest)

def items (decode : Document → Except Fault α) : Document → Except Fault (List α)
  | list items cut? => elements decode cut? items
  | other => .error (other.mistyped "a sequence")

mutual

/-- Reads a value in full, with `room` levels of containers left to open. -/
def value (room : Nat) : Document → Except Fault Value
  | null => .ok .null
  | bool value => .ok (.bool value)
  | number literal =>
    match literal.reading with
    | .tooLarge => .error .numberTooLarge
    | _ => .ok (.number literal)
  | string text => Value.string <$> text
  | list items cut? =>
    match room with
    | 0 => .error .tooDeep
    | room + 1 => Value.list <$> values room cut? items
  | object members cut? =>
    match room with
    | 0 => .error .tooDeep
    | room + 1 => Value.object <$> memberValues room cut? members
  | broken cut => .error cut.read

def values (room : Nat) (cut? : Option Cut) : List Document → Except Fault (List Value)
  | [] =>
    match cut? with
    | none => .ok []
    | some cut => .error cut.read
  | item :: rest => do return (← item.value room) :: (← values room cut? rest)

def memberValues (room : Nat) (cut? : Option Cut) :
    List (Key × Document) → Except Fault (List (String × Value))
  | [] =>
    match cut? with
    | none => .ok []
    | some cut => .error cut.read
  | (key, item) :: rest => do
    let name ← key
    let v ← item.value room
    return (name, v) :: (← memberValues room cut? rest)

end

end Document
end LatchSim.Json
