import LatchSim.Expr
import LatchSim.Json.Document

/-!
# Expressions in JSON

An expression is an object whose `type` member names its kind, or a list that begins with
the kind. Its value is read in full before it is interpreted, so a fault of syntax anywhere
inside comes before all faults of content but those of the outermost `type`.
-/

namespace LatchSim

namespace Expr

/-- The kinds of expressions. -/
inductive Tag where
  | signal
  | and
  | or
  | not
  deriving DecidableEq

namespace Tag

/-- The kinds in the order of their indices. -/
def all : List Tag := [signal, and, or, not]

def text : Tag → String
  | signal => "signal"
  | and => "and"
  | or => "or"
  | not => "not"

def title : Tag → String
  | signal => "Signal"
  | and => "And"
  | or => "Or"
  | not => "Not"

def ofText (name : String) : Except Json.Fault Tag :=
  match all.find? fun tag => tag.text == name with
  | some tag => .ok tag
  | none => .error (.unknownVariant name (all.map text))

/-- The outermost kind has to be named. -/
def ofDocument : Json.Document → Except Json.Fault Tag
  | .string (.ok name) => ofText name
  | other => .error (other.mistyped "variant identifier")

/-- A kind further inside may also be given by its index. -/
def ofValue : Json.Value → Except Json.Fault Tag
  | .string name => ofText name
  | .number literal =>
    match literal.reading with
    | .integer (.ofNat index) =>
      match all[index]? with
      | some tag => .ok tag
      | none => .error (.unknownVariantIndex index all.length)
    | _ => .error ((Json.Value.number literal).mistyped "variant identifier")
  | other => .error (other.mistyped "variant identifier")

/-- The kind among the members of an object, which must name it once. -/
def find (found : Option Tag) : List (String × Json.Value) → Except Json.Fault Tag
  | [] =>
    match found with
    | some tag => .ok tag
    | none => .error (.missingField "type")
  | (name, v) :: rest =>
    if name = "type" then
      match found with
      | some _ => .error (.duplicateField "type")
      | none => do find (some (← ofValue v)) rest
    else find found rest

end Tag

def textOfValue : Json.Value → Except Json.Fault String
  | .string text => .ok text
  | other => .error (other.mistyped "a string")

/-- A field that members have to give once. -/
def require (name : String) : Option α → Except Json.Fault α
  | some content => .ok content
  | none => .error (.missingField name)

/-- The name of a signal among the members of an object. -/
def nameOfMembers (found : Option String) : List (String × Json.Value) → Except Json.Fault String
  | [] => require "name" found
  | (name, v) :: rest =>
    if name = "name" then
      if found.isSome then .error (.duplicateField "name")
      else do nameOfMembers (some (← textOfValue v)) rest
    else nameOfMembers found rest

/-- A list that ends before its fields, `count` of which are there. -/
def tooShort (tag : Tag) (count : Nat) (size : String) : Json.Fault :=
  .wrongLength count ("struct variant Expr::" ++ tag.title ++ " with " ++ size)

/-- A list must end behind its fields, `count` of which have been read. -/
def endOfItems (count : Nat) (size : String) (rest : List Json.Value) : Except Json.Fault Unit :=
  if rest.isEmpty then .ok ()
  else .error (.wrongLength (count + rest.length) (size ++ " in sequence"))

def nameOfItems : List Json.Value → Except Json.Fault String
  | [] => .error (tooShort .signal 0 "1 element")
  | v :: rest => do
    let name ← textOfValue v
    endOfItems 1 "1 element" rest
    return name

mutual

/-- Interprets a value that has been read in full. -/
def ofValue : Json.Value → Except Json.Fault Expr
  | .object members => do
    match ← Tag.find none members with
    | .signal => return signal (← nameOfMembers none members)
    | .and =>
      let (left, right) ← operandsOfMembers none none members
      return and left right
    | .or =>
      let (left, right) ← operandsOfMembers none none members
      return or left right
    | .not => return not (← operandOfMembers none members)
  | .list (tag :: items) => do
    match ← Tag.ofValue tag with
    | .signal => return signal (← nameOfItems items)
    | .and =>
      let (left, right) ← operandsOfItems .and items
      return and left right
    | .or =>
      let (left, right) ← operandsOfItems .or items
      return or left right
    | .not => return not (← operandOfItems items)
  | .list [] => .error (.missingField "type")
  | other => .error (other.mistyped "internally tagged enum Expr")

def operandOfMembers (found : Option Expr) :
    List (String × Json.Value) → Except Json.Fault Expr
  | [] => require "operand" found
  | (name, v) :: rest =>
    if name = "operand" then
      if found.isSome then .error (.duplicateField "operand")
      else do operandOfMembers (some (← ofValue v)) rest
    else operandOfMembers found rest

def operandsOfMembers (left right : Option Expr) :
    List (String × Json.Value) → Except Json.Fault (Expr × Expr)
  | [] => do return (← require "left" left, ← require "right" right)
  | (name, v) :: rest =>
    if name = "left" then
      if left.isSome then .error (.duplicateField "left")
      else do operandsOfMembers (some (← ofValue v)) right rest
    else if name = "right" then
      if right.isSome then .error (.duplicateField "right")
      else do operandsOfMembers left (some (← ofValue v)) rest
    else operandsOfMembers left right rest

def operandOfItems : List Json.Value → Except Json.Fault Expr
  | [] => .error (tooShort .not 0 "1 element")
  | v :: rest => do
    let operand ← ofValue v
    endOfItems 1 "1 element" rest
    return operand

def operandsOfItems (tag : Tag) : List Json.Value → Except Json.Fault (Expr × Expr)
  | [] => .error (tooShort tag 0 "2 elements")
  | [v] => do
    let _ ← ofValue v
    throw (tooShort tag 1 "2 elements")
  | v :: w :: rest => do
    let left ← ofValue v
    let right ← ofValue w
    endOfItems 2 "2 elements" rest
    return (left, right)

end

/-- Reads the members of an outermost object, and the kind where it stands. -/
def readMembers (room : Nat) (cut? : Option Json.Cut) (tagged : Bool) :
    List (Json.Key × Json.Document) → Except Json.Fault (List (String × Json.Value))
  | [] =>
    match cut? with
    | some cut => .error cut.read
    | none => if tagged then .ok [] else .error (.missingField "type")
  | (key, item) :: rest => do
    let name ← key
    if name = "type" then
      if tagged then throw (.duplicateField name)
      let tag ← Tag.ofDocument item
      return (name, .string tag.text) :: (← readMembers room cut? true rest)
    else
      let v ← item.value room
      return (name, v) :: (← readMembers room cut? tagged rest)

/-- Reads the elements of an outermost list, which begin with the kind. -/
def readItems (room : Nat) (cut? : Option Json.Cut) :
    List Json.Document → Except Json.Fault (List Json.Value)
  | [] =>
    match cut? with
    | some cut => .error cut.read
    | none => .error (.missingField "type")
  | item :: rest => do
    let tag ← Tag.ofDocument item
    return .string tag.text :: (← Json.Document.values room cut? rest)

/-- Reads an expression in full, with `room` levels of containers left to open. -/
def valueOfDocument (room : Nat) : Json.Document → Except Json.Fault Json.Value
  | .object members cut? =>
    match room with
    | 0 => .error .tooDeep
    | room + 1 => Json.Value.object <$> readMembers room cut? false members
  | .list items cut? =>
    match room with
    | 0 => .error .tooDeep
    | room + 1 => Json.Value.list <$> readItems room cut? items
  | other => other.value room

def ofDocument (room : Nat) (doc : Json.Document) : Except Json.Fault Expr := do
  ofValue (← valueOfDocument room doc)

def toValue : Expr → Json.Value
  | signal name => .object [("type", .string Tag.signal.text), ("name", .string name)]
  | and left right =>
    .object [("type", .string Tag.and.text), ("left", left.toValue), ("right", right.toValue)]
  | or left right =>
    .object [("type", .string Tag.or.text), ("left", left.toValue), ("right", right.toValue)]
  | not operand => .object [("type", .string Tag.not.text), ("operand", operand.toValue)]

end Expr

def Expr.ofJson (text : String) : Except Json.Fault Expr :=
  Json.Document.read (Expr.ofDocument Json.nestingLimit) text

def Expr.toJson (e : Expr) : String := e.toValue.text

end LatchSim
