import LatchSim.Json.Token

/-!
# JSON values

`Value.text` writes a value on one line without blanks. Members keep their order, and a
name may occur in several members.
-/

namespace LatchSim.Json

inductive Value where
  | null
  | bool (value : Bool)
  | number (literal : Number)
  | string (text : String)
  | list (items : List Value)
  | object (members : List (String × Value))

namespace Value

def nat (n : Nat) : Value := number (.ofNat n)

def shape : Value → Shape
  | null => .null
  | bool value => .bool value
  | number literal => .number literal
  | string text => .string text
  | list _ => .list
  | object _ => .object

def mistyped (v : Value) (expected : String) : Fault := .mistyped v.shape expected

mutual

/-- The containers open at the deepest place of a value, the value itself included. -/
def depth : Value → Nat
  | list items => depthOfItems items + 1
  | object members => depthOfMembers members + 1
  | _ => 0

def depthOfItems : List Value → Nat
  | [] => 0
  | v :: rest => max v.depth (depthOfItems rest)

def depthOfMembers : List (String × Value) → Nat
  | [] => 0
  | (_, v) :: rest => max v.depth (depthOfMembers rest)

end

mutual

/-- The tokens of a value, in front of those that follow it. -/
def tokensBefore (tail : List Token) : Value → List Token
  | null => .null :: tail
  | bool value => .bool value :: tail
  | number literal => .number literal :: tail
  | string text => .string (pieces text) :: tail
  | list items => .openList :: itemTokensBefore (.closeList :: tail) items
  | object members => .openObject :: memberTokensBefore (.closeObject :: tail) members

def itemTokensBefore (tail : List Token) : List Value → List Token
  | [] => tail
  | [v] => v.tokensBefore tail
  | v :: rest => v.tokensBefore (.comma :: itemTokensBefore tail rest)

def memberTokensBefore (tail : List Token) : List (String × Value) → List Token
  | [] => tail
  | [(name, v)] => .string (pieces name) :: .colon :: v.tokensBefore tail
  | (name, v) :: rest =>
    .string (pieces name) :: .colon ::
      v.tokensBefore (.comma :: memberTokensBefore tail rest)

end

def tokens (v : Value) : List Token := v.tokensBefore []

def text (v : Value) : String := String.ofList (v.tokens.flatMap Token.text)

end Value
end LatchSim.Json
