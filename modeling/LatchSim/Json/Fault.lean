import LatchSim.Json.Number
import LatchSim.Text.Quoted

/-!
# What can be wrong with a JSON text

A text is refused for its syntax, or for a value that is not what its place asks for.
Each cause is a constructor of `Fault`, and `Fault.message` words it.
-/

namespace LatchSim.Json

/-- A value as far as a message shows it: scalars in full, containers by their kind. -/
inductive Shape where
  | null
  | bool (value : Bool)
  | number (literal : Number)
  | string (text : String)
  | list
  | object
  deriving DecidableEq

def Shape.text : Shape → String
  | null => "null"
  | bool value => "boolean `" ++ toString value ++ "`"
  | number literal =>
    match literal.reading with
    | .integer value => "integer `" ++ toString value ++ "`"
    | .real value => "floating point `" ++ Decimal.textOfFloat value ++ "`"
    | .tooLarge => "number"
  | string text => "string " ++ Text.quoted text
  | list => "sequence"
  | object => "map"

inductive Fault where
  | valueEnds
  | listEnds
  | objectEnds
  | stringEnds
  | noValue
  | noLiteral
  | noColon
  | noListSeparator
  | noObjectSeparator
  | keyNotString
  | trailingComma
  | trailingCharacters
  | badNumber
  | numberTooLarge
  | badEscape
  | loneSurrogate
  | unpairedSurrogate
  | controlCharacter
  | tooDeep
  /-- A value of another shape than the place asks for. -/
  | mistyped (found : Shape) (expected : String)
  | unknownVariant (name : String) (variants : List String)
  | unknownVariantIndex (index : Int) (count : Nat)
  | missingField (name : String)
  | duplicateField (name : String)
  | wrongLength (length : Nat) (expected : String)
  deriving DecidableEq

namespace Fault

/-- The cause in words. -/
def reason : Fault → String
  | valueEnds => "EOF while parsing a value"
  | listEnds => "EOF while parsing a list"
  | objectEnds => "EOF while parsing an object"
  | stringEnds => "EOF while parsing a string"
  | noValue => "expected value"
  | noLiteral => "expected ident"
  | noColon => "expected `:`"
  | noListSeparator => "expected `,` or `]`"
  | noObjectSeparator => "expected `,` or `\x7d`"
  | keyNotString => "key must be a string"
  | trailingComma => "trailing comma"
  | trailingCharacters => "trailing characters"
  | badNumber => "invalid number"
  | numberTooLarge => "number out of range"
  | badEscape => "invalid escape"
  | loneSurrogate => "lone leading surrogate in hex escape"
  | unpairedSurrogate => "unexpected end of hex escape"
  | controlCharacter => "control character (\\u0000-\\u001F) found while parsing a string"
  | tooDeep => "recursion limit exceeded"
  | mistyped found expected => "invalid type: " ++ found.text ++ ", expected " ++ expected
  | unknownVariant name variants =>
    "unknown variant `" ++ name ++ "`, expected one of " ++
      ", ".intercalate (variants.map fun variant => "`" ++ variant ++ "`")
  | unknownVariantIndex index count =>
    "invalid value: integer `" ++ toString index ++ "`, expected variant index 0 <= i < " ++
      toString count
  | missingField name => "missing field `" ++ name ++ "`"
  | duplicateField name => "duplicate field `" ++ name ++ "`"
  | wrongLength length expected =>
    "invalid length " ++ toString length ++ ", expected " ++ expected

/-- The cause as a complete message. -/
def message (fault : Fault) : String := "Failed to parse circuit JSON: " ++ fault.reason

end Fault
end LatchSim.Json
