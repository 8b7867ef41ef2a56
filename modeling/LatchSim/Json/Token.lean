import LatchSim.Json.StringLiteral

/-!
# Tokens

`Token.scan` cuts a text into tokens and drops the blanks between them. It reads the text
once, one character at a time, so `Lexer.feedAll_append` splits a scan at any place. A
piece of text that cannot become a token ends the scan.
-/

namespace LatchSim.Json

inductive Token where
  | openObject
  | closeObject
  | openList
  | closeList
  | comma
  | colon
  | null
  | bool (value : Bool)
  | number (literal : Number)
  | string (pieces : List Piece)
  /-- The start of something else, or of a token that is not completed; `read` is its fault
  where a value is read and `skim` where a value is skipped. -/
  | broken (quoted : Bool) (read skim : Fault)
  deriving DecidableEq

namespace Token

def text : Token → List Char
  | openObject => ['{']
  | closeObject => ['}']
  | openList => ['[']
  | closeList => [']']
  | comma => [',']
  | colon => [':']
  | null => ['n', 'u', 'l', 'l']
  | bool true => ['t', 'r', 'u', 'e']
  | bool false => ['f', 'a', 'l', 's', 'e']
  | number literal => literal.text
  | string pieces => '"' :: pieces.flatMap Piece.text ++ ['"']
  | broken _ _ _ => []

/-- A string literal as it ended. Unless it was closed, its first fault may lie in what
stands before the end; skipping looks at the end only. -/
def ofString (pieces : List Piece) (ending : Ending) : Token :=
  match ending.fault?, resolve ending pieces with
  | none, _ => string pieces
  | some fault, .ok _ => broken true fault fault
  | some fault, .error first => broken true first fault

end Token

/-- Space, tab, line feed and carriage return. -/
def isBlank (c : Char) : Bool := c == ' ' || c == '\t' || c == '\n' || c == '\r'

inductive Lexer.State where
  | between
  /-- Within `null`, `true` or `false`: the letter that is due, and those behind it. -/
  | word (next : Char) (rest : List Char) (token : Token)
  | number (scan : Number.Scan)
  | quoted (scan : StringLiteral.Scan)
  | stopped
  deriving DecidableEq

/-- The tokens read so far, last first, and the one being read. -/
structure Lexer where
  done : List Token
  state : Lexer.State
  deriving DecidableEq

namespace Lexer

def start : Lexer := ⟨[], .between⟩

def emit (lexer : Lexer) (token : Token) : Lexer := ⟨token :: lexer.done, .between⟩

def fail (lexer : Lexer) (fault : Fault) : Lexer :=
  ⟨.broken false fault fault :: lexer.done, .stopped⟩

/-- Reads the first character of a token, or a blank. -/
def startToken (lexer : Lexer) (c : Char) : Lexer :=
  if isBlank c then { lexer with state := .between }
  else if c = '{' then lexer.emit .openObject
  else if c = '}' then lexer.emit .closeObject
  else if c = '[' then lexer.emit .openList
  else if c = ']' then lexer.emit .closeList
  else if c = ',' then lexer.emit .comma
  else if c = ':' then lexer.emit .colon
  else if c = '"' then { lexer with state := .quoted .start }
  else if c = 'n' then { lexer with state := .word 'u' ['l', 'l'] .null }
  else if c = 't' then { lexer with state := .word 'r' ['u', 'e'] (.bool true) }
  else if c = 'f' then { lexer with state := .word 'a' ['l', 's', 'e'] (.bool false) }
  else
    match Number.Scan.start? c with
    | some scan => { lexer with state := .number scan }
    | none => lexer.fail .noValue

def feed (lexer : Lexer) (c : Char) : Lexer :=
  match lexer.state with
  | .between => lexer.startToken c
  | .word next rest token =>
    if c ≠ next then lexer.fail .noLiteral
    else
      match rest with
      | [] => lexer.emit token
      | next :: rest => { lexer with state := .word next rest token }
  | .number scan =>
    match scan.feed? c, scan.number? with
    | some scan, _ => { lexer with state := .number scan }
    | none, none => lexer.fail .badNumber
    | none, some literal =>
      if (Digit.ofChar? c).isSome then lexer.fail .badNumber
      else (lexer.emit (.number literal)).startToken c
  | .quoted scan =>
    match scan.feed c with
    | .more scan => { lexer with state := .quoted scan }
    | .ends pieces .closed => lexer.emit (.string pieces)
    | .ends pieces ending => ⟨.ofString pieces ending :: lexer.done, .stopped⟩
  | .stopped => lexer

def feedAll (lexer : Lexer) (text : List Char) : Lexer := text.foldl feed lexer

/-- The tokens of a text that ends here. -/
def tokens (lexer : Lexer) : List Token :=
  match lexer.state with
  | .between | .stopped => lexer.done.reverse
  | .word _ _ _ => (Token.broken false .valueEnds .valueEnds :: lexer.done).reverse
  | .number scan =>
    match scan.number? with
    | some literal => (.number literal :: lexer.done).reverse
    | none => (.broken false .valueEnds .badNumber :: lexer.done).reverse
  | .quoted scan => (Token.ofString scan.done.reverse .textEnds :: lexer.done).reverse

theorem feedAll_append (lexer : Lexer) (left right : List Char) :
    lexer.feedAll (left ++ right) = (lexer.feedAll left).feedAll right :=
  List.foldl_append

end Lexer

def Token.scan (text : List Char) : List Token := (Lexer.start.feedAll text).tokens

end LatchSim.Json
