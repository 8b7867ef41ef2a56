import LatchSim.Json.Fault

/-!
# String literals

The inside of a literal is a list of pieces, one for each character or escape. Pieces are
written by `Piece.text`, chosen for a text by `pieces`, and read back by `resolve`, which
joins surrogate pairs. `StringLiteral.Scan` reads a literal one character at a time.
-/

namespace LatchSim.Json

/-- Part of a literal: a character as it stands, one behind a backslash, or a code unit of
sixteen bits in hexadecimal. -/
inductive Piece where
  | plain (c : Char)
  | escaped (c : Char)
  | unit (value : Nat)
  deriving DecidableEq

/-- The character that a letter stands for behind a backslash. -/
def escape? (letter : Char) : Option Char :=
  if letter = 'b' then some '\x08'
  else if letter = 'f' then some '\x0c'
  else if letter = 'n' then some '\n'
  else if letter = 'r' then some '\r'
  else if letter = 't' then some '\t'
  else if letter = '"' ∨ letter = '\\' ∨ letter = '/' then some letter
  else none

def escapeLetter (c : Char) : Char :=
  if c = '\x08' then 'b'
  else if c = '\x0c' then 'f'
  else if c = '\n' then 'n'
  else if c = '\r' then 'r'
  else if c = '\t' then 't'
  else c

/-- Sixteen bits as four lower-case hexadecimal digits. -/
def hexUnit (value : Nat) : List Char :=
  [value / 4096 % 16, value / 256 % 16, value / 16 % 16, value % 16].map Nat.digitChar

def hexDigit? (c : Char) : Option Nat :=
  if '0' ≤ c ∧ c ≤ '9' then some (c.toNat - '0'.toNat)
  else if 'a' ≤ c ∧ c ≤ 'f' then some (c.toNat - 'a'.toNat + 10)
  else if 'A' ≤ c ∧ c ≤ 'F' then some (c.toNat - 'A'.toNat + 10)
  else none

def Piece.text : Piece → List Char
  | plain c => [c]
  | escaped c => ['\\', escapeLetter c]
  | unit value => '\\' :: 'u' :: hexUnit value

/-- The piece that writes a character: quotes, backslashes and the controls that have a
letter are escaped, other controls written as code units. -/
def pieceOf (c : Char) : Piece :=
  if c = '"' ∨ c = '\\' ∨ escapeLetter c ≠ c then .escaped c
  else if c.toNat < 0x20 then .unit c.toNat
  else .plain c

def pieces (s : String) : List Piece := s.toList.map pieceOf

/-- What stands behind the pieces of a literal. -/
inductive Ending where
  | closed
  | textEnds
  | control
  | badEscape
  | badUnit
  deriving DecidableEq

def Ending.fault? : Ending → Option Fault
  | closed => none
  | textEnds => some .stringEnds
  | control => some .controlCharacter
  | badEscape | badUnit => some .badEscape

/-- The fault where the second half of a surrogate pair was due. -/
def Ending.faultInPair : Ending → Fault
  | textEnds => .stringEnds
  | badUnit => .badEscape
  | closed | control | badEscape => .unpairedSurrogate

def isLead (unit : Nat) : Bool := 0xD800 ≤ unit && unit ≤ 0xDBFF

def isTrail (unit : Nat) : Bool := 0xDC00 ≤ unit && unit ≤ 0xDFFF

/-- The text of a literal, or the first fault in it. Surrogates must come in pairs. -/
def resolve (ending : Ending) : List Piece → Except Fault (List Char)
  | [] =>
    match ending.fault? with
    | none => .ok []
    | some fault => .error fault
  | .plain c :: rest | .escaped c :: rest => (c :: ·) <$> resolve ending rest
  | .unit lead :: .unit trail :: rest =>
    if isTrail lead then .error .loneSurrogate
    else if isLead lead then
      if isTrail trail then
        (Char.ofNat (0x10000 + (lead - 0xD800) * 0x400 + (trail - 0xDC00)) :: ·) <$>
          resolve ending rest
      else .error .loneSurrogate
    else (Char.ofNat lead :: ·) <$> resolve ending (.unit trail :: rest)
  | .unit unit :: rest =>
    if isTrail unit then .error .loneSurrogate
    else if isLead unit then
      .error (match rest with
        | [] => ending.faultInPair
        | _ => .unpairedSurrogate)
    else (Char.ofNat unit :: ·) <$> resolve ending rest

theorem resolve_pieceOf (c : Char) (rest : List Piece) :
    resolve .closed (pieceOf c :: rest) = (c :: ·) <$> resolve .closed rest := by
  unfold pieceOf
  split
  · rfl
  · split
    next low =>
      have trail : isTrail c.toNat = false := by simp [isTrail]; omega
      have lead : isLead c.toNat = false := by simp [isLead]; omega
      cases rest with
      | nil => simp [resolve, trail, lead]
      | cons piece rest => cases piece <;> simp [resolve, trail, lead]
    · rfl

/-- The pieces that write a text are read back as that text. -/
theorem resolve_pieces (s : String) : resolve .closed (pieces s) = .ok s.toList := by
  unfold pieces
  induction s.toList with
  | nil => rfl
  | cons c rest ih => rw [List.map_cons, resolve_pieceOf, ih]; rfl

/-- Where the reading of a literal stands within an escape. -/
inductive Escape where
  | none
  | slash
  /-- The hexadecimal digits of a code unit: their value, the bytes seen of the four that
  are taken together, and whether all were digits. -/
  | unit (value bytes : Nat) (valid : Bool)
  deriving DecidableEq

/-- A literal part way through being read; pieces stand last first. -/
structure StringLiteral.Scan where
  done : List Piece
  escape : Escape
  deriving DecidableEq

inductive StringLiteral.Next where
  | more (scan : StringLiteral.Scan)
  | ends (pieces : List Piece) (ending : Ending)

namespace StringLiteral.Scan

def start : Scan := ⟨[], .none⟩

def feed (scan : Scan) (c : Char) : Next :=
  match scan.escape with
  | .none =>
    if c = '"' then .ends scan.done.reverse .closed
    else if c = '\\' then .more ⟨scan.done, .slash⟩
    else if c.toNat < 0x20 then .ends scan.done.reverse .control
    else .more ⟨.plain c :: scan.done, .none⟩
  | .slash =>
    if c = 'u' then .more ⟨scan.done, .unit 0 0 true⟩
    else
      match escape? c with
      | some c => .more ⟨.escaped c :: scan.done, .none⟩
      | none => .ends scan.done.reverse .badEscape
  | .unit value bytes valid =>
    let bytes := bytes + c.utf8Size
    let (value, valid) :=
      match hexDigit? c with
      | some digit => (value * 16 + digit, valid)
      | none => (value, false)
    if bytes < 4 then .more ⟨scan.done, .unit value bytes valid⟩
    else if valid then .more ⟨.unit value :: scan.done, .none⟩
    else .ends scan.done.reverse .badUnit

end StringLiteral.Scan
end LatchSim.Json
