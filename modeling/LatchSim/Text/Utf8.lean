/-!
# UTF-8

Reads bytes as text, one byte at a time. Where that fails, the fault tells how many bytes
before it were text, and how many of those behind could have begun a character.
-/

namespace LatchSim.Text.Utf8

inductive Fault where
  /-- The longest beginning of a character at `index` has `length` bytes and goes on with
  a byte that it cannot go on with. -/
  | invalid (index length : Nat)
  /-- The bytes end within the character at `index`. -/
  | incomplete (index : Nat)
  deriving DecidableEq

def Fault.message : Fault → String
  | invalid index length =>
    "invalid utf-8 sequence of " ++ toString length ++ " bytes from index " ++ toString index
  | incomplete index => "incomplete utf-8 byte sequence from index " ++ toString index

/-- A character part way through: the bytes still due, the bounds of the next of them, and
the code point so far. -/
structure Partial where
  due : Nat
  low : Nat
  high : Nat
  value : Nat
  deriving DecidableEq

/-- What a first byte begins. The second byte is bounded so that the shortest form is used,
surrogates are left out, and no code point passes `0x10FFFF`. -/
def Partial.ofLead? (byte : Nat) : Option Partial :=
  if byte < 0xC2 then none
  else if byte < 0xE0 then some ⟨1, 0x80, 0xBF, byte - 0xC0⟩
  else if byte < 0xF0 then
    some ⟨2, if byte = 0xE0 then 0xA0 else 0x80, if byte = 0xED then 0x9F else 0xBF, byte - 0xE0⟩
  else if byte < 0xF5 then
    some ⟨3, if byte = 0xF0 then 0x90 else 0x80, if byte = 0xF4 then 0x8F else 0xBF, byte - 0xF0⟩
  else none

inductive State where
  | between
  | within (read : Nat) (rest : Partial)
  | failed (fault : Fault)
  deriving DecidableEq

/-- The characters read, last first, and the index of the one that is being read. -/
structure Decoder where
  done : List Char
  index : Nat
  state : State
  deriving DecidableEq

namespace Decoder

def start : Decoder := ⟨[], 0, .between⟩

def feed (d : Decoder) (byte : UInt8) : Decoder :=
  match d.state with
  | .failed _ => d
  | .between =>
    if byte < 0x80 then ⟨Char.ofNat byte.toNat :: d.done, d.index + 1, .between⟩
    else
      match Partial.ofLead? byte.toNat with
      | some rest => { d with state := .within 1 rest }
      | none => { d with state := .failed (.invalid d.index 1) }
  | .within read rest =>
    if rest.low ≤ byte.toNat ∧ byte.toNat ≤ rest.high then
      let value := rest.value * 64 + byte.toNat % 64
      if rest.due ≤ 1 then ⟨Char.ofNat value :: d.done, d.index + read + 1, .between⟩
      else { d with state := .within (read + 1) ⟨rest.due - 1, 0x80, 0xBF, value⟩ }
    else { d with state := .failed (.invalid d.index read) }

def result (d : Decoder) : Except Fault String :=
  match d.state with
  | .between => .ok (String.ofList d.done.reverse)
  | .within _ _ => .error (.incomplete d.index)
  | .failed fault => .error fault

end Decoder

def decode (bytes : List UInt8) : Except Fault String :=
  (bytes.foldl Decoder.feed Decoder.start).result

end LatchSim.Text.Utf8
