import LatchSim.Decimal.Shortest

/-!
# Number literals

A literal keeps its digits; `Number.reading` says what it stands for. A literal without
fraction and power is an integer while it fits 64 bits, unsigned or, below zero, signed.
All others are 64-bit floats.
-/

namespace LatchSim.Json

abbrev Digit := Fin 10

def Digit.ofChar? (c : Char) : Option Digit :=
  if '0' ≤ c ∧ c ≤ '9' then some (Fin.ofNat 10 (c.toNat - '0'.toNat)) else none

def Digit.char (d : Digit) : Char := Nat.digitChar d

/-- A literal. An empty fraction has no point. -/
structure Number where
  negative : Bool
  whole : List Digit
  fraction : List Digit
  power : Option Int
  deriving DecidableEq

inductive Reading where
  | integer (value : Int)
  | real (value : Float)
  | tooLarge

namespace Number

def ofNat (n : Nat) : Number :=
  ⟨false, (Nat.toDigits 10 n).filterMap Digit.ofChar?, [], none⟩

def text (n : Number) : List Char :=
  (if n.negative then ['-'] else []) ++ n.whole.map Digit.char ++
  (if n.fraction.isEmpty then [] else '.' :: n.fraction.map Digit.char) ++
  match n.power with
  | none => []
  | some power => 'e' :: (toString power).toList

/-- Appends digits while the value stays below `2 ^ 64`; the digits left over come second. -/
def extend (value : Nat) : List Digit → Nat × List Digit
  | [] => (value, [])
  | d :: rest =>
    if value * 10 + d < Nat.pow 2 64 then extend (value * 10 + d) rest else (value, d :: rest)

/-- `x * 10 ^ power`, one rounding a step and powers beyond `308` in several steps.
No result is too large unless the power is positive. -/
def scale? (x : Float) (power : Int) : Option Float :=
  if power.natAbs ≤ 308 then
    let unit := Float.ofScientific 1 false power.natAbs
    if 0 ≤ power then
      if (x * unit).isInf then none else some (x * unit)
    else some (x / unit)
  else if x == 0.0 then some x
  else if 0 ≤ power then none
  else scale? (x / Float.ofScientific 1 false 308) (power + 308)
termination_by power.natAbs
decreasing_by omega

/-- The float of a literal. Whole digits past 64 bits only count as places, and fraction
digits past 64 bits are dropped. -/
def float? (n : Number) : Option Float :=
  let (value, places) := extend 0 n.whole
  let (value, dropped) := extend value n.fraction
  let used := n.fraction.length - dropped.length
  let power := places.length - used + n.power.getD 0
  (scale? value.toUInt64.toFloat power).map fun x => if n.negative then -x else x

/-- The integer of a literal that has one. Negative zero is a float. -/
def integer? (n : Number) : Option Int :=
  match n.fraction, n.power, extend 0 n.whole with
  | [], none, (value, []) =>
    if ! n.negative then some value
    else if 1 ≤ value ∧ value ≤ Nat.pow 2 63 then some (-value)
    else none
  | _, _, _ => none

def reading (n : Number) : Reading :=
  match n.integer? with
  | some value => .integer value
  | none =>
    match n.float? with
    | some value => .real value
    | none => .tooLarge

/-- A literal part way through being read; digits stand last first. -/
inductive Scan where
  | sign
  | zero (negative : Bool)
  | whole (negative : Bool) (digits : List Digit)
  | point (negative : Bool) (before : List Digit)
  | fraction (negative : Bool) (before digits : List Digit)
  | mark (mantissa : Number)
  | markSign (mantissa : Number) (negative : Bool)
  | power (mantissa : Number) (negative : Bool) (value : Nat)
  deriving DecidableEq

namespace Scan

/-- A literal begins with a minus sign or a digit. -/
def start? (c : Char) : Option Scan :=
  if c = '-' then some sign
  else if c = '0' then some (zero false)
  else (Digit.ofChar? c).map fun d => whole false [d]

/-- The literal read so far, where it may end. -/
def number? : Scan → Option Number
  | zero negative => some ⟨negative, [0], [], none⟩
  | whole negative digits => some ⟨negative, digits.reverse, [], none⟩
  | fraction negative before digits => some ⟨negative, before, digits.reverse, none⟩
  | power mantissa negative value =>
    some { mantissa with power := some (if negative then -value else value) }
  | _ => none

/-- Reads a point or a power mark behind complete digits. -/
def feedMark (scan : Scan) (c : Char) : Option Scan :=
  match scan.number? with
  | none => none
  | some n =>
    if c = 'e' ∨ c = 'E' then some (mark n)
    else if c = '.' ∧ n.fraction = [] then some (point n.negative n.whole)
    else none

/-- The literal with one more character, if the character belongs to it. -/
def feed? (scan : Scan) (c : Char) : Option Scan :=
  match scan, Digit.ofChar? c with
  | sign, some d => some (if d = 0 then zero true else whole true [d])
  | sign, none => none
  | zero _, some _ => none
  | zero _, none => scan.feedMark c
  | whole negative digits, some d => some (whole negative (d :: digits))
  | whole _ _, none => scan.feedMark c
  | point negative before, some d => some (fraction negative before [d])
  | point _ _, none => none
  | fraction negative before digits, some d => some (fraction negative before (d :: digits))
  | fraction _ _ _, none => scan.feedMark c
  | mark mantissa, some d => some (power mantissa false d)
  | mark mantissa, none =>
    if c = '+' then some (markSign mantissa false)
    else if c = '-' then some (markSign mantissa true)
    else none
  | markSign mantissa negative, some d => some (power mantissa negative d)
  | markSign _ _, none => none
  | power mantissa negative value, some d => some (power mantissa negative (value * 10 + d))
  | power _ _ _, none => none

end Scan
end Number
end LatchSim.Json
