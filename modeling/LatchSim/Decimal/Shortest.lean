/-!
# Shortest decimals

A 64-bit float stands for every real that rounds to it. `Decimal.ofFloat` picks, of the
decimals in that interval, the one on the coarsest power-of-ten grid that is nearest to
the float; `Decimal.text` lays it out.
-/

namespace LatchSim

/-- The number `digits * 10 ^ power`. -/
structure Decimal where
  digits : Nat
  power : Int
  deriving DecidableEq

namespace Decimal

/-- The magnitude `mantissa * 2 ^ exponent`, with the ends of the interval of reals that
round to it in quarters of the last place. The lower neighbour of a power of two is only
half as far away. -/
structure Magnitude where
  mantissa : Nat
  exponent : Int
  below : Nat
  deriving DecidableEq

def Magnitude.ofBits (bits : Nat) : Magnitude :=
  let field : Nat := bits / Nat.pow 2 52 % Nat.pow 2 11
  let low := bits % Nat.pow 2 52
  if field = 0 then ⟨low, -1074, 2⟩
  else ⟨Nat.pow 2 52 + low, (field : Int) - 1075, if low = 0 ∧ 1 < field then 1 else 2⟩

/-- The ends of the interval round to an even mantissa and away from an odd one. -/
def Magnitude.closed (x : Magnitude) : Bool := x.mantissa % 2 == 0

/-- The point of the grid `10 ^ power` nearest to the magnitude, if one lies in its
interval. Of two equally near points the even one is taken. -/
def Magnitude.nearest? (x : Magnitude) (power : Int) : Option Nat :=
  let scale := x.exponent - 2
  let up := Nat.pow 2 scale.toNat * Nat.pow 10 (-power).toNat
  let unit := Nat.pow 2 (-scale).toNat * Nat.pow 10 power.toNat
  let exact := 4 * x.mantissa * up
  let low := (4 * x.mantissa - x.below) * up
  let high := (4 * x.mantissa + 2) * up
  let inside (point : Nat) : Bool :=
    if x.closed then low ≤ point * unit && point * unit ≤ high
    else low < point * unit && point * unit < high
  let floor := exact / unit
  let twice := 2 * (exact % unit)
  match inside floor, inside (floor + 1) with
  | false, false => none
  | true, false => some floor
  | false, true => some (floor + 1)
  | true, true =>
    if twice < unit ∨ twice = unit ∧ floor % 2 = 0 then some floor else some (floor + 1)

/-- Tries the grids `10 ^ (count - 343)` downward; the last is finer than the interval of
every magnitude. -/
def Magnitude.shortest (x : Magnitude) : Nat → Decimal
  | 0 => ⟨0, 0⟩
  | count + 1 =>
    let power := (count : Int) - 343
    match x.nearest? power with
    | some digits => ⟨digits, power⟩
    | none => x.shortest count

/-- The shortest decimal of a positive float's magnitude. -/
def ofFloat (x : Float) : Decimal := (Magnitude.ofBits x.toBits.toNat).shortest 653

/-- Positional while the point falls within five places before and sixteen places after
the first digit, with at least one place behind it; otherwise one digit, the others
behind a point, and the power of ten with its sign and without padding. -/
def text (d : Decimal) : String :=
  let digits := Nat.toDigits 10 d.digits
  let point := digits.length + d.power
  let zeros (count : Int) := List.replicate count.toNat '0'
  if 0 ≤ d.power ∧ point ≤ 16 then String.ofList (digits ++ zeros d.power ++ ['.', '0'])
  else if 0 < point ∧ point ≤ 16 then
    String.ofList (digits.take point.toNat ++ '.' :: digits.drop point.toNat)
  else if -5 < point ∧ point ≤ 0 then
    String.ofList ('0' :: '.' :: zeros (-point) ++ digits)
  else
    let behind := if digits.length = 1 then [] else '.' :: digits.drop 1
    let mark := if 0 < point then "e+" else "e"
    String.ofList (digits.take 1 ++ behind) ++ mark ++ toString (point - 1)

end Decimal

/-- The shortest text of a finite float; zero keeps its sign. -/
def Decimal.textOfFloat (x : Float) : String :=
  let sign := if x.toBits.toNat < Nat.pow 2 63 then "" else "-"
  if x == 0.0 then sign ++ "0.0" else sign ++ (Decimal.ofFloat x).text

end LatchSim
