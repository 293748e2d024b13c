import MethodLines.Json

/-! Numbers that are no integers of the machine's size, as binary floating point,
and the shortest decimal that stands for such a number. -/
namespace MethodLines.Json

namespace Number

/-- Digits gathered in 64 bits, and the power of ten they are to be multiplied by. -/
structure Gathered where
  significand : Nat
  exponent : Int

def Gathered.fits (g : Gathered) (digit : Nat) : Bool :=
  g.significand * 10 + digit < Nat.pow 2 64

/-- Gathers digits before the point. From the first that does not fit on, each
only counts as a power of ten. -/
def gatherWhole : Gathered → List Nat → Gathered
  | g, [] => g
  | g, digit :: rest =>
    if g.fits digit then gatherWhole ⟨g.significand * 10 + digit, g.exponent⟩ rest
    else ⟨g.significand, g.exponent + (rest.length + 1)⟩

/-- Gathers digits behind the point, up to the first that does not fit. -/
def gatherFraction : Gathered → List Nat → Gathered
  | g, [] => g
  | g, digit :: rest =>
    if g.fits digit then gatherFraction ⟨g.significand * 10 + digit, g.exponent - 1⟩ rest
    else g

/-- Multiplies by a power of ten, in steps that the exponent range allows. An
infinite product has no value. -/
def scale : Nat → Float → Int → Option Float
  | 0, f, _ => some f
  | steps + 1, f, exponent =>
    if exponent.natAbs ≤ 308 then
      let power := Float.ofScientific 1 false exponent.natAbs
      if 0 ≤ exponent then
        let product := f * power
        if product.isInf then none else some product
      else some (f / power)
    else if f == 0 then some f
    else if 0 ≤ exponent then none
    else scale steps (f / 1e308) (exponent + 308)

/-- The number in floating point, unless it is too large. -/
def approximation? (n : Number) : Option Float :=
  let digits := (Text.decimal n.whole).map fun c => c.toNat - '0'.toNat
  let g := gatherFraction (gatherWhole ⟨0, 0⟩ digits) (n.fraction.map (·.val))
  let exponent := n.exponent.getD 0
  let magnitude :=
    if exponent.natAbs < Nat.pow 2 31 then
      scale 8 g.significand.toUInt64.toFloat (g.exponent + exponent)
    else if 0 ≤ exponent ∧ g.significand ≠ 0 then none
    else some 0
  magnitude.map fun f => if n.negative then -f else f

/-- The integer, if the number is written as one and has at most 64 bits. Minus
zero is no integer. -/
def integer? (n : Number) : Option Int :=
  if n.fraction.isEmpty ∧ n.exponent.isNone then
    if n.negative then
      if 0 < n.whole ∧ n.whole ≤ Nat.pow 2 63 then some (-(n.whole : Int)) else none
    else if n.whole < Nat.pow 2 64 then some n.whole else none
  else none

end Number

namespace Approximation

/-- A positive fraction of natural numbers. -/
structure Ratio where
  num : Nat
  den : Nat

def Ratio.le (a b : Ratio) : Bool := a.num * b.den ≤ b.num * a.den

def Ratio.lt (a b : Ratio) : Bool := a.num * b.den < b.num * a.den

/-- A natural number times a power of the base. -/
def Ratio.scaled (base n : Nat) (exponent : Int) : Ratio :=
  let power := Nat.pow base exponent.natAbs
  if 0 ≤ exponent then ⟨n * power, 1⟩ else ⟨n, power⟩

/-- The numbers that are rounded to one floating-point number: its neighbours
half way, which count if its significand is even. -/
structure Cell where
  low : Ratio
  value : Ratio
  high : Ratio
  closed : Bool

def Cell.has (cell : Cell) (r : Ratio) : Bool :=
  if cell.closed then cell.low.le r && r.le cell.high else cell.low.lt r && r.lt cell.high

/-- The cell of a positive finite number. The gap below a power of two is half as
wide as the one above it. -/
def Cell.ofFloat (f : Float) : Cell :=
  let bits := f.toBits.toNat
  let biased := bits / Nat.pow 2 52 % Nat.pow 2 11
  let low := bits % Nat.pow 2 52
  let significand := if biased = 0 then low else low + Nat.pow 2 52
  let exponent : Int := (if biased = 0 then 1 else biased : Nat) - 1075 - 2
  let below := if low = 0 ∧ 1 < biased then 1 else 2
  { low := .scaled 2 (4 * significand - below) exponent
    value := .scaled 2 (4 * significand) exponent
    high := .scaled 2 (4 * significand + 2) exponent
    closed := significand % 2 = 0 }

/-- How often a fraction below one tenth can be multiplied by ten and stay below
one tenth. -/
def leadingZeros (den : Nat) : Nat → Nat → Nat
  | 0, _ => 0
  | fuel + 1, num => if den ≤ num * 10 then 0 else leadingZeros den fuel (num * 10) + 1

/-- The number of digits before the point, or less than one for the zeros that
follow it at once. No floating-point number has more than 400 of those. -/
def magnitude (r : Ratio) : Int :=
  if r.den ≤ r.num then (Text.decimal (r.num / r.den)).length
  else -(leadingZeros r.den 400 r.num : Int)

/-- A decimal with `digits` digits in the cell, if there is one, as its digits and
their power of ten. Of two the nearer is taken, and of two that are equally near the
even one. -/
def decimalIn? (cell : Cell) (digits : Nat) : Option (Nat × Int) :=
  let exponent := magnitude cell.value - digits
  let unit := Ratio.scaled 10 1 exponent
  let below := cell.value.num * unit.den / (cell.value.den * unit.num)
  let place (n : Nat) : Ratio := ⟨n * unit.num, unit.den⟩
  let middle : Ratio := ⟨(2 * below + 1) * unit.num, 2 * unit.den⟩
  let isNearer := if below % 2 = 0 then cell.value.le middle else cell.value.lt middle
  match cell.has (place below), cell.has (place (below + 1)) with
  | true, true => some (if isNearer then below else below + 1, exponent)
  | true, false => some (below, exponent)
  | false, true => some (below + 1, exponent)
  | false, false => none

/-- The fewest digits that stand for the number, with their power of ten. -/
def shortest (f : Float) : Nat × Int :=
  ((List.range 18).findSome? fun n => decimalIn? (Cell.ofFloat f) (n + 1)).getD (0, 0)

/-- Positional notation is kept to numbers from a hundred-thousandth up to 16
digits before the point; an exponent always has a sign. -/
def renderPositive (f : Float) : Text :=
  let (digits, exponent) := shortest f
  let digits := Text.decimal digits
  let point : Int := digits.length + exponent
  let digits := (digits.reverse.dropWhile (· = '0')).reverse
  let length : Int := digits.length
  if length ≤ point ∧ point ≤ 16 then
    digits ++ List.replicate (point - length).toNat '0' ++ ".0"
  else if 0 < point ∧ point ≤ 16 then
    digits.take point.toNat ++ "." ++ digits.drop point.toNat
  else if -5 < point ∧ point ≤ 0 then
    "0." ++ List.replicate (-point).toNat '0' ++ digits
  else
    let exponent := point - 1
    digits.take 1 ++ (if 1 < length then "." ++ digits.drop 1 else "" : Text) ++
      (if exponent < 0 then "e-" else "e+" : Text) ++ Text.decimal exponent.natAbs

def render (f : Float) : Text :=
  let sign : Text := if f.toBits.toNat < Nat.pow 2 63 then "" else "-"
  sign ++ (if f == 0 then ("0.0" : Text) else renderPositive f.abs)

end Approximation
end MethodLines.Json
