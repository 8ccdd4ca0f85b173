import VhdlDesign.Number.Double

/-!
The shortest decimal text of a binary64 number: the fewest digits that read back as the same
number, of those the nearest to it.
-/
namespace VhdlDesign

/-- A decimal `0.d₁d₂… * 10 ^ exponent`. -/
structure Digits where
  digits : List Nat
  exponent : Int
  deriving DecidableEq

namespace Double

/-- The reals that are read as a number: a lower bound, the number and an upper bound, over one
denominator. The bounds belong to the interval iff the significand is even. -/
structure Interval where
  low : Nat
  value : Nat
  high : Nat
  den : Nat
  closed : Bool

/-- The bounds lie half-way to the neighbours. Below a power of two the neighbour is nearer. -/
def interval (x : Double) : Interval :=
  let below := if x.fractionBits = 0 ∧ x.exponentBits > 1 then 1 else 2
  let scale := twoTo x.power
  { low := (4 * x.significand - below) * scale
    value := 4 * x.significand * scale
    high := (4 * x.significand + 2) * scale
    den := 4 * twoTo 1074
    closed := x.significand % 2 == 0 }

def Interval.holds (i : Interval) (n d : Nat) : Bool :=
  if i.closed then i.low * d ≤ n * i.den ∧ n * i.den ≤ i.high * d
  else i.low * d < n * i.den ∧ n * i.den < i.high * d

def upwardExponent (n d : Nat) : (room : Nat) → Nat
  | 0 => 0
  | room + 1 => if n < d then 0 else upwardExponent n (d * 10) room + 1

def leadingZeros (n d : Nat) : (room : Nat) → Nat
  | 0 => 0
  | room + 1 => if n * 10 < d then leadingZeros (n * 10) d room + 1 else 0

/-- The least `e` with `n / d < 10 ^ e`, for a positive ratio in the range of finite numbers. -/
def decimalExponent (n d : Nat) : Int :=
  if n < d then -(leadingZeros n d 400 : Int) else upwardExponent n d 400

/-- The nearest multiple of `10 ^ (e - count)` that lies in the interval, as its factor. Of two
equally near ones the larger is taken. -/
def Interval.candidate (i : Interval) (e : Int) (count : Nat) : Option Nat :=
  let unit := e - count
  let num := if 0 ≤ unit then i.value else i.value * tenTo (-unit).toNat
  let den := if 0 ≤ unit then i.den * tenTo unit.toNat else i.den
  let fits (f : Nat) : Bool :=
    if 0 ≤ unit then i.holds (f * tenTo unit.toNat) 1 else i.holds f (tenTo (-unit).toNat)
  let down := num / den
  let nearer := if 2 * (num % den) < den then down else down + 1
  let farther := if nearer = down then down + 1 else down
  if fits nearer then some nearer else if fits farther then some farther else none

/-- Tries one digit more each time. Seventeen digits always suffice. -/
def Interval.shortest (i : Interval) (e : Int) (count : Nat) : (room : Nat) → Nat × Nat
  | 0 => (0, count)
  | room + 1 =>
    match i.candidate e count with
    | some f => (f, count)
    | none => i.shortest e (count + 1) room

def decimalDigits (n : Nat) : List Nat := (Nat.toDigits 10 n).map fun c => c.toNat - '0'.toNat

def dropTrailingZeros (ds : List Nat) : List Nat := (ds.reverse.dropWhile (· == 0)).reverse

def shortest (x : Double) : Digits :=
  let i := x.interval
  let e := decimalExponent i.value i.den
  let (f, count) := i.shortest e 1 17
  let ds := decimalDigits f
  ⟨dropTrailingZeros ds, e - count + ds.length⟩

end Double

def digitText (ds : List Nat) : String := String.join (ds.map toString)

namespace Digits

def positional (d : Digits) : String :=
  if d.exponent ≤ 0 then
    "0." ++ digitText (List.replicate (-d.exponent).toNat 0 ++ d.digits)
  else
    let before := d.exponent.toNat
    let whole := d.digits.take before ++ List.replicate (before - d.digits.length) 0
    let rest := d.digits.drop before
    digitText whole ++ "." ++ digitText (if rest.isEmpty then [0] else rest)

def scientific (d : Digits) : String :=
  let rest := d.digits.drop 1
  let point := if rest.isEmpty then "" else "."
  digitText (d.digits.take 1) ++ point ++ digitText rest ++ "e" ++ toString (d.exponent - 1)

def text (d : Digits) : String :=
  if -3 ≤ d.exponent ∧ d.exponent ≤ 16 then d.positional else d.scientific

end Digits

def Double.text (x : Double) : String :=
  if x.isNaN then "NaN"
  else
    let sign := if x.negative then "-" else ""
    if x.isInfinite then sign ++ "inf"
    else if x.isZero then sign ++ "0.0"
    else sign ++ x.shortest.text

end VhdlDesign
