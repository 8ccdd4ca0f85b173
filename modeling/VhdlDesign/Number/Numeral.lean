import VhdlDesign.Number.Double

/-! Decimal numerals and the numbers that they denote. -/
namespace VhdlDesign

/-- A decimal numeral as it is written: digits before the point, digits after it, and a signed
exponent. The lists hold digit values from 0 to 9. -/
structure Numeral where
  negative : Bool
  whole : List Nat
  fraction : Option (List Nat)
  exponent : Option (Bool × List Nat)
  deriving DecidableEq

def digitsValue (ds : List Nat) : Nat := ds.foldl (fun n d => n * 10 + d) 0

namespace Numeral

/-- The integer that a numeral without point and exponent denotes. Minus zero denotes none. -/
def integer? (n : Numeral) : Option Int :=
  match n.fraction, n.exponent with
  | none, none =>
    let value := digitsValue n.whole
    if n.negative then
      if value = 0 then none else some (-(value : Int))
    else some value
  | _, _ => none

/-- Appends digits to a significand while it stays below `2 ^ 64`. The digits from the first that
does not fit on are returned. -/
def absorb (significand : Nat) : List Nat → Nat × List Nat
  | [] => (significand, [])
  | d :: ds =>
    if significand * 10 + d < twoTo 64 then absorb (significand * 10 + d) ds
    else (significand, d :: ds)

def scaleDown (x : Double) (k : Nat) : Double :=
  if k ≤ 308 then x.div (.ofNat (tenTo k))
  else if x.isZero then x
  else scaleDown (x.div (.ofNat (tenTo 308))) (k - 308)
termination_by k

def scaleUp? (x : Double) (k : Nat) : Option Double :=
  if k ≤ 308 then
    let product := x.mul (.ofNat (tenTo k))
    if product.isInfinite then none else some product
  else if x.isZero then some x
  else none

def significand (n : Numeral) : Nat × Int :=
  let (s, dropped) := absorb 0 n.whole
  let (s, unread) := absorb s (n.fraction.getD [])
  (s, (dropped.length : Int) - ((n.fraction.getD []).length - unread.length : Nat))

def exponentLimit : Nat := twoTo 31 - 1

/-- The magnitude that a numeral is read as: 64 bits of significand, then one scaling by a power
of ten, each step rounded by itself. -/
def magnitude? (n : Numeral) : Option Double :=
  let (s, shift) := n.significand
  let (sign, written) := n.exponent.getD (false, [])
  let e := digitsValue written
  if e > exponentLimit then
    if s ≠ 0 ∧ !sign then none else some (.ofNat 0)
  else
    let power := if sign then shift - e else shift + e
    if 0 ≤ power then scaleUp? (.ofNat s) power.toNat else some (scaleDown (.ofNat s) (-power).toNat)

def toDouble? (n : Numeral) : Option Double :=
  n.magnitude?.map fun x => if n.negative then x.neg else x

end Numeral

end VhdlDesign
