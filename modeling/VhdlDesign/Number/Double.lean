/-!
Binary64 numbers as words, with exact arithmetic on natural numbers behind every rounding.

A finite word stands for `significand * 2 ^ power / 2 ^ 1074`, so that all magnitudes are ratios
of natural numbers and one function rounds them.
-/
namespace VhdlDesign

/-! ### Powers of the two bases -/

def twoTo (n : Nat) : Nat := Nat.pow 2 n

def tenTo (n : Nat) : Nat := Nat.pow 10 n

theorem twoTo_pos (n : Nat) : 0 < twoTo n := Nat.pow_pos (by decide)

theorem tenTo_pos (n : Nat) : 0 < tenTo n := Nat.pow_pos (by decide)

/-! ### Words and magnitudes -/

/-- A binary64 number, told apart from others by its word: the two zeros differ, and a NaN equals
itself. -/
structure Double where
  bits : UInt64
  deriving DecidableEq

/-- The quotient rounded to the nearest natural number, a half to the even one. -/
def roundDiv (n d : Nat) : Nat :=
  if 2 * (n % d) > d ∨ 2 * (n % d) = d ∧ n / d % 2 = 1 then n / d + 1 else n / d

namespace Double

def negative (x : Double) : Bool := x.bits.toNat / twoTo 63 == 1

def exponentBits (x : Double) : Nat := x.bits.toNat / twoTo 52 % twoTo 11

def fractionBits (x : Double) : Nat := x.bits.toNat % twoTo 52

def significand (x : Double) : Nat :=
  if x.exponentBits = 0 then x.fractionBits else twoTo 52 + x.fractionBits

def power (x : Double) : Nat := x.exponentBits - 1

def isNaN (x : Double) : Bool := x.exponentBits == 2047 && x.fractionBits != 0

def isInfinite (x : Double) : Bool := x.exponentBits == 2047 && x.fractionBits == 0

def isZero (x : Double) : Bool := x.exponentBits == 0 && x.fractionBits == 0

/-- The magnitude of a finite number in units of `2 ^ -1074`. -/
def units (x : Double) : Nat := x.significand * twoTo x.power

def infinityBits : Nat := 2047 * twoTo 52

/-- The non-negative number nearest to a ratio, a tie going to the even significand. Too large a
ratio gives infinity. -/
def ofRatio (num den : Nat) : Double :=
  let scaled := num * twoTo 1074
  let shift := (scaled / den).log2 - 52
  ⟨UInt64.ofNat (min (shift * twoTo 52 + roundDiv scaled (den * twoTo shift)) infinityBits)⟩

def ofNat (n : Nat) : Double := ofRatio n 1

def mul (x y : Double) : Double := ofRatio (x.units * y.units) (twoTo 2148)

def div (x y : Double) : Double := ofRatio x.units y.units

def neg (x : Double) : Double := ⟨x.bits ^^^ 0x8000000000000000⟩

end Double

end VhdlDesign
