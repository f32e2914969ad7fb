/-!
# Binary floating-point numbers

A double is carried as its 64 bits. Two doubles are equal exactly when their bits are, so a
value that is not a number equals itself and the two zeros differ. What little arithmetic is
needed is exact on natural numbers and rounded once, to the nearest double, a tie going to the
even significand.
-/

namespace ObjectBus

/-- A double-precision floating-point number, as its bits. -/
structure Binary64 where
  /-- The sign bit, eleven exponent bits and fifty-two fraction bits, the sign highest. -/
  bits : UInt64
deriving DecidableEq, Inhabited

namespace Binary64

/-- Whether the sign bit is set. -/
def isNegative (x : Binary64) : Bool := decide (Nat.pow 2 63 ≤ x.bits.toNat)

/-- The eleven exponent bits. -/
def exponentBits (x : Binary64) : Nat := x.bits.toNat / Nat.pow 2 52 % Nat.pow 2 11

/-- The fifty-two fraction bits. -/
def fractionBits (x : Binary64) : Nat := x.bits.toNat % Nat.pow 2 52

/-- Whether the bits stand for a number, neither infinite nor undefined. -/
def isFinite (x : Binary64) : Bool := decide (x.exponentBits ≠ 2047)

/-- Whether the bits stand for no number at all. -/
def isNaN (x : Binary64) : Bool := decide (x.exponentBits = 2047 ∧ x.fractionBits ≠ 0)

/-- Whether the bits stand for one of the two infinities. -/
def isInfinite (x : Binary64) : Bool := decide (x.exponentBits = 2047 ∧ x.fractionBits = 0)

/-- The whole number `m` of a finite value `m * 2 ^ scale`. -/
def significand (x : Binary64) : Nat :=
  if x.exponentBits = 0 then x.fractionBits else x.fractionBits + Nat.pow 2 52

/-- The power of two of a finite value `significand * 2 ^ scale`. -/
def scale (x : Binary64) : Int := (max x.exponentBits 1 : Nat) - 1075

/-- The bits of positive infinity. -/
def infinityBits : Nat := 2047 * Nat.pow 2 52

/-- Put a sign in front of the bits of a magnitude. -/
def ofMagnitude (negative : Bool) (magnitude : Nat) : Binary64 :=
  ⟨UInt64.ofNat (magnitude + if negative then Nat.pow 2 63 else 0)⟩

/-- Zero with the given sign. -/
def zero (negative : Bool) : Binary64 := ofMagnitude negative 0

/-- The same number with the other sign. -/
def neg (x : Binary64) : Binary64 :=
  ofMagnitude (!x.isNegative) (x.bits.toNat % Nat.pow 2 63)

/-- `num / den` rounded to a whole number, a tie going to the even neighbour. -/
def roundToEven (num den : Nat) : Nat :=
  let q := num / den
  let twice := 2 * (num % den)
  if twice < den then q
  else if den < twice then q + 1
  else if q % 2 = 0 then q else q + 1

/-- The exponent of the largest power of two that is at most `num / den`. -/
def floorLog2 (num den : Nat) : Int :=
  let guess : Int := (Nat.log2 num : Int) - (Nat.log2 den : Int)
  let reached : Bool :=
    if 0 ≤ guess then decide (den * Nat.pow 2 guess.toNat ≤ num)
    else decide (den ≤ num * Nat.pow 2 (-guess).toNat)
  if reached then guess else guess - 1

/-- The double nearest to `num / den`, for a positive `den`. The significand has fifty-three
bits unless the value is too small for that; too large a value becomes infinite. -/
def ofRatio (negative : Bool) (num den : Nat) : Binary64 :=
  if num = 0 then zero negative
  else
    -- The power of two that the last bit of the significand stands for.
    let e : Int := max (floorLog2 num den - 52) (-1074)
    let q :=
      if 0 ≤ e then roundToEven num (den * Nat.pow 2 e.toNat)
      else roundToEven (num * Nat.pow 2 (-e).toNat) den
    -- The leading bit of a normal significand adds one to the exponent bits, and so does a
    -- significand that was rounded up to the next power of two.
    ofMagnitude negative (min ((e + 1074).toNat * Nat.pow 2 52 + q) infinityBits)

/-- The double nearest to a whole number. -/
def ofNat (n : Nat) : Binary64 := ofRatio false n 1

/-- The magnitude of a finite value as a quotient of whole numbers. -/
def toRatio (x : Binary64) : Nat × Nat :=
  if 0 ≤ x.scale then (x.significand * Nat.pow 2 x.scale.toNat, 1)
  else (x.significand, Nat.pow 2 (-x.scale).toNat)

/-- The product of the magnitudes of two finite values. -/
def mul (x y : Binary64) : Binary64 :=
  ofRatio false (x.toRatio.1 * y.toRatio.1) (x.toRatio.2 * y.toRatio.2)

/-- The quotient of the magnitudes of two finite values, the second not zero. -/
def div (x y : Binary64) : Binary64 :=
  ofRatio false (x.toRatio.1 * y.toRatio.2) (x.toRatio.2 * y.toRatio.1)

end Binary64

end ObjectBus
