import ObjectBus.Number.Binary64

/-!
# Shortest decimal text of a double

The digits of a double are the fewest that still read back to it, and of several such the
closest. How the digits are laid out is one record value for each format that writes numbers.
-/

namespace ObjectBus

/-- Which of two equally close digit strings is taken. -/
inductive Tie where
  /-- The one whose last digit is even. -/
  | toEven
  /-- The one of larger magnitude. -/
  | awayFromZero
deriving DecidableEq, Repr

/-- The digits of a positive decimal number and the place of its point: the number is
`0.d₁d₂… * 10 ^ point`. -/
structure DecimalDigits where
  /-- The digits, without a zero at either end. -/
  digits : List Char
  /-- The power of ten in front of which the digits stand behind the point. -/
  point : Int
deriving DecidableEq, Repr

namespace Binary64

/-- The reals that round to a positive finite `x`, and `x` itself, as whole numbers over one
common denominator. -/
structure RoundingInterval where
  /-- The lower end. -/
  low : Nat
  /-- The number itself. -/
  mid : Nat
  /-- The upper end. -/
  high : Nat
  /-- The common denominator. -/
  den : Nat
  /-- Whether the ends themselves round to the number. -/
  closed : Bool

/-- The rounding interval of a positive finite double. Below a power of two the doubles lie
twice as close as above it. -/
def roundingInterval (x : Binary64) : RoundingInterval :=
  -- In quarters of a unit in the last place, so that both ends are whole numbers.
  let m := x.significand
  let narrow := x.fractionBits = 0 ∧ 1 < x.exponentBits
  let (up, den) : Nat × Nat :=
    if 0 ≤ x.scale then (Nat.pow 2 x.scale.toNat, 4)
    else (1, 4 * Nat.pow 2 (-x.scale).toNat)
  { low := (4 * m - if narrow then 1 else 2) * up
    mid := 4 * m * up
    high := (4 * m + 2) * up
    den := den
    closed := m % 2 = 0 }

/-- Whether `num / den` lies in the interval. -/
def RoundingInterval.holds (r : RoundingInterval) (num den : Nat) : Bool :=
  if r.closed then r.low * den ≤ num * r.den && num * r.den ≤ r.high * den
  else r.low * den < num * r.den && num * r.den < r.high * den

/-- The least power of ten above `num / den`, searched upwards from a bound below it. -/
def pointAbove (num den : Nat) : Nat → Int → Int
  | 0, p => p
  | fuel + 1, p =>
    let above : Bool :=
      if 0 ≤ p then decide (num < den * Nat.pow 10 p.toNat)
      else decide (num * Nat.pow 10 (-p).toNat < den)
    if above then p else pointAbove num den fuel (p + 1)

/-- The place of the point of a positive finite double: the least `p` with `x < 10 ^ p`. The
search starts from the binary exponent, three tenths of which is just below the decimal one. -/
def decimalPoint (x : Binary64) : Int :=
  let (num, den) := x.toRatio
  pointAbove num den 8 ((floorLog2 num den) * 30103 / 100000 - 1)

/-- The whole number of steps `10 ^ (point - n)` that lies nearest to the double among its two
neighbours on that grid, if one of them reads back. -/
def gridNeighbour (x : Binary64) (tie : Tie) (point : Int) (n : Nat) : Option Nat :=
  let r := x.roundingInterval
  let step := point - n
  let up := Nat.pow 10 step.toNat
  let down := Nat.pow 10 (-step).toNat
  let value := r.mid * down / (r.den * up)
  let lowHit := r.holds (value * up) down
  let highHit := r.holds ((value + 1) * up) down
  match lowHit, highHit with
  | false, false => none
  | true, false => some value
  | false, true => some (value + 1)
  | true, true =>
    -- Both read back: take the closer one.
    let twice := 2 * (r.mid * down % (r.den * up))
    if twice < r.den * up then some value
    else if r.den * up < twice then some (value + 1)
    else match tie with
      | .awayFromZero => some (value + 1)
      | .toEven => some (if value % 2 = 0 then value else value + 1)

/-- The digits of a whole number without the zeros at its end. -/
def trimmedDigits (n : Nat) : List Char :=
  ((Nat.toDigits 10 n).reverse.dropWhile (· = '0')).reverse

/-- The fewest digits that read back to a positive finite double. -/
def shortestDigits (x : Binary64) (tie : Tie) : DecimalDigits :=
  let point := x.decimalPoint
  let hit := (List.range 17).findSome? fun i => (x.gridNeighbour tie point (i + 1)).map (i + 1, ·)
  match hit with
  | some (n, value) =>
    let digits := Nat.toDigits 10 value
    ⟨trimmedDigits value, point - n + digits.length⟩
  | none => ⟨['0'], 1⟩

end Binary64

/-- How a format writes numbers. -/
structure NumberStyle where
  /-- Which of two equally close digit strings is taken. -/
  tie : Tie
  /-- The places of the point that are written without an exponent. -/
  positional : Int → Bool
  /-- Whether a whole number ends in a point and a zero. -/
  markWhole : Bool
  /-- Whether an exponent from zero upwards has a plus sign. -/
  markExponent : Bool
  /-- The text of a value that is not a number. -/
  nan : String
  /-- The text of positive infinity. -/
  infinity : String

namespace NumberStyle

/-- Lay out digits: without an exponent where the style says so, else with one digit before
the point and an exponent. -/
def layOut (style : NumberStyle) (d : DecimalDigits) : List Char :=
  let n : Int := d.digits.length
  if style.positional d.point then
    if n ≤ d.point then
      d.digits ++ List.replicate (d.point - n).toNat '0' ++
        (if style.markWhole then ['.', '0'] else [])
    else if 0 < d.point then
      d.digits.take d.point.toNat ++ '.' :: d.digits.drop d.point.toNat
    else
      '0' :: '.' :: (List.replicate (-d.point).toNat '0' ++ d.digits)
  else
    let exponent := d.point - 1
    let mantissa := match d.digits with
      | [] => []
      | [c] => [c]
      | c :: rest => c :: '.' :: rest
    let sign := if exponent < 0 then ['-'] else if style.markExponent then ['+'] else []
    mantissa ++ 'e' :: sign ++ Nat.toDigits 10 exponent.natAbs

/-- The text of a double. -/
def text (style : NumberStyle) (x : Binary64) : String :=
  if x.isNaN then style.nan
  else
    let sign := if x.isNegative then ['-'] else []
    if x.isInfinite then String.ofList sign ++ style.infinity
    else if x.significand = 0 then
      String.ofList (sign ++ if style.markWhole then ['0', '.', '0'] else ['0'])
    else String.ofList (sign ++ style.layOut (x.shortestDigits style.tie))

/-- Numbers for people: never an exponent, and no point in a whole number. -/
def plain : NumberStyle where
  tie := .awayFromZero
  positional _ := true
  markWhole := false
  markExponent := false
  nan := "NaN"
  infinity := "inf"

/-- Numbers in JSON text: a point or an exponent always marks a number as not an integer, and
the exponent begins where a positional number would need more than sixteen digits before its
point or more than four zeros behind it. JSON has no text for values that are not finite. -/
def json : NumberStyle where
  tie := .toEven
  positional p := decide (-5 < p ∧ p ≤ 16)
  markWhole := true
  markExponent := true
  nan := "null"
  infinity := "null"

/-- Numbers for inspection: a whole number shows that it is a double, and very large and very
small numbers have an exponent. -/
def inspected : NumberStyle where
  tie := .awayFromZero
  positional p := decide (-4 < p ∧ p ≤ 16)
  markWhole := true
  markExponent := false
  nan := "NaN"
  infinity := "inf"

end NumberStyle

end ObjectBus
