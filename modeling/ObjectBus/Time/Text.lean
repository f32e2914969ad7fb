import ObjectBus.Time.Instant

/-!
# Writing instants

An instant is written as date, the letter `T`, time of day and zone. Fractions of a second
have three, six or nine digits, as few as are exact, and a whole second has none. A year
outside four digits carries a sign.
-/

namespace ObjectBus

/-- The decimal digits of a number, with zeros in front up to the given width. -/
def padded (width n : Nat) : List Char :=
  let digits := Nat.toDigits 10 n
  List.replicate (width - digits.length) '0' ++ digits

namespace Date

/-- Four digits, or a sign and at least four digits for a year that needs them. -/
def yearText (year : Int) : List Char :=
  if 0 ≤ year ∧ year ≤ 9999 then padded 4 year.natAbs
  else (if year < 0 then '-' else '+') :: padded 4 year.natAbs

/-- Year, month and day. -/
def text (d : Date) : List Char :=
  yearText d.year ++ '-' :: padded 2 d.month ++ '-' :: padded 2 d.day

end Date

namespace Instant

/-- The fraction of a second, in groups of three digits. -/
def fractionText (nano : Nat) : List Char :=
  if nano = 0 then []
  else if nano % 1000000 = 0 then '.' :: padded 3 (nano / 1000000)
  else if nano % 1000 = 0 then '.' :: padded 6 (nano / 1000)
  else '.' :: padded 9 nano

/-- Date and time of day up to the second. -/
def secondsText (t : Instant) : List Char :=
  t.date.text ++ 'T' :: padded 2 (t.second / 3600) ++ ':' :: padded 2 (t.second / 60 % 60) ++
    ':' :: padded 2 t.secondOfMinute

/-- The instant up to the zone. -/
def localText (t : Instant) : List Char := t.secondsText ++ fractionText t.subsecond

/-- The instant with a zero offset for its zone: the form shown to people and put into JSON. -/
def text (t : Instant) : String :=
  String.ofList (t.localText ++ ['+', '0', '0', ':', '0', '0'])

/-- The instant with the letter `Z` for its zone: the form that travels between peers. -/
def wireText (t : Instant) : String :=
  String.ofList (t.localText ++ ['Z'])

/-- The instant in milliseconds, for logs. -/
def logText (t : Instant) : String :=
  String.ofList (t.secondsText ++ '.' :: padded 3 (t.subsecond / 1000000) ++ ['Z'])

end Instant

end ObjectBus
