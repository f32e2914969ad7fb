import ObjectBus.Text.Blank
import ObjectBus.Time.Text

/-!
# Reading instants

Two readers. The strict one takes the profile of dates and times used on the internet: fixed
widths and an offset with hours and minutes. The relaxed one also takes blanks between the
parts, shorter numbers, signed years, `UTC` for the zone and offsets without a colon.

Each step of a reader takes the rest of the text and gives what it read with what remains.
-/

namespace ObjectBus.Instant

open Text

/-- The number that a list of decimal digits stands for. -/
def digitsValue (ds : List Char) : Nat :=
  ds.foldl (fun n c => 10 * n + (c.toNat - '0'.toNat)) 0

/-- Read a number of at least `least` and at most `most` digits. -/
def readNumber (least most : Nat) (cs : List Char) : Option (Nat × List Char) :=
  let ds := (cs.take most).takeWhile Char.isDigit
  if ds.length < least then none else some (digitsValue ds, cs.drop ds.length)

/-- Read one given character. -/
def readChar (c : Char) : List Char → Option (List Char)
  | [] => none
  | d :: rest => if d = c then some rest else none

/-- Read the mark between date and time. -/
def readSeparator : List Char → Option (List Char)
  | [] => none
  | c :: rest => if c = 'T' ∨ c = 't' ∨ c = ' ' then some rest else none

/-- Read an optional fraction of a second as nanoseconds. Digits after the ninth are dropped. -/
def readFraction : List Char → Option (Nat × List Char)
  | '.' :: rest =>
    let ds := (rest.take 9).takeWhile Char.isDigit
    if ds.isEmpty then none
    else
      some (digitsValue ds * Nat.pow 10 (9 - ds.length),
        (rest.drop ds.length).dropWhile Char.isDigit)
  | cs => some (0, cs)

/-- Read two digits, the first at most `tens`. -/
def readPair (tens : Char) : List Char → Option (Nat × List Char)
  | a :: b :: rest =>
    if a.isDigit && b.isDigit && decide (a ≤ tens) then some (digitsValue [a, b], rest) else none
  | _ => none

/-- Read the hours and minutes of an offset after its sign. `separate` reads what stands
between them. -/
def readOffset (separate : List Char → Option (List Char)) (cs : List Char) :
    Option (Nat × List Char) := do
  let (hours, cs) ← readPair '9' cs
  let cs ← separate cs
  let (minutes, cs) ← readPair '5' cs
  pure (hours * 3600 + minutes * 60, cs)

/-- Read a zone as the number of seconds by which its clocks are ahead of universal time. -/
def readZone (separate : List Char → Option (List Char)) :
    List Char → Option (Int × List Char)
  | [] => none
  | c :: rest =>
    if c = 'Z' ∨ c = 'z' then some (0, rest)
    else if c = '+' then
      (readOffset separate rest).map fun r => ((r.1 : Int), r.2)
    else if c = '-' ∨ c = '\u2212' then
      (readOffset separate rest).map fun r => (-(r.1 : Int), r.2)
    else none

/-- Put together what a reader found. The sixtieth second is a leap second; an offset of a day
or more is none. -/
def assemble (year : Int) (month day hour minute second nano : Nat) (offset : Int) :
    Option Instant := do
  let date ← Date.of? year month day
  if hour ≤ 23 ∧ minute ≤ 59 ∧ second ≤ 60 ∧ offset.natAbs < secondsPerDay then
    let s := hour * 3600 + minute * 60
    if second = 60 then ofLocal? date (s + 59) (nanosPerSecond + nano) offset
    else ofLocal? date (s + second) nano offset
  else none

/-- Read an instant in the strict form. -/
def ofText? (s : String) : Option Instant := do
  let (year, cs) ← readNumber 4 4 s.toList
  let cs ← readChar '-' cs
  let (month, cs) ← readNumber 2 2 cs
  let cs ← readChar '-' cs
  let (day, cs) ← readNumber 2 2 cs
  let cs ← readSeparator cs
  let (hour, cs) ← readNumber 2 2 cs
  let cs ← readChar ':' cs
  let (minute, cs) ← readNumber 2 2 cs
  let cs ← readChar ':' cs
  let (second, cs) ← readNumber 2 2 cs
  let (nano, cs) ← readFraction cs
  let (offset, cs) ← readZone (readChar ':') cs
  if cs.isEmpty then assemble year month day hour minute second nano offset else none

/-- Read a year, of four digits at most unless it has a sign. -/
def readYear (cs : List Char) : Option (Int × List Char) :=
  match cs with
  | '-' :: rest => (readNumber 1 rest.length rest).map fun r => (-(r.1 : Int), r.2)
  | '+' :: rest => (readNumber 1 rest.length rest).map fun r => ((r.1 : Int), r.2)
  | _ => (readNumber 1 4 cs).map fun r => ((r.1 : Int), r.2)

/-- Drop the colons and blanks between the hours and the minutes of an offset. -/
def dropColons (cs : List Char) : Option (List Char) :=
  some (cs.dropWhile fun c => c = ':' || isBlank c)

/-- Read the zone of the relaxed form, which may be the letters `UTC`. -/
def readRelaxedZone : List Char → Option (Int × List Char)
  | a :: b :: c :: rest =>
    if a.toUpper = 'U' ∧ b.toUpper = 'T' ∧ c.toUpper = 'C' then some (0, rest)
    else readZone dropColons (a :: b :: c :: rest)
  | cs => readZone dropColons cs

/-- Read an instant in the relaxed form. -/
def ofWireText? (s : String) : Option Instant := do
  let (year, cs) ← readYear (dropBlanks s.toList)
  let cs ← readChar '-' (dropBlanks cs)
  let (month, cs) ← readNumber 1 2 (dropBlanks cs)
  let cs ← readChar '-' (dropBlanks cs)
  let (day, cs) ← readNumber 1 2 (dropBlanks cs)
  let cs ← readSeparator cs
  let (hour, cs) ← readNumber 1 2 (dropBlanks cs)
  let cs ← readChar ':' (dropBlanks cs)
  let (minute, cs) ← readNumber 1 2 (dropBlanks cs)
  let cs ← readChar ':' (dropBlanks cs)
  let (second, cs) ← readNumber 1 2 (dropBlanks cs)
  let (nano, cs) ← readFraction cs
  let (offset, cs) ← readRelaxedZone (dropBlanks cs)
  if (dropBlanks cs).isEmpty then assemble year month day hour minute second nano offset
  else none

end ObjectBus.Instant
