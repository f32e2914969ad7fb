/-!
# Instants

Points in time on the proleptic Gregorian calendar, in coordinated universal time and with
nanoseconds. A leap second is written as the sixtieth second of its minute; it is kept as the
fifty-ninth with a full second more of nanoseconds.
-/

namespace ObjectBus

/-- Whether a year has a twenty-ninth of February. -/
def isLeapYear (year : Int) : Bool :=
  year % 4 = 0 && (year % 100 ≠ 0 || year % 400 = 0)

/-- The number of days of a month. -/
def daysInMonth (year : Int) (month : Nat) : Nat :=
  if month = 2 then (if isLeapYear year then 29 else 28)
  else if month = 4 ∨ month = 6 ∨ month = 9 ∨ month = 11 then 30
  else 31

/-- The first year that a date can have. -/
def firstYear : Int := -262143

/-- The last year that a date can have. -/
def lastYear : Int := 262142

/-- The days of the calendar. -/
def IsCalendarDay (year : Int) (month day : Nat) : Prop :=
  firstYear ≤ year ∧ year ≤ lastYear ∧ 1 ≤ month ∧ month ≤ 12 ∧
    1 ≤ day ∧ day ≤ daysInMonth year month

instance (year : Int) (month day : Nat) : Decidable (IsCalendarDay year month day) := by
  unfold IsCalendarDay
  infer_instance

/-- A day of the calendar. -/
structure Date where
  /-- The year, with a year zero before the year one. -/
  year : Int
  /-- The month, from one. -/
  month : Nat
  /-- The day of the month, from one. -/
  day : Nat
  /-- The calendar has this day. -/
  valid : IsCalendarDay year month day
deriving DecidableEq

namespace Date

/-- The day with the given numbers, if the calendar has it. -/
def of? (year : Int) (month day : Nat) : Option Date :=
  if h : IsCalendarDay year month day then some ⟨year, month, day, h⟩ else none

/-- The next day, unless the calendar ends. -/
def next? (d : Date) : Option Date :=
  of? d.year d.month (d.day + 1) <|> of? d.year (d.month + 1) 1 <|> of? (d.year + 1) 1 1

/-- The day before, unless the calendar begins. -/
def prev? (d : Date) : Option Date :=
  if 1 < d.day then of? d.year d.month (d.day - 1)
  else if 1 < d.month then of? d.year (d.month - 1) (daysInMonth d.year (d.month - 1))
  else of? (d.year - 1) 12 31

end Date

/-- The number of seconds of a day. -/
def secondsPerDay : Nat := 86400

/-- The number of nanoseconds of a second. -/
def nanosPerSecond : Nat := 1000000000

/-- The times of a day: a second of the day and nanoseconds, which reach beyond one second
only in the last second of a minute. -/
def IsTimeOfDay (second nano : Nat) : Prop :=
  second < secondsPerDay ∧ nano < 2 * nanosPerSecond ∧
    (nanosPerSecond ≤ nano → second % 60 = 59)

instance (second nano : Nat) : Decidable (IsTimeOfDay second nano) := by
  unfold IsTimeOfDay
  infer_instance

/-- A point in time. -/
structure Instant where
  /-- The day in coordinated universal time. -/
  date : Date
  /-- The second of the day. -/
  second : Nat
  /-- Nanoseconds since that second began; a full second or more stands for a leap second. -/
  nano : Nat
  /-- The second and the nanoseconds are a time of a day. -/
  valid : IsTimeOfDay second nano
deriving DecidableEq

namespace Instant

/-- The instant with the given parts, if they are a time of a day. -/
def of? (date : Date) (second nano : Nat) : Option Instant :=
  if h : IsTimeOfDay second nano then some ⟨date, second, nano, h⟩ else none

/-- The instant at which a clock `offset` seconds ahead of universal time shows the given
day and time. -/
def ofLocal? (date : Date) (second nano : Nat) (offset : Int) : Option Instant :=
  let shown : Int := second - offset
  if shown < 0 then
    date.prev?.bind fun d => of? d (shown + secondsPerDay).toNat nano
  else if shown < secondsPerDay then of? date shown.toNat nano
  else date.next?.bind fun d => of? d (shown - secondsPerDay).toNat nano

/-- Whether the instant lies in a leap second. -/
def isLeapSecond (t : Instant) : Bool := decide (nanosPerSecond ≤ t.nano)

/-- The number of the second within its minute, which is sixty in a leap second. -/
def secondOfMinute (t : Instant) : Nat := t.second % 60 + if t.isLeapSecond then 1 else 0

/-- The nanoseconds since the last full second. -/
def subsecond (t : Instant) : Nat := t.nano % nanosPerSecond

end Instant

instance : Inhabited Instant :=
  ⟨⟨⟨1970, 1, 1, by decide⟩, 0, 0, by decide⟩⟩

end ObjectBus
