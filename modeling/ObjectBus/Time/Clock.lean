import ObjectBus.Time.Text
import Std.Time

/-!
# The clock

The time that the system's clock shows.
-/

namespace ObjectBus

/-! ## Counted days and seconds -/

/-- The day that lies so many days after the first day of 1970. Years are counted from the first
of March, so that a leap day is the last day of its year, and in cycles of four centuries, which
have 146097 days each. -/
def Date.ofDayNumber? (n : Int) : Option Date :=
  let sinceMarch := n + 719468
  let day := (sinceMarch % 146097).toNat
  let year := (day - day / 1460 + day / 36524 - day / 146096) / 365
  let dayOfYear := day - (365 * year + year / 4 - year / 100)
  let month := (5 * dayOfYear + 2) / 153
  let late : Nat := if month < 10 then 0 else 1
  of? (sinceMarch / 146097 * 400 + year + late) (month + 3 - 12 * late)
    (dayOfYear - (153 * month + 2) / 5 + 1)

/-- The instant that lies so many seconds and nanoseconds after the beginning of 1970. -/
def Instant.ofUnixTime? (seconds : Int) (nano : Nat) : Option Instant :=
  (Date.ofDayNumber? (seconds / secondsPerDay)).bind fun date =>
    of? date (seconds % secondsPerDay).toNat nano

/-! ## Reading the clock -/

/-- The time now. -/
def Instant.now : IO Instant := do
  let t ← Std.Time.Timestamp.now
  pure ((ofUnixTime? t.val.second.val t.val.nano.val.toNat).getD default)

/-- The date now, where the program runs. -/
def Date.today : IO (Option Date) := do
  let d ← Std.Time.PlainDate.now
  pure (of? d.year.toInt d.month.val.toNat d.day.val.toNat)

end ObjectBus
