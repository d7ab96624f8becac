/-! Days and instants of the calendar that leaps every fourth year, except three times in four
hundred years, counted back to its first year. -/
namespace EnvCensus

/-- A day, or an instant of one, with its offset from universal time in minutes if it has one. -/
structure Moment where
  year : Nat
  month : Nat
  day : Nat
  hour : Nat := 0
  minute : Nat := 0
  second : Nat := 0
  microsecond : Nat := 0
  offset : Option Int := none
  deriving DecidableEq, Repr

namespace Moment

def isLeapYear (y : Nat) : Bool := y % 4 == 0 && (y % 100 ≠ 0 || y % 400 == 0)

def daysIn (year month : Nat) : Nat :=
  if month == 2 then (if isLeapYear year then 29 else 28)
  else if [4, 6, 9, 11].contains month then 30
  else 31

/-- Whether a date and a time exist; an offset is less than a day. -/
def exists? (m : Moment) : Bool :=
  1 ≤ m.year && 1 ≤ m.month && m.month ≤ 12 && 1 ≤ m.day && m.day ≤ daysIn m.year m.month &&
    m.hour < 24 && m.minute < 60 && m.second < 60 && m.offset.all fun o => o.natAbs < 24 * 60

/-- The number of days before a year, from the first one on. -/
def daysBefore (year : Nat) : Nat :=
  let y := year - 1
  365 * y + y / 4 - y / 100 + y / 400

/-- The number of days in the first months of a year. -/
def daysThrough (year : Nat) : Nat → Nat
  | 0 => 0
  | month + 1 => daysThrough year month + daysIn year (month + 1)

/-- The number of a day, from the first day of the first year on. -/
def dayNumber (m : Moment) : Nat :=
  daysBefore m.year + daysThrough m.year (m.month - 1) + m.day

/-- Minutes of an instant in universal time, with what is finer than a minute. -/
def instant (m : Moment) (offset : Int) : Int × Nat × Nat :=
  (((m.dayNumber * 24 + m.hour) * 60 + m.minute : Nat) - offset, m.second, m.microsecond)

/-- Instants are the same wherever they are told, but not one with and one without an offset. -/
def same (a b : Moment) : Bool :=
  match a.offset, b.offset with
  | none, none => a == b
  | some p, some q => instant a p == instant b q
  | _, _ => false

/-- The first of March in one place is still the last of February in another. -/
example : same { year := 2024, month := 3, day := 1, hour := 0, minute := 30, offset := some 60 }
    { year := 2024, month := 2, day := 29, hour := 23, minute := 30, offset := some 0 } := by
  decide

end Moment

end EnvCensus
