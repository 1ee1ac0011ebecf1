import Replica.Atom.Decimal

/-!
Dates, times of day and spans of time: which of them exist.
-/

namespace Replica

namespace Calendar

def isLeap (year : Int) : Bool :=
  year % 4 = 0 && (year % 100 ≠ 0 || year % 400 = 0)

def daysInMonth (year : Int) (month : Nat) : Nat :=
  match month with
  | 2 => if isLeap year then 29 else 28
  | 4 | 6 | 9 | 11 => 30
  | _ => 31

/-- The first and the last year that dates are kept for. -/
def firstYear : Int := -262143

def lastYear : Int := 262142

def isDate (year : Int) (month day : Nat) : Bool :=
  firstYear ≤ year && year ≤ lastYear && 1 ≤ month && month ≤ 12 && 1 ≤ day &&
    day ≤ daysInMonth year month

def secondsPerDay : Int := 86400

/-- Days from the beginning of the year 1970 to that of `year`. -/
def daysBeforeYear (year : Int) : Int :=
  let before := year - 1
  let since := before - 1969
  365 * since + (before / 4 - 492) - (before / 100 - 19) + (before / 400 - 4)

/-- A second may be counted beyond its billion nanoseconds when it is the last of a minute. -/
def isFraction (second : Int) (nanosecond : Nat) : Bool :=
  nanosecond < 1000000000 || (nanosecond < 2000000000 && second % 60 = 59)

def isTime (second nanosecond : Nat) : Bool :=
  second < secondsPerDay.toNat && isFraction second nanosecond

/-- Whether a moment, counted in seconds from the beginning of 1970, has a date. -/
def isMoment (second : Int) (nanosecond : Nat) : Bool :=
  daysBeforeYear firstYear * secondsPerDay ≤ second &&
    second < daysBeforeYear (lastYear + 1) * secondsPerDay && isFraction second nanosecond

def isOffset (seconds : Int) : Bool :=
  -secondsPerDay < seconds && seconds < secondsPerDay

/-- Spans of time are at the most as many milliseconds long as a signed word counts. -/
def isSpan (nanoseconds : Int) : Bool :=
  nanoseconds.natAbs ≤ (Nat.pow 2 63 - 1) * 1000000

end Calendar

end Replica
