/-!
# Civil time

An `Instant` counts seconds from 1970-01-01T00:00:00 UTC and nanoseconds within
the second; `10 ^ 9` nanoseconds or more stand for the leap second that follows.
A `Civil` time is what a calendar and a clock show. The calendar is the
Gregorian one in all years, and the year before year 1 is year 0.

* `daysOfDate`, `dateOfDays`: a date as the number of days since 1970-01-01, and
  back. Both count in eras of 400 years, in years that begin on the first of
  March, so that the leap day is the last day of its year.
* `Instant.ofCivil`, `Instant.civil`: the instant that a civil time in UTC names,
  and the civil time at an instant, so many seconds east of UTC.
-/

namespace EngineDir.Clock

/-- A moment, leap seconds included. -/
structure Instant where
  seconds : Int
  nanos : Nat
  deriving DecidableEq

/-- What calendar and clock show. -/
structure Civil where
  year : Int
  month : Nat
  day : Nat
  hour : Nat
  minute : Nat
  second : Nat
  nanos : Nat
  deriving DecidableEq

/-- The days in an era. -/
def eraDays : Int := 146097

/-- The days from 0000-03-01, where an era begins, to 1970-01-01. -/
def epochShift : Int := 719468

/-- The days before the month that is number `m` of a year that begins in March. -/
def daysBeforeMonth (m : Int) : Int := (153 * m + 2) / 5

/-- The days from 1970-01-01 to a date. -/
def daysOfDate (year : Int) (month day : Nat) : Int :=
  let y := if month ≤ 2 then year - 1 else year
  let m : Int := if month ≤ 2 then month + 9 else month - 3
  let yearOfEra := y % 400
  let dayOfYear := daysBeforeMonth m + day - 1
  let dayOfEra := yearOfEra * 365 + yearOfEra / 4 - yearOfEra / 100 + dayOfYear
  y / 400 * eraDays + dayOfEra - epochShift

/-- The date so many days after 1970-01-01: year, month and day. -/
def dateOfDays (days : Int) : Int × Nat × Nat :=
  let z := days + epochShift
  let dayOfEra := z % eraDays
  let yearOfEra := (dayOfEra - dayOfEra / 1460 + dayOfEra / 36524 - dayOfEra / 146096) / 365
  let dayOfYear := dayOfEra - (365 * yearOfEra + yearOfEra / 4 - yearOfEra / 100)
  let m := (5 * dayOfYear + 2) / 153
  let day := dayOfYear - daysBeforeMonth m + 1
  let month := if m < 10 then m + 3 else m - 9
  let y := z / eraDays * 400 + yearOfEra
  (if month ≤ 2 then y + 1 else y, month.toNat, day.toNat)

/-- The instant that a civil time in UTC names. -/
def Instant.ofCivil (c : Civil) : Instant where
  seconds := daysOfDate c.year c.month c.day * 86400 + c.hour * 3600 + c.minute * 60 + c.second
  nanos := c.nanos

/-- The civil time at `t`, `offset` seconds east of UTC. The offset moves the seconds alone, so a
leap second stays one. -/
def Instant.civil (t : Instant) (offset : Int) : Civil :=
  let s := t.seconds + offset
  let ofDay := (s % 86400).toNat
  let (year, month, day) := dateOfDays (s / 86400)
  { year := year
    month := month
    day := day
    hour := ofDay / 3600
    minute := ofDay / 60 % 60
    second := ofDay % 60
    nanos := t.nanos }

/-- A moment and how far east of UTC it is read. -/
structure Reading where
  instant : Instant
  offset : Int
  deriving DecidableEq

/-- What the reading shows. -/
def Reading.civil (r : Reading) : Civil := r.instant.civil r.offset

end EngineDir.Clock
