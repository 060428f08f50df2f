/-!
# Dates and moments

* `Date`, `Moment`: days of the calendar, and times of day on them, perhaps in a zone;
* `Date.check`, `Moment.check`: the first part out of range, if there is one;
* `Moment.following`: the moment a second later;
* `Moment.same`: whether two moments are one.
-/

namespace Stencil

structure Date where
  year : Nat
  month : Nat
  day : Nat
  deriving DecidableEq, Repr

/-- How many minutes the clocks of a zone are ahead, and how the zone is written. -/
structure Zone where
  ahead : Int
  name : String
  deriving DecidableEq, Repr

/-- A time of day by the clocks of a zone, or of no zone in particular. -/
structure Moment where
  date : Date
  hour : Nat
  minute : Nat
  second : Nat
  microsecond : Nat
  zone? : Option Zone
  deriving DecidableEq, Repr

inductive CalendarFault where
  | year (n : Nat)
  | month
  | day
  | hour
  | minute
  | second
  | zone (ahead : Int)
  | beyond
  deriving DecidableEq, Repr

/-- How a number of minutes is written as a span of time: in days and seconds, of which only the
days may be negative. -/
def spanLiteral (minutes : Int) : String :=
  let days := minutes.fdiv 1440
  let seconds := 60 * minutes.fmod 1440
  let parts :=
    (if days = 0 then [] else [s!"days={days}"]) ++
      if seconds = 0 then [] else [s!"seconds={seconds}"]
  "datetime.timedelta(" ++ (if parts.isEmpty then "0" else String.intercalate ", " parts) ++ ")"

def CalendarFault.message : CalendarFault → String
  | .year n => s!"year {n} is out of range"
  | .month => "month must be in 1..12"
  | .day => "day is out of range for month"
  | .hour => "hour must be in 0..23"
  | .minute => "minute must be in 0..59"
  | .second => "second must be in 0..59"
  | .zone ahead =>
    "offset must be a timedelta strictly between -timedelta(hours=24) and " ++
      s!"timedelta(hours=24), not {spanLiteral ahead}."
  | .beyond => "date value out of range"

/-- Every fourth year is a leap year, but of the full centuries only every fourth. -/
def isLeap (year : Nat) : Bool := year % 4 == 0 && (year % 100 != 0 || year % 400 == 0)

def daysInMonth (year month : Nat) : Nat :=
  if month = 2 then (if isLeap year then 29 else 28)
  else if month = 4 ∨ month = 6 ∨ month = 9 ∨ month = 11 then 30
  else 31

/-- Years have four digits at most, and there is no year 0. -/
def Date.check (d : Date) : Except CalendarFault Date :=
  if d.year = 0 ∨ 9999 < d.year then .error (.year d.year)
  else if d.month = 0 ∨ 12 < d.month then .error .month
  else if d.day = 0 ∨ daysInMonth d.year d.month < d.day then .error .day
  else .ok d

/-- Clocks differ by less than a day. -/
def Zone.check (z : Zone) : Except CalendarFault Zone :=
  if z.ahead.natAbs < 1440 then .ok z else .error (.zone z.ahead)

/-- The zone is looked at before the date, and the date before the time of day. -/
def Moment.check (m : Moment) : Except CalendarFault Moment := do
  if let some z := m.zone? then
    let _ ← z.check
  let _ ← m.date.check
  if 23 < m.hour then .error .hour
  else if 59 < m.minute then .error .minute
  else if 59 < m.second then .error .second
  else .ok m

def Date.next (d : Date) : Date :=
  if d.day < daysInMonth d.year d.month then { d with day := d.day + 1 }
  else if d.month < 12 then ⟨d.year, d.month + 1, 1⟩
  else ⟨d.year + 1, 1, 1⟩

/-- The moment a second later, unless the last year ends before it. -/
def Moment.following (m : Moment) : Except CalendarFault Moment :=
  if m.second < 59 then .ok { m with second := m.second + 1 }
  else if m.minute < 59 then .ok { m with minute := m.minute + 1, second := 0 }
  else if m.hour < 23 then .ok { m with hour := m.hour + 1, minute := 0, second := 0 }
  else
    let date := m.date.next
    if 9999 < date.year then .error .beyond
    else .ok { m with date, hour := 0, minute := 0, second := 0 }

/-- The number of days from the first day of year 1 on. -/
def Date.ordinal (d : Date) : Nat :=
  let years := d.year - 1
  let months := (List.range' 1 (d.month - 1)).foldl (fun days m => days + daysInMonth d.year m) 0
  365 * years + years / 4 - years / 100 + years / 400 + months + (d.day - 1)

/-- The number of full minutes from the beginning of year 1 to the moment, by the clocks of a zone
that is ahead by `ahead`. -/
def Moment.minutes (m : Moment) (ahead : Int) : Int :=
  ((24 * m.date.ordinal + m.hour) * 60 + m.minute : Nat) - ahead

/-- Moments in zones are the same if they are at the same time, whatever the clocks show there. One
without a zone is none of those. -/
def Moment.same (m n : Moment) : Bool :=
  match m.zone?, n.zone? with
  | none, none => m == n
  | some y, some z =>
    m.minutes y.ahead == n.minutes z.ahead && m.second == n.second &&
      m.microsecond == n.microsecond
  | _, _ => false

def padded (width n : Nat) : String :=
  let digits := toString n
  String.ofList (List.replicate (width - digits.length) '0') ++ digits

def Date.text (d : Date) : String := s!"{padded 4 d.year}-{padded 2 d.month}-{padded 2 d.day}"

/-- The sign, the hours and the minutes of a zone, whatever its name is. -/
def Zone.text (z : Zone) : String :=
  let minutes := z.ahead.natAbs
  (if z.ahead < 0 then "-" else "+") ++ padded 2 (minutes / 60) ++ ":" ++ padded 2 (minutes % 60)

def Moment.text (m : Moment) : String :=
  let fraction := if m.microsecond = 0 then "" else "." ++ padded 6 m.microsecond
  let zone := (m.zone?.map Zone.text).getD ""
  s!"{m.date.text} {padded 2 m.hour}:{padded 2 m.minute}:{padded 2 m.second}{fraction}{zone}"

end Stencil
