import CloudSecrets.Text.Digit

/-!
# Dates and times

The proleptic Gregorian calendar from the year 1 to 9999. A moment is a date with a time of day and,
optionally, an offset from universal time of less than a day. Two moments with offsets are the same
if they are the same instant.
-/

namespace CloudSecrets.Calendar

/-- A day of the calendar. -/
structure Date where
  year : Nat
  month : Nat
  day : Nat
  deriving Repr, BEq, DecidableEq

/-- A date with a time of day and perhaps an offset, in minutes, from universal time. -/
structure Moment where
  date : Date
  hour : Nat
  minute : Nat
  second : Nat
  microsecond : Nat
  offset : Option Int
  deriving Repr, BEq, DecidableEq

/-- Why numbers make no date, time or offset. -/
inductive Fault where
  | year (n : Nat)
  | month
  | day
  | hour
  | minute
  | second
  | offset (minutes : Int)
  deriving Repr, DecidableEq

/-- Whether a year has a leap day. -/
def isLeap (year : Nat) : Bool := year % 4 == 0 && (year % 100 != 0 || year % 400 == 0)

/-- The number of days of a month. -/
def daysInMonth (year month : Nat) : Nat :=
  if month == 2 then (if isLeap year then 29 else 28)
  else if month == 4 || month == 6 || month == 9 || month == 11 then 30
  else 31

/-- The date of three numbers. -/
def date (year month day : Nat) : Except Fault Date :=
  if year < 1 || 9999 < year then .error (.year year)
  else if month < 1 || 12 < month then .error .month
  else if day < 1 || daysInMonth year month < day then .error .day
  else .ok ⟨year, month, day⟩

/-- The offset of a number of minutes, which must be less than a day. -/
def offset (minutes : Int) : Except Fault Int :=
  if minutes.natAbs < 1440 then .ok minutes else .error (.offset minutes)

/-- The moment of a date and a time of day. -/
def moment (d : Date) (hour minute second microsecond : Nat) (offset : Option Int) :
    Except Fault Moment :=
  if 23 < hour then .error .hour
  else if 59 < minute then .error .minute
  else if 59 < second then .error .second
  else .ok ⟨d, hour, minute, second, microsecond, offset⟩

/-- The days from the start of the calendar to the start of a year. -/
def daysBeforeYear (year : Nat) : Nat :=
  let y := year - 1
  y * 365 + y / 4 - y / 100 + y / 400

/-- The days from the start of the calendar to a date. -/
def Date.ordinal (d : Date) : Nat :=
  (List.range (d.month - 1)).foldl (fun n m => n + daysInMonth d.year (m + 1))
    (daysBeforeYear d.year) + d.day

/-- The microseconds from the start of the calendar to a moment, in universal time if the moment has
an offset. -/
def Moment.instant (m : Moment) : Int :=
  let minutes : Int := ((m.date.ordinal * 24 + m.hour) * 60 + m.minute : Nat) - m.offset.getD 0
  (minutes * 60 + m.second) * 1000000 + m.microsecond

/-- Whether two moments are the same instant, or the same reading of a clock without offset. -/
def Moment.same (a b : Moment) : Bool :=
  a.offset.isSome == b.offset.isSome && a.instant == b.instant

/-! ## Text -/

/-- A number filled up with zeros to a width. -/
def padded (width n : Nat) : String :=
  let s := Nat.repr n
  String.ofList (List.replicate (width - s.length) '0') ++ s

/-- A date as year, month and day. -/
def Date.text (d : Date) : String := s!"{padded 4 d.year}-{padded 2 d.month}-{padded 2 d.day}"

/-- An offset as hours and minutes. -/
def offsetText (minutes : Int) : String :=
  let n := minutes.natAbs
  (if minutes < 0 then "-" else "+") ++ s!"{padded 2 (n / 60)}:{padded 2 (n % 60)}"

/-- A moment as date, time and offset; microseconds are left out when there are none. -/
def Moment.text (m : Moment) : String :=
  s!"{m.date.text} {padded 2 m.hour}:{padded 2 m.minute}:{padded 2 m.second}"
    ++ (if m.microsecond == 0 then "" else "." ++ padded 6 m.microsecond)
    ++ (m.offset.map offsetText).getD ""

/-- A duration of minutes as days and seconds, as listings show it. -/
def durationListing (minutes : Int) : String :=
  let days := minutes.fdiv 1440
  let seconds := minutes.fmod 1440 * 60
  let parts := (if days == 0 then [] else [s!"days={days}"])
    ++ (if seconds == 0 then [] else [s!"seconds={seconds}"])
  let inner := if parts.isEmpty then "0" else String.intercalate ", " parts
  s!"datetime.timedelta({inner})"

/-- A date as listings show it. -/
def Date.listing (d : Date) : String := s!"datetime.date({d.year}, {d.month}, {d.day})"

/-- An offset as listings show it. -/
def offsetListing (minutes : Int) : String :=
  if minutes == 0 then "datetime.timezone.utc"
  else s!"datetime.timezone({durationListing minutes})"

/-- A moment as listings show it; seconds and microseconds are left out when there are none. -/
def Moment.listing (m : Moment) : String :=
  let numbers := [m.date.year, m.date.month, m.date.day, m.hour, m.minute]
    ++ (if m.second == 0 && m.microsecond == 0 then [] else [m.second])
    ++ (if m.microsecond == 0 then [] else [m.microsecond])
  let parts := numbers.map Nat.repr
    ++ (m.offset.map fun o => ["tzinfo=" ++ offsetListing o]).getD []
  let inner := String.intercalate ", " parts
  s!"datetime.datetime({inner})"

/-- The wording of a fault. -/
def Fault.message : Fault → String
  | .year n => s!"year {n} is out of range"
  | .month => "month must be in 1..12"
  | .day => "day is out of range for month"
  | .hour => "hour must be in 0..23"
  | .minute => "minute must be in 0..59"
  | .second => "second must be in 0..59"
  | .offset minutes =>
    "offset must be a timedelta strictly between -timedelta(hours=24) and timedelta(hours=24), not "
      ++ durationListing minutes ++ "."

end CloudSecrets.Calendar
