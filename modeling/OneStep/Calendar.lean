namespace OneStep

structure Day where
  year : Nat
  month : Nat
  day : Nat
  deriving DecidableEq, Repr

structure Moment where
  day : Day
  hour : Nat := 0
  minute : Nat := 0
  second : Nat := 0
  microsecond : Nat := 0
  zone : Option Int := none
  deriving DecidableEq, Repr

inductive CalendarError where
  | year (n : Nat)
  | month
  | day
  | hour
  | minute
  | second
  | zone (minutes : Int)
  deriving DecidableEq, Repr

namespace Calendar

def padded (width n : Nat) : String :=
  let digits := Nat.toDigits 10 n
  String.ofList (List.replicate (width - digits.length) '0' ++ digits)

def spanText (minutes : Int) : String :=
  let days := minutes.fdiv 1440
  let seconds := minutes.fmod 1440 * 60
  let parts := (if days = 0 then [] else [s!"days={days}"]) ++ (if seconds = 0 then [] else [s!"seconds={seconds}"])
  "datetime.timedelta(" ++ (if parts.isEmpty then "0" else ", ".intercalate parts) ++ ")"

end Calendar

namespace CalendarError

def text : CalendarError → String
  | .year n => s!"year {n} is out of range"
  | .month => "month must be in 1..12"
  | .day => "day is out of range for month"
  | .hour => "hour must be in 0..23"
  | .minute => "minute must be in 0..59"
  | .second => "second must be in 0..59"
  | .zone minutes =>
    "offset must be a timedelta strictly between -timedelta(hours=24) and timedelta(hours=24), not " ++
      Calendar.spanText minutes ++ "."

end CalendarError

namespace Day

def isLeap (year : Nat) : Bool :=
  year % 4 == 0 && (year % 100 != 0 || year % 400 == 0)

def daysIn (year month : Nat) : Nat :=
  if month = 2 then if isLeap year then 29 else 28
  else if month = 4 ∨ month = 6 ∨ month = 9 ∨ month = 11 then 30
  else 31

def check (d : Day) : Except CalendarError Day :=
  if d.year = 0 ∨ 9999 < d.year then .error (.year d.year)
  else if d.month = 0 ∨ 12 < d.month then .error .month
  else if d.day = 0 ∨ daysIn d.year d.month < d.day then .error .day
  else .ok d

def number (d : Day) : Nat :=
  let years := d.year - 1
  let months := ((List.range (d.month - 1)).map fun m => daysIn d.year (m + 1)).foldl (· + ·) 0
  years * 365 + years / 4 - years / 100 + years / 400 + months + d.day

def text (d : Day) : String :=
  s!"{Calendar.padded 4 d.year}-{Calendar.padded 2 d.month}-{Calendar.padded 2 d.day}"

def quoted (d : Day) : String :=
  s!"datetime.date({d.year}, {d.month}, {d.day})"

end Day

namespace Moment

def checkZone (zone : Option Int) : Except CalendarError Unit :=
  match zone with
  | some minutes => if -1440 < minutes ∧ minutes < 1440 then .ok () else .error (.zone minutes)
  | none => .ok ()

def check (m : Moment) : Except CalendarError Moment := do
  checkZone m.zone
  let _ ← m.day.check
  if 23 < m.hour then .error .hour
  else if 59 < m.minute then .error .minute
  else if 59 < m.second then .error .second
  else .ok m

def instant (m : Moment) : Int :=
  let minutes : Int := (m.day.number * 24 + m.hour) * 60 + m.minute - m.zone.getD 0
  (minutes * 60 + m.second) * 1000000 + m.microsecond

def zoneText (minutes : Int) : String :=
  let sign := if minutes < 0 then "-" else "+"
  s!"{sign}{Calendar.padded 2 (minutes.natAbs / 60)}:{Calendar.padded 2 (minutes.natAbs % 60)}"

def text (m : Moment) : String :=
  let time := s!"{Calendar.padded 2 m.hour}:{Calendar.padded 2 m.minute}:{Calendar.padded 2 m.second}"
  let fraction := if m.microsecond = 0 then "" else s!".{Calendar.padded 6 m.microsecond}"
  s!"{m.day.text} {time}{fraction}" ++ (m.zone.map zoneText).getD ""

def quotedZone (minutes : Int) : String :=
  if minutes = 0 then "datetime.timezone.utc" else s!"datetime.timezone({Calendar.spanText minutes})"

def quoted (m : Moment) : String :=
  let time :=
    if m.microsecond ≠ 0 then [m.hour, m.minute, m.second, m.microsecond]
    else if m.second ≠ 0 then [m.hour, m.minute, m.second]
    else [m.hour, m.minute]
  let parts := ([m.day.year, m.day.month, m.day.day] ++ time).map toString
  let zone := match m.zone with
    | some minutes => ["tzinfo=" ++ quotedZone minutes]
    | none => []
  "datetime.datetime(" ++ ", ".intercalate (parts ++ zone) ++ ")"

end Moment

end OneStep
