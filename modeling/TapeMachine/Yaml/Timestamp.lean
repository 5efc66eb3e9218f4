-- Dates and times of day as documents may hold them.
namespace TapeMachine.Yaml

structure Date where
  year : Nat
  month : Nat
  day : Nat
  deriving DecidableEq, Repr

structure Clock where
  hour : Nat
  minute : Nat
  second : Nat
  microsecond : Nat
  deriving DecidableEq, Repr

inductive Timestamp where
  | day (date : Date)
  | time (date : Date) (clock : Clock) (zone : Option Int)
  deriving DecidableEq, Repr

-- Seconds as whole days and the rest of a day, the rest never negative.
structure Span where
  days : Int
  seconds : Int
  deriving DecidableEq, Repr

def secondsPerDay : Int := 86400

def Span.ofMinutes (minutes : Int) : Span :=
  ⟨(60*minutes).fdiv secondsPerDay,(60*minutes).fmod secondsPerDay⟩

def Span.text (span : Span) : String :=
  let days := if span.days = 0 then [] else [s!"days={span.days}"]
  let seconds := if span.seconds = 0 then [] else [s!"seconds={span.seconds}"]
  let parts := ", ".intercalate (days ++ seconds)
  s!"datetime.timedelta({parts})"

inductive TimeFault where
  | zone (span : Span)
  | year (number : Nat)
  | month | day | hour | minute | second
  deriving DecidableEq, Repr

def TimeFault.message : TimeFault → String
  | zone span => "offset must be a timedelta strictly between -timedelta(hours=24) and " ++
      s!"timedelta(hours=24), not {span.text}."
  | year number => s!"year {number} is out of range"
  | month => "month must be in 1..12"
  | day => "day is out of range for month"
  | hour => "hour must be in 0..23"
  | minute => "minute must be in 0..59"
  | second => "second must be in 0..59"

def isLeap (year : Nat) : Bool := year % 4 = 0 && (year % 100 ≠ 0 || year % 400 = 0)

def monthLengths (year : Nat) : List Nat :=
  [31,if isLeap year then 29 else 28,31,30,31,30,31,31,30,31,30,31]

def Date.fault? (date : Date) : Option TimeFault :=
  if date.year = 0 then some (.year 0)
  else if date.month = 0 ∨ 12 < date.month then some .month
  else if date.day = 0 ∨ (monthLengths date.year).getD (date.month-1) 0 < date.day then some .day
  else none

def Clock.fault? (clock : Clock) : Option TimeFault :=
  if 23 < clock.hour then some .hour
  else if 59 < clock.minute then some .minute
  else if 59 < clock.second then some .second
  else none

def zoneFault? (minutes : Int) : Option TimeFault :=
  if minutes.natAbs < 1440 then none else some (.zone (.ofMinutes minutes))

def Timestamp.fault? : Timestamp → Option TimeFault
  | day date => date.fault?
  | time date clock zone => ((zone.bind zoneFault?).or date.fault?).or clock.fault?

def padded (width n : Nat) : String :=
  let digits := toString n
  "".pushn '0' (width - digits.length) ++ digits

def commaSeparated (numbers : List Nat) : String := ", ".intercalate (numbers.map toString)

def Clock.parts (clock : Clock) : List Nat :=
  if clock.microsecond ≠ 0 then [clock.hour,clock.minute,clock.second,clock.microsecond]
  else if clock.second ≠ 0 then [clock.hour,clock.minute,clock.second]
  else [clock.hour,clock.minute]

def zoneText (minutes : Int) : String :=
  if minutes = 0 then "datetime.timezone.utc"
  else
    let span := Span.ofMinutes minutes
    s!"datetime.timezone({span.text})"

def Timestamp.shown : Timestamp → String
  | day date =>
    let parts := commaSeparated [date.year,date.month,date.day]
    s!"datetime.date({parts})"
  | time date clock zone =>
    let parts := commaSeparated ([date.year,date.month,date.day] ++ clock.parts)
    let zone := (zone.map fun minutes => ", tzinfo=" ++ zoneText minutes).getD ""
    s!"datetime.datetime({parts}{zone})"

def Date.plain (date : Date) : String :=
  padded 4 date.year ++ "-" ++ padded 2 date.month ++ "-" ++ padded 2 date.day

def zoneSuffix (minutes : Int) : String :=
  (if minutes < 0 then "-" else "+") ++ padded 2 (minutes.natAbs / 60) ++ ":" ++
    padded 2 (minutes.natAbs % 60)

def Timestamp.plain : Timestamp → String
  | day date => date.plain
  | time date clock zone =>
    let fraction := if clock.microsecond = 0 then "" else "." ++ padded 6 clock.microsecond
    date.plain ++ " " ++ padded 2 clock.hour ++ ":" ++ padded 2 clock.minute ++ ":" ++
      padded 2 clock.second ++ fraction ++ (zone.map zoneSuffix).getD ""

def Date.number (date : Date) : Nat :=
  let past := date.year - 1
  let months := (monthLengths date.year).take (date.month-1)
  365*past + past/4 - past/100 + past/400 + months.foldl (· + ·) date.day

def Timestamp.instant : Timestamp → Int
  | day date => date.number
  | time date clock zone =>
    let minutes : Int := (date.number*24 + clock.hour)*60 + clock.minute - zone.getD 0
    (minutes*60 + clock.second)*1000000 + clock.microsecond

end TapeMachine.Yaml
