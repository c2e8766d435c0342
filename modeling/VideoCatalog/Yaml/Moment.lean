import VideoCatalog.Value
import VideoCatalog.Yaml.Token

/-!
# Moments in settings files

A date is three numbers between dashes; a time of the day and a distance from universal time
may follow.

* `Moment`: the parts of a moment as they are written.
* `Moment.parse?`: takes a text apart.
* `Moment.isPlain`: whether a moment is recognised without a tag.
* `Moment.value`: the value of a moment that is on the calendar.
-/

namespace VideoCatalog.Yaml

/-- The parts of a time of the day, each as written. -/
structure ClockTime where
  hour : List Char
  minute : List Char
  second : List Char
  fraction : List Char
  zone : List Char
deriving DecidableEq, Repr

/-- The parts of a moment, each as written. -/
structure Moment where
  year : List Char
  month : List Char
  day : List Char
  time : Option ClockTime
deriving DecidableEq, Repr

namespace Moment

/-- As many digits as there are, up to a bound and at least one number of them. -/
def digits? (least most : Nat) (text : List Char) : Option (List Char × List Char) :=
  let found := (text.take most).takeWhile Char.isDigit
  if found.length < least then none else some (found, text.drop found.length)

/-- What follows a certain character. -/
def after? (c : Char) : List Char → Option (List Char)
  | x :: rest => if x = c then some rest else none
  | [] => none

/-- Whether a character is a space or a tab. -/
def isSpace (c : Char) : Bool := c == ' ' || c == '\t'

/-- What follows the separator between a date and a time. -/
def behindDate? : List Char → Option (List Char)
  | c :: rest =>
    if c = 'T' ∨ c = 't' then some rest
    else if isSpace c then some (rest.dropWhile isSpace)
    else none
  | [] => none

/-- Whether a text is a distance from universal time. -/
def isZone (text : List Char) : Bool :=
  match text with
  | ['Z'] => true
  | c :: rest =>
    (c == '+' || c == '-') &&
      match digits? 1 2 rest with
      | some (_, []) => true
      | some (_, ':' :: minutes) => minutes.length == 2 && minutes.all Char.isDigit
      | _ => false
  | [] => false

/-- A time of the day. -/
def time? (text : List Char) : Option ClockTime := do
  let (hour, rest) ← digits? 1 2 text
  let (minute, rest) ← digits? 2 2 (← after? ':' rest)
  let (second, rest) ← digits? 2 2 (← after? ':' rest)
  let (fraction, rest) := match rest with
    | '.' :: r => (r.takeWhile Char.isDigit, r.dropWhile Char.isDigit)
    | r => ([], r)
  let zone := rest.dropWhile isSpace
  if rest.isEmpty || isZone zone then some ⟨hour, minute, second, fraction, zone⟩ else none

/-- Takes a moment apart. -/
def parse? (text : List Char) : Option Moment := do
  let (year, rest) ← digits? 4 4 text
  let (month, rest) ← digits? 1 2 (← after? '-' rest)
  let (day, rest) ← digits? 1 2 (← after? '-' rest)
  if rest.isEmpty then some ⟨year, month, day, none⟩
  else
    let time ← time? (← behindDate? rest)
    some ⟨year, month, day, some time⟩

/-- Whether a moment is recognised without a tag: a date alone needs all its digits. -/
def isPlain (m : Moment) : Bool := m.time.isSome || (m.month.length == 2 && m.day.length == 2)

/-- The number that digits stand for. -/
def number (digits : List Char) : Nat := Numeral.digitsValue digits

/-- Whether a year has a day more. -/
def isLeap (year : Nat) : Bool := year % 4 == 0 && (year % 100 != 0 || year % 400 == 0)

/-- The days of a month. -/
def monthDays (year month : Nat) : Nat :=
  if month = 2 then (if isLeap year then 29 else 28)
  else if month = 4 ∨ month = 6 ∨ month = 9 ∨ month = 11 then 30 else 31

/-- Whether a date is on the calendar. -/
def isDate (year month day : Nat) : Bool :=
  0 < year && 0 < month && month ≤ 12 && 0 < day && day ≤ monthDays year month

/-- A number with leading zeros. -/
def padded (width n : Nat) : String :=
  let text := Quantity.intText n
  String.ofList (List.replicate (width - text.length) '0') ++ text

/-- The minutes of a distance from universal time and its text; `none` if it is a day or
more. -/
def zoneText? (zone : List Char) : Option String :=
  match zone with
  | [] => some ""
  | sign :: rest =>
    if sign = 'Z' then some "+00:00"
    else
      let hours := number (rest.takeWhile Char.isDigit)
      let minutes := hours * 60 + number ((rest.dropWhile Char.isDigit).drop 1)
      if 24 * 60 ≤ minutes then none
      else
        let sign := if minutes = 0 then '+' else sign
        some (String.ofList [sign] ++ padded 2 (minutes / 60) ++ ":" ++ padded 2 (minutes % 60))

/-- The text of a time of the day; `none` for a time that does not exist. -/
def timeText? (t : ClockTime) : Option String := do
  let hour := number t.hour
  let minute := number t.minute
  let second := number t.second
  let micros := number (t.fraction.take 6 ++ List.replicate (6 - t.fraction.length) '0')
  let zone ← zoneText? t.zone
  if hour < 24 ∧ minute < 60 ∧ second < 60 then
    some (" " ++ padded 2 hour ++ ":" ++ padded 2 minute ++ ":" ++ padded 2 second ++
      (if micros = 0 then "" else "." ++ padded 6 micros) ++ zone)
  else none

/-- The value of a moment that is on the calendar. -/
def value (m : Moment) : Except Fault Value :=
  let year := number m.year
  let month := number m.month
  let day := number m.day
  if isDate year month day then
    let date := padded 4 year ++ "-" ++ padded 2 month ++ "-" ++ padded 2 day
    match m.time with
    | none => .ok (.moment false date)
    | some t =>
      match timeText? t with
      | some time => .ok (.moment true (date ++ time))
      | none => .error .badMoment
  else .error .badMoment

end Moment

end VideoCatalog.Yaml
