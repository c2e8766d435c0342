import VideoCatalog.Catalog.Format
import VideoCatalog.Query.Row

/-!
# Listings

One line to an item: duration, size, time of change, path and tags.

* `Civil`, `civilOfDays`: dates of the calendar, from days since 1970.
* `minuteText`: a time of change to the minute.
* `listingLine`, `listing`: the lines.
-/

namespace VideoCatalog

/-- A date of the calendar. -/
structure Civil where
  year : Int
  month : Nat
  day : Nat
deriving DecidableEq, Repr

/-- The date of a number of days since the first of January 1970. Years are counted from March
on, in groups of 400 with 146097 days. -/
def civilOfDays (days : Int) : Civil :=
  let shifted := days + 719468
  let era := shifted / 146097
  let dayOfEra := (shifted % 146097).toNat
  let yearOfEra := (dayOfEra - dayOfEra / 1460 + dayOfEra / 36524 - dayOfEra / 146096) / 365
  let dayOfYear := dayOfEra - (365 * yearOfEra + yearOfEra / 4 - yearOfEra / 100)
  let shiftedMonth := (5 * dayOfYear + 2) / 153
  let month := if shiftedMonth < 10 then shiftedMonth + 3 else shiftedMonth - 9
  let year := yearOfEra + era * 400 + (if month ≤ 2 then 1 else 0)
  ⟨year, month, dayOfYear - (153 * shiftedMonth + 2) / 5 + 1⟩

/-- The seconds of a day. -/
def daySeconds : Int := 86400

/-- The whole seconds of a time, after rounding to millionths. -/
def wholeSeconds (x : Binary64) : Option Int :=
  x.truncate?.bind fun whole =>
    let fraction := x.sub (.ofRatio (whole < 0) whole.natAbs 1)
    ((fraction.mul (Binary64.ofNat 1000000)).round?).map fun millionths =>
      if 1000000 ≤ millionths then whole + 1
      else if millionths < 0 then whole - 1
      else whole

/-- Times that the clock of the system can hold. -/
def clockLimit : Int := Nat.pow 2 63

/-- Times whose year fits into 32 bits. -/
def calendarLimit : Int := 67768036191676799

/-- A time of change to the minute. The year is not padded. -/
def minuteOfSeconds (seconds : Int) : Except Failure String :=
  if clockLimit ≤ seconds ∨ seconds < -clockLimit then .error .numberTooLarge
  else if calendarLimit < seconds ∨ seconds < -calendarLimit then .error (.file .badArgument "")
  else
    let date := civilOfDays (seconds / daySeconds)
    let before := civilOfDays (seconds / daySeconds - 1)
    if before.year < 1 ∨ 9999 < date.year then .error .badMoment
    else
      let minutes := (seconds % daySeconds / 60).toNat
      .ok (Quantity.intText date.year ++ "-" ++ twoDigits date.month ++ "-" ++
        twoDigits date.day ++ " " ++ twoDigits (minutes / 60) ++ ":" ++ twoDigits (minutes % 60))

/-- The text of a time of change. -/
def minuteText (modified : Value) : Except Failure String :=
  match modified.quantity? with
  | none => .error (.unsuitable modified.kind "a time")
  | some (.whole n) => minuteOfSeconds n
  | some (.real .notANumber) => .error .badMoment
  | some (.real x) =>
    match wholeSeconds x with
    | some n => minuteOfSeconds n
    | none => .error .numberTooLarge

/-- The width of the first two columns. -/
def columnWidth : Nat := 9

/-- A text moved to the right end of its column. -/
def rightAligned (text : String) : String :=
  String.ofList (padLeft ' ' columnWidth text.toList)

/-- The texts of tags, which all have to be texts. -/
def tagTexts : List Value → Except Failure (List String)
  | [] => .ok []
  | .text s :: rest => (tagTexts rest).map (s :: ·)
  | v :: _ => .error (.unsuitable v.kind "joined")

/-- The tags of a row in brackets; nothing if there are none. -/
def tagColumn (tags : Value) : Except Failure String :=
  if tags.truthy then
    match tags.elements with
    | .error f => .error f
    | .ok tags => (tagTexts tags).map fun texts => " [" ++ String.intercalate ", " texts ++ "]"
  else .ok ""

/-- The line of a row. -/
def listingLine (row : Row) : Except Failure String := do
  let modified ← minuteText row.modified
  let tags ← tagColumn row.tags
  let duration ← formatDuration row.duration
  let size ← formatBytes row.size
  return rightAligned duration ++ "  " ++ rightAligned size ++ "  " ++ modified ++ "  " ++
    row.path.plain ++ tags

/-- The lines of rows. -/
def listing : List Row → Except Failure (List String)
  | [] => .ok []
  | row :: rest =>
    match listingLine row with
    | .error f => .error f
    | .ok line => (listing rest).map (line :: ·)

end VideoCatalog
