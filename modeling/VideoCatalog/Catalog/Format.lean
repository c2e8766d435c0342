import VideoCatalog.Failure
import VideoCatalog.Number.Fixed

/-!
# Sizes and durations as text

* `formatBytes`: a size in the largest unit in which it is at least one, with one decimal
  below ten.
* `formatDuration`: minutes and seconds, with hours from one hour on.

What is missing, infinite or not a number has a text of its own.
-/

namespace VideoCatalog

/-- The units of sizes. Each is 1024 of the one before. -/
def sizeUnits : List String := ["B", "KB", "MB", "GB", "TB"]

/-- The number of bytes in a kilobyte. -/
def kilo : Binary64 := Binary64.ofNat 1024

/-- Goes on to the next unit while there is one and the amount is at least 1024. Gives the
amount and the number of steps. -/
def scaleSize (amount : Binary64) (step : Nat) : Nat → Binary64 × Nat
  | 0 => (amount, step)
  | left + 1 =>
    if amount.less kilo then (amount, step) else scaleSize (amount.div kilo) (step + 1) left

/-- The text of a finite size. -/
def formatFiniteBytes (size : Binary64) : String :=
  let (amount, step) := scaleSize size 0 (sizeUnits.length - 1)
  let places := if amount.less (Binary64.ofNat 10) ∧ step ≠ 0 then 1 else 0
  amount.fixed places ++ " " ++ sizeUnits.getD step ""

/-- The text of a size. -/
def formatBytes (size : Value) : Except Failure String :=
  match size with
  | .null => .ok "?"
  | v => (v.real).map fun x => if x.isFinite then formatFiniteBytes x else "?"

/-- Two digits of a number below a hundred. -/
def twoDigits (n : Nat) : String := String.ofList (padLeft '0' 2 (decimalDigits n))

/-- The text of a number of seconds. -/
def formatSeconds (total : Nat) : String :=
  let hours := total / 3600
  let minutes := total % 3600 / 60
  let rest := ":" ++ twoDigits (total % 60)
  if hours = 0 then String.ofList (decimalDigits minutes) ++ rest
  else String.ofList (decimalDigits hours) ++ ":" ++ twoDigits minutes ++ rest

/-- The text of a duration. Fractions of a second are dropped, and negative durations count
as zero. -/
def formatDuration (seconds : Value) : Except Failure String :=
  match seconds with
  | .null => .ok "—"
  | v =>
    match v.real with
    | .error f => .error f
    | .ok x =>
      if x.isFinite then
        match (v.quantity?).bind Quantity.truncate? with
        | some n => .ok (formatSeconds n.toNat)
        | none => .ok "—"
      else .ok "—"

end VideoCatalog
