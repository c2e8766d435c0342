import VideoCatalog.Log.Record
import VideoCatalog.Number.Fixed

/-!
# Progress

A reporter remembers how far a pass has come. While it runs it writes a summary from time to
time, and one more when it stops.

* `ProgressReporter`, `ProgressReporter.make`: the reporter, and its least interval.
* `ProgressReporter.fraction`: the part that is done; all of nothing is done.
* `ProgressReporter.summary`: the text of a summary.
* `start`, `stop`, `tick`, `report`: the operations.
-/

namespace VideoCatalog

/-- How far a pass has come, and whether summaries are written. -/
structure ProgressReporter where
  interval : Binary64
  enabled : Bool := true
  running : Bool := false
  completed : Value := .int 0
  total : Value := .int 0

namespace ProgressReporter

/-- The least interval between two summaries, half a second. -/
def leastInterval : Binary64 := .ofRatio false 1 2

/-- A reporter with an interval in seconds. -/
def make (interval : Value) (enabled : Bool) : Except Failure ProgressReporter :=
  interval.toReal.map fun x =>
    { interval := if x.less leastInterval then leastInterval else x, enabled := enabled }

/-- Takes note of the progress. -/
def report (p : ProgressReporter) (completed total : Value) : ProgressReporter :=
  { p with completed := completed, total := total }

/-- The quotient of two quantities. -/
def quotient (a b : Quantity) : Except Failure Binary64 :=
  match a, b with
  | .whole m, .whole n =>
    match Binary64.ofRatio ((m < 0) != (n < 0)) m.natAbs n.natAbs with
    | .infinite _ => .error .numberTooLarge
    | x => .ok x
  | a, b =>
    match a.toReal?, b.toReal? with
    | some x, some y => .ok (x.div y)
    | _, _ => .error .numberTooLarge

/-- The part that is done. -/
def fraction (p : ProgressReporter) : Except Failure Binary64 :=
  match p.total.quantity? with
  | none => .error (.unsuitable p.total.kind "compared with a number")
  | some total =>
    if total.atMost (.whole 0) then .ok .one
    else match p.completed.quantity? with
      | none => .error (.unsuitable p.completed.kind "divided")
      | some completed => quotient completed total

/-- The text of a summary. -/
def summary (p : ProgressReporter) (elapsed : Binary64) : Except Failure Record :=
  p.fraction.map fun part =>
    ⟨.performance, Level.info,
      "Processing " ++ p.completed.plain ++ "/" ++ p.total.plain ++ " (" ++
        (part.mul (Binary64.ofNat 100)).fixed 0 ++ "%) elapsed=" ++ elapsed.fixed 1 ++ "s"⟩

/-- Starts the summaries if they are enabled. -/
def start (p : ProgressReporter) : ProgressReporter :=
  if p.enabled then { p with running := true } else p

/-- Stops the summaries with a last one. -/
def stop (p : ProgressReporter) (elapsed : Binary64) :
    ProgressReporter × Except Failure (List Record) :=
  if p.running then ({ p with running := false }, (p.summary elapsed).map fun r => [r])
  else (p, .ok [])

/-- The summaries of some intervals. -/
def tick (p : ProgressReporter) (elapsed : Binary64) (intervals : Nat) :
    Except Failure (List Record) :=
  match intervals with
  | 0 => .ok []
  | n + 1 => (p.summary elapsed).map fun r => List.replicate (n + 1) r

end ProgressReporter

/-- The line that shows progress in place: it returns to its start, and ends when all is
done. -/
def progressLine (completed total : Value) : String :=
  "\rProcessing " ++ completed.plain ++ "/" ++ total.plain ++
    (if match completed.quantity?, total.quantity? with
        | some a, some b => a.equal b
        | _, _ => completed.sameKey total
      then "\n" else "")

end VideoCatalog
