import VideoCatalog.Text.Quoted

/-!
# Crash reports

A failure that nothing handles is reported in a line of its own, and noted with its time in a
file of crashes.

* `Crash`: an unhandled failure.
* `Crash.line`: the line that reports it.
* `Crash.entry`: the lines that are added to the file of crashes.
-/

namespace VideoCatalog.CommandLine

/-- An unhandled failure: its kind, and its text. -/
structure Crash where
  kind : String
  text : String
deriving DecidableEq, Repr

namespace Crash

/-- The file of crashes, without the day that stands in its name. -/
def fileName : String := "crash_traceback"

/-- The kinds that are shown with the part of the program that they belong to. -/
def qualified : List (String × String) := [
  ("DecodeError", "enrichment.backend.DecodeError"),
  ("ResourceLeakError", "enrichment.tracker.ResourceLeakError"),
  ("EnumerationError", "discovery.scanner.EnumerationError")]

/-- The kind of a failed look-up, whose text is shown quoted. -/
def lookupKind : String := "KeyError"

/-- The text of a crash as it is shown. -/
def shown (c : Crash) : String := if c.kind = lookupKind then Text.quoted c.text else c.text

/-- The line that reports a crash; without a text it is the kind alone. -/
def line (c : Crash) : String :=
  let kind := (qualified.lookup c.kind).getD c.kind
  (if c.shown.isEmpty then kind else kind ++ ": " ++ c.shown) ++ "\n"

/-- The lines that are added to the file of crashes. -/
def entry (time : String) (c : Crash) : String :=
  "\n" ++ time ++ " Unhandled exception\n" ++ c.line

end Crash

end VideoCatalog.CommandLine
