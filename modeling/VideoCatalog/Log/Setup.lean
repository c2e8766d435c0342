import VideoCatalog.Log.Record

/-!
# Setting up the logs

Three logs are kept. The log of the library goes to the console, to a file, and from errors on
to a second file; time-keeping and the enrichment of items have a file each and stay away from
the console.

* `LogSettings`: the levels of the logs, and whether they were set up.
* `LogSettings.setup`: sets them up. The level of the library is kept from the first time on.
* `LogSettings.write`: the lines that a message leaves, and where.
-/

namespace VideoCatalog

/-- Where a line goes. -/
inductive LogTarget where
  | console
  | library
  | errors
  | performance
  | enrichment
deriving DecidableEq, Repr

namespace LogTarget

/-- The name of a log file, without its date. -/
def fileName : LogTarget → String
  | console => ""
  | library => "library_log"
  | errors => "error_log"
  | performance => "performance_log"
  | enrichment => "enrichment_log"

/-- The log files. -/
def files : List LogTarget := [library, errors, performance, enrichment]

end LogTarget

/-- The name of a log in its lines. -/
def Source.loggerName : Source → String
  | .main => "video_library"
  | .performance => "video_library.performance"
  | .enrichment => "video_library.enrichment"

/-- The key of a log. -/
def Source.key : Source → String
  | .main => "main"
  | .performance => "performance"
  | .enrichment => "enrichment"

/-- The logs by key. -/
def Source.all : List Source := [.main, .performance, .enrichment]

/-- The levels of the logs. A level of zero stands for the level above. -/
structure LogSettings where
  ready : Bool := false
  main : Level := 0
  performance : Level := 0
  enrichment : Level := 0
deriving DecidableEq, Repr

namespace LogSettings

/-- The level of all programs that set none. -/
def outermost : Level := Level.warning

/-- Sets up the logs. -/
def setup (s : LogSettings) (level enrichment : Value) : Except Failure LogSettings :=
  let main : Except Failure Level := if s.ready then .ok s.main else Level.check level
  match main with
  | .error f => .error f
  | .ok main =>
    (Level.check enrichment).map fun e =>
      { ready := true, main := main, performance := Level.info, enrichment := e }

/-- The level that a log was given. -/
def given (s : LogSettings) : Source → Level
  | .main => s.main
  | .performance => s.performance
  | .enrichment => s.enrichment

/-- The level from which on a log takes messages. -/
def threshold (s : LogSettings) (source : Source) : Level :=
  let library := if s.main = 0 then outermost else s.main
  match source with
  | .main => library
  | source => if s.given source = 0 then library else s.given source

/-- Whether a log passes its lines on to others. -/
def passesOn (s : LogSettings) (source : Source) : Bool := source == .main || !s.ready

/-- Where the lines of a log go at a level. -/
def targets (s : LogSettings) (source : Source) (level : Level) : List LogTarget :=
  if !s.ready then []
  else match source with
    | .main => [.console, .library] ++ (if Level.error ≤ level then [.errors] else [])
    | .performance => [.performance]
    | .enrichment => [.enrichment]

/-- How many handlers a log has. -/
def handlers (s : LogSettings) (source : Source) : Nat :=
  if !s.ready then 0
  else match source with
    | .main => 3
    | _ => 1

/-- A line of a log, without its time. -/
def line (source : Source) (level : Level) (text : String) : String :=
  "[" ++ Level.name level ++ "] " ++ source.loggerName ++ ": " ++ text

/-- The lines that a message leaves, each with the place where it goes. -/
def write (s : LogSettings) (r : Record) : List (LogTarget × String) :=
  if s.threshold r.source ≤ r.level then
    (s.targets r.source r.level).map (·, line r.source r.level r.text)
  else []

end LogSettings

end VideoCatalog
