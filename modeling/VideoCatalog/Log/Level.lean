import VideoCatalog.Failure
import VideoCatalog.Text.Blank
import VideoCatalog.Text.UpperCase

/-!
# Log levels

* `Level`: levels are whole numbers; `debug` to `critical` are the named ones.
* `Level.name`: the name that log lines show.
* `Level.named?`: the level of a name.
* `Level.resolve`: the level that a setting asks for, with a default for what names none.
* `Level.check`: the level of a setting that has to be one.
-/

namespace VideoCatalog

/-- A log level. A record passes a filter if its level is at least the filter's. -/
abbrev Level := Int

namespace Level

/-- Details for tracing. -/
def debug : Level := 10

/-- The ordinary course. -/
def info : Level := 20

/-- Something was left out. -/
def warning : Level := 30

/-- An operation failed. -/
def error : Level := 40

/-- The program cannot go on. -/
def critical : Level := 50

/-- The name of a level. -/
def name (level : Level) : String :=
  if level = 50 then "CRITICAL"
  else if level = 40 then "ERROR"
  else if level = 30 then "WARNING"
  else if level = 20 then "INFO"
  else if level = 10 then "DEBUG"
  else if level = 0 then "NOTSET"
  else "Level " ++ Quantity.intText level

/-- The levels that can be asked for by name. -/
def names : List (String × Level) := [
  ("CRITICAL", critical), ("FATAL", critical), ("ERROR", error), ("WARN", warning),
  ("WARNING", warning), ("INFO", info), ("DEBUG", debug), ("NOTSET", 0)]

/-- The level of a name in capitals. -/
def named? (name : String) : Option Level := names.lookup name

/-- The level that a setting asks for. Numbers stand for themselves, names are trimmed and
read in capitals, and everything else gives the default. -/
def resolve (setting : Value) (default : Value) : Value :=
  match setting with
  | .null => default
  | .bool b => .bool b
  | .number (.whole n) => .int n
  | v =>
    match named? (Text.upper (Text.trim v.plain)) with
    | some level => .int level
    | none => default

/-- The level of a setting that has to be a whole number or a name in capitals. -/
def check (setting : Value) : Except Failure Level :=
  match setting with
  | .bool b => .ok (if b then 1 else 0)
  | .number (.whole n) => .ok n
  | .text s =>
    match named? s with
    | some level => .ok level
    | none => .error (.unknownLevel s)
  | v => .error (.unsuitable v.kind "a level")

/-- Every name that is shown for a named level leads back to it. -/
theorem named?_name (l : Level) (h : l ∈ [critical, error, warning, info, debug, 0]) :
    named? (name l) = some l := by
  simp only [List.mem_cons, List.not_mem_nil, or_false] at h
  rcases h with rfl | rfl | rfl | rfl | rfl | rfl <;> decide

end Level

end VideoCatalog
