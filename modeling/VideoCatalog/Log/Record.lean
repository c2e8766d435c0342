import VideoCatalog.Log.Level

/-!
# Log records

* `Source`: who writes a record.
* `Record`: one line of a log.
* `Record.visible`: what remains of records under the levels of their sources.
-/

namespace VideoCatalog

/-- Who writes a record: the library, its time-keeping, or the enrichment of items. -/
inductive Source where
  | main
  | performance
  | enrichment
deriving DecidableEq, Repr

/-- One line of a log. -/
structure Record where
  source : Source
  level : Level
  text : String
deriving DecidableEq, Repr

namespace Record

/-- A detail about the library. -/
def debug (text : String) : Record := ⟨.main, Level.debug, text⟩

/-- A message about the library. -/
def info (text : String) : Record := ⟨.main, Level.info, text⟩

/-- A warning about the library. -/
def warning (text : String) : Record := ⟨.main, Level.warning, text⟩

/-- The records that reach the level of their source. -/
def visible (threshold : Source → Level) (log : List Record) : List Record :=
  log.filter fun r => threshold r.source ≤ r.level

@[simp] theorem visible_nil (threshold : Source → Level) : visible threshold [] = [] := rfl

@[simp] theorem visible_append (threshold : Source → Level) (a b : List Record) :
    visible threshold (a ++ b) = visible threshold a ++ visible threshold b := by
  simp [visible]

end Record

end VideoCatalog
