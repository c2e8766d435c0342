import VideoCatalog.Enrichment.Thumbnail

/-!
# Decode sessions

What a decode session does, stage by stage: it reads the metadata, goes to a position and
captures a frame. Every stage may block until the session is closed.

* `Stage`: the result of a stage, whether it blocks, and the command that it starts.
* `Party`: the two paths on which an item is enriched.
* `Decoding`: the stages of a session, what opening and closing it raise, and how the two
  paths take turns.
-/

namespace VideoCatalog

/-- The paths on which an item is enriched: one decodes, one watches the deadline. -/
inductive Party where
  | decode
  | deadline
deriving DecidableEq, Repr

/-- One stage of a decode session. -/
structure Stage (α : Type) where
  result : Except Failure α
  blocks : Bool := false
  command : Option (List String) := none

/-- What a decode session does. The paths take their first turns in the order `turns`; then
the decode path runs until it blocks or ends, and the deadline passes if it blocks. -/
structure Decoding where
  opening : Except Failure Unit := .ok ()
  metadata : Stage Value
  seek : Binary64 → Stage Unit
  capture : Binary64 → Stage Picture
  closing : Option Failure := none
  turns : List Party := []

namespace Stage

/-- Whether a stage can be passed: it does not block, or the session has been closed. -/
def passes {α : Type} (stage : Stage α) (closed : Bool) : Bool := !stage.blocks || closed

@[simp] theorem passes_closed {α : Type} (stage : Stage α) : stage.passes true = true := by
  simp [passes]

end Stage

end VideoCatalog
