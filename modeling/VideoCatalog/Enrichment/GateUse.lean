import VideoCatalog.Enrichment.Gate
import VideoCatalog.Failure

/-!
# Using a gate

Callers send writes and verdicts to a gate. The first verdict runs a callback, which may
itself use the gate.

* `GateBook`: a gate with the calls and writes so far; `GateBook.guarded` is a write, and
  `GateBook.settle` a verdict alone.
* `Callback`: what follows the first verdict.
* `GateUse`: a gate with its callback; `GateUse.finalize` is a verdict with what follows it.
-/

namespace VideoCatalog

/-- A verdict with an explanation. -/
structure Verdict where
  outcome : Value
  error : Value := .null
deriving Inhabited

/-- A gate with the calls of its callback and the writes that passed. -/
structure GateBook where
  gate : Gate Verdict := {}
  calls : List Value := []
  writes : List Value := []

namespace GateBook

/-- A write that fails after passing the gate, or is made. The flag says whether it passed. -/
def guarded (book : GateBook) (write : Except Failure Value) : Except Failure Bool × GateBook :=
  if book.gate.admits then
    match write with
    | .ok v => (.ok true, { book with writes := book.writes ++ [v] })
    | .error f => (.error f, book)
  else (.ok false, book)

/-- Gives a verdict without a callback. The flag says whether it was the first. -/
def settle (book : GateBook) (v : Verdict) : Bool × GateBook :=
  let (first, gate) := book.gate.decide v
  (first, { book with gate := gate })

/-- Marks that what had to follow the verdict is done. -/
def finish (book : GateBook) : GateBook := { book with gate := book.gate.finish }

@[simp] theorem calls_finish (book : GateBook) : book.finish.calls = book.calls := rfl

end GateBook

/-- What follows the first verdict: nothing, a note of it, a note and a failure, or a note and
another verdict and write. -/
inductive Callback where
  | absent
  | recording
  | raising (f : Failure)
  | reentering (again : Verdict) (late : Value)

/-- Runs a callback on an outcome. -/
def Callback.run (callback : Callback) (book : GateBook) (outcome : Value) :
    Except Failure Unit × GateBook :=
  let noted := { book with calls := book.calls ++ [outcome] }
  match callback with
  | .absent => (.ok (), book)
  | .recording => (.ok (), noted)
  | .raising f => (.error f, noted)
  | .reentering again late =>
    let (won, used) := noted.settle again
    let done := !used.gate.admits
    let (passed, used) := used.guarded (.ok late)
    let passedFlag := match passed with
      | .ok b => b
      | .error _ => false
    (.ok (), { used with
      calls := used.calls ++ [.list [.bool won, .bool done, .bool passedFlag]] })

/-- A gate with its callback. -/
structure GateUse extends GateBook where
  callback : Callback

namespace GateUse

/-- A write. -/
def guarded (u : GateUse) (write : Except Failure Value) : Except Failure Bool × GateUse :=
  let (passed, book) := u.toGateBook.guarded write
  (passed, ⟨book, u.callback⟩)

/-- Gives a verdict. The first one runs the callback and finishes the gate, also if the
callback fails. -/
def finalize (u : GateUse) (v : Verdict) : Except Failure Bool × GateUse :=
  let (first, book) := u.toGateBook.settle v
  if first then
    let (result, book) := u.callback.run book v.outcome
    (result.map fun _ => true, ⟨book.finish, u.callback⟩)
  else (.ok false, ⟨book, u.callback⟩)

/-- The verdict of a list of arguments. -/
def verdictOf : List Value → Except Failure Verdict
  | [outcome] => .ok ⟨outcome, .null⟩
  | [outcome, error] => .ok ⟨outcome, error⟩
  | args => .error (.unsuitable "list" ("a verdict of " ++ Quantity.intText args.length))

end GateUse

end VideoCatalog
