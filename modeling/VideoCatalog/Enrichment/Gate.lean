import VideoCatalog.Value

/-!
# Gates

A gate is passed by whatever comes before the first verdict. The first verdict shuts it, later
ones are ignored, and it is finished when what had to follow the verdict is done.

* `Gate`: the verdict, if there is one, and whether it is finished.
* `Gate.decide`: gives a verdict; the flag says whether it was the first.
* `Gate.admits`: whether writes still pass.
-/

namespace VideoCatalog

/-- A gate for writes, shut by the first verdict. -/
structure Gate (α : Type) where
  verdict : Option α := none
  finished : Bool := false
deriving DecidableEq, Repr

namespace Gate

variable {α : Type}

/-- The gate at the start. -/
def fresh : Gate α := {}

/-- Whether writes still pass. -/
def admits (g : Gate α) : Bool := g.verdict.isNone

/-- Gives a verdict. The flag says whether it was the first. -/
def decide (g : Gate α) (v : α) : Bool × Gate α :=
  match g.verdict with
  | some _ => (false, g)
  | none => (true, { g with verdict := some v })

/-- Marks that what had to follow the verdict is done. -/
def finish (g : Gate α) : Gate α := { g with finished := true }

/-- A verdict that is there stays. -/
@[simp] theorem decide_of_some {v : α} {b : Bool} (w : α) :
    (Gate.mk (some v) b).decide w = (false, ⟨some v, b⟩) := rfl

/-- The first verdict is taken. -/
@[simp] theorem decide_of_none {b : Bool} (w : α) :
    (Gate.mk none b).decide w = (true, ⟨some w, b⟩) := rfl

@[simp] theorem verdict_finish (g : Gate α) : g.finish.verdict = g.verdict := rfl

end Gate

end VideoCatalog
