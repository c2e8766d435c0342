/-!
# Tables of characters

Properties of characters are given by ascending ranges of code points, and mappings of
characters by runs of code points that move by the same distance.

* `inRanges`: membership in a list of ranges.
* `Run`, `Run.shift?`: a run of code points with a stride and a distance.
* `Mapping`: single characters by runs, the others by a list of exceptions.
-/

namespace VideoCatalog.Text

/-- Whether a code point lies in one of the ranges, ends included. -/
def inRanges (ranges : List (Nat × Nat)) (c : Nat) : Bool :=
  ranges.any fun r => r.1 ≤ c && c ≤ r.2

/-- Every `stride`-th code point from `first` to `last` moves by `distance`. -/
structure Run where
  first : Nat
  last : Nat
  stride : Nat
  distance : Int

/-- Where a run moves a code point that belongs to it. -/
def Run.shift? (run : Run) (c : Nat) : Option Nat :=
  if run.first ≤ c ∧ c ≤ run.last ∧ (c - run.first) % run.stride = 0 then
    some (c + run.distance).toNat
  else none

/-- A mapping of characters to texts. -/
structure Mapping where
  runs : List Run
  exceptions : List (Nat × List Nat)

/-- The text that a character is mapped to; a character in no run stands for itself. -/
def Mapping.apply (m : Mapping) (c : Char) : List Char :=
  match m.exceptions.lookup c.toNat with
  | some text => text.map Char.ofNat
  | none =>
    match m.runs.findSome? (·.shift? c.toNat) with
    | some n => [Char.ofNat n]
    | none => [c]

end VideoCatalog.Text
