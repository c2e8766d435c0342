import VideoCatalog.Number.Numeral
import VideoCatalog.Number.Shortest

/-!
# Quantities

A size, a duration or a time is a whole number of any size or a binary64 number. The two kinds
compare by exact value and keep their kind when they are shown.

* `Quantity.compare?`: comparison by value.
* `Quantity.toReal?`: the nearest binary64 number; `none` if a whole number is out of range.
* `Quantity.text`: the shortest text, with a point exactly for binary64 numbers.
-/

namespace VideoCatalog

/-- A whole number or a binary64 number. -/
inductive Quantity where
  | whole (n : Int)
  | real (x : Binary64)
deriving DecidableEq, Repr, Inhabited

namespace Quantity

/-- Comparison by exact value; `none` if one of the two is not-a-number. -/
def compare? : Quantity → Quantity → Option Ordering
  | .whole m, .whole n => some (compare m n)
  | .whole m, .real y => (y.compareInt? m).map Ordering.swap
  | .real x, .whole n => x.compareInt? n
  | .real x, .real y => x.compare? y

/-- Whether the first quantity is less. -/
def less (x y : Quantity) : Bool := compare? x y == some .lt

/-- Whether the first quantity is less or equal. -/
def atMost (x y : Quantity) : Bool :=
  match compare? x y with
  | some .lt | some .eq => true
  | _ => false

/-- Whether two quantities have the same value. -/
def equal (x y : Quantity) : Bool := compare? x y == some .eq

/-- Whether a quantity is zero, of either sign. -/
def isZero : Quantity → Bool
  | .whole n => n == 0
  | .real (.finite _ u) => u == 0
  | .real _ => false

/-- The nearest binary64 number. -/
def toReal? : Quantity → Option Binary64
  | .whole n => Binary64.ofInt? n
  | .real x => some x

/-- The quantity without its fraction; `none` for infinities and not-a-number. -/
def truncate? : Quantity → Option Int
  | .whole n => some n
  | .real x => x.truncate?

/-- The decimal text of a whole number. -/
def intText (n : Int) : String :=
  String.ofList (if n < 0 then '-' :: decimalDigits n.natAbs else decimalDigits n.natAbs)

/-- The shortest text of a quantity. -/
def text : Quantity → String
  | .whole n => intText n
  | .real x => x.text

@[simp] theorem compare?_whole (m n : Int) :
    compare? (.whole m) (.whole n) = some (compare m n) := rfl

@[simp] theorem compare?_real (x y : Binary64) : compare? (.real x) (.real y) = x.compare? y := rfl

end Quantity

end VideoCatalog
