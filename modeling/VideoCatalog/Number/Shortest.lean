import VideoCatalog.Number.Fixed

/-!
# The shortest decimal of a binary64 number

A decimal reads back as a given number if it lies in the interval of the reals that round to
that number. The shortest text has the fewest digits that read back, and of two candidates of
that length the nearer one.

* `Decimal`: digits and a power of ten.
* `readsBack`: membership in the rounding interval, by exact arithmetic.
* `shortest`: the search over the digit counts.
* `Binary64.text`: positional notation in the middle range of magnitudes, otherwise with a
  signed exponent of at least two digits.
-/

namespace VideoCatalog

/-- The decimal `digits * 10 ^ exponent`. -/
structure Decimal where
  digits : Nat
  exponent : Int
deriving DecidableEq, Repr

namespace Decimal

/-- Compares a decimal with `n / 4` units. -/
def compareQuarterUnits (x : Decimal) (n : Nat) : Ordering :=
  compare (4 * x.digits * Nat.pow 10 x.exponent.toNat * Binary64.unitsPerOne)
    (n * Nat.pow 10 (-x.exponent).toNat)

/-- Whether a decimal rounds to the number with the given positive count of units. The ends
of the interval belong to it when the last bit is zero; below a power of two the gap is half
as wide. -/
def readsBack (units : Nat) (x : Decimal) : Bool :=
  let step := Nat.pow 2 (Nat.log2 units - 52)
  let significand := units / step
  let narrow := significand == Nat.pow 2 52 && step != 1
  let low := x.compareQuarterUnits (4 * units - (if narrow then 1 else 2) * step)
  let high := x.compareQuarterUnits (4 * units + 2 * step)
  let closed := significand % 2 == 0
  (low == .gt || (closed && low == .eq)) && (high == .lt || (closed && high == .eq))

/-- The least `k` with the value of `units` below `10 ^ k`, found by going up from an
estimate that is not above it. -/
def scale (units : Nat) : Int :=
  let below (k : Int) : Bool :=
    (Decimal.mk 1 k).compareQuarterUnits (4 * units) == .gt
  let estimate : Int := (((Nat.log2 units : Int) - 1074) * 301029 - 1000000) / 1000000
  ((List.range 5).map (fun i : Nat => estimate + i)).find? below |>.getD (estimate + 5)

/-- The decimal with the given number of digits that reads back and is nearest. -/
def candidate? (units : Nat) (k : Int) (count : Nat) : Option Decimal :=
  let exponent := k - count
  let d := units * Nat.pow 10 (-exponent).toNat /
    (Nat.pow 10 exponent.toNat * Binary64.unitsPerOne)
  let lower := Decimal.mk d exponent
  let upper := Decimal.mk (d + 1) exponent
  match d != 0 && lower.readsBack units, upper.readsBack units with
  | true, true =>
    match compare (2 * 4 * units * Nat.pow 10 (-exponent).toNat)
        (4 * (2 * d + 1) * Nat.pow 10 exponent.toNat * Binary64.unitsPerOne) with
    | .lt => some lower
    | .gt => some upper
    | .eq => some (if d % 2 = 0 then lower else upper)
  | true, false => some lower
  | false, true => some upper
  | false, false => none

/-- The shortest decimal of a positive count of units. Seventeen digits always suffice. -/
def shortest (units : Nat) : Decimal :=
  let k := scale units
  ((List.range 17).findSome? fun i => candidate? units k (i + 1)).getD
    ⟨units * Nat.pow 5 1074, -1074⟩

/-- The digits without trailing zeros, and the place of the point: the value is
`0.digits * 10 ^ point`. -/
def layout (x : Decimal) : List Char × Int :=
  let digits := decimalDigits x.digits
  let kept := (digits.reverse.dropWhile (· == '0')).reverse
  (kept, x.exponent + digits.length)

end Decimal

/-- The text of a positive number: positional if the point falls from three zeros before the
first digit to sixteen digits after it, else with an exponent. -/
def Binary64.magnitudeText (units : Nat) : List Char :=
  let (digits, point) := (Decimal.shortest units).layout
  if -4 < point ∧ point ≤ 16 then
    if point ≤ 0 then
      '0' :: '.' :: (List.replicate (-point).toNat '0' ++ digits)
    else
      let whole := digits.take point.toNat
      let zeros := List.replicate (point.toNat - digits.length) '0'
      let fraction := digits.drop point.toNat
      whole ++ zeros ++ '.' :: (if fraction.isEmpty then ['0'] else fraction)
  else
    let exponent := point - 1
    let fraction := digits.drop 1
    digits.take 1 ++ (if fraction.isEmpty then [] else '.' :: fraction) ++
      'e' :: (if exponent < 0 then '-' else '+') ::
        padLeft '0' 2 (decimalDigits exponent.natAbs)

/-- The shortest text that identifies a number. -/
def Binary64.text : Binary64 → String
  | .finite s u =>
    let magnitude := if u = 0 then ['0', '.', '0'] else magnitudeText u
    String.ofList (if s then '-' :: magnitude else magnitude)
  | .infinite s => if s then "-inf" else "inf"
  | .notANumber => "nan"

end VideoCatalog
