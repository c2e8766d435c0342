import VideoCatalog.Number.Rounding

/-!
# Binary64 numbers

A finite number is a sign and a count of units of `2 ^ -1074`, the least positive number of
the format. Sums, products and quotients are computed exactly on these counts and then
rounded once, so that every operation is correctly rounded.

* `nearestUnits n d`: the count nearest to `n / d` among those with 53 significant bits.
* `ofRatio`, `ofInt?`: the number nearest to a quotient or to a whole number.
* `add`, `sub`, `mul`, `div`: arithmetic with one rounding at the end.
* `less`, `equal`: comparison by value; nothing is less than or equal to not-a-number.
* `toBits`: the interchange encoding.
-/

namespace VideoCatalog

/-- A binary64 number. The value of a finite one is `± units / 2 ^ 1074`. -/
inductive Binary64 where
  | finite (negative : Bool) (units : Nat)
  | infinite (negative : Bool)
  | notANumber
deriving DecidableEq, Repr

namespace Binary64

/-- How many units make one. -/
def unitsPerOne : Nat := Nat.pow 2 1074

/-- Counts from this one on are out of range. -/
def unitsLimit : Nat := Nat.pow 2 2098

/-- The count of units nearest to `n / d` among those with at most 53 significant bits; a
half goes to the neighbour whose last bit is zero. -/
def nearestUnits (n d : Nat) : Nat :=
  let step := Nat.pow 2 (Nat.log2 (n / d) - 52)
  roundHalfEven n (d * step) * step

/-- The number nearest to `± n / d` units. -/
def ofUnits (negative : Bool) (n d : Nat) : Binary64 :=
  let units := nearestUnits n d
  if units < unitsLimit then .finite negative units else .infinite negative

/-- The number nearest to the quotient `± n / d`. -/
def ofRatio (negative : Bool) (n d : Nat) : Binary64 :=
  ofUnits negative (n * unitsPerOne) d

/-- Positive zero. -/
def zero : Binary64 := .finite false 0

/-- The number one. -/
def one : Binary64 := .finite false unitsPerOne

/-- The number nearest to a natural number. -/
def ofNat (n : Nat) : Binary64 := ofRatio false n 1

/-- The number nearest to a whole number; `none` if it is out of range. -/
def ofInt? (n : Int) : Option Binary64 :=
  match ofRatio (n < 0) n.natAbs 1 with
  | .infinite _ => none
  | x => some x

/-- Whether a number is neither infinite nor not-a-number. -/
def isFinite : Binary64 → Bool
  | .finite .. => true
  | _ => false

/-- The number with the opposite sign. -/
def neg : Binary64 → Binary64
  | .finite s u => .finite (!s) u
  | .infinite s => .infinite (!s)
  | .notANumber => .notANumber

/-- A count of units with its sign. -/
def signedUnits (negative : Bool) (units : Nat) : Int :=
  if negative then -(units : Int) else units

/-- Correctly rounded sum. A sum of zero is negative only if both terms are. -/
def add : Binary64 → Binary64 → Binary64
  | .notANumber, _ => .notANumber
  | _, .notANumber => .notANumber
  | .infinite s, .infinite t => if s == t then .infinite s else .notANumber
  | .infinite s, .finite .. => .infinite s
  | .finite .., .infinite t => .infinite t
  | .finite s u, .finite t v =>
    let sum := signedUnits s u + signedUnits t v
    if sum = 0 then .finite (s && t) 0 else ofUnits (sum < 0) sum.natAbs 1

/-- Correctly rounded difference. -/
def sub (x y : Binary64) : Binary64 := add x (neg y)

/-- Correctly rounded product. -/
def mul : Binary64 → Binary64 → Binary64
  | .notANumber, _ => .notANumber
  | _, .notANumber => .notANumber
  | .infinite s, .infinite t => .infinite (s != t)
  | .infinite s, .finite t v => if v = 0 then .notANumber else .infinite (s != t)
  | .finite s u, .infinite t => if u = 0 then .notANumber else .infinite (s != t)
  | .finite s u, .finite t v => ofUnits (s != t) (u * v) unitsPerOne

/-- Correctly rounded quotient. -/
def div : Binary64 → Binary64 → Binary64
  | .notANumber, _ => .notANumber
  | _, .notANumber => .notANumber
  | .infinite _, .infinite _ => .notANumber
  | .infinite s, .finite t _ => .infinite (s != t)
  | .finite s _, .infinite t => .finite (s != t) 0
  | .finite s u, .finite t v =>
    if v = 0 then (if u = 0 then .notANumber else .infinite (s != t))
    else ofRatio (s != t) u v

/-- Comparison by value; `none` if one of the two is not-a-number. -/
def compare? : Binary64 → Binary64 → Option Ordering
  | .notANumber, _ => none
  | _, .notANumber => none
  | .infinite s, .infinite t => some (compare t s)
  | .infinite s, .finite .. => some (if s then .lt else .gt)
  | .finite .., .infinite t => some (if t then .gt else .lt)
  | .finite s u, .finite t v => some (compare (signedUnits s u) (signedUnits t v))

/-- Whether the first number is less. -/
def less (x y : Binary64) : Bool := compare? x y == some .lt

/-- Whether two numbers have the same value. -/
def equal (x y : Binary64) : Bool := compare? x y == some .eq

/-- Comparison with a whole number, by exact value. -/
def compareInt? : Binary64 → Int → Option Ordering
  | .notANumber, _ => none
  | .infinite s, _ => some (if s then .lt else .gt)
  | .finite s u, n => some (compare (signedUnits s u) (n * unitsPerOne))

/-- The whole number nearest to a finite number on the side of zero. -/
def truncate? : Binary64 → Option Int
  | .finite s u => some (signedUnits s (u / unitsPerOne))
  | _ => none

/-- The whole number nearest to a finite number; a half goes to the even neighbour. -/
def round? : Binary64 → Option Int
  | .finite s u => some (signedUnits s (roundHalfEven u unitsPerOne))
  | _ => none

/-- The encoding of a number in 64 bits, sign first, then exponent, then fraction. -/
def toBits : Binary64 → Nat
  | .finite s u =>
    let magnitude :=
      if u < Nat.pow 2 52 then u
      else
        let shift := Nat.log2 u - 52
        (shift + 1) * Nat.pow 2 52 + (u / Nat.pow 2 shift - Nat.pow 2 52)
    (if s then Nat.pow 2 63 else 0) + magnitude
  | .infinite s => (if s then Nat.pow 2 63 else 0) + 2047 * Nat.pow 2 52
  | .notANumber => 2047 * Nat.pow 2 52 + Nat.pow 2 51

@[simp] theorem neg_neg (x : Binary64) : neg (neg x) = x := by
  cases x <;> simp [neg]

/-- Nothing compares with not-a-number. -/
@[simp] theorem compare?_notANumber (x : Binary64) : compare? x .notANumber = none := by
  cases x <;> rfl

end Binary64

end VideoCatalog
