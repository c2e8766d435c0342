import VideoCatalog.Number.Binary64
import VideoCatalog.Text.Blank
import VideoCatalog.Text.DecimalDigit

/-!
# Numerals

Numbers written as text. Blanks around a numeral are ignored, digits of any script count, and
single underscores may stand between digits.

* `Numeral.int`: whole numbers, with a limit on the number of digits.
* `Numeral.real`: decimals with an optional exponent, and the names of the special values.
* `Binary64.ofDecimal`: the number nearest to a decimal.
-/

namespace VideoCatalog

/-- The number nearest to `± digits * 10 ^ exponent`. Decimals far out of range are decided by
their magnitude alone. -/
def Binary64.ofDecimal (negative : Bool) (digits : Nat) (exponent : Int) : Binary64 :=
  let magnitude := (decimalDigits digits).length + exponent
  if digits = 0 then .finite negative 0
  else if 310 < magnitude then .infinite negative
  else if magnitude < -330 then .finite negative 0
  else ofRatio negative (digits * Nat.pow 10 exponent.toNat)
    (Nat.pow 10 (-exponent).toNat)

namespace Numeral

/-- Why a text is not read as a number. -/
inductive Fault where
  | malformed
  | tooManyDigits (count : Nat)
deriving DecidableEq, Repr

/-- The greatest number of digits in a whole number read from text. -/
def digitLimit : Nat := 4300

/-- The ASCII form of a character of a numeral: digits of other scripts become ASCII digits
and other blanks become spaces. -/
def asciiForm (c : Char) : Char :=
  if c.toNat < 0x7f then c
  else if Text.isBlank c then ' '
  else match Text.digitValue? c with
    | some v => Char.ofNat ('0'.toNat + v)
    | none => '?'

/-- The ASCII blanks around a numeral. -/
def isBlank (c : Char) : Bool := c == ' ' || (9 ≤ c.toNat && c.toNat ≤ 13)

/-- The characters of a numeral in ASCII form, without the blanks around it. -/
def normalize (text : List Char) : List Char :=
  Text.trimBoth isBlank (text.map asciiForm)

/-- Whether the next character is a digit. -/
def startsWithDigit : List Char → Bool
  | c :: _ => c.isDigit
  | [] => false

/-- Drops the underscores that stand between two digits. Any other underscore makes the text
malformed. -/
def dropUnderscores (afterDigit : Bool) : List Char → Option (List Char)
  | [] => some []
  | c :: rest =>
    if c = '_' then
      if afterDigit && startsWithDigit rest then dropUnderscores false rest else none
    else (dropUnderscores c.isDigit rest).map (c :: ·)

/-- The sign at the start of a numeral and what follows it. -/
def splitSign : List Char → Bool × List Char
  | '-' :: rest => (true, rest)
  | '+' :: rest => (false, rest)
  | text => (false, text)

/-- The number that ASCII digits stand for. -/
def digitsValue (digits : List Char) : Nat :=
  digits.foldl (fun n c => 10 * n + (c.toNat - '0'.toNat)) 0

/-- Reads a whole number. -/
def int (text : String) : Except Fault Int :=
  let (negative, body) := splitSign (normalize text.toList)
  match dropUnderscores false body with
  | none => .error .malformed
  | some digits =>
    if digits.isEmpty || !digits.all Char.isDigit then .error .malformed
    else if digitLimit < digits.length then .error (.tooManyDigits digits.length)
    else
      let n : Int := digitsValue digits
      .ok (if negative then -n else n)

/-- The exponent of a decimal: nothing, or a mark, an optional sign and digits. -/
def exponent? : List Char → Option Int
  | [] => some 0
  | c :: rest =>
    if c = 'e' ∨ c = 'E' then
      let (negative, digits) := splitSign rest
      if digits.isEmpty || !digits.all Char.isDigit then none
      else
        let n : Int := digitsValue digits
        some (if negative then -n else n)
    else none

/-- Reads a decimal without sign: digits with at most one point, at least one digit, then an
exponent. -/
def decimal? (negative : Bool) (text : List Char) : Option Binary64 :=
  let whole := text.takeWhile Char.isDigit
  let rest := text.dropWhile Char.isDigit
  let (fraction, rest) := match rest with
    | '.' :: r => (r.takeWhile Char.isDigit, r.dropWhile Char.isDigit)
    | r => ([], r)
  if whole.isEmpty && fraction.isEmpty then none
  else (exponent? rest).map fun e =>
    Binary64.ofDecimal negative (digitsValue (whole ++ fraction)) (e - fraction.length)

/-- The names of the values that have no digits. -/
def named? (negative : Bool) (text : List Char) : Option Binary64 :=
  let name := String.ofList (text.map Char.toLower)
  if name = "inf" ∨ name = "infinity" then some (.infinite negative)
  else if name = "nan" then some .notANumber
  else none

/-- Reads a decimal number. -/
def real (text : String) : Except Fault Binary64 :=
  match dropUnderscores false (normalize text.toList) with
  | none => .error .malformed
  | some plain =>
    let (negative, body) := splitSign plain
    match (named? negative body).orElse fun _ => decimal? negative body with
    | some x => .ok x
    | none => .error .malformed

end Numeral

end VideoCatalog
