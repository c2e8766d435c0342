import VideoCatalog.Catalog.Item

/-!
# Data URLs

Bytes as text: three bytes become four characters of an alphabet of 64, and an incomplete
group at the end is filled up with equal signs.

* `base64`: the characters of some bytes.
* `base64Decode?`: the bytes of some characters.
* `Thumbnail.dataUrl`: a thumbnail inside a URL.
-/

namespace VideoCatalog

/-- The character of a number below 64. -/
def base64Char (n : Nat) : Char :=
  if n < 26 then Char.ofNat ('A'.toNat + n)
  else if n < 52 then Char.ofNat ('a'.toNat + (n - 26))
  else if n < 62 then Char.ofNat ('0'.toNat + (n - 52))
  else if n = 62 then '+'
  else '/'

/-- The characters of some bytes. -/
def base64 : List UInt8 → List Char
  | [] => []
  | [a] =>
    [base64Char (a.toNat / 4), base64Char (a.toNat % 4 * 16), '=', '=']
  | [a, b] =>
    [base64Char (a.toNat / 4), base64Char (a.toNat % 4 * 16 + b.toNat / 16),
      base64Char (b.toNat % 16 * 4), '=']
  | a :: b :: c :: rest =>
    base64Char (a.toNat / 4) :: base64Char (a.toNat % 4 * 16 + b.toNat / 16) ::
      base64Char (b.toNat % 16 * 4 + c.toNat / 64) :: base64Char (c.toNat % 64) :: base64 rest

/-- The number of a character. -/
def base64Value? (c : Char) : Option Nat :=
  if 'A' ≤ c ∧ c ≤ 'Z' then some (c.toNat - 'A'.toNat)
  else if 'a' ≤ c ∧ c ≤ 'z' then some (c.toNat - 'a'.toNat + 26)
  else if c.isDigit then some (c.toNat - '0'.toNat + 52)
  else if c = '+' then some 62
  else if c = '/' then some 63
  else none

/-- The bytes behind some characters, of which those outside the alphabet are passed over. `place`
counts the characters of the current group of four, `left` are the bits not yet used, and `pads`
the padding in a row. -/
def base64Bytes? (place left pads : Nat) : List Char → Option (List UInt8)
  | [] => if place = 0 then some [] else none
  | c :: rest =>
    if c = '=' then
      if 2 ≤ place ∧ 4 ≤ place + pads + 1 then some []
      else base64Bytes? place left (if 2 ≤ place then pads + 1 else pads) rest
    else match base64Value? c with
      | none => base64Bytes? place left pads rest
      | some v =>
        if place = 0 then base64Bytes? 1 v 0 rest
        else
          let bits := 2 * place
          let byte := UInt8.ofNat (left * Nat.pow 2 bits + v / Nat.pow 2 (6 - bits))
          let next := if place = 3 then 0 else place + 1
          (base64Bytes? next (v % Nat.pow 2 (6 - bits)) 0 rest).map (byte :: ·)

/-- The bytes that some characters stand for; `none` if their last group is not complete, or if one
of them is not in ASCII. -/
def base64Decode? (text : List Char) : Option (List UInt8) :=
  if text.all (·.toNat < 0x80) then base64Bytes? 0 0 0 text else none

/-- A thumbnail inside a URL. -/
def Thumbnail.dataUrl (t : Thumbnail) : String :=
  "data:" ++ t.mime ++ ";base64," ++ String.ofList (base64 t.data)

/-- Every group of up to three bytes takes four characters. -/
theorem length_base64 (bytes : List UInt8) :
    (base64 bytes).length = 4 * ((bytes.length + 2) / 3) := by
  fun_induction base64 bytes with
  | case1 => rfl
  | case2 => simp
  | case3 => simp
  | case4 a b c rest ih => simp [ih]; omega

end VideoCatalog
