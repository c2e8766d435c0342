import VideoCatalog.Text.Quoted

/-!
# Reading bytes as text

* `decode?`: the text of well-formed bytes.
* `encode`: the bytes of a text.
* `decodeLossy`: the text of any bytes; every longest ill-formed piece becomes one replacement
  character.
* `Flaw`, `flaw?`: the first ill-formed piece, and how it is reported.
-/

namespace VideoCatalog.Text

/-- The text of well-formed bytes. -/
def decode? (bytes : List UInt8) : Option String := String.fromUTF8? ⟨bytes.toArray⟩

/-- The bytes of a text. -/
def encode (text : String) : List UInt8 := text.toUTF8.data.toList

/-- The bytes of a text are well-formed and give the text back. -/
@[simp] theorem decode?_encode (text : String) : decode? (encode text) = some text := by
  have bytes : (⟨(encode text).toArray⟩ : ByteArray) = text.toByteArray := by
    simp [encode]
  rw [decode?, bytes, String.fromUTF8?, dif_pos text.isValidUTF8]
  rfl

/-- The character that stands for an ill-formed piece. -/
def replacement : Char := Char.ofNat 0xfffd

/-- The least and the greatest second byte after a first one, and how many bytes follow in
all; `none` if the first byte starts nothing. -/
def sequence? (b : Nat) : Option (Nat × Nat × Nat) :=
  if b < 0xc2 then none
  else if b < 0xe0 then some (0x80, 0xbf, 1)
  else if b = 0xe0 then some (0xa0, 0xbf, 2)
  else if b = 0xed then some (0x80, 0x9f, 2)
  else if b < 0xf0 then some (0x80, 0xbf, 2)
  else if b = 0xf0 then some (0x90, 0xbf, 3)
  else if b < 0xf4 then some (0x80, 0xbf, 3)
  else if b = 0xf4 then some (0x80, 0x8f, 3)
  else none

/-- The bits that a first byte contributes. -/
def firstBits (b : Nat) : Nat := if b < 0xe0 then b - 0xc0 else if b < 0xf0 then b - 0xe0 else b - 0xf0

/-- Takes following bytes while they are in range. Gives the bits, how many are missing, and
how many were taken. -/
def follow (bits missing low high : Nat) : List UInt8 → Nat × Nat × Nat
  | [] => (bits, missing, 0)
  | b :: rest =>
    if missing = 0 then (bits, 0, 0)
    else if low ≤ b.toNat ∧ b.toNat ≤ high then
      let (bits, missing, taken) := follow (64 * bits + (b.toNat - 0x80)) (missing - 1) 0x80 0xbf rest
      (bits, missing, taken + 1)
    else (bits, missing, 0)

/-- The characters of any bytes. -/
def lossyChars (fuel : Nat) (bytes : List UInt8) : List Char :=
  match fuel, bytes with
  | 0, _ => []
  | _, [] => []
  | fuel + 1, b :: rest =>
    if b.toNat < 0x80 then Char.ofNat b.toNat :: lossyChars fuel rest
    else match sequence? b.toNat with
      | none => replacement :: lossyChars fuel rest
      | some (low, high, missing) =>
        let (bits, missing, taken) := follow (firstBits b.toNat) missing low high rest
        let c := if missing = 0 then Char.ofNat bits else replacement
        c :: lossyChars fuel (rest.drop taken)

/-- The text of any bytes. -/
def decodeLossy (bytes : List UInt8) : String := String.ofList (lossyChars bytes.length bytes)

/-- An ill-formed piece of some bytes: how many bytes are before it, and what is wrong with it. -/
structure Flaw where
  position : Nat
  piece : List UInt8
  reason : String
deriving DecidableEq, Repr

/-- The first ill-formed piece of bytes that come after `position` others. -/
def flaw? (fuel position : Nat) (bytes : List UInt8) : Option Flaw :=
  match fuel, bytes with
  | 0, _ => none
  | _, [] => none
  | fuel + 1, b :: rest =>
    if b.toNat < 0x80 then flaw? fuel (position + 1) rest
    else match sequence? b.toNat with
      | none => some ⟨position, [b], "invalid start byte"⟩
      | some (low, high, missing) =>
        let (_, missing, taken) := follow (firstBits b.toNat) missing low high rest
        if missing = 0 then flaw? fuel (position + taken + 1) (rest.drop taken)
        else
          some ⟨position, b :: rest.take taken,
            if rest.length = taken then "unexpected end of data" else "invalid continuation byte"⟩

/-- The wording of a flaw. -/
def Flaw.message (f : Flaw) : String :=
  let number (n : Nat) : String := String.ofList (decimalDigits n)
  let piece : String := match f.piece with
    | [b] =>
      "byte 0x" ++ String.ofList (hexDigits 2 b.toNat) ++ " in position " ++ number f.position
    | bs => "bytes in position " ++ number f.position ++ "-" ++
        number (f.position + bs.length - 1)
  "'utf-8' codec can't decode " ++ piece ++ ": " ++ f.reason

end VideoCatalog.Text
