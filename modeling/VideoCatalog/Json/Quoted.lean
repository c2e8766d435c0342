import VideoCatalog.Text.Quoted

/-!
# Quoted texts of documents

* `Alphabet`: whether a document may hold every character or ASCII alone.
* `escapeChar`: how one character is written inside quotes.
* `quoted`: a whole text with its quotes.
-/

namespace VideoCatalog.Json

/-- The characters that a document may hold. -/
inductive Alphabet where
  | unicode
  | ascii
deriving DecidableEq, Repr

/-- A code unit as an escape. -/
def escapeUnit (n : Nat) : List Char := '\\' :: 'u' :: Text.hexDigits 4 n

/-- A character as one escape, or as two beyond the first 65536. -/
def escapeCode (n : Nat) : List Char :=
  if n < 0x10000 then escapeUnit n
  else escapeUnit (0xd800 + (n - 0x10000) / 0x400) ++ escapeUnit (0xdc00 + (n - 0x10000) % 0x400)

/-- How a character is written inside quotes. -/
def escapeChar (alphabet : Alphabet) (c : Char) : List Char :=
  if c = '"' then ['\\', '"']
  else if c = '\\' then ['\\', '\\']
  else if c = '\n' then ['\\', 'n']
  else if c = '\r' then ['\\', 'r']
  else if c = '\t' then ['\\', 't']
  else if c.toNat = 8 then ['\\', 'b']
  else if c.toNat = 12 then ['\\', 'f']
  else if c.toNat < 0x20 then escapeUnit c.toNat
  else if alphabet = .ascii ∧ 0x7f ≤ c.toNat then escapeCode c.toNat
  else [c]

/-- The characters of a text with its quotes. -/
def quoted (alphabet : Alphabet) (text : List Char) : List Char :=
  '"' :: text.flatMap (escapeChar alphabet) ++ ['"']

end VideoCatalog.Json
