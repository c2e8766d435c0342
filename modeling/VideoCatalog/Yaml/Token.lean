import VideoCatalog.Failure

/-!
# Tokens of settings files

* `Fault`: why a text is no settings file.
* `Token`: marks of structure, and scalars with the way in which they were written.
* `Cursor`: a place in a text, with its line and column.
-/

namespace VideoCatalog.Yaml

/-- Why a text is no settings file: it breaks the grammar, or a value in it cannot be made. -/
inductive Fault where
  | malformed
  | badNumber
  | badName
  | emptyNumber
  | badMoment
  | noMoment
  | tooManyDigits (count : Nat)
  | tooDeep
deriving DecidableEq, Repr

/-- The failure behind a fault. -/
def Fault.failure : Fault → Failure
  | malformed => .malformedSettings
  | badNumber => .malformedNumber
  | badName => .nothingOpen
  | emptyNumber => .indexOutOfRange
  | badMoment => .badMoment
  | noMoment => .noMember "NoneType" "year"
  | tooManyDigits n => .tooManyDigits n
  | tooDeep => .nestedTooDeeply

/-- The tokens. -/
inductive Token where
  | directive (name : String) (args : List String)
  | documentStart
  | documentEnd
  | streamEnd
  | blockSequenceStart
  | blockMappingStart
  | blockEnd
  | flowSequenceStart
  | flowSequenceEnd
  | flowMappingStart
  | flowMappingEnd
  | flowEntry
  | blockEntry
  | key
  | value
  | alias_ (name : String)
  | anchor (name : String)
  | tag (handle : Option String) (suffix : String)
  | scalar (text : String) (plain : Bool)
deriving DecidableEq, Repr

/-- Whether a character ends a line. -/
def isBreak (c : Char) : Bool :=
  c == '\n' || c == '\r' || c.toNat == 0x85 || c.toNat == 0x2028 || c.toNat == 0x2029

/-- What stands behind the end of a text. -/
def endMark : Char := Char.ofNat 0

/-- Whether a character ends a line or the text. -/
def isBreakOrEnd (c : Char) : Bool := isBreak c || c == endMark

/-- Whether a character ends a line or the text, or is a space. -/
def isSpaceOrEnd (c : Char) : Bool := c == ' ' || isBreakOrEnd c

/-- Whether a character ends a line or the text, or is a space or a tab. -/
def isBlankOrEnd (c : Char) : Bool := c == '\t' || isSpaceOrEnd c

/-- Whether a character may stand in the name of an anchor, a handle or a directive. -/
def isNameChar (c : Char) : Bool := c.isAlphanum || c == '-' || c == '_'

/-- Whether a character may stand in a settings file at all. -/
def isAllowed (c : Char) : Bool :=
  let n := c.toNat
  n == 9 || n == 10 || n == 13 || (0x20 ≤ n && n ≤ 0x7e) || n == 0x85 ||
    (0xa0 ≤ n && n ≤ 0xfffd) || 0x10000 ≤ n

/-- A place in a text. -/
structure Cursor where
  rest : List Char
  index : Nat := 0
  line : Nat := 0
  column : Nat := 0
deriving Repr

namespace Cursor

/-- The character some places ahead. -/
def peek (c : Cursor) (ahead : Nat := 0) : Char :=
  match ahead, c.rest with
  | 0, x :: _ => x
  | n + 1, _ :: xs => xs.getD n endMark
  | _, [] => endMark

/-- The place behind the next character. -/
def next (c : Cursor) : Cursor :=
  match c.rest with
  | [] => c
  | x :: xs =>
    let breaks := isBreak x && !(x == '\r' && xs.head? == some '\n')
    { rest := xs, index := c.index + 1, line := if breaks then c.line + 1 else c.line,
      column := if breaks then 0 else if x.toNat == 0xfeff then c.column else c.column + 1 }

/-- The place behind some characters. -/
def forward (c : Cursor) : Nat → Cursor
  | 0 => c
  | n + 1 => c.next.forward n

/-- The characters that pass a test, and the place behind them. -/
def span (c : Cursor) (p : Char → Bool) : List Char × Cursor :=
  let taken := c.rest.takeWhile p
  (taken, c.forward taken.length)

/-- The place behind the characters that pass a test. -/
def skip (c : Cursor) (p : Char → Bool) : Cursor := (c.span p).2

/-- The end of a line as it counts in scalars, and the place behind it. -/
def lineBreak (c : Cursor) : List Char × Cursor :=
  let x := c.peek
  if x == '\r' && c.peek 1 == '\n' then (['\n'], c.forward 2)
  else if x == '\r' || x == '\n' || x.toNat == 0x85 then (['\n'], c.next)
  else if isBreak x then ([x], c.next)
  else ([], c)

/-- Whether three characters that separate documents stand here. -/
def atSeparator (c : Cursor) (mark : Char) : Bool :=
  c.rest.take 3 == [mark, mark, mark] && isBlankOrEnd (c.peek 3)

/-- Whether a separator of documents stands here. -/
def atAnySeparator (c : Cursor) : Bool := c.atSeparator '-' || c.atSeparator '.'

end Cursor

end VideoCatalog.Yaml
