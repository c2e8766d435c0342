import VideoCatalog.Yaml.Scalars

/-!
# Reading tokens

Outside of flows the structure follows from columns: a deeper column opens a block, and a
lesser one closes blocks. A word is found to be a key only when the colon behind it is met, so
that the marks of a key and of its block are put before tokens that were read already.

* `SimpleKey`: a word that may turn out to be a key.
* `Lexer`: a place in the text with the open blocks and flows.
* `Lexer.step`: reads the next token with all that comes before it.
* `tokensOf`: all tokens of a text.
-/

namespace VideoCatalog.Yaml

/-- A word that may turn out to be a key, with its place among the tokens. -/
structure SimpleKey where
  flow : Nat
  token : Nat
  required : Bool
  index : Nat
  line : Nat
  column : Nat
deriving Repr

/-- A place in a text with the open blocks and flows. -/
structure Lexer where
  place : Cursor
  indent : Int := -1
  indents : List Int := []
  flow : Nat := 0
  allowKey : Bool := true
  keys : List SimpleKey := []
  tokens : List Token := []
  ended : Bool := false
deriving Repr

namespace Lexer

/-- How far a key may be from its colon. -/
def keyReach : Nat := 1024

/-- Whether the lexer is inside a flow. -/
def inFlow (x : Lexer) : Bool := x.flow != 0

/-- Adds a token. Tokens are kept in reverse. -/
def emit (x : Lexer) (t : Token) : Lexer := { x with tokens := t :: x.tokens }

/-- Puts a token at a place among the tokens. -/
def insertAt (x : Lexer) (place : Nat) (t : Token) : Lexer :=
  let behind := x.tokens.length - place
  { x with tokens := x.tokens.take behind ++ t :: x.tokens.drop behind }

/-- Drops the blanks, comments and line ends before a token. -/
def skipBlanks (fuel : Nat) (x : Lexer) : Lexer :=
  match fuel with
  | 0 => x
  | fuel + 1 =>
    let c := x.place.skip (· == ' ')
    let c := if c.peek == '#' then c.skip fun y => !isBreakOrEnd y else c
    if isBreak c.peek then
      skipBlanks fuel { x with place := c.lineBreak.2, allowKey := x.allowKey || !x.inFlow }
    else { x with place := c }

/-- Gives up the keys whose colon can no longer follow. -/
def dropStaleKeys (x : Lexer) : Except Fault Lexer := do
  let stale (k : SimpleKey) : Bool :=
    k.line != x.place.line || keyReach < x.place.index - k.index
  insist (!x.keys.any fun k => stale k && k.required)
  return { x with keys := x.keys.filter fun k => !stale k }

/-- Gives up the possible key of the current flow. -/
def dropKey (x : Lexer) : Except Fault Lexer := do
  insist (!x.keys.any fun k => k.flow == x.flow && k.required)
  return { x with keys := x.keys.filter (·.flow != x.flow) }

/-- Notes that the next token may be a key. -/
def noteKey (x : Lexer) : Except Fault Lexer :=
  if x.allowKey then do
    let x ← x.dropKey
    let key : SimpleKey :=
      { flow := x.flow, token := x.tokens.length,
        required := !x.inFlow && x.indent == (x.place.column : Int),
        index := x.place.index, line := x.place.line, column := x.place.column }
    return { x with keys := x.keys ++ [key] }
  else .ok x

/-- Closes the blocks that are deeper than a column. -/
def unwind (x : Lexer) (column : Int) : List Int → Lexer
  | [] => { x with indents := [] }
  | outer :: rest =>
    if column < x.indent then
      unwind { x.emit .blockEnd with indent := outer, indents := rest } column rest
    else x

/-- Closes the blocks that are deeper than a column, outside of flows. -/
def closeBlocks (x : Lexer) (column : Int) : Lexer :=
  if x.inFlow then x else x.unwind column x.indents

/-- Opens a block at a column if it is deeper than the current one. -/
def deepen (x : Lexer) (column : Nat) : Bool × Lexer :=
  if x.indent < (column : Int) then
    (true, { x with indents := x.indent :: x.indents, indent := column })
  else (false, x)

/-- Moves behind some characters. -/
def advance (x : Lexer) (n : Nat) : Lexer := { x with place := x.place.forward n }

/-- Ends all blocks before a line that belongs to no document. -/
def endBlocks (x : Lexer) : Except Fault Lexer := do
  let x ← (x.closeBlocks (-1)).dropKey
  return { x with allowKey := false }

/-- A separator of documents. -/
def separator (x : Lexer) (t : Token) : Except Fault Lexer := do
  return ((← x.endBlocks).advance 3).emit t

/-- The start of a flow. -/
def openFlow (x : Lexer) (t : Token) : Except Fault Lexer := do
  let x ← x.noteKey
  return ({ x with flow := x.flow + 1, allowKey := true }.advance 1).emit t

/-- The end of a flow. -/
def closeFlow (x : Lexer) (t : Token) : Except Fault Lexer := do
  insist x.inFlow
  let x ← x.dropKey
  return ({ x with flow := x.flow - 1, allowKey := false }.advance 1).emit t

/-- A mark that stands only where keys are allowed, and opens a block if it is deeper. -/
def openBlock (x : Lexer) (t : Token) : Except Fault Lexer :=
  if x.inFlow then .ok x
  else do
    insist x.allowKey
    let (deeper, x) := x.deepen x.place.column
    return if deeper then x.emit t else x

/-- The dash of an entry. -/
def entry (x : Lexer) : Except Fault Lexer := do
  let x ← x.openBlock .blockSequenceStart
  let x ← { x with allowKey := true }.dropKey
  return (x.advance 1).emit .blockEntry

/-- The question mark of a key. -/
def key (x : Lexer) : Except Fault Lexer := do
  let x ← x.openBlock .blockMappingStart
  let x ← { x with allowKey := !x.inFlow }.dropKey
  return (x.advance 1).emit .key

/-- The colon of a value. The word before it becomes a key if it can be one. -/
def value (x : Lexer) : Except Fault Lexer := do
  let x ← match x.keys.find? (·.flow == x.flow) with
    | some k => do
      let x := { x with keys := x.keys.filter (·.flow != x.flow) }
      let x := x.insertAt k.token .key
      let x :=
        if x.inFlow then x
        else
          let (deeper, x) := x.deepen k.column
          if deeper then x.insertAt k.token .blockMappingStart else x
      pure { x with allowKey := false }
    | none => do
      let x ← x.openBlock .blockMappingStart
      { x with allowKey := !x.inFlow }.dropKey
  return (x.advance 1).emit .value

/-- A word that may be a key. -/
def word (x : Lexer) (read : Cursor → Except Fault (Token × Cursor)) : Except Fault Lexer := do
  let x ← x.noteKey
  let (t, place) ← read x.place
  return { x with place := place, allowKey := false }.emit t

/-- A plain scalar, behind which a line may have ended. -/
def plain (x : Lexer) : Except Fault Lexer := do
  let x ← x.noteKey
  let (text, ended, place) := readPlain x.inFlow x.indent x.place
  return { x with place := place, allowKey := ended }.emit (.scalar text true)

/-- A literal or folded block. -/
def block (x : Lexer) : Except Fault Lexer := do
  let x ← { x with allowKey := true }.dropKey
  let (text, place) ← readBlock x.indent x.place
  return { x with place := place }.emit (.scalar text false)

/-- Whether a plain scalar can start here. -/
def startsPlain (x : Lexer) : Bool :=
  let c := x.place.peek
  let indicators := "-?:,[]#&*!|>'\"%@".toList ++ ['\x7b', '\x7d', Char.ofNat 0x60]
  if isBlankOrEnd c then false
  else if !indicators.contains c then true
  else !isBlankOrEnd (x.place.peek 1) && (c == '-' || (!x.inFlow && (c == '?' || c == ':')))

/-- The end of the text. -/
def finish (x : Lexer) : Except Fault Lexer := do
  return { (← x.endBlocks) with keys := [], ended := true }.emit .streamEnd

/-- Reads the token that starts with a character. -/
def dispatch (x : Lexer) (c : Char) : Except Fault Lexer :=
  let blankAfter := isBlankOrEnd (x.place.peek 1)
  let first := x.place.column == 0
  if c == endMark then x.finish
  else if c == '%' && first then do
    let x ← x.endBlocks
    let (t, place) ← readDirective x.place
    return { x with place := place }.emit t
  else if first && x.place.atSeparator '-' then x.separator .documentStart
  else if first && x.place.atSeparator '.' then x.separator .documentEnd
  else if c == '[' then x.openFlow .flowSequenceStart
  else if c == '\x7b' then x.openFlow .flowMappingStart
  else if c == ']' then x.closeFlow .flowSequenceEnd
  else if c == '\x7d' then x.closeFlow .flowMappingEnd
  else if c == ',' then do
    let x ← { x with allowKey := true }.dropKey
    return (x.advance 1).emit .flowEntry
  else if c == '-' && blankAfter then x.entry
  else if c == '?' && (x.inFlow || blankAfter) then x.key
  else if c == ':' && (x.inFlow || blankAfter) then x.value
  else if c == '*' then x.word fun p => do
    let (name, p) ← readName p
    return (.alias_ name, p)
  else if c == '&' then x.word fun p => do
    let (name, p) ← readName p
    return (.anchor name, p)
  else if c == '!' then x.word fun p => do
    let (handle, suffix, p) ← readTag p
    return (.tag handle suffix, p)
  else if (c == '|' || c == '>') && !x.inFlow then x.block
  else if c == '\'' || c == '"' then x.word fun p => do
    let (text, p) ← readQuoted p
    return (.scalar text false, p)
  else if x.startsPlain then x.plain
  else .error .malformed

/-- Reads the next token with all that comes before it. -/
def step (x : Lexer) : Except Fault Lexer := do
  let x ← (x.skipBlanks x.place.rest.length.succ).dropStaleKeys
  let x := x.closeBlocks x.place.column
  x.dispatch x.place.peek

/-- Reads tokens up to the end of the text. -/
def run (fuel : Nat) (x : Lexer) : Except Fault (List Token) :=
  match fuel with
  | 0 => .error .malformed
  | fuel + 1 =>
    match x.step with
    | .error f => .error f
    | .ok x => if x.ended then .ok x.tokens.reverse else run fuel x

end Lexer

/-- All tokens of a text. A mark of the byte order at its start is skipped. -/
def tokensOf (text : String) : Except Fault (List Token) :=
  let cs := text.toList
  if cs.all isAllowed then
    let start : Cursor := { rest := cs }
    let start := if start.peek.toNat == 0xfeff then start.next else start
    Lexer.run (cs.length + 2) { place := start }
  else .error .malformed

end VideoCatalog.Yaml
