import VideoCatalog.Json.Reader
import VideoCatalog.Text.Utf8
import VideoCatalog.Yaml.Token

/-!
# Scalars of settings files

How the texts of scalars are read: quoted, in blocks of lines, and plain.

* `readQuoted`: a scalar between quotes, with its escapes and folded lines.
* `readBlock`: a literal or folded block.
* `readPlain`: a scalar without quotes.
* `readTag`, `readName`, `readDirective`: the words that start with an indicator.
-/

namespace VideoCatalog.Yaml

/-- Takes a text apart with a fault instead of a missing part. -/
def demand {α : Type} (x : Option α) : Except Fault α :=
  match x with
  | some a => .ok a
  | none => .error .malformed

/-- Refuses what does not hold. -/
def insist (holds : Bool) : Except Fault Unit := if holds then .ok () else .error .malformed

/-- The characters of short escapes. -/
def shortEscapes : List (Char × Nat) := [
  ('0', 0), ('a', 7), ('b', 8), ('t', 9), ('\t', 9), ('n', 10), ('v', 11), ('f', 12), ('r', 13),
  ('e', 27), (' ', 32), ('"', 34), ('\\', 92), ('/', 47), ('N', 0x85), ('_', 0xa0),
  ('L', 0x2028), ('P', 0x2029)]

/-- How many hexadecimal digits follow the letter of a long escape. -/
def escapeDigits? (c : Char) : Option Nat :=
  if c = 'x' then some 2 else if c = 'u' then some 4 else if c = 'U' then some 8 else none

/-- The character of a code; codes of halves of characters are replaced. -/
def charOfCode (n : Nat) : Except Fault Char :=
  if 0x10ffff < n then .error .badNumber
  else if 0xd800 ≤ n ∧ n < 0xe000 then .ok (Char.ofNat 0xfffd)
  else .ok (Char.ofNat n)

/-- The empty lines inside quotes. -/
def quotedBreaks (fuel : Nat) (c : Cursor) : Except Fault (List Char × Cursor) :=
  match fuel with
  | 0 => .ok ([], c)
  | fuel + 1 =>
    if c.atAnySeparator then .error .malformed
    else
      let c := c.skip fun x => x == ' ' || x == '\t'
      if isBreak c.peek then do
        let (first, c) := c.lineBreak
        let (more, c) ← quotedBreaks fuel c
        return (first ++ more, c)
      else .ok ([], c)

/-- The blanks inside quotes; lines are folded. -/
def quotedBlanks (c : Cursor) : Except Fault (List Char × Cursor) := do
  let (blanks, c) := c.span fun x => x == ' ' || x == '\t'
  insist (c.peek != endMark)
  if isBreak c.peek then
    let (first, c) := c.lineBreak
    let (breaks, c) ← quotedBreaks c.rest.length.succ c
    let start := if first != ['\n'] then first else if breaks.isEmpty then [' '] else []
    return (start ++ breaks, c)
  else return (blanks, c)

/-- A code joined with the second half of a character, if it is a first half and an escape of a
second one follows. The flag says whether it does. -/
def joinHalves (n : Nat) (c : Cursor) : Nat × Bool :=
  match c.peek, c.peek 1, Json.hexNumber? ((List.range 4).map fun k => c.peek (k + 2)) with
  | '\\', 'u', some m =>
    if 0xd800 ≤ n ∧ n < 0xdc00 ∧ 0xdc00 ≤ m ∧ m < 0xe000 then
      (0x10000 + (n - 0xd800) * 0x400 + (m - 0xdc00), true)
    else (n, false)
  | _, _, _ => (n, false)

/-- The character of an escape, or the lines that it joins. -/
def readEscape (c : Cursor) : Except Fault (List Char × Cursor) := do
  let letter := c.peek
  match shortEscapes.lookup letter with
  | some n => return ([Char.ofNat n], c.next)
  | none =>
    match escapeDigits? letter with
    | some count =>
      let c := c.next
      let n ← demand (Json.hexNumber? ((List.range count).map fun k => c.peek k))
      let (n, joined) := joinHalves n (c.forward count)
      let x ← charOfCode n
      return ([x], c.forward (if joined then count + 6 else count))
    | none =>
      insist (isBreak letter)
      let (_, c) := c.lineBreak
      quotedBreaks c.rest.length.succ c

/-- The characters of a quoted scalar up to its closing quote. -/
def quotedBody (double : Bool) (fuel : Nat) (c : Cursor) : Except Fault (List Char × Cursor) :=
  match fuel with
  | 0 => .error .malformed
  | fuel + 1 => do
    let x := c.peek
    let (piece, c, done) ←
      if x == endMark then throw .malformed
      else if x == ' ' || x == '\t' || isBreak x then do
        let (piece, c) ← quotedBlanks c
        pure (piece, c, false)
      else if double && x == '\\' then do
        let (piece, c) ← readEscape c.next
        pure (piece, c, false)
      else if double && x == '"' then pure ([], c.next, true)
      else if !double && x == '\'' then
        if c.peek 1 == '\'' then pure (['\''], c.forward 2, false) else pure ([], c.next, true)
      else pure ([x], c.next, false)
    if done then return ([], c)
    let (more, c) ← quotedBody double fuel c
    return (piece ++ more, c)

/-- A scalar between quotes. -/
def readQuoted (c : Cursor) : Except Fault (String × Cursor) := do
  let (body, c) ← quotedBody (c.peek == '"') c.rest.length.succ c.next
  return (String.ofList body, c)

/-- What happens to the line ends behind a block: they are dropped, one is kept, or all. -/
inductive Chomping where
  | strip
  | clip
  | keep
deriving DecidableEq, Repr

/-- The chomping of a sign. -/
def chompingOf? (c : Char) : Option Chomping :=
  if c = '+' then some .keep else if c = '-' then some .strip else none

/-- The depth that a digit asks for. -/
def depthOf? (c : Char) : Except Fault (Option Nat) :=
  if c.isDigit then (if c = '0' then .error .malformed else .ok (some (c.toNat - '0'.toNat)))
  else .ok none

/-- The signs behind the mark of a block. -/
def blockSigns (c : Cursor) : Except Fault (Chomping × Option Nat × Cursor) := do
  match chompingOf? c.peek with
  | some chomping =>
    let c := c.next
    match ← depthOf? c.peek with
    | some n => return (chomping, some n, c.next)
    | none => return (chomping, none, c)
  | none =>
    match ← depthOf? c.peek with
    | some n =>
      let c := c.next
      match chompingOf? c.peek with
      | some chomping => return (chomping, some n, c.next)
      | none => return (.clip, some n, c)
    | none => return (.clip, none, c)

/-- The rest of a line, which may hold a comment and nothing else. -/
def restOfLine (c : Cursor) : Except Fault Cursor := do
  let c := c.skip (· == ' ')
  let c := if c.peek == '#' then c.skip fun x => !isBreakOrEnd x else c
  insist (isBreakOrEnd c.peek)
  return c.lineBreak.2

/-- The empty lines before a block, and the greatest column of their spaces. -/
def blockIndentation (fuel : Nat) (deepest : Nat) (c : Cursor) : List Char × Nat × Cursor :=
  match fuel with
  | 0 => ([], deepest, c)
  | fuel + 1 =>
    if c.peek == ' ' then
      let c := c.next
      blockIndentation fuel (max deepest c.column) c
    else if isBreak c.peek then
      let (first, c) := c.lineBreak
      let (more, deepest, c) := blockIndentation fuel deepest c
      (first ++ more, deepest, c)
    else ([], deepest, c)

/-- The place behind spaces before a column. -/
def spacesUpTo (column : Nat) (fuel : Nat) (c : Cursor) : Cursor :=
  match fuel with
  | 0 => c
  | fuel + 1 =>
    if c.column < column && c.peek == ' ' then spacesUpTo column fuel c.next else c

/-- The empty lines inside a block that starts at a column. -/
def blockBreaks (column : Nat) (fuel : Nat) (c : Cursor) : List Char × Cursor :=
  let c := spacesUpTo column column c
  match fuel with
  | 0 => ([], c)
  | fuel + 1 =>
    if isBreak c.peek then
      let (first, c) := c.lineBreak
      let (more, c) := blockBreaks column fuel c
      (first ++ more, c)
    else ([], c)

/-- The lines of a block at a column, with the line ends found before them. Gives the text,
the last line end, and the line ends behind it. -/
def blockLines (folded : Bool) (column : Nat) (fuel : Nat) (breaks : List Char) (c : Cursor) :
    List Char × List Char × List Char × Cursor :=
  match fuel with
  | 0 => ([], [], breaks, c)
  | fuel + 1 =>
    if c.column == column && c.peek != endMark then
      let indented := c.peek == ' ' || c.peek == '\t'
      let (line, c) := c.span fun x => !isBreakOrEnd x
      let (lineEnd, c) := c.lineBreak
      let (nextBreaks, c) := blockBreaks column c.rest.length.succ c
      if c.column == column && c.peek != endMark then
        let folds := folded && lineEnd == ['\n'] && !indented && c.peek != ' ' && c.peek != '\t'
        let join := if folds then (if nextBreaks.isEmpty then [' '] else []) else lineEnd
        let (more, last, after, c) := blockLines folded column fuel nextBreaks c
        (breaks ++ line ++ join ++ more, last, after, c)
      else (breaks ++ line, lineEnd, nextBreaks, c)
    else ([], [], breaks, c)

/-- A literal or folded block inside something at the given column. -/
def readBlock (indent : Int) (c : Cursor) : Except Fault (String × Cursor) := do
  let folded := c.peek == '>'
  let (chomping, depth, c) ← blockSigns c.next
  insist (isSpaceOrEnd c.peek)
  let c ← restOfLine c
  let least := (max (indent + 1) 1).toNat
  let (column, breaks, c) := match depth with
    | none =>
      let (breaks, deepest, c) := blockIndentation c.rest.length.succ 0 c
      (max least deepest, breaks, c)
    | some n =>
      let column := least + n - 1
      let (breaks, c) := blockBreaks column c.rest.length.succ c
      (column, breaks, c)
  let (text, last, after, c) := blockLines folded column c.rest.length.succ breaks c
  let tail := match chomping with
    | .strip => []
    | .clip => last
    | .keep => last ++ after
  return (String.ofList (text ++ tail), c)

/-- Whether a character inside a flow ends a plain scalar. -/
def isFlowMark (c : Char) : Bool := [',', '[', ']', '\x7b', '\x7d'].contains c

/-- How many of some characters belong to a plain scalar. -/
def plainLength (flow : Bool) : List Char → Nat
  | [] => 0
  | x :: rest =>
    let after := rest.headD endMark
    if isBlankOrEnd x then 0
    else if x == ':' && (isBlankOrEnd after || (flow && isFlowMark after)) then 0
    else if flow && (isFlowMark x || x == '?') then 0
    else plainLength flow rest + 1

/-- The line ends and spaces between the lines of a plain scalar; `none` before a separator of
documents. -/
def plainBreaks (fuel : Nat) (c : Cursor) : Option (List Char) × Cursor :=
  match fuel with
  | 0 => (some [], c)
  | fuel + 1 =>
    if c.peek == ' ' then plainBreaks fuel c.next
    else if isBreak c.peek then
      let (first, c) := c.lineBreak
      if c.atAnySeparator then (none, c)
      else
        let (more, c) := plainBreaks fuel c
        (more.map (first ++ ·), c)
    else (some [], c)

/-- The blanks behind a piece of a plain scalar, as they count before a next piece, and whether
a line ended. Nothing counts before a separator of documents. -/
def plainBlanks (c : Cursor) : List Char × Bool × Cursor :=
  let (spaces, c) := c.span (· == ' ')
  if isBreak c.peek then
    let (first, c) := c.lineBreak
    if c.atAnySeparator then ([], true, c)
    else match plainBreaks c.rest.length.succ c with
      | (none, c) => ([], true, c)
      | (some breaks, c) =>
        let start := if first != ['\n'] then first else if breaks.isEmpty then [' '] else []
        (start ++ breaks, true, c)
  else (spaces, false, c)

/-- The pieces of a plain scalar. The flag says whether a line ended behind the last one. -/
def plainPieces (flow : Bool) (indent : Int) (fuel : Nat) (blanks : List Char) (ended : Bool)
    (c : Cursor) : List Char × Bool × Cursor :=
  match fuel with
  | 0 => ([], ended, c)
  | fuel + 1 =>
    let length := if c.peek == '#' then 0 else plainLength flow c.rest
    if length = 0 then ([], ended, c)
    else
      let piece := c.rest.take length
      let (spaces, ended, c) := plainBlanks (c.forward length)
      if spaces.isEmpty || c.peek == '#' || (!flow && (c.column : Int) < indent + 1) then
        (blanks ++ piece, ended, c)
      else
        let (more, ended, c) := plainPieces flow indent fuel spaces ended c
        (blanks ++ piece ++ more, ended, c)

/-- A scalar without quotes. The flag says whether a line ended behind it. -/
def readPlain (flow : Bool) (indent : Int) (c : Cursor) : String × Bool × Cursor :=
  let (text, ended, c) := plainPieces flow indent c.rest.length.succ [] false c
  (String.ofList text, ended, c)

/-- The name of an anchor or an alias. -/
def readName (c : Cursor) : Except Fault (String × Cursor) := do
  let (name, c) := c.next.span isNameChar
  insist (!name.isEmpty)
  let after := c.peek
  insist (isBlankOrEnd after || ['?', ':', ',', ']', '\x7d', '%', '@', Char.ofNat 0x60].contains after)
  return (String.ofList name, c)

/-- The bytes of escapes in a tag. -/
def uriBytes (fuel : Nat) (c : Cursor) : Except Fault (List UInt8 × Cursor) :=
  match fuel with
  | 0 => .ok ([], c)
  | fuel + 1 =>
    if c.peek == '%' then do
      let n ← demand (Json.hexNumber? [c.peek 1, c.peek 2])
      let (more, c) ← uriBytes fuel (c.forward 3)
      return (UInt8.ofNat n :: more, c)
    else .ok ([], c)

/-- Whether a character may stand in a tag. -/
def isUriChar (c : Char) : Bool := c.isAlphanum || "-;/?:@&=+$,_.!~*'()[]".toList.contains c

/-- The characters of a tag. -/
def uriChars (fuel : Nat) (c : Cursor) : Except Fault (List Char × Cursor) :=
  match fuel with
  | 0 => .ok ([], c)
  | fuel + 1 =>
    if c.peek == '%' then do
      let (bytes, c) ← uriBytes c.rest.length c
      let text ← demand (Text.decode? bytes)
      let (more, c) ← uriChars fuel c
      return (text.toList ++ more, c)
    else if isUriChar c.peek then do
      let (more, after) ← uriChars fuel c.next
      return (c.peek :: more, after)
    else .ok ([], c)

/-- The text of a tag, which is not empty. -/
def readUri (c : Cursor) : Except Fault (String × Cursor) := do
  let (text, after) ← uriChars c.rest.length c
  insist (after.index != c.index)
  return (String.ofList text, after)

/-- A handle with its exclamation marks. -/
def readHandle (c : Cursor) : Except Fault (String × Cursor) := do
  insist (c.peek == '!')
  if c.peek 1 == ' ' then return ("!", c.next)
  let (name, after) := c.next.span isNameChar
  insist (after.peek == '!')
  return (String.ofList ('!' :: name ++ ['!']), after.next)

/-- A tag: its handle, if it has one, and the rest. -/
def readTag (c : Cursor) : Except Fault (Option String × String × Cursor) := do
  let first := c.peek 1
  let (handle, suffix, c) ←
    if first == '<' then do
      let (suffix, c) ← readUri (c.forward 2)
      insist (c.peek == '>')
      pure (none, suffix, c.next)
    else if isBlankOrEnd first then pure (none, "!", c.next)
    else do
      let word := (c.next.rest).takeWhile fun x => !isSpaceOrEnd x
      let (handle, c) ← if word.contains '!' then readHandle c else pure ("!", c.next)
      let (suffix, c) ← readUri c
      pure (some handle, suffix, c)
  insist (isSpaceOrEnd c.peek)
  return (handle, suffix, c)

/-- The digits of a version. -/
def readVersionPart (c : Cursor) : Except Fault (String × Cursor) := do
  let (digits, c) := c.span Char.isDigit
  insist (!digits.isEmpty)
  return (String.ofList digits, c)

/-- The words of a directive. -/
def readDirective (c : Cursor) : Except Fault (Token × Cursor) := do
  let (name, c) := c.next.span isNameChar
  insist (!name.isEmpty && isSpaceOrEnd c.peek)
  let name := String.ofList name
  let (args, c) ←
    if name = "YAML" then do
      let (major, c) ← readVersionPart (c.skip (· == ' '))
      insist (c.peek == '.')
      let (minor, c) ← readVersionPart c.next
      insist (isSpaceOrEnd c.peek)
      pure ([major, minor], c)
    else if name = "TAG" then do
      let (handle, c) ← readHandle (c.skip (· == ' '))
      insist (c.peek == ' ')
      let (start, c) ← readUri (c.skip (· == ' '))
      insist (isSpaceOrEnd c.peek)
      pure ([handle, start], c)
    else pure ([], c.skip fun x => !isBreakOrEnd x)
  let c ← restOfLine c
  return (.directive name args, c)

end VideoCatalog.Yaml
