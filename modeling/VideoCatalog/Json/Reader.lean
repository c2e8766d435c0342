import VideoCatalog.Failure
import VideoCatalog.Number.Numeral

/-!
# Reading documents

Documents follow the usual grammar, with three more names for numbers that have no digits.
Control characters inside quotes are refused, and of two members with one key the last value
counts, in the place of the first. A text that is no document is refused with what is missing
and where.

* `Complaint`, `Fault`: why a text is no document; `Fault.message` says so.
* `readText`, `readNumber`: texts and numbers.
* `readValue`: any value, and what follows it.
* `parse`: a whole document.
-/

namespace VideoCatalog.Json

/-- What is wrong with a text. -/
inductive Complaint where
  | noValue
  | noKey
  | noColon
  | noComma
  | openText
  | controlCharacter
  | badEscape
  | badUnit
  | moreText
  | orderMark
deriving DecidableEq, Repr

/-- The wording of a complaint. -/
def Complaint.message : Complaint → String
  | noValue => "Expecting value"
  | noKey => "Expecting property name enclosed in double quotes"
  | noColon => "Expecting ':' delimiter"
  | noComma => "Expecting ',' delimiter"
  | openText => "Unterminated string starting at"
  | controlCharacter => "Invalid control character at"
  | badEscape => "Invalid \\escape"
  | badUnit => "Invalid \\uXXXX escape"
  | moreText => "Extra data"
  | orderMark => "Unexpected UTF-8 BOM (decode using utf-8-sig)"

/-- Why a text is no document. A complaint is about the place before the last `left` characters. -/
inductive Fault where
  | malformed (complaint : Complaint) (left : Nat)
  | tooManyDigits (count : Nat)
  | tooDeep
deriving DecidableEq, Repr

namespace Fault

/-- A place in a text as it is shown: its line, its column, and how many characters are before
it. -/
def place (before : List Char) : String :=
  let shown (n : Nat) : String := Quantity.intText n
  "line " ++ shown (before.count '\n' + 1) ++
    " column " ++ shown ((before.reverse.takeWhile (· ≠ '\n')).length + 1) ++
    " (char " ++ shown before.length ++ ")"

/-- The wording of a fault in a text. -/
def message (text : List Char) : Fault → String
  | malformed complaint left =>
    complaint.message ++ ": " ++ place (text.take (text.length - left))
  | tooManyDigits n => (Failure.tooManyDigits n).message
  | tooDeep => Failure.nestedTooDeeply.message

end Fault

/-- How deep lists and mappings may be nested. The number stands for the limit that an interpreter
sets to its recursion, less the calls that it is in already when it begins to read. -/
def depthLimit : Nat := 980

/-- The blanks between the parts of a document. -/
def isBlank (c : Char) : Bool := c == ' ' || c == '\t' || c == '\n' || c == '\r'

/-- A text without the blanks at its start. -/
def skip (text : List Char) : List Char := text.dropWhile isBlank

/-- The value of a hexadecimal digit. -/
def hexValue? (c : Char) : Option Nat :=
  if '0' ≤ c ∧ c ≤ '9' then some (c.toNat - '0'.toNat)
  else if 'a' ≤ c ∧ c ≤ 'f' then some (c.toNat - 'a'.toNat + 10)
  else if 'A' ≤ c ∧ c ≤ 'F' then some (c.toNat - 'A'.toNat + 10)
  else none

/-- The value of hexadecimal digits. -/
def hexNumber? (digits : List Char) : Option Nat :=
  digits.foldlM (fun n c => (hexValue? c).map (16 * n + ·)) 0

/-- The code unit of four hexadecimal digits, which must not be the end of the text. -/
def readUnit : List Char → Option (Nat × List Char)
  | a :: b :: c :: d :: e :: rest => (hexNumber? [a, b, c, d]).map (·, e :: rest)
  | _ => none

/-- The character of an escape with a code unit: two units that belong together make one
character, and a unit without its partner is replaced. -/
def readCode (text : List Char) : Option (Char × List Char) :=
  match readUnit text with
  | none => none
  | some (high, rest) =>
    if 0xd800 ≤ high ∧ high < 0xdc00 then
      match rest with
      | '\\' :: 'u' :: more =>
        match readUnit more with
        | some (low, after) =>
          if 0xdc00 ≤ low ∧ low < 0xe000 then
            some (Char.ofNat (0x10000 + (high - 0xd800) * 0x400 + (low - 0xdc00)), after)
          else some (Char.ofNat 0xfffd, rest)
        | none => some (Char.ofNat 0xfffd, rest)
      | _ => some (Char.ofNat 0xfffd, rest)
    else if 0xdc00 ≤ high ∧ high < 0xe000 then some (Char.ofNat 0xfffd, rest)
    else some (Char.ofNat high, rest)

/-- The character of a short escape. -/
def shortEscape? (c : Char) : Option Char :=
  if c = '"' ∨ c = '\\' ∨ c = '/' then some c
  else if c = 'b' then some (Char.ofNat 8)
  else if c = 'f' then some (Char.ofNat 12)
  else if c = 'n' then some '\n'
  else if c = 'r' then some '\r'
  else if c = 't' then some '\t'
  else none

/-- Reads a text after its opening quote, with the characters read so far in reverse. `start` is
how many characters are left at that quote. -/
def readText (start fuel : Nat) (done : List Char) (text : List Char) :
    Except Fault (String × List Char) :=
  match fuel with
  | 0 => .error (.malformed .openText start)
  | fuel + 1 =>
    match text with
    | [] => .error (.malformed .openText start)
    | '"' :: rest => .ok (String.ofList done.reverse, rest)
    | '\\' :: 'u' :: rest =>
      match readCode rest with
      | some (c, after) => readText start fuel (c :: done) after
      | none => .error (.malformed .badUnit (rest.length + 1))
    | '\\' :: c :: rest =>
      match shortEscape? c with
      | some e => readText start fuel (e :: done) rest
      | none => .error (.malformed .badEscape (rest.length + 2))
    | c :: rest =>
      if c.toNat < 0x20 then .error (.malformed .controlCharacter (rest.length + 1))
      else readText start fuel (c :: done) rest

/-- Drops a word at the start of a text. -/
def afterWord? (word : String) (text : List Char) : Option (List Char) :=
  if word.toList.isPrefixOf text then some (text.drop word.length) else none

/-- Reads the digits of a number after its sign: digits, and a fraction and an exponent if
they are complete. -/
def readNumber (negative : Bool) (text : List Char) : Except Fault (Value × List Char) :=
  let digits := text.takeWhile Char.isDigit
  let whole := match digits with
    | '0' :: _ => ['0']
    | ds => ds
  if whole.isEmpty then
    .error (.malformed .noValue (if negative then text.length + 1 else text.length))
  else
    let rest := text.drop whole.length
    let (fraction, rest) := match rest with
      | '.' :: r =>
        let ds := r.takeWhile Char.isDigit
        if ds.isEmpty then ([], rest) else (ds, r.drop ds.length)
      | _ => ([], rest)
    let exponent? : Option (Int × List Char) := match rest with
      | c :: r =>
        if c = 'e' ∨ c = 'E' then
          let (minus, r) := Numeral.splitSign r
          let ds := r.takeWhile Char.isDigit
          if ds.isEmpty then none
          else
            let n : Int := Numeral.digitsValue ds
            some (if minus then -n else n, r.drop ds.length)
        else none
      | [] => none
    if fraction.isEmpty ∧ exponent?.isNone then
      if Numeral.digitLimit < whole.length then .error (.tooManyDigits whole.length)
      else
        let n : Int := Numeral.digitsValue whole
        .ok (.int (if negative then -n else n), rest)
    else
      let (e, rest) := exponent?.getD (0, rest)
      let x := Binary64.ofDecimal negative (Numeral.digitsValue (whole ++ fraction))
        (e - fraction.length)
      .ok (.number (.real x), rest)

/-- Reads a value that is no list, mapping or text. -/
def readScalar (text : List Char) : Except Fault (Value × List Char) :=
  let words : List (String × Value) := [
    ("null", .null), ("true", .bool true), ("false", .bool false),
    ("NaN", .number (.real .notANumber)), ("Infinity", .number (.real (.infinite false))),
    ("-Infinity", .number (.real (.infinite true)))]
  match words.findSome? fun w => (afterWord? w.1 text).map (w.2, ·) with
  | some found => .ok found
  | none =>
    match text with
    | '-' :: rest => readNumber true rest
    | _ => readNumber false text

mutual

/-- Reads a value at the start of a text, with the number of levels that it may nest. -/
def readValue (fuel depth : Nat) (text : List Char) : Except Fault (Value × List Char) :=
  match fuel with
  | 0 => .error (.malformed .noValue text.length)
  | fuel + 1 =>
    match text with
    | '"' :: rest =>
      match readText (rest.length + 1) (rest.length + 1) [] rest with
      | .ok (s, after) => .ok (.text s, after)
      | .error fault => .error fault
    | '[' :: rest =>
      match depth with
      | 0 => .error .tooDeep
      | depth + 1 =>
        match skip rest with
        | ']' :: after => .ok (.list [], after)
        | inner => readItems fuel depth [] inner
    | '\x7b' :: rest =>
      match depth with
      | 0 => .error .tooDeep
      | depth + 1 =>
        match skip rest with
        | '\x7d' :: after => .ok (.map [], after)
        | inner => readMembers fuel depth [] inner
    | _ => readScalar text

/-- Reads the items of a list, with those read so far in reverse. -/
def readItems (fuel depth : Nat) (done : List Value) (text : List Char) :
    Except Fault (Value × List Char) :=
  match fuel with
  | 0 => .error (.malformed .noValue text.length)
  | fuel + 1 =>
    match readValue fuel depth text with
    | .error fault => .error fault
    | .ok (v, rest) =>
      match skip rest with
      | ']' :: after => .ok (.list (v :: done).reverse, after)
      | ',' :: after => readItems fuel depth (v :: done) (skip after)
      | after => .error (.malformed .noComma after.length)

/-- Reads the members of a mapping, with those read so far. -/
def readMembers (fuel depth : Nat) (done : List (Value × Value)) (text : List Char) :
    Except Fault (Value × List Char) :=
  match fuel with
  | 0 => .error (.malformed .noValue text.length)
  | fuel + 1 =>
    match text with
    | '"' :: rest =>
      match readText (rest.length + 1) (rest.length + 1) [] rest with
      | .error fault => .error fault
      | .ok (key, rest) =>
        match skip rest with
        | ':' :: rest =>
          match readValue fuel depth (skip rest) with
          | .error fault => .error fault
          | .ok (v, rest) =>
            let members := Value.insert (.text key) v done
            match skip rest with
            | '\x7d' :: after => .ok (.map members, after)
            | ',' :: after => readMembers fuel depth members (skip after)
            | after => .error (.malformed .noComma after.length)
        | after => .error (.malformed .noColon after.length)
    | _ => .error (.malformed .noKey text.length)

end

/-- The mark that some write before a text to tell the order of its bytes. -/
def orderMark : Char := Char.ofNat 0xfeff

/-- Reads a whole document. -/
def parse (text : String) : Except Fault Value :=
  let cs := text.toList
  if cs.head? = some orderMark then .error (.malformed .orderMark cs.length)
  else
    match readValue (2 * cs.length + 2) depthLimit (skip cs) with
    | .error fault => .error fault
    | .ok (v, rest) =>
      let after := skip rest
      if after.isEmpty then .ok v else .error (.malformed .moreText after.length)

end VideoCatalog.Json
