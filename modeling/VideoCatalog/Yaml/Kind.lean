import VideoCatalog.Yaml.Moment

/-!
# Kinds of nodes

A tag names the kind of a node. A scalar without quotes and without a tag has the kind that
its text looks like.

* `Kind`: the kinds; `Kind.ofTag` reads a tag.
* `Kind.ofPlain`: the kind of a scalar without quotes.
-/

namespace VideoCatalog.Yaml

/-- The kinds of nodes. -/
inductive Kind where
  | null
  | bool
  | int
  | float
  | binary
  | moment
  | orderedMap
  | pairs
  | set
  | text
  | sequence
  | mapping
  | merge
  | value
  | unknown
deriving DecidableEq, Repr

namespace Kind

/-- The names of the kinds in tags. -/
def names : List (String × Kind) := [
  ("null", null), ("bool", bool), ("int", int), ("float", float), ("binary", binary),
  ("timestamp", moment), ("omap", orderedMap), ("pairs", pairs), ("set", set), ("str", text),
  ("seq", sequence), ("map", mapping), ("merge", merge), ("value", value)]

/-- The kind that a tag names. -/
def ofTag (tag : String) : Kind :=
  match names.find? fun e => "tag:yaml.org,2002:" ++ e.1 == tag with
  | some e => e.2
  | none => unknown

/-- The texts of truth values. -/
def boolTexts : List String := [
  "yes", "Yes", "YES", "no", "No", "NO", "true", "True", "TRUE", "false", "False", "FALSE",
  "on", "On", "ON", "off", "Off", "OFF"]

/-- The texts of nothing. -/
def nullTexts : List String := ["~", "null", "Null", "NULL"]

/-- A text without its sign. -/
def unsigned (text : List Char) : List Char := (Numeral.splitSign text).2

/-- Whether a character is a digit or an underscore. -/
def isDigitOrLine (c : Char) : Bool := c.isDigit || c == '_'

/-- Whether a text is nothing or an exponent, which needs its sign. -/
def isExponent (text : List Char) : Bool :=
  match text with
  | [] => true
  | mark :: sign :: digits =>
    (mark == 'e' || mark == 'E') && (sign == '+' || sign == '-') &&
      !digits.isEmpty && digits.all Char.isDigit
  | _ => false

/-- Whether digits are a part of a number to base sixty. -/
def isSixtieth (text : List Char) : Bool :=
  match text with
  | [c] => c.isDigit
  | [c, d] => '0' ≤ c && c ≤ '5' && d.isDigit
  | _ => false

/-- The parts of a text between colons. -/
def colonParts : List Char → List (List Char)
  | [] => [[]]
  | c :: rest =>
    if c = ':' then [] :: colonParts rest
    else match colonParts rest with
      | [] => [[c]]
      | p :: ps => (c :: p) :: ps

/-- Whether a text without sign is a number to base sixty of at least two parts. -/
def isSexagesimal (text : List Char) : Bool :=
  match colonParts text with
  | first :: second :: rest =>
    (first.headD ' ').isDigit && first.all isDigitOrLine && (second :: rest).all isSixtieth
  | _ => false

/-- Whether a text looks like a number with a fraction. -/
def looksFloat (text : List Char) : Bool :=
  let body := unsigned text
  let whole := body.takeWhile isDigitOrLine
  let named := String.ofList (body.drop 1)
  if (body.headD ' ').isDigit then
    match body.drop whole.length with
    | '.' :: rest => isExponent (rest.dropWhile isDigitOrLine)
    | _ =>
      let base := body.takeWhile (· != '.')
      isSexagesimal base &&
        match body.drop base.length with
        | '.' :: rest => rest.all isDigitOrLine
        | _ => false
  else if body.headD ' ' == '.' then
    ["inf", "Inf", "INF"].contains named ||
      (body == text && (["nan", "NaN", "NAN"].contains named ||
        ((body.getD 1 ' ').isDigit && isExponent ((body.drop 1).dropWhile isDigitOrLine))))
  else false

/-- Whether some characters, and at least one, are digits of a base or underscores. -/
def allDigits (isDigit : Char → Bool) (text : List Char) : Bool :=
  !text.isEmpty && text.all fun c => isDigit c || c == '_'

/-- Whether a character is a hexadecimal digit. -/
def isHexDigit (c : Char) : Bool :=
  c.isDigit || ('a' ≤ c && c ≤ 'f') || ('A' ≤ c && c ≤ 'F')

/-- Whether a text looks like a whole number. -/
def looksInt (text : List Char) : Bool :=
  match unsigned text with
  | ['0'] => true
  | '0' :: 'b' :: digits => allDigits (fun c => c == '0' || c == '1') digits
  | '0' :: 'x' :: digits => allDigits isHexDigit digits
  | '0' :: digits => allDigits (fun c => '0' ≤ c && c ≤ '7') digits
  | body => (body.headD ' ').isDigit && (body.all isDigitOrLine || isSexagesimal body)

/-- A text without the end of its last line. -/
def withoutLastBreak (text : List Char) : List Char :=
  if text.getLast? = some '\n' then text.dropLast else text

/-- The kind of a scalar without quotes. -/
def ofPlain (text : String) : Kind :=
  let line := withoutLastBreak text.toList
  let word := String.ofList line
  if text.isEmpty || nullTexts.contains word then null
  else if boolTexts.contains word then bool
  else if looksFloat line then float
  else if looksInt line then int
  else if word = "<<" then merge
  else if word = "=" then value
  else if ["!", "&", "*"].contains word then unknown
  else match Moment.parse? line with
    | some m => if m.isPlain then moment else Kind.text
    | none => Kind.text

end Kind

end VideoCatalog.Yaml
