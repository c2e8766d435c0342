/-!
# Wildcards

Patterns for names: a star stands for any text, a question mark for any character, and
brackets for one character of a set. A bracket that is never closed stands for itself.

* `SetPart`, `WildcardPart`: the parts of sets and of patterns.
* `setParts`: the characters and ranges between brackets. Ranges that run backwards are empty.
* `Wildcard.parse`, `Wildcard.accepts`: reading a pattern, and matching a whole text.
-/

namespace VideoCatalog

/-- A part of a set: the characters between two, ends included. -/
structure SetPart where
  first : Char
  last : Char
deriving DecidableEq, Repr

/-- A part of a pattern. -/
inductive WildcardPart where
  | literal (c : Char)
  | anyChar
  | anyText
  | oneOf (negated : Bool) (parts : List SetPart)
deriving DecidableEq, Repr

namespace Wildcard

/-- Cuts the inside of brackets at the hyphens that make ranges. A hyphen makes a range if a
character stands before it that ends no other range. -/
def chunks (done : List Char) (hold : Nat) : List Char → List (List Char)
  | [] => [done.reverse]
  | c :: rest =>
    if c = '-' ∧ hold = 0 then done.reverse :: chunks [] 2 rest
    else chunks (c :: done) (hold - 1) rest

/-- A hyphen at the end makes no range. -/
def closeChunks (pieces : List (List Char)) : List (List Char) :=
  match pieces.reverse with
  | [] :: last :: rest => ((last ++ ['-']) :: rest).reverse
  | _ => pieces

/-- Drops the ranges that run backwards, from the last one to the first. -/
def dropEmptyRanges : List (List Char) → List (List Char)
  | [] => []
  | piece :: rest =>
    match dropEmptyRanges rest with
    | [] => [piece]
    | next :: later =>
      match piece.getLast?, next.head? with
      | some a, some b =>
        if b < a then (piece.dropLast ++ next.drop 1) :: later else piece :: next :: later
      | _, _ => piece :: next :: later

/-- A character of a set, or the hyphen of a range. -/
inductive SetToken where
  | char (c : Char)
  | range
deriving DecidableEq, Repr

/-- The tokens of pieces with ranges between them. -/
def setTokens : List (List Char) → List SetToken
  | [] => []
  | [piece] => piece.map .char
  | piece :: rest => piece.map .char ++ .range :: setTokens rest

/-- The parts of a set. A hyphen without a character on both sides stands for itself. -/
def setParts : List SetToken → List SetPart
  | [] => []
  | .char a :: .range :: .char b :: rest => ⟨a, b⟩ :: setParts rest
  | .char a :: .range :: .range :: rest => ⟨a, '-'⟩ :: setParts rest
  | .char a :: rest => ⟨a, a⟩ :: setParts rest
  | .range :: rest => ⟨'-', '-'⟩ :: setParts rest

/-- The inside of brackets without its ranges that run backwards. -/
def tidy (inside : List Char) : List SetToken :=
  if inside.contains '-' then
    let hold := if inside.head? = some '!' then 2 else 1
    setTokens (dropEmptyRanges (closeChunks (chunks [] hold inside)))
  else inside.map .char

/-- The part of a pattern that brackets stand for. -/
def bracket (inside : List Char) : WildcardPart :=
  match tidy inside with
  | .char '!' :: rest => .oneOf true (setParts rest)
  | tokens => .oneOf false (setParts tokens)

/-- The inside of brackets that are open, and what follows them; `none` if they are never
closed. A closing bracket right at the start belongs to the inside. -/
def inside? (text : List Char) : Option (List Char × List Char) :=
  let (mark, rest) := match text with
    | '!' :: r => (['!'], r)
    | r => ([], r)
  let (first, rest) := match rest with
    | ']' :: r => ([']'], r)
    | r => ([], r)
  let body := rest.takeWhile (· != ']')
  match rest.drop body.length with
  | ']' :: after => some (mark ++ first ++ body, after)
  | _ => none

/-- Reads a pattern. -/
def parts (fuel : Nat) (text : List Char) : List WildcardPart :=
  match fuel, text with
  | 0, _ => []
  | _, [] => []
  | fuel + 1, c :: rest =>
    if c = '*' then .anyText :: parts fuel (rest.dropWhile (· == '*'))
    else if c = '?' then .anyChar :: parts fuel rest
    else if c = '[' then
      match inside? rest with
      | some (inside, after) => bracket inside :: parts fuel after
      | none => .literal '[' :: parts fuel rest
    else .literal c :: parts fuel rest

/-- Whether a character belongs to one of some parts. -/
def inSet (sets : List SetPart) (c : Char) : Bool :=
  sets.any fun p => decide (p.first ≤ c ∧ c ≤ p.last)

mutual

/-- Whether a whole text matches a pattern. -/
def accepts : List WildcardPart → List Char → Bool
  | [], text => text.isEmpty
  | .anyText :: rest, text => acceptsLater rest text
  | .literal c :: rest, d :: text => c == d && accepts rest text
  | .anyChar :: rest, _ :: text => accepts rest text
  | .oneOf negated sets :: rest, c :: text => (inSet sets c != negated) && accepts rest text
  | _ :: _, [] => false
termination_by ps text => (ps.length, text.length, 0)

/-- Whether some end of a text matches a pattern. -/
def acceptsLater (ps : List WildcardPart) (text : List Char) : Bool :=
  accepts ps text ||
    match text with
    | [] => false
    | _ :: rest => acceptsLater ps rest
termination_by (ps.length, text.length, 1)

end

/-- Whether a text as a whole matches a pattern. -/
def matchesText (pattern text : String) : Bool :=
  accepts (parts pattern.length pattern.toList) text.toList

end Wildcard

end VideoCatalog
