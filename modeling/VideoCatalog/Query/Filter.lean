import VideoCatalog.Query.Row
import VideoCatalog.Text.LowerCase
import VideoCatalog.Text.Search

/-!
# Filters

A query is split at blanks into tokens, and each token is a filter: a wanted tag, a bound on
the duration, a bound on the size, or a piece of the name or the path. A query holds if all
its filters do.

* `Comparison`, `Filter`: the kinds of filters.
* `Filter.ofToken`: the filter of a token; what is no other filter is a piece of text.
* `Filter.holds`: whether a filter holds of a row.
* `matchesQuery`: whether a whole query holds.
-/

namespace VideoCatalog

/-- The comparisons with a bound. -/
inductive Comparison where
  | less
  | atMost
  | same
  | more
  | atLeast
deriving DecidableEq, Repr

namespace Comparison

/-- Whether a comparison accepts an ordering; nothing is accepted without one. -/
def accepts : Comparison → Option Ordering → Bool
  | _, none => false
  | less, some o => o == .lt
  | atMost, some o => o != .gt
  | same, some o => o == .eq
  | more, some o => o == .gt
  | atLeast, some o => o != .lt

/-- The comparison at the start of a text, the longest spelling first. -/
def read? : List Char → Option (Comparison × List Char)
  | '<' :: '=' :: rest => some (atMost, rest)
  | '>' :: '=' :: rest => some (atLeast, rest)
  | '=' :: rest => some (same, rest)
  | '<' :: rest => some (less, rest)
  | '>' :: rest => some (more, rest)
  | _ => none

/-- Whether a value stands in a comparison with a bound. Only equality can be asked of what is
no number. -/
def holds (c : Comparison) (v : Value) (bound : Binary64) : Except Failure Bool :=
  match v.quantity? with
  | some q => .ok (c.accepts (q.compare? (.real bound)))
  | none => if c = same then .ok false else .error (.unsuitable v.kind "compared with a number")

end Comparison

/-- One condition of a query. -/
inductive Filter where
  | tag (wanted : String)
  | duration (comparison : Comparison) (seconds : Binary64)
  | size (comparison : Comparison) (bytes : Binary64)
  | piece (needle : String)
deriving DecidableEq, Repr

namespace Filter

/-- The spellings of a letter in any case. -/
def spellings (c : Char) : List Char :=
  let others : List Nat := match c with
    | 's' => [0x17f]
    | 'k' => [0x212a]
    | 'i' => [0x130, 0x131]
    | _ => []
  c :: c.toUpper :: others.map Char.ofNat

/-- What follows a word in small letters, spelled in any case. -/
def afterWord? : List Char → List Char → Option (List Char)
  | [], text => some text
  | _, [] => none
  | w :: word, c :: text => if (spellings w).contains c then afterWord? word text else none

/-- The digits at the start of a text, with a fraction if it is complete, and what follows. -/
def splitNumeral (text : List Char) : List Char × List Char :=
  let whole := text.takeWhile Text.isDigit
  let rest := text.dropWhile Text.isDigit
  match rest with
  | '.' :: more =>
    let fraction := more.takeWhile Text.isDigit
    if whole.isEmpty || fraction.isEmpty then (whole, rest)
    else (whole ++ '.' :: fraction, more.dropWhile Text.isDigit)
  | _ => (whole, rest)

/-- The number that a numeral stands for; too large ones are infinite. -/
def numeralValue (numeral : List Char) : Binary64 :=
  match Numeral.real (String.ofList numeral) with
  | .ok x => x
  | .error _ => .zero

/-- The units of sizes, with the power of 1024 that each stands for. -/
def units : List (String × Nat) := [("b", 0), ("kb", 1), ("mb", 2), ("gb", 3), ("tb", 4)]

/-- The power of 1024 that a text stands for as a whole; no text counts as bytes. -/
def unitPower? (text : List Char) : Option Nat :=
  if text.isEmpty then some 0
  else (units.find? fun u => afterWord? u.1.toList text == some []).map (·.2)

/-- A text without one line break at its end. -/
def dropFinalNewline (text : List Char) : List Char :=
  if text.getLast? = some '\n' then text.dropLast else text

/-- The comparison and the numeral after a word, and what follows. -/
def bound? (word : String) (token : List Char) :
    Option (Comparison × List Char × List Char) := do
  let rest ← afterWord? word.toList (dropFinalNewline token)
  let (comparison, rest) ← Comparison.read? rest
  let (numeral, rest) := splitNumeral rest
  if numeral.isEmpty then none else some (comparison, numeral, rest)

/-- The bound on the duration that a token stands for. -/
def durationBound? (token : List Char) : Option Filter :=
  match bound? "dur:" token with
  | some (comparison, numeral, []) => some (.duration comparison (numeralValue numeral))
  | _ => none

/-- The bound on the size that a token stands for. -/
def sizeBound? (token : List Char) : Option Filter :=
  match bound? "size:" token with
  | some (comparison, numeral, rest) =>
    (unitPower? rest).map fun power =>
      .size comparison ((numeralValue numeral).mul (Binary64.ofNat (Nat.pow 1024 power)))
  | none => none

/-- The filter of a token. -/
def ofToken (token : String) : Filter :=
  match token.toList with
  | '#' :: wanted => .tag (Text.lower (String.ofList wanted))
  | cs =>
    match durationBound? cs with
    | some filter => filter
    | none =>
      match sizeBound? cs with
      | some filter => filter
      | none => .piece (Text.lower token)

/-- Whether a text is a piece of one of some tags, read in small letters. -/
def anyTag (wanted : String) : List Value → Except Failure Bool
  | [] => .ok false
  | t :: rest =>
    match t.asText "lower" with
    | .error f => .error f
    | .ok s => if Text.contains wanted (Text.lower s) then .ok true else anyTag wanted rest

/-- A value, or a stand-in if it does not count as set. -/
def valueOr (v default : Value) : Value := if v.truthy then v else default

/-- Whether a filter holds of a row. -/
def holds (filter : Filter) (row : Row) : Except Failure Bool :=
  match filter with
  | .tag wanted =>
    match row.tags.elements with
    | .error f => .error f
    | .ok tags => anyTag wanted tags
  | .duration comparison seconds => comparison.holds (valueOr row.duration (.int 0)) seconds
  | .size comparison bytes => comparison.holds (valueOr row.size (.int 0)) bytes
  | .piece needle =>
    match row.name.asText "lower" with
    | .error f => .error f
    | .ok name =>
      if Text.contains needle (Text.lower name) then .ok true
      else (row.path.asText "lower").map fun path => Text.contains needle (Text.lower path)

/-- Whether all filters hold of a row; the first that does not ends the search. -/
def allHold : List Filter → Row → Except Failure Bool
  | [], _ => .ok true
  | filter :: rest, row =>
    match filter.holds row with
    | .error f => .error f
    | .ok false => .ok false
    | .ok true => allHold rest row

end Filter

/-- The tokens of a query. -/
def tokenize (query : String) : List String := Text.words query

/-- The filters of a query. -/
def queryFilters (query : String) : List Filter := (tokenize query).map Filter.ofToken

/-- Whether a query holds of a row. -/
def matchesQuery (query : String) (row : Row) : Except Failure Bool :=
  Filter.allHold (queryFilters query) row

end VideoCatalog
