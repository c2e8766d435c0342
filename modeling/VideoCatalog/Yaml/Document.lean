import VideoCatalog.Catalog.DataUrl
import VideoCatalog.Text.LowerCase
import VideoCatalog.Text.Search
import VideoCatalog.Text.Utf8
import VideoCatalog.Yaml.Kind
import VideoCatalog.Yaml.Node

/-!
# Documents of settings

The values that nodes stand for.

* `boolOf`, `intOf`, `floatOf`, `binaryOf`: the scalars of a kind.
* `Node.value`: the value of a node. Mappings under the merge key give their entries to the
  mapping around them, where its own entries win.
* `documentOf`, `decodeDocument`: the value of a text and of the bytes of a file.
-/

namespace VideoCatalog.Yaml

/-- The truth value of a word. -/
def boolOf (text : String) : Except Fault Bool :=
  let word := Text.lower text
  if ["yes", "true", "on"].contains word then .ok true
  else if ["no", "false", "off"].contains word then .ok false
  else .error .badName

/-- The fault of a numeral that is not read. -/
def numeralFault : Numeral.Fault → Fault
  | .malformed => .badNumber
  | .tooManyDigits n => .tooManyDigits n

/-- The value of a digit in bases up to sixteen. -/
def digitOf (c : Char) : Nat :=
  if c.isDigit then c.toNat - '0'.toNat else c.toLower.toNat - 'a'.toNat + 10

/-- A whole number to a base with its letter, which may stand behind a zero before it. -/
def basedInt (base : Nat) (letter : Char) (text : List Char) : Except Fault Int :=
  let (negative, body) := Numeral.splitSign (Numeral.normalize text)
  let digits := match body with
    | '0' :: c :: rest => if c.toLower = letter then rest else body
    | _ => body
  let fits (c : Char) : Bool := Kind.isHexDigit c && digitOf c < base
  if digits.isEmpty || !digits.all fits then .error .badNumber
  else
    let n : Int := digits.foldl (fun n c => base * n + digitOf c) 0
    .ok (if negative then -n else n)

/-- A decimal whole number. -/
def decimalInt (text : List Char) : Except Fault Int :=
  match Numeral.int (String.ofList text) with
  | .ok n => .ok n
  | .error fault => .error (numeralFault fault)

/-- A decimal number. -/
def decimalFloat (text : List Char) : Except Fault Binary64 :=
  match Numeral.real (String.ofList text) with
  | .ok x => .ok x
  | .error fault => .error (numeralFault fault)

/-- The parts of a number to base sixty put together, the first counting most. -/
def sixtieths (parts : List Int) : Int := parts.foldl (fun n d => 60 * n + d) 0

/-- Parts of a number to base sixty put together from the last on. -/
def realSixtieths (base : Nat) (sum : Binary64) : List Binary64 → Binary64
  | [] => sum
  | d :: rest => realSixtieths (base * 60) (sum.add (d.mul (Binary64.ofNat base))) rest

/-- A text without underscores. -/
def withoutLines (text : String) : List Char := text.toList.filter (· != '_')

/-- The whole number that a text stands for. -/
def intOf (text : String) : Except Fault Int := do
  let all := withoutLines text
  if all.isEmpty then throw .emptyNumber
  let (negative, body) := Numeral.splitSign all
  let n : Int ← match body with
    | [] => .error .emptyNumber
    | ['0'] => .ok 0
    | '0' :: 'b' :: digits => basedInt 2 'b' digits
    | '0' :: 'x' :: digits => basedInt 16 'x' digits
    | '0' :: _ => basedInt 8 'o' body
    | _ =>
      if body.contains ':' then (Kind.colonParts body).mapM decimalInt |>.map sixtieths
      else decimalInt body
  return if negative then -n else n

/-- The number that a text stands for. -/
def floatOf (text : String) : Except Fault Binary64 := do
  let all := withoutLines (Text.lower text)
  if all.isEmpty then throw .emptyNumber
  let (negative, body) := Numeral.splitSign all
  let word := String.ofList body
  if word = ".nan" then return .notANumber
  let x ← if word = ".inf" then pure (.infinite false)
    else if body.contains ':' then do
      let parts ← (Kind.colonParts body).mapM decimalFloat
      pure (realSixtieths 1 .zero parts.reverse)
    else decimalFloat body
  return if negative then x.neg else x

/-- The bytes that a text stands for. -/
def binaryOf (text : String) : Except Fault (List UInt8) :=
  match base64Decode? text.toList with
  | some bytes => .ok bytes
  | none => .error .malformed

/-- The moment that a text stands for. -/
def momentOf (text : String) : Except Fault Value :=
  match Moment.parse? (Kind.withoutLastBreak text.toList) with
  | some m => m.value
  | none => .error .noMoment

/-- The value of a scalar of a kind. -/
def scalarOf (kind : Kind) (text : String) : Except Fault Value :=
  match kind with
  | .null => .ok .null
  | .bool => (boolOf text).map .bool
  | .int => (intOf text).map .int
  | .float => (floatOf text).map fun x => .number (.real x)
  | .binary => (binaryOf text).map .bytes
  | .moment => momentOf text
  | .text => .ok (.text text)
  | _ => .error .malformed

namespace Node

/-- The kind of a node. -/
def kind : Node → Kind
  | .scalar none text plain => if plain then .ofPlain text else .text
  | .scalar (some tag) text _ => if tag = "!" then .ofPlain text else .ofTag tag
  | .sequence tag? _ => if tag?.getD "!" = "!" then .sequence else .ofTag (tag?.getD "!")
  | .mapping tag? _ => if tag?.getD "!" = "!" then .mapping else .ofTag (tag?.getD "!")

mutual

/-- The text that stands for a node among scalars: its own, or that under the value key. -/
def scalarText? : Node → Option String
  | .scalar _ text _ => some text
  | .sequence .. => none
  | .mapping _ entries => valueText? entries

/-- The text under the value key. -/
def valueText? : List (Node × Node) → Option String
  | [] => none
  | (k, v) :: rest => if k.kind = .value then scalarText? v else valueText? rest

end

/-- Entries put into a mapping in order. -/
def gather (entries : List (Value × Value)) : List (Value × Value) :=
  entries.foldl (fun m e => Value.insert e.1 e.2 m) []

/-- The key that a node stands for; the value key is a text here. -/
def keyOf (kind : Kind) (text? : Option String) (value : Except Fault Value) :
    Except Fault Value :=
  if kind = .value then (demand text?).map .text
  else match value with
    | .ok v => if v.isKey then .ok v else .error .malformed
    | .error f => .error f

mutual

/-- The value of a node. -/
def value : Node → Except Fault Value
  | .scalar tag? text plain => scalarOf (kind (.scalar tag? text plain)) text
  | .sequence tag? items =>
    match kind (.sequence tag? []) with
    | .sequence => (values items).map .list
    | .orderedMap | .pairs => (pairsOf items).map .list
    | _ => .error .malformed
  | .mapping tag? entries =>
    match kind (.mapping tag? []) with
    | .mapping => do
      let (merged, own) ← entriesOf entries
      return .map (gather (merged ++ own))
    | .set => do
      let (merged, own) ← entriesOf entries
      return .set ((gather (merged ++ own)).map (·.1))
    | kind =>
      match valueText? entries with
      | some text => scalarOf kind text
      | none => .error .malformed

/-- The values of the nodes of a sequence. -/
def values : List Node → Except Fault (List Value)
  | [] => .ok []
  | node :: rest => do
    let v ← value node
    return v :: (← values rest)

/-- Pairs, each written as a mapping of one entry. -/
def pairsOf : List Node → Except Fault (List Value)
  | [] => .ok []
  | .mapping _ [(k, v)] :: rest => do
    let key ← value k
    let item ← value v
    return .list [key, item] :: (← pairsOf rest)
  | _ :: _ => .error .malformed

/-- The entries of a mapping: those that it is given by others, and its own. -/
def entriesOf : List (Node × Node) →
    Except Fault (List (Value × Value) × List (Value × Value))
  | [] => .ok ([], [])
  | (k, v) :: rest => do
    if k.kind = .merge then
      let given ← givenBy v
      let (merged, own) ← entriesOf rest
      return (given ++ merged, own)
    else
      let key ← keyOf k.kind (scalarText? k) (value k)
      let item ← value v
      let (merged, own) ← entriesOf rest
      return (merged, (key, item) :: own)

/-- The entries that a node under the merge key gives: of a sequence of mappings the first
wins. -/
def givenBy : Node → Except Fault (List (Value × Value))
  | .mapping _ entries => do
    let (merged, own) ← entriesOf entries
    return merged ++ own
  | .sequence _ items => givenByAll items
  | .scalar .. => .error .malformed

/-- The entries that mappings give, the last mapping first. -/
def givenByAll : List Node → Except Fault (List (Value × Value))
  | [] => .ok []
  | .mapping _ entries :: rest => do
    let (merged, own) ← entriesOf entries
    return (← givenByAll rest) ++ merged ++ own
  | _ :: _ => .error .malformed

end

end Node

/-- The value of a text; a text without documents stands for nothing. -/
def documentOf (text : String) : Except Fault Value := do
  match ← nodeOf text with
  | some node => node.value
  | none => return .null

/-- The line ends of a file as they count in its text. -/
def plainBreaksOf : List Char → List Char
  | '\r' :: '\n' :: rest => '\n' :: plainBreaksOf rest
  | '\r' :: rest => '\n' :: plainBreaksOf rest
  | c :: rest => c :: plainBreaksOf rest
  | [] => []

/-- The value of the bytes of a file. -/
def decodeDocument (bytes : List UInt8) : Except Failure Value :=
  match Text.decode? bytes with
  | none => .error .notText
  | some text =>
    match documentOf (String.ofList (plainBreaksOf text.toList)) with
    | .ok v => .ok v
    | .error fault => .error fault.failure

end VideoCatalog.Yaml
