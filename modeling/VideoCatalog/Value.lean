import VideoCatalog.Number.Quantity
import VideoCatalog.Text.Quoted

/-!
# Values

Settings, stored documents and requests hold values of kinds that are only known when they
are read.

* `Value`: the values.
* `Value.kind`: the name of a value's kind, as messages give it.
* `Value.truthy`: whether a value counts as set.
* `Value.plain`, `Value.literal`: a value as text, on its own and inside another value.
* `Value.sameKey`: equality of keys; numbers and truth values are equal by value.
* `Value.member?`: the value under a key of a mapping.
-/

namespace VideoCatalog

/-- A value of a kind that is known only when it is read. Mappings keep the order in which
their keys were first given. -/
inductive Value where
  | null
  | bool (b : Bool)
  | number (q : Quantity)
  | text (s : String)
  | list (items : List Value)
  | map (entries : List (Value × Value))
  | bytes (data : List UInt8)
  | moment (timed : Bool) (shown : String)
  | set (members : List Value)
deriving Inhabited

namespace Value

/-- The name of a value's kind. -/
def kind : Value → String
  | null => "NoneType"
  | bool _ => "bool"
  | number (.whole _) => "int"
  | number (.real _) => "float"
  | text _ => "str"
  | list _ => "list"
  | map _ => "dict"
  | bytes _ => "bytes"
  | moment timed _ => if timed then "datetime.datetime" else "datetime.date"
  | set _ => "set"

/-- Whether a value counts as set: everything but nothing, false, zero and what is empty. -/
def truthy : Value → Bool
  | null => false
  | bool b => b
  | number q => !q.isZero
  | text s => !s.isEmpty
  | list items => !items.isEmpty
  | map entries => !entries.isEmpty
  | bytes data => !data.isEmpty
  | moment .. => true
  | set members => !members.isEmpty

/-- The number that a value is; truth values count as one and zero. -/
def quantity? : Value → Option Quantity
  | bool b => some (.whole (if b then 1 else 0))
  | number q => some q
  | _ => none

/-- A byte between quotes. -/
def escapeByte (quote : Char) (b : UInt8) : List Char :=
  if b.toNat < 0x7f then Text.escapeChar quote (Char.ofNat b.toNat)
  else '\\' :: 'x' :: Text.hexDigits 2 b.toNat

/-- Bytes between quotes. -/
def quotedBytes (data : List UInt8) : String :=
  let quote := if data.contains 39 && !data.contains 34 then '"' else '\''
  String.ofList ('b' :: quote :: data.flatMap (escapeByte quote) ++ [quote])

mutual

/-- A value as it is written inside another value. -/
def literal : Value → String
  | null => "None"
  | bool b => if b then "True" else "False"
  | number q => q.text
  | text s => Text.quoted s
  | list items => "[" ++ String.intercalate ", " (literals items) ++ "]"
  | map entries => "\x7b" ++ String.intercalate ", " (entryLiterals entries) ++ "\x7d"
  | bytes data => quotedBytes data
  | moment _ shown => shown
  | set members =>
    if members.isEmpty then "set()"
    else "\x7b" ++ String.intercalate ", " (literals members) ++ "\x7d"

/-- The members of a list as they are written inside it. -/
def literals : List Value → List String
  | [] => []
  | v :: rest => literal v :: literals rest

/-- The entries of a mapping as they are written inside it. -/
def entryLiterals : List (Value × Value) → List String
  | [] => []
  | (k, v) :: rest => (literal k ++ ": " ++ literal v) :: entryLiterals rest

end

/-- A value as text. -/
def plain : Value → String
  | text s => s
  | v => literal v

/-- Equality of keys. -/
def sameKey : Value → Value → Bool
  | null, null => true
  | text s, text t => s == t
  | bytes s, bytes t => s == t
  | moment a s, moment b t => a == b && s == t
  | x, y =>
    match quantity? x, quantity? y with
    | some m, some n => m.equal n
    | _, _ => false

/-- Whether a value can be a key. -/
def isKey : Value → Bool
  | list _ | map _ | set _ => false
  | _ => true

/-- The entry of a mapping under a key. -/
def lookup (key : Value) (entries : List (Value × Value)) : Option Value :=
  (entries.find? fun e => e.1.sameKey key).map (·.2)

/-- Puts a value under a key. A key that is there keeps its place, a new one goes last. -/
def insert (key value : Value) (entries : List (Value × Value)) : List (Value × Value) :=
  if entries.any (·.1.sameKey key) then
    entries.map fun e => if e.1.sameKey key then (e.1, value) else e
  else entries ++ [(key, value)]

/-- The value under a text key of a mapping; `none` also for what is no mapping. -/
def member? (key : String) : Value → Option Value
  | map entries => lookup (.text key) entries
  | _ => none

/-- A mapping with text keys. -/
def record (entries : List (String × Value)) : Value :=
  .map (entries.map fun e => (.text e.1, e.2))

/-- A quantity that may be missing, as a value. -/
def ofQuantity? : Option Quantity → Value
  | none => .null
  | some q => .number q

/-- A whole number as a value. -/
def int (n : Int) : Value := .number (.whole n)

end Value

end VideoCatalog
