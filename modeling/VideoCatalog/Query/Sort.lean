import VideoCatalog.Query.Filter
import VideoCatalog.Text.CaseFold

/-!
# Sorting

Rows are sorted by one key, and rows with equal keys keep their order in both directions.

* `SortKey`, `SortSpec`: the key and the direction.
* `SortSpec.make`, `SortSpec.parse`: the specification of values, and of a selector.
* `SortKey.cell`: the value that a row is sorted by.
* `SortSpec.apply`: the sorted list.
-/

namespace VideoCatalog

/-- What rows are sorted by. -/
inductive SortKey where
  | name
  | date
  | size
  | duration
deriving DecidableEq, Repr

/-- A key and a direction. -/
structure SortSpec where
  key : SortKey := .name
  descending : Bool := false
deriving DecidableEq, Repr

/-- The value that a row is sorted by. -/
inductive SortCell where
  | texts (folded : String) (raw : String)
  | text (s : String)
  | quantity (q : Quantity)
  | unordered (kind : String)
deriving Repr

namespace SortKey

/-- The name of a key in selectors. -/
def text : SortKey → String
  | name => "name"
  | date => "date"
  | size => "size"
  | duration => "dur"

/-- All keys. -/
def all : List SortKey := [name, date, size, duration]

/-- The key of a name. -/
def named? (s : String) : Option SortKey := all.find? (·.text == s)

/-- The cell of a name: first folded, then as it is. -/
def nameCell (v : Value) : Except Failure SortCell :=
  match v.asText "casefold" with
  | .error f => .error f
  | .ok s =>
    if s.toList.contains (Char.ofNat 0) then .error .zeroCharacter
    else .ok (.texts (Text.caseFold s) s)

/-- The cell of any other value; what does not count as set is zero. -/
def valueCell (v : Value) : SortCell :=
  match Filter.valueOr v (.int 0) with
  | .text s => .text s
  | v =>
    match v.quantity? with
    | some q => .quantity q
    | none => .unordered v.kind

/-- The value that a row is sorted by. -/
def cell (key : SortKey) (row : Row) : Except Failure SortCell :=
  match key with
  | name => nameCell row.name
  | date => .ok (valueCell row.modified)
  | size => .ok (valueCell row.size)
  | duration => .ok (valueCell row.duration)

@[simp] theorem named?_text (key : SortKey) : named? key.text = some key := by
  cases key <;> decide

end SortKey

namespace SortCell

/-- Whether the first text comes first, by code points. -/
def textLess (s t : String) : Bool := decide (s < t)

/-- Whether the first cell comes first. -/
def less : SortCell → SortCell → Bool
  | .texts f r, .texts g s => textLess f g || (f == g && textLess r s)
  | .text s, .text t => textLess s t
  | .quantity p, .quantity q => p.less q
  | _, _ => false

/-- Whether two cells can be compared. -/
def comparable : SortCell → SortCell → Bool
  | .texts .., .texts .. => true
  | .text _, .text _ => true
  | .quantity _, .quantity _ => true
  | _, _ => false

end SortCell

namespace SortSpec

/-- Refuses a key that is none. -/
def checkKey (key : Value) : Except Failure SortKey :=
  match key with
  | .text s =>
    match SortKey.named? s with
    | some k => .ok k
    | none => .error (.unknownSortKey (Text.quoted s))
  | v =>
    if v.isKey then .error (.unknownSortKey v.literal)
    else .error (.unsuitable v.kind "a sort key")

/-- The specification of up to two values: a key and whether to go down. -/
def make : List Value → Except Failure SortSpec
  | [] => .ok {}
  | [key] => (checkKey key).map fun k => { key := k }
  | [key, descending] => (checkKey key).map fun k => ⟨k, descending.truthy⟩
  | _ => .error (.unsuitable "list" "a sort specification")

/-- The specification of a selector: a key, and after a hyphen the direction. -/
def parse (selector : String) : Except Failure SortSpec :=
  let plain := Text.lower (Text.trim selector)
  let (key, direction) := (Text.splitAt? '-' plain).getD (plain, "")
  if direction = "" ∨ direction = "asc" ∨ direction = "desc" then
    (checkKey (.text key)).map fun k => ⟨k, direction == "desc"⟩
  else .error (.unknownDirection (Text.quoted direction))

/-- The selector of a specification. -/
def text (spec : SortSpec) : String :=
  spec.key.text ++ "-" ++ (if spec.descending then "desc" else "asc")

/-- Pairs each element with the cell of its row. -/
def withCells {α : Type} (key : SortKey) (row : α → Row) :
    List α → Except Failure (List (SortCell × α))
  | [] => .ok []
  | a :: rest =>
    match key.cell (row a) with
    | .error f => .error f
    | .ok cell => (withCells key row rest).map ((cell, a) :: ·)

/-- Refuses cells that cannot be compared with the first one. -/
def checkCells {α : Type} : List (SortCell × α) → Except Failure Unit
  | (first, _) :: (second, _) :: rest =>
    if first.comparable second && rest.all (first.comparable ·.1) then .ok ()
    else .error (.unsuitable "mixed" "ordered")
  | _ => .ok ()

/-- Whether two cells may stand in this order. -/
def inOrder {α : Type} (spec : SortSpec) (a b : SortCell × α) : Bool :=
  if spec.descending then !a.1.less b.1 else !b.1.less a.1

/-- The elements sorted by their rows. -/
def apply {α : Type} (spec : SortSpec) (row : α → Row) (items : List α) :
    Except Failure (List α) :=
  match withCells spec.key row items with
  | .error f => .error f
  | .ok cells =>
    match checkCells cells with
    | .error f => .error f
    | .ok () => .ok ((cells.mergeSort spec.inOrder).map (·.2))

/-- Every specification is read back from its selector. -/
theorem parse_text (spec : SortSpec) : parse spec.text = .ok spec := by
  obtain ⟨key, descending⟩ := spec
  cases key <;> cases descending <;> rfl

end SortSpec

end VideoCatalog
