import VideoCatalog.Catalog.Item

/-!
# Rows

What a query looks at: the cells of an item, each holding whatever value was recorded.

* `Row`: the cells.
* `Item.row`: the row of an item.
* `Value.elements`, `Value.asText`: a cell gone through one by one, or used as a text.
-/

namespace VideoCatalog

/-- The cells that queries look at. -/
structure Row where
  name : Value
  path : Value
  size : Value
  modified : Value
  duration : Value
  tags : Value
deriving Inhabited

/-- The row of an item. -/
def Item.row (item : Item) : Row where
  name := .text item.name
  path := .text item.relativePath
  size := .ofQuantity? item.size
  modified := .ofQuantity? item.modified
  duration := .ofQuantity? item.duration
  tags := .list (item.tags.map .text)

/-- The values that something is made of when it is gone through one by one. -/
def Value.elements : Value → Except Failure (List Value)
  | .list items => .ok items
  | .set members => .ok members
  | .map entries => .ok (entries.map (·.1))
  | .text s => .ok (s.toList.map fun c => .text (String.singleton c))
  | .bytes data => .ok (data.map fun b => .int b.toNat)
  | v => .error (.unsuitable v.kind "gone through")

/-- The text that a value has to be for one of its members to be used. -/
def Value.asText (member : String) : Value → Except Failure String
  | .text s => .ok s
  | v => .error (.noMember v.kind member)

end VideoCatalog
