import Mathlib.Data.Prod.Lex
import Mathlib.Data.String.Basic
import VideoCatalog.Proofs.Number.Order
import VideoCatalog.Proofs.Query.Stable
import VideoCatalog.Query.Evaluate

/-!
# Queries filter and sort

* `Item.Plain`: an item whose name can be compared and whose quantities are numbers.
* `Item.matches`: every token of a query holds of an item; `keep_eq` says that a query keeps these.
* `SortKey.Scale`, `SortKey.rank`: what items are sorted by, with its order.
* `SortSpec.apply_eq`: sorting is a stable sort by rank.
* `evaluate_sorts`: what a query gives, and that sorting may come first.
-/

namespace VideoCatalog

/-- The name of the item can be compared, and its quantities are numbers. -/
structure Item.Plain (item : Item) : Prop where
  name : Char.ofNat 0 ∉ item.name.toList
  size : ∀ q, item.size = some q → q.IsNumber
  modified : ∀ q, item.modified = some q → q.IsNumber
  duration : ∀ q, item.duration = some q → q.IsNumber

/-! ### Filtering -/

/-- The quantity that a number is compared as. -/
def SortKey.quantityOf (q : Option Quantity) : Quantity :=
  match q with
  | some q => if q.isZero then .whole 0 else q
  | none => .whole 0

/-- Whether a filter holds of a row, if that can be said. -/
def Filter.accepts (filter : Filter) (row : Row) : Bool :=
  match filter.holds row with
  | .ok b => b
  | .error _ => false

/-- Whether every token of a query holds of an item. -/
def Item.matches (query : String) (item : Item) : Bool :=
  (tokenize query).all fun token => (Filter.ofToken token).accepts item.row

namespace Filter

theorem anyTag_texts (wanted : String) (tags : List String) :
    ∃ b, anyTag wanted (tags.map .text) = .ok b := by
  induction tags with
  | nil => exact ⟨false, rfl⟩
  | cons t rest ih =>
    simp only [List.map_cons, anyTag, Value.asText]
    split
    · exact ⟨true, rfl⟩
    · exact ih

/-- Zero stands in for what does not count as set. -/
theorem valueOr_ofQuantity? (q : Option Quantity) :
    valueOr (.ofQuantity? q) (.int 0) = .ofQuantity? (some (SortKey.quantityOf q)) := by
  cases q with
  | none => rfl
  | some q =>
    cases zero : q.isZero with
    | true => simp [valueOr, Value.truthy, Value.ofQuantity?, Value.int, SortKey.quantityOf, zero]
    | false => simp [valueOr, Value.truthy, Value.ofQuantity?, SortKey.quantityOf, zero]

theorem quantity?_valueOr (q : Option Quantity) :
    (valueOr (.ofQuantity? q) (.int 0)).quantity? = some (SortKey.quantityOf q) := by
  rw [valueOr_ofQuantity?]
  rfl

/-- Of the row of an item it can always be said whether a filter holds. -/
theorem holds_row (filter : Filter) (item : Item) :
    filter.holds item.row = .ok (filter.accepts item.row) := by
  have said : ∃ b, filter.holds item.row = .ok b := by
    cases filter with
    | tag wanted => exact anyTag_texts wanted item.tags
    | duration comparison seconds =>
      simp [holds, Item.row, Comparison.holds, quantity?_valueOr item.duration]
    | size comparison bytes =>
      simp [holds, Item.row, Comparison.holds, quantity?_valueOr item.size]
    | piece needle =>
      simp only [holds, Item.row, Value.asText]
      split
      · exact ⟨true, rfl⟩
      · exact ⟨_, rfl⟩
  obtain ⟨b, said⟩ := said
  rw [accepts, said]

theorem allHold_row (filters : List Filter) (item : Item) :
    allHold filters item.row = .ok (filters.all (·.accepts item.row)) := by
  induction filters with
  | nil => rfl
  | cons filter rest ih =>
    rw [allHold, holds_row]
    cases accepted : filter.accepts item.row with
    | false => simp [accepted]
    | true => simp [accepted, ih]

end Filter

/-- Of an item it can always be said whether a query holds. -/
theorem matchesQuery_row (query : String) (item : Item) :
    matchesQuery query item.row = .ok (item.matches query) := by
  rw [matchesQuery, Filter.allHold_row, queryFilters, List.all_map]
  rfl

variable {α : Type} {see : α → Item} {items : List α}

/-- A query keeps the elements whose items it matches. -/
theorem Query.keep_eq (query : String) (see : α → Item) (items : List α) :
    Query.keep (queryFilters query) (fun a => (see a).row) items =
      .ok (items.filter fun a => (see a).matches query) := by
  induction items with
  | nil => rfl
  | cons a rest ih =>
    have said : Filter.allHold (queryFilters query) (see a).row = .ok ((see a).matches query) :=
      matchesQuery_row query (see a)
    rw [Query.keep, said]
    cases found : (see a).matches query with
    | false => simp [found, ih]
    | true => simp [found, ih, Except.map]

/-! ### Ranks -/

namespace SortKey

/-- What items are sorted by: two texts one after the other, or a number. -/
def Scale : SortKey → Type
  | name => String ×ₗ String
  | date | size | duration => WithBot (WithTop ℚ)

instance linearOrderScale : (key : SortKey) → LinearOrder key.Scale
  | name => inferInstanceAs (LinearOrder (String ×ₗ String))
  | date | size | duration => inferInstanceAs (LinearOrder (WithBot (WithTop ℚ)))

/-- A number, with zero for one that is absent. -/
def numberOf (q : Option Quantity) : WithBot (WithTop ℚ) := q.elim (Quantity.finite 0) Quantity.value

/-- What an item is sorted by: by name, the folded name and then the name itself. -/
def rank : (key : SortKey) → Item → key.Scale
  | name, item => toLex (Text.caseFold item.name, item.name)
  | date, item => numberOf item.modified
  | size, item => numberOf item.size
  | duration, item => numberOf item.duration

/-- The cell of an item. -/
def cellOf : SortKey → Item → SortCell
  | name, item => .texts (Text.caseFold item.name) item.name
  | date, item => .quantity (quantityOf item.modified)
  | size, item => .quantity (quantityOf item.size)
  | duration, item => .quantity (quantityOf item.duration)

theorem valueCell_ofQuantity? (q : Option Quantity) :
    valueCell (.ofQuantity? q) = .quantity (quantityOf q) := by
  rw [valueCell, Filter.valueOr_ofQuantity?]
  rfl

theorem cell_row (key : SortKey) {item : Item} (plain : item.Plain) :
    key.cell item.row = .ok (key.cellOf item) := by
  cases key with
  | name => simp [cell, nameCell, Item.row, Value.asText, plain.name, cellOf]
  | date => exact congrArg Except.ok (valueCell_ofQuantity? item.modified)
  | size => exact congrArg Except.ok (valueCell_ofQuantity? item.size)
  | duration => exact congrArg Except.ok (valueCell_ofQuantity? item.duration)

theorem isNumber_quantityOf {q : Option Quantity} (number : ∀ x, q = some x → x.IsNumber) :
    (quantityOf q).IsNumber := by
  unfold quantityOf
  split
  · next x =>
    split
    · simp [Quantity.IsNumber]
    · exact number x rfl
  · simp [Quantity.IsNumber]

theorem value_quantityOf (q : Option Quantity) : (quantityOf q).value = numberOf q := by
  cases q with
  | none => simp [quantityOf, numberOf]
  | some x =>
    cases zero : x.isZero with
    | true => simp [quantityOf, numberOf, zero, Quantity.value_of_isZero zero]
    | false => simp [quantityOf, numberOf, zero]

theorem less_quantityOf {p q : Option Quantity} (hp : ∀ x, p = some x → x.IsNumber)
    (hq : ∀ x, q = some x → x.IsNumber) :
    (quantityOf p).less (quantityOf q) = decide (numberOf p < numberOf q) := by
  rw [Bool.eq_iff_iff, Quantity.less_iff (isNumber_quantityOf hp) (isNumber_quantityOf hq),
    value_quantityOf, value_quantityOf, decide_eq_true_iff]

/-- Cells are compared as the ranks are. -/
theorem less_cellOf (key : SortKey) {item other : Item} (plain : item.Plain) (plain' : other.Plain) :
    (key.cellOf item).less (key.cellOf other) = decide (key.rank item < key.rank other) := by
  cases key with
  | name =>
    rw [Bool.eq_iff_iff, decide_eq_true_iff]
    refine Iff.trans ?_ (Prod.Lex.toLex_lt_toLex (x := (Text.caseFold item.name, item.name))).symm
    simp [cellOf, SortCell.less, SortCell.textLess]
  | date => exact less_quantityOf plain.modified plain'.modified
  | size => exact less_quantityOf plain.size plain'.size
  | duration => exact less_quantityOf plain.duration plain'.duration

theorem comparable_cellOf (key : SortKey) (item other : Item) :
    (key.cellOf item).comparable (key.cellOf other) = true := by
  cases key <;> rfl

end SortKey

/-! ### Sorting -/

namespace SortSpec

/-- Two ranks may stand in this order. -/
def Ordered (spec : SortSpec) (x y : spec.key.Scale) : Prop :=
  if spec.descending then y ≤ x else x ≤ y

instance (spec : SortSpec) (x y : spec.key.Scale) : Decidable (spec.Ordered x y) :=
  inferInstanceAs (Decidable (if spec.descending then y ≤ x else x ≤ y))

variable {spec : SortSpec} {x y z : spec.key.Scale}

theorem Ordered.refl (x : spec.key.Scale) : spec.Ordered x x := by
  unfold Ordered
  split <;> exact le_refl x

theorem Ordered.trans (xy : spec.Ordered x y) (yz : spec.Ordered y z) : spec.Ordered x z := by
  unfold Ordered at *
  split
  · next down =>
    rw [if_pos down] at xy yz
    exact yz.trans xy
  · next up =>
    rw [if_neg up] at xy yz
    exact xy.trans yz

theorem ordered_total (x y : spec.key.Scale) : spec.Ordered x y ∨ spec.Ordered y x := by
  unfold Ordered
  split
  · exact le_total y x
  · exact le_total x y

theorem withCells_eq (key : SortKey) (plain : ∀ a ∈ items, (see a).Plain) :
    withCells key (fun a => (see a).row) items =
      .ok (items.map fun a => (key.cellOf (see a), a)) := by
  induction items with
  | nil => rfl
  | cons a rest ih =>
    rw [withCells, key.cell_row (plain a List.mem_cons_self),
      ih fun b mem => plain b (List.mem_cons_of_mem a mem)]
    rfl

theorem checkCells_eq (key : SortKey) (see : α → Item) (items : List α) :
    checkCells (items.map fun a => (key.cellOf (see a), a)) = .ok () := by
  cases items with
  | nil => rfl
  | cons a rest =>
    cases rest with
    | nil => rfl
    | cons b rest => simp [checkCells, SortKey.comparable_cellOf]

theorem inOrder_eq {a b : α} (plain : (see a).Plain) (plain' : (see b).Plain) :
    spec.inOrder (spec.key.cellOf (see a), a) (spec.key.cellOf (see b), b) =
      decide (spec.Ordered (spec.key.rank (see a)) (spec.key.rank (see b))) := by
  rw [Bool.eq_iff_iff, decide_eq_true_iff]
  unfold inOrder Ordered
  rw [SortKey.less_cellOf _ plain plain', SortKey.less_cellOf _ plain' plain]
  split <;> simp

/-- The elements sorted by the ranks of their items. -/
def sorted (spec : SortSpec) (see : α → Item) (items : List α) : List α :=
  items.mergeSort fun a b => spec.Ordered (spec.key.rank (see a)) (spec.key.rank (see b))

/-- Elements with plain items are sorted by the ranks of these. -/
theorem apply_eq (spec : SortSpec) (plain : ∀ a ∈ items, (see a).Plain) :
    spec.apply (fun a => (see a).row) items = .ok (spec.sorted see items) := by
  have forget := List.map_mergeSort (f := Prod.snd) (r := spec.inOrder)
    (s := fun a b => spec.Ordered (spec.key.rank (see a)) (spec.key.rank (see b)))
    (l := items.map fun a => (spec.key.cellOf (see a), a)) (by
      simp only [List.mem_map]
      rintro _ ⟨a, ha, rfl⟩ _ ⟨b, hb, rfl⟩
      exact inOrder_eq (plain a ha) (plain b hb))
  simp only [apply, withCells_eq spec.key plain, checkCells_eq, forget, List.map_map]
  rw [show (Prod.snd ∘ fun a => (spec.key.cellOf (see a), a)) = id from rfl, List.map_id, sorted]

section Sorted

variable (spec : SortSpec) (see : α → Item) (items : List α)

theorem perm_sorted : (spec.sorted see items).Perm items := List.mergeSort_perm items _

theorem pairwise_sorted : (spec.sorted see items).Pairwise fun a b =>
    spec.Ordered (spec.key.rank (see a)) (spec.key.rank (see b)) := by
  have pairwise : (spec.sorted see items).Pairwise fun a b =>
      decide (spec.Ordered (spec.key.rank (see a)) (spec.key.rank (see b))) = true :=
    List.pairwise_mergeSort (fun a b c => by simpa using Ordered.trans)
      (fun a b => by simpa using ordered_total _ _) items
  simpa using pairwise

/-- Elements of equal rank keep their order. -/
theorem filter_sorted_rank (rank : spec.key.Scale) :
    (spec.sorted see items).filter (fun a => spec.key.rank (see a) = rank) =
      items.filter fun a => spec.key.rank (see a) = rank := by
  refine filter_mergeSort_of_ties (fun a b c => by simpa using Ordered.trans)
    (fun a b => by simpa using ordered_total _ _) (fun a b ha hb => ?_) items
  rw [decide_eq_true_iff] at *
  rw [ha, hb]
  exact Ordered.refl rank

/-- Elements may be left out before or after sorting. -/
theorem filter_sorted (keep : α → Bool) :
    (spec.sorted see items).filter keep = spec.sorted see (items.filter keep) :=
  filter_mergeSort (fun a b c => by simpa using Ordered.trans)
    (fun a b => by simpa using ordered_total _ _) keep items

end Sorted

end SortSpec

/-- A query that asks for an order gives the elements that it matches, each as often as it was
there, by ascending or descending rank; those of equal rank stay in their order in both directions.
All elements may as well be sorted first and filtered afterwards. -/
theorem evaluate_sorts (plain : ∀ a ∈ items, (see a).Plain) (query : String)
    {default : Option SortSpec} {order : Query.Order} {spec : SortSpec}
    (asked : order.spec? default = .ok (some spec)) :
    ∃ result, Query.evaluate default (fun a => (see a).row) items query order = .ok result ∧
      result.Perm (items.filter fun a => (see a).matches query) ∧
      result.Pairwise (fun a b => spec.Ordered (spec.key.rank (see a)) (spec.key.rank (see b))) ∧
      (∀ rank, result.filter (fun a => spec.key.rank (see a) = rank) =
        (items.filter fun a => (see a).matches query).filter
          fun a => spec.key.rank (see a) = rank) ∧
      ∃ sorted, spec.apply (fun a => (see a).row) items = .ok sorted ∧
        Query.keep (queryFilters query) (fun a => (see a).row) sorted = .ok result := by
  have kept : ∀ a ∈ items.filter (fun a => (see a).matches query), (see a).Plain :=
    fun a mem => plain a (List.mem_of_mem_filter mem)
  refine ⟨spec.sorted see (items.filter fun a => (see a).matches query), ?_,
    spec.perm_sorted see _, spec.pairwise_sorted see _, spec.filter_sorted_rank see _,
    spec.sorted see items, spec.apply_eq plain, ?_⟩
  · simp only [Query.evaluate, Query.keep_eq, asked, spec.apply_eq kept]
  · rw [Query.keep_eq, spec.filter_sorted]

/-- An item with a name and a size. -/
def sizedItem (name : String) (size : Option Quantity) : Item where
  name := name
  relativePath := name
  size := size
  modified := none
  mime := "video/mp4"
  source := ⟨"", [name]⟩

/-- Two items of one size, given as a whole number and as a binary64 number, among others. -/
def sizedItems : List Item := [
  sizedItem "clip b" (some (.whole 1)), sizedItem "song" (some (.whole 2)),
  sizedItem "clip a" (some (.real .one)), sizedItem "clip c" none,
  sizedItem "clip d" (some (.real (.infinite false)))]

theorem evaluate_sorts_descending :
    (∀ a ∈ sizedItems, (id a).Plain) ∧
      Query.Order.spec? none (.selector "size-desc") = .ok (some ⟨.size, true⟩) ∧
      ∃ result : List Item,
        Query.evaluate none Item.row sizedItems "clip" (.selector "size-desc") = .ok result ∧
        result.length = 4 ∧
        result.filter (fun a => SortKey.size.rank a =
            SortKey.size.rank (sizedItem "clip b" (some (.whole 1)))) =
          [sizedItem "clip b" (some (.whole 1)), sizedItem "clip a" (some (.real .one))] := by
  have plain : ∀ a ∈ sizedItems, (id a).Plain := by
    intro a mem
    simp only [sizedItems, List.mem_cons, List.not_mem_nil, or_false] at mem
    rcases mem with rfl | rfl | rfl | rfl | rfl <;>
      exact ⟨by decide, by simp [sizedItem, Quantity.IsNumber, Binary64.one],
        by simp [sizedItem], by simp [sizedItem]⟩
  have asked : Query.Order.spec? none (.selector "size-desc") = .ok (some ⟨.size, true⟩) := by rfl
  have matched : sizedItems.filter (fun a => (id a).matches "clip") =
      [sizedItem "clip b" (some (.whole 1)), sizedItem "clip a" (some (.real .one)),
        sizedItem "clip c" none, sizedItem "clip d" (some (.real (.infinite false)))] := by rfl
  obtain ⟨result, found, perm, -, classes, -⟩ := evaluate_sorts plain "clip" asked
  rw [matched] at perm classes
  refine ⟨plain, asked, result, found, perm.length_eq, ?_⟩
  let b := sizedItem "clip b" (some (.whole 1))
  have same : SortKey.size.rank (sizedItem "clip a" (some (.real .one))) = SortKey.size.rank b :=
    Quantity.value_one
  have absent : SortKey.size.rank (sizedItem "clip c" none) ≠ SortKey.size.rank b := by
    change Quantity.finite 0 ≠ Quantity.finite 1
    simp [Quantity.finite]
  have infinite : SortKey.size.rank (sizedItem "clip d" (some (.real (.infinite false)))) ≠
      SortKey.size.rank b := (Quantity.finite_lt_top 1).ne'
  refine (classes (SortKey.size.rank b)).trans ?_
  simp [b, same, absent, infinite]

end VideoCatalog
