import VideoCatalog.Query.Sort

/-!
# Evaluating queries

A query first keeps the elements that it holds of, and then sorts them.

* `keep`: the elements that a query holds of.
* `Order`, `Order.ofValue`: how a result is to be sorted.
* `evaluate`: the kept elements, sorted by a given or a default specification.
-/

namespace VideoCatalog.Query

/-- The elements that some filters hold of, in their order. -/
def keep {α : Type} (filters : List Filter) (row : α → Row) : List α → Except Failure (List α)
  | [] => .ok []
  | a :: rest =>
    match Filter.allHold filters (row a) with
    | .error f => .error f
    | .ok true => (keep filters row rest).map (a :: ·)
    | .ok false => keep filters row rest

/-- How the result of a query is to be sorted. -/
inductive Order where
  | standard
  | selector (s : String)
  | given (spec : SortSpec)
  | unusable (kind : String)
deriving Repr

/-- The order that a value asks for: a text is a selector, and what does not count as set asks
for nothing. -/
def Order.ofValue : Value → Order
  | .text s => .selector s
  | v => if v.truthy then .unusable v.kind else .standard

/-- The specification that an order stands for. -/
def Order.spec? (default : Option SortSpec) : Order → Except Failure (Option SortSpec)
  | .standard => .ok default
  | .selector s => (SortSpec.parse s).map some
  | .given spec => .ok (some spec)
  | .unusable kind => .error (.noMember kind "apply")

/-- The elements that a query holds of, sorted. -/
def evaluate {α : Type} (default : Option SortSpec) (row : α → Row) (items : List α)
    (query : String) (order : Order) : Except Failure (List α) :=
  match keep (queryFilters query) row items with
  | .error f => .error f
  | .ok kept =>
    match order.spec? default with
    | .error f => .error f
    | .ok none => .ok kept
    | .ok (some spec) => spec.apply row kept

end VideoCatalog.Query
