import VideoCatalog.Proofs.Query.Ordering
import VideoCatalog.Proofs.Text.Words

/-!
# Queries that are put together

A query says of an item what its tokens say together, and a run of blanks joins the tokens of two
queries without a change.

* `tokenize_append`: the tokens of two queries with a run of blanks between them.
* `matches_append`, `matches_congr`, `matches_of_subset`: what queries say together, with the same
  tokens, and with fewer of them.
* `Conjoins`, `queries_conjoin`: the main statement.
-/

namespace VideoCatalog

open Text

variable {w a b q q' : String} {item : Item}

theorem tokenize_append (run : BlankRun w) (a b : String) :
    tokenize (a ++ w ++ b) = tokenize a ++ tokenize b := words_append run a b

/-- A blank run has no tokens. -/
theorem tokenize_blankRun (run : BlankRun w) : tokenize w = [] := words_blankRun run

namespace Item

theorem matches_iff : item.matches q = true ↔
    ∀ token ∈ tokenize q, (Filter.ofToken token).accepts item.row = true := List.all_eq_true

theorem matches_append (run : BlankRun w) (a b : String) (item : Item) :
    item.matches (a ++ w ++ b) = (item.matches a && item.matches b) := by
  rw [Item.matches, tokenize_append run, List.all_append]
  rfl

/-- Fewer tokens hold of more items. -/
theorem matches_of_subset (fewer : tokenize q ⊆ tokenize q') (holds : item.matches q' = true) :
    item.matches q = true :=
  matches_iff.2 fun token mem => matches_iff.1 holds token (fewer mem)

/-- Only which tokens there are makes a difference, not their order or number. -/
theorem matches_congr (same : ∀ token, token ∈ tokenize q ↔ token ∈ tokenize q') (item : Item) :
    item.matches q = item.matches q' := by
  rw [Bool.eq_iff_iff]
  exact ⟨matches_of_subset fun token => (same token).2, matches_of_subset fun token => (same token).1⟩

end Item

/-- What a run of blanks does in queries. -/
structure Conjoins (w : String) : Prop where
  /-- Tokens neither merge nor split at the run. -/
  tokens : ∀ a b, tokenize (a ++ w ++ b) = tokenize a ++ tokenize b
  /-- It can always be said whether a query holds of an item. -/
  said : ∀ q (item : Item), matchesQuery q item.row = .ok (item.matches q)
  /-- Two queries that are put together hold of an item if both do. -/
  both : ∀ a b (item : Item), matchesQuery (a ++ w ++ b) item.row = .ok true ↔
    matchesQuery a item.row = .ok true ∧ matchesQuery b item.row = .ok true
  /-- The order of tokens and their number make no difference. -/
  unordered : ∀ q q' (item : Item), (∀ token, token ∈ tokenize q ↔ token ∈ tokenize q') →
    matchesQuery q item.row = matchesQuery q' item.row
  /-- Blanks before a query make no difference, nor do blanks after it. -/
  around : ∀ q (item : Item), matchesQuery (w ++ q) item.row = matchesQuery q item.row ∧
    matchesQuery (q ++ w) item.row = matchesQuery q item.row
  /-- It makes no difference which blanks stand between tokens, and how many. -/
  between : ∀ a b (item : Item) v, BlankRun v →
    matchesQuery (a ++ w ++ b) item.row = matchesQuery (a ++ v ++ b) item.row
  /-- A query of blanks alone holds of every item. -/
  everything : ∀ item : Item, matchesQuery w item.row = .ok true
  /-- A query keeps the items that it holds of, in their order. -/
  keeps : ∀ q (items : List Item), ∃ kept, Query.keep (queryFilters q) Item.row items = .ok kept ∧
    kept = items.filter (·.matches q) ∧ kept.Sublist items
  /-- With more tokens it keeps no more. -/
  shrinks : ∀ q q' (items : List Item) kept kept', tokenize q ⊆ tokenize q' →
    Query.keep (queryFilters q) Item.row items = .ok kept →
    Query.keep (queryFilters q') Item.row items = .ok kept' → kept'.Sublist kept

/-- A run of blanks between two queries asks for both. -/
theorem queries_conjoin (run : BlankRun w) : Conjoins w where
  tokens := tokenize_append run
  said := matchesQuery_row
  both a b item := by
    simp only [matchesQuery_row, Except.ok.injEq, Item.matches_append run, Bool.and_eq_true]
  unordered q q' item same := by
    rw [matchesQuery_row, matchesQuery_row, Item.matches_congr same]
  around q item := by
    have before : tokenize (w ++ q) = tokenize q := words_blankRun_append run q
    have after : tokenize (q ++ w) = tokenize q := words_append_blankRun run q
    simp only [matchesQuery, queryFilters, before, after, and_self]
  between a b item v other := by
    simp only [matchesQuery_row, Item.matches_append run, Item.matches_append other]
  everything item := by
    rw [matchesQuery_row, Item.matches, tokenize_blankRun run, List.all_nil]
  keeps q items := ⟨_, Query.keep_eq q id items, rfl, List.filter_sublist⟩
  shrinks q q' items kept kept' more keep keep' := by
    obtain rfl := Except.ok.inj (keep.symm.trans (Query.keep_eq q id items))
    obtain rfl := Except.ok.inj (keep'.symm.trans (Query.keep_eq q' id items))
    exact List.monotone_filter_right items fun item => Item.matches_of_subset more

/-- An item with a tag. -/
def trip : Item where
  name := "Trip.mp4"
  relativePath := "2020/Trip.mp4"
  size := some (.whole 10)
  modified := none
  mime := "video/mp4"
  source := ⟨"/", ["2020", "Trip.mp4"]⟩
  duration := some (.whole 120)
  tags := ["travel"]

/-- Blanks of several kinds stand between two queries that both hold of an item. -/
theorem queries_conjoin_trip :
    BlankRun "\u2003\t\u001c" ∧
      matchesQuery ("trip" ++ "\u2003\t\u001c" ++ "dur:>=60 #TRAV") trip.row = .ok true := by
  have run : BlankRun "\u2003\t\u001c" := ⟨by decide, by decide +kernel⟩
  refine ⟨run, ((queries_conjoin run).both "trip" "dur:>=60 #TRAV" trip).2 ⟨?_, ?_⟩⟩
  · decide +kernel
  · decide +kernel

end VideoCatalog
