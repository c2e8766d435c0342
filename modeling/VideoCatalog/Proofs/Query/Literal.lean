import VideoCatalog.Proofs.Query.Tokens
import VideoCatalog.Proofs.Text.Pieces
import VideoCatalog.Proofs.Text.Words

/-!
# Searching for a piece of what is shown

A query may be a piece of the name, of the path or, after a mark, of a tag of an item, letter by
letter. It finds the item then, unless the piece has a capital sigma at an open edge: that one may
take another form in small letters than it has in the item.

* `PlainToken`: a token that no other rule fits.
* `Finds`: a text is found in another one in small letters.
* `matchesQuery_plain_iff`, `matchesQuery_marked_iff`: what queries of one token look for.
* `LiteralSearch`, `literals_found`: the main statement.
* `sigma_at_edge_missed`: a piece that is not found.
-/

namespace VideoCatalog

variable {t : String} {item : Item}

/-- A token without blanks that is neither marked nor a bound on the duration or the size. -/
structure PlainToken (token : String) : Prop where
  nonempty : token ≠ ""
  unbroken : Unbroken token
  unmarked : ∀ wanted, token.toList ≠ '#' :: wanted
  noDuration : ∀ c numeral, ¬Bounded "dur:" token c numeral []
  noSize : ∀ c numeral unit, Bounded "size:" token c numeral unit → ¬IsUnit unit

/-- A text is found in another one, both read in small letters. -/
def Finds (t text : String) : Prop := (Text.lower t).toList <:+: (Text.lower text).toList

theorem finds_iff {text : String} :
    Finds t text ↔ Text.lowerAfter [] t.toList <:+: Text.lowerAfter [] text.toList := by
  rw [Finds, Text.lower, Text.lower, String.toList_ofList, String.toList_ofList]

/-! ### Queries of one token -/

theorem matchesQuery_token (nonempty : t ≠ "") (unbroken : Unbroken t) (item : Item) :
    matchesQuery t item.row = .ok true ↔ (Filter.ofToken t).holds item.row = .ok true := by
  have one : tokenize t = [t] := Text.words_of_solid nonempty unbroken
  rw [matchesQuery_row, Item.matches, one, List.all_cons, List.all_nil, Bool.and_true,
    Filter.holds_row]

theorem matchesQuery_plain_iff (plain : PlainToken t) (item : Item) :
    matchesQuery t item.row = .ok true ↔ ∃ text ∈ [item.name, item.relativePath], Finds t text := by
  rw [matchesQuery_token plain.nonempty plain.unbroken,
    ofToken_piece plain.unbroken plain.unmarked plain.noDuration plain.noSize, holds_piece_iff]
  simp [Finds]

theorem matchesQuery_marked_iff (unbroken : Unbroken t) (item : Item) :
    matchesQuery ("#" ++ t) item.row = .ok true ↔ ∃ tag ∈ item.tags, Finds t tag := by
  have marked : ("#" ++ t).toList = '#' :: t.toList := String.toList_append
  have solid : Unbroken ("#" ++ t) := by
    unfold Unbroken
    rw [marked]
    exact List.forall_mem_cons.2 ⟨by decide, unbroken⟩
  have nonempty : "#" ++ t ≠ "" := fun empty => by simp [empty] at marked
  rw [matchesQuery_token nonempty solid, Filter.ofToken_marked marked, String.ofList_toList]
  exact Filter.anyTag_iff _ item.tags

/-! ### The main statement -/

/-- What a query finds that asks for a text in some texts of each item. -/
structure LiteralSearch (query t : String) (texts : Item → List String) : Prop where
  /-- A piece is found whose capital sigmas have the forms that they have in the item. -/
  kept : ∀ (item : Item) (before after : String), before ++ t ++ after ∈ texts item →
    Text.KeepsSigmas before.toList t.toList after.toList → matchesQuery query item.row = .ok true
  /-- It is found in every item of which it is a piece if it has no capital sigma at an open edge,
  and only then. -/
  always : (∀ item, (∃ text ∈ texts item, t.toList <:+: text.toList) →
    matchesQuery query item.row = .ok true) ↔ Text.SelfContained t.toList

/-- A query that looks for a text in small letters, in texts that can be any. -/
theorem literalSearch_of_finds {query : String} {texts : Item → List String}
    (asks : ∀ item, matchesQuery query item.row = .ok true ↔ ∃ text ∈ texts item, Finds t text)
    (any : ∀ text, ∃ item, text ∈ texts item ∧ ∀ other ∈ texts item, other = text) :
    LiteralSearch query t texts where
  kept item before after among kept := by
    refine (asks item).2 ⟨_, among, finds_iff.2 ?_⟩
    rw [String.toList_append, String.toList_append]
    exact Text.infix_of_keepsSigmas kept
  always := by
    rw [Text.selfContained_iff]
    constructor
    · intro found before after
      -- There is an item that shows the whole text and nothing else.
      obtain ⟨item, among, only⟩ := any (String.ofList (before ++ t.toList ++ after))
      have piece : t.toList <:+: (String.ofList (before ++ t.toList ++ after)).toList := by
        rw [String.toList_ofList]
        exact ⟨before, after, rfl⟩
      obtain ⟨text, there, finds⟩ := (asks item).1 (found item ⟨_, among, piece⟩)
      rw [only text there, finds_iff, String.toList_ofList] at finds
      exact finds
    · rintro found item ⟨text, among, before, after, split⟩
      refine (asks item).2 ⟨text, among, finds_iff.2 ?_⟩
      rw [← split]
      exact found before after

/-- An item with a name, and a tag that is the same text. -/
def namedItem (name : String) : Item where
  name := name
  relativePath := name
  size := none
  modified := none
  mime := "video/mp4"
  source := ⟨"", [name]⟩
  tags := [name]

/-- What a token has to be for no bound to be found in it. -/
theorem plainToken_of_no_bound (nonempty : t ≠ "") (unbroken : Unbroken t)
    (unmarked : t.toList.head? ≠ some '#') (noDuration : Filter.durationBound? t.toList = none)
    (noSize : Filter.sizeBound? t.toList = none) : PlainToken t where
  nonempty := nonempty
  unbroken := unbroken
  unmarked wanted marked := unmarked (by rw [marked]; rfl)
  noDuration c numeral bounded := by
    have found := (durationBound?_eq_some_iff unbroken).2 ⟨c, numeral, bounded, rfl⟩
    rw [noDuration] at found
    cases found
  noSize c numeral unit bounded isUnit := by
    obtain ⟨power, known, -⟩ := isUnit.power
    have found :=
      (sizeBound?_eq_some_iff unbroken).2 ⟨c, numeral, unit, power, bounded, known, rfl⟩
    rw [noSize] at found
    cases found

/-- A plain token finds the items of whose name or path it is a piece, and a marked text those of
whose tags it is one, as far as capital sigmas keep their forms. -/
theorem literals_found (t : String) :
    (PlainToken t → LiteralSearch t t fun item => [item.name, item.relativePath]) ∧
      (Unbroken t → LiteralSearch ("#" ++ t) t Item.tags) := by
  refine ⟨fun plain => ?_, fun unbroken => ?_⟩
  · refine literalSearch_of_finds (matchesQuery_plain_iff plain) fun text => ?_
    exact ⟨namedItem text, by simp [namedItem], by simp [namedItem]⟩
  · refine literalSearch_of_finds (matchesQuery_marked_iff unbroken) fun text => ?_
    exact ⟨namedItem text, by simp [namedItem], by simp [namedItem]⟩

/-- A sigma between two other letters has the same form everywhere. -/
theorem literals_found_inside :
    PlainToken "\u03a9\u03a3\u03a6" ∧ Text.SelfContained "\u03a9\u03a3\u03a6".toList ∧
      (let item := namedItem "\u03a6\u03a9\u03a3\u03a6\u039f\u03a1\u039f\u03a3.mp4";
        matchesQuery "\u03a9\u03a3\u03a6" item.row = .ok true ∧
          matchesQuery ("#" ++ "\u03a9\u03a3\u03a6") item.row = .ok true) := by
  have unbroken : Unbroken "\u03a9\u03a3\u03a6" := by
    unfold Unbroken
    decide +kernel
  have plain : PlainToken "\u03a9\u03a3\u03a6" :=
    plainToken_of_no_bound (by decide) unbroken (by decide) (by decide +kernel)
      (by decide +kernel)
  have closed : Text.SelfContained "\u03a9\u03a3\u03a6".toList := by decide +kernel
  have piece : "\u03a9\u03a3\u03a6".toList <:+:
      "\u03a6\u03a9\u03a3\u03a6\u039f\u03a1\u039f\u03a3.mp4".toList := by decide
  exact ⟨plain, closed,
    ((literals_found _).1 plain).always.2 closed _ ⟨_, List.mem_cons_self, piece⟩,
    ((literals_found _).2 unbroken).always.2 closed _ ⟨_, List.mem_cons_self, piece⟩⟩

/-- A sigma at the end of a piece ends a word there, but not in the name, nor in the tag. -/
theorem sigma_at_edge_missed :
    PlainToken "\u0391\u03a3" ∧
      (let item := namedItem "\u0391\u03a3\u0391.mp4";
        "\u0391\u03a3".toList <:+: item.name.toList ∧
          matchesQuery "\u0391\u03a3" item.row = .ok false ∧
          (∃ tag ∈ item.tags, "\u0391\u03a3".toList <:+: tag.toList) ∧
          matchesQuery ("#" ++ "\u0391\u03a3") item.row = .ok false) := by
  have unbroken : Unbroken "\u0391\u03a3" := by
    unfold Unbroken
    decide +kernel
  have piece : "\u0391\u03a3".toList <:+: "\u0391\u03a3\u0391.mp4".toList := by decide
  exact ⟨plainToken_of_no_bound (by decide) unbroken (by decide) (by decide +kernel)
      (by decide +kernel), piece, by decide +kernel, ⟨_, List.mem_cons_self, piece⟩,
    by decide +kernel⟩

end VideoCatalog
