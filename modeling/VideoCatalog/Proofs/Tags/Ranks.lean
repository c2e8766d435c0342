import Mathlib.Data.Finset.Card
import Mathlib.Data.List.Induction
import VideoCatalog.Proofs.Tags.Editing

/-!
# Tags stand at their first places

Normalising goes through a list once and compares each text with those kept so far. Where a text
comes to stand depends on the texts before its first place alone.

* `fullTexts`: the trimmed texts of a list, without the empty ones.
* `rank`: how many different texts stand before the first place of a text.
* `getElem?_normalizeTags_iff`: what a normalised list holds, and where.
* `addEach`: adding tags to an item one after another.
* `normalizing_keeps_first_places`: the main statement.
-/

namespace VideoCatalog

/-- The trimmed texts of a list, without the empty ones. -/
def fullTexts (texts : List String) : List String := (texts.map Text.trim).filter (· != "")

/-- How many different texts stand before the first place of a text. -/
def rank (texts : List String) (t : String) : ℕ := (texts.takeWhile (· != t)).toFinset.card

section

variable {texts : List String} {t : String}

theorem mem_fullTexts : t ∈ fullTexts texts ↔ t ≠ "" ∧ ∃ raw ∈ texts, Text.trim raw = t := by
  rw [fullTexts, List.mem_filter, List.mem_map, bne_iff_ne, and_comm]

theorem fullTexts_concat (texts : List String) (raw : String) :
    fullTexts (texts ++ [raw]) =
      fullTexts texts ++ if Text.trim raw = "" then [] else [Text.trim raw] := by
  rw [fullTexts, List.map_append, List.filter_append, ← fullTexts]
  by_cases blank : Text.trim raw = "" <;> simp [blank]

/-- What comes after the first place of a text does not matter to its rank. -/
theorem rank_append_of_mem (mem : t ∈ texts) (more : List String) :
    rank (texts ++ more) t = rank texts t := by
  have same : (texts ++ more).takeWhile (· != t) = texts.takeWhile (· != t) := by
    induction texts with
    | nil => cases mem
    | cons first later ih =>
      rw [List.cons_append]
      by_cases here : first = t
      · simp only [List.takeWhile_cons, bne_eq_false_iff_eq.2 here, Bool.false_eq_true, if_false]
      · have past := ih (List.mem_of_ne_of_mem (Ne.symm here) mem)
        simp only [List.takeWhile_cons, bne_iff_ne.2 here, if_true, past]
  rw [rank, same, rank]

/-- A new text comes behind all different ones. -/
theorem rank_concat_self (new : t ∉ texts) : rank (texts ++ [t]) t = texts.toFinset.card := by
  have before : ∀ s ∈ texts, (s != t) = true := fun s mem =>
    bne_iff_ne.2 fun same => new (same ▸ mem)
  rw [rank, List.takeWhile_append_of_pos before, List.takeWhile_cons_of_neg (by simp),
    List.append_nil]

end

/-! ### One text after another -/

theorem mem_normalizeTags {texts : List String} {t : String} :
    t ∈ normalizeTags texts ↔ t ∈ fullTexts texts := by
  induction texts using List.reverseRecOn with
  | nil => rfl
  | append_singleton texts raw ih =>
    rw [normalizeTags_append_singleton, fullTexts_concat, List.mem_append, ← ih]
    by_cases blank : Text.trim raw = ""
    · simp [addNormal_of_blank blank, blank]
    · by_cases there : Text.trim raw ∈ normalizeTags texts
      · simp only [addNormal_of_mem there, blank, if_false, List.mem_singleton, iff_self_or]
        rintro rfl
        exact there
      · simp [addNormal_of_new blank there, blank]

/-- A normalised list is as long as there are different texts. -/
theorem length_normalizeTags (texts : List String) :
    (normalizeTags texts).length = (fullTexts texts).toFinset.card := by
  rw [← List.toFinset_card_of_nodup (normalTags_normalizeTags texts).nodup]
  refine congrArg Finset.card (Finset.ext fun t => ?_)
  rw [List.mem_toFinset, List.mem_toFinset, mem_normalizeTags]

/-- A text stands at its rank. -/
theorem getElem?_rank {texts : List String} {t : String} (mem : t ∈ fullTexts texts) :
    (normalizeTags texts)[rank (fullTexts texts) t]? = some t := by
  induction texts using List.reverseRecOn with
  | nil => cases mem
  | append_singleton texts raw ih =>
    rw [fullTexts_concat] at mem ⊢
    rw [normalizeTags_append_singleton]
    by_cases blank : Text.trim raw = ""
    · rw [if_pos blank, List.append_nil] at mem ⊢
      rw [addNormal_of_blank blank]
      exact ih mem
    · rw [if_neg blank] at mem ⊢
      by_cases there : Text.trim raw ∈ fullTexts texts
      · have old : t ∈ fullTexts texts := by
          rcases List.mem_append.1 mem with old | same
          · exact old
          · rwa [List.mem_singleton.1 same]
        rw [addNormal_of_mem (mem_normalizeTags.2 there), rank_append_of_mem old]
        exact ih old
      · rw [addNormal_of_new blank (there ∘ mem_normalizeTags.1)]
        rcases List.mem_append.1 mem with old | same
        · have found := ih old
          rw [rank_append_of_mem old,
            List.getElem?_append_left (List.getElem?_eq_some_iff.1 found).1, found]
        · -- The new text comes to stand behind all that were kept.
          obtain rfl := List.mem_singleton.1 same
          rw [rank_concat_self there, ← length_normalizeTags, List.getElem?_concat_length]

/-- At each place stands the text whose rank it is. -/
theorem getElem?_normalizeTags_iff (texts : List String) (i : ℕ) (t : String) :
    (normalizeTags texts)[i]? = some t ↔
      t ∈ fullTexts texts ∧ rank (fullTexts texts) t = i := by
  constructor
  · intro found
    have mem : t ∈ fullTexts texts := mem_normalizeTags.1 (List.mem_of_getElem? found)
    refine ⟨mem, ?_⟩
    have within := (List.getElem?_eq_some_iff.1 found).1
    have twice := found.trans (getElem?_rank mem).symm
    exact ((List.getElem?_inj within (normalTags_normalizeTags texts).nodup).1 twice).symm
  · rintro ⟨mem, rfl⟩
    exact getElem?_rank mem

/-- Tags that are the trimmed texts of a list, without the empty ones, each once and at its
rank. -/
structure FirstPlaces (texts tags : List String) : Prop where
  normal : NormalTags tags
  mem_iff : ∀ t, t ∈ tags ↔ t ≠ "" ∧ ∃ raw ∈ texts, Text.trim raw = t
  place_iff : ∀ i t, tags[i]? = some t ↔ t ∈ fullTexts texts ∧ rank (fullTexts texts) t = i

theorem firstPlaces_normalizeTags (texts : List String) :
    FirstPlaces texts (normalizeTags texts) where
  normal := normalTags_normalizeTags texts
  mem_iff _ := mem_normalizeTags.trans mem_fullTexts
  place_iff := getElem?_normalizeTags_iff texts

/-! ### Normalising more than once -/

/-- The same edit with other tags of the item. -/
def TagEdit.setTags (edit : TagEdit) (tags : List String) : TagEdit :=
  { edit with item := { edit.item with tags := tags } }

/-- Adds tags to the item of an edit one after another, whether or not each can be saved. -/
def addEach (refuse : SaveStep → Option Failure) (now : Binary64) (edit : TagEdit)
    (tags : List String) : TagEdit :=
  tags.foldl (fun edit tag => addTag refuse now edit.tree edit.store edit.item tag) edit

theorem tags_addEach (refuse : SaveStep → Option Failure) (now : Binary64) {edit : TagEdit}
    {texts : List String} (normalized : edit.item.tags = normalizeTags texts)
    (more : List String) :
    (addEach refuse now edit more).item.tags = normalizeTags (texts ++ more) := by
  induction more generalizing edit texts with
  | nil => rw [List.append_nil]; exact normalized
  | cons tag more ih =>
    have normal : NormalTags edit.item.tags := normalized ▸ normalTags_normalizeTags texts
    have added : (addTag refuse now edit.tree edit.store edit.item tag).item.tags =
        normalizeTags (texts ++ [tag]) := by
      rw [item_addTag normal, normalizeTags_append_singleton, normalized]
    rw [List.append_cons]
    exact ih added

/-- Normalising makes a list normal. It holds the trimmed texts that are not empty, each at its
rank. Texts may be normalised beforehand, also those before some more, without any difference to
what tags added to an item one after another make of them, to what is stored and saved for a path,
and to what is loaded from a document. -/
theorem normalizing_keeps_first_places (texts more : List String) :
    FirstPlaces texts (normalizeTags texts) ∧
    normalizeTags (normalizeTags texts) = normalizeTags texts ∧
    normalizeTags (texts ++ more) = normalizeTags (normalizeTags texts ++ more) ∧
    (∀ refuse now (edit : TagEdit),
      (addEach refuse now (edit.setTags (normalizeTags texts)) more).item.tags =
        normalizeTags (texts ++ more)) ∧
    (∀ refuse now tree path (store : TagStore),
      store.setTags refuse now tree path (normalizeTags texts) =
        store.setTags refuse now tree path texts) ∧
    (∀ path, TagStore.entry? (Json.member (TagStore.entryMember (path, texts))) =
        some (path, normalizeTags texts) ∧
      TagStore.entry? (Json.member (TagStore.entryMember (path, normalizeTags texts))) =
        some (path, normalizeTags texts)) := by
  have again := normalizeTags_normalizeTags texts
  refine ⟨firstPlaces_normalizeTags texts, again,
    (normalizeTags_append_normalizeTags texts more).symm,
    fun refuse now edit => tags_addEach refuse now rfl more, fun refuse now tree path store => ?_,
    fun path => ⟨TagStore.entry?_entryMember (path, texts), ?_⟩⟩
  · simp only [TagStore.setTags, again]
  · have read := TagStore.entry?_entryMember (path, normalizeTags texts)
    rwa [again] at read

end VideoCatalog
