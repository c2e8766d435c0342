import Mathlib.Data.List.DropRight
import Mathlib.Data.List.Nodup
import VideoCatalog.Tags.Normal

/-!
# Normal lists of tags stay as they are

* `trim_trim`: a trimmed text has nothing to trim.
* `normalTags_normalizeTags`: normalising makes a list normal.
* `normalizeTags_of_normal`: a normal list is left alone.
* `normalizeTags_normalizeTags`, `normalizeTags_append_normalizeTags`: normalising more than once.
* `normalizeTags_concat`, `normalTags_filter`: adding to a normal list, and taking from it.
-/

namespace VideoCatalog

namespace Text

theorem trimBoth_trimBoth (p : Char → Bool) (text : List Char) :
    trimBoth p (trimBoth p text) = trimBoth p text := by
  unfold trimBoth
  cases front : text.dropWhile p with
  | nil => rfl
  | cons c rest =>
    have kept : p c = false := by
      have first := List.dropWhile_get_zero_not p text (by simp [front])
      simpa [front] using first
    -- The character that ends the first trimming also ends the second one.
    obtain ⟨middle, split⟩ : ∃ middle, (c :: rest).reverse.dropWhile p = middle ++ [c] := by
      rw [List.reverse_cons, List.dropWhile_append]
      split
      · exact ⟨[], by simp [kept]⟩
      · exact ⟨_, rfl⟩
    have again : (middle ++ [c]).dropWhile p = middle ++ [c] := by
      rw [← split]
      exact List.dropWhile_idempotent p _
    have back : (middle ++ [c]).reverse.dropWhile p = (middle ++ [c]).reverse := by
      simp [kept]
    rw [split, back, List.reverse_reverse, again]

/-- Trimming twice is trimming once. -/
theorem trim_trim (text : String) : trim (trim text) = trim text := by
  simp [trim, trimBoth_trimBoth]

end Text

theorem normalTags_nil : NormalTags [] := ⟨by simp, by simp, List.nodup_nil⟩

/-- Adding one more text keeps a list normal. -/
theorem normalTags_addNormal {tags : List String} (normal : NormalTags tags) (raw : String) :
    NormalTags (addNormal tags raw) := by
  by_cases blank : Text.trim raw = ""
  · rwa [addNormal_of_blank blank]
  by_cases there : Text.trim raw ∈ tags
  · rwa [addNormal_of_mem there]
  rw [addNormal_of_new blank there]
  constructor
  · intro t mem
    rcases List.mem_append.1 mem with old | same
    · exact normal.trimmed t old
    · rw [List.mem_singleton.1 same, Text.trim_trim]
  · intro t mem
    rcases List.mem_append.1 mem with old | same
    · exact normal.nonempty t old
    · rwa [List.mem_singleton.1 same]
  · refine List.Nodup.append normal.nodup (List.nodup_singleton _) fun t old same => ?_
    rw [List.mem_singleton.1 same] at old
    exact there old

/-- A normalised list is normal. -/
theorem normalTags_normalizeTags (tags : List String) : NormalTags (normalizeTags tags) := by
  induction tags using List.reverseRecOn with
  | nil => exact normalTags_nil
  | append_singleton tags raw ih =>
    rw [normalizeTags_append_singleton]
    exact normalTags_addNormal ih raw

/-- A normal list is what it is normalised to. -/
theorem normalizeTags_of_normal {tags : List String} (normal : NormalTags tags) :
    normalizeTags tags = tags := by
  induction tags using List.reverseRecOn with
  | nil => rfl
  | append_singleton tags tag ih =>
    obtain ⟨trimmed, nonempty, nodup⟩ := normal
    have before : normalizeTags tags = tags :=
      ih ⟨fun t mem => trimmed t (by simp [mem]), fun t mem => nonempty t (by simp [mem]),
        (List.nodup_append.1 nodup).1⟩
    -- The last tag is added as it is: it is trimmed, not empty, and not there yet.
    have same : Text.trim tag = tag := trimmed tag (by simp)
    have full : tag ≠ "" := nonempty tag (by simp)
    have absent : tag ∉ tags := fun mem =>
      (List.nodup_append.1 nodup).2.2 tag mem tag (by simp) rfl
    rw [normalizeTags_append_singleton, before,
      addNormal_of_new (by rwa [same]) (by rwa [same]), same]

/-- Normalising a second time changes nothing. -/
theorem normalizeTags_normalizeTags (tags : List String) :
    normalizeTags (normalizeTags tags) = normalizeTags tags :=
  normalizeTags_of_normal (normalTags_normalizeTags tags)

/-- A first part may be normalised beforehand. -/
theorem normalizeTags_append_normalizeTags (tags more : List String) :
    normalizeTags (normalizeTags tags ++ more) = normalizeTags (tags ++ more) := by
  rw [normalizeTags_append, normalizeTags_normalizeTags, ← normalizeTags_append]

/-- Normalising after a text was added to a normal list is adding it as it should be. -/
theorem normalizeTags_concat {tags : List String} (normal : NormalTags tags) (raw : String) :
    normalizeTags (tags ++ [Text.trim raw]) = addNormal tags raw := by
  rw [normalizeTags_append_singleton, normalizeTags_of_normal normal]
  simp only [addNormal, Text.trim_trim]

theorem normalTags_filter {tags : List String} (normal : NormalTags tags) (keep : String → Bool) :
    NormalTags (tags.filter keep) where
  trimmed t mem := normal.trimmed t (List.mem_of_mem_filter mem)
  nonempty t mem := normal.nonempty t (List.mem_of_mem_filter mem)
  nodup := normal.nodup.filter keep

/-- Taking a text from a list that does not hold it. -/
theorem filter_bne_of_not_mem {tags : List String} {tag : String} (gone : tag ∉ tags) :
    tags.filter (· != tag) = tags := by
  refine List.filter_eq_self.2 fun t mem => ?_
  rw [bne_iff_ne]
  rintro rfl
  exact gone mem

end VideoCatalog
