import VideoCatalog.Text.Blank

/-!
# Normal lists of tags

A list of tags is normal if every tag is trimmed, none is empty and none occurs twice.

* `normalizeTags`: trims all, drops the empty ones and keeps each at its first place.
* `NormalTags`: the normal lists.
* `addNormal_of_blank`, `addNormal_of_mem`, `addNormal_of_new`: what one more text changes.
-/

namespace VideoCatalog

/-- Adds a trimmed text at the end unless it is empty or already there. -/
def addNormal (tags : List String) (raw : String) : List String :=
  let tag := Text.trim raw
  if tag.isEmpty || tags.contains tag then tags else tags ++ [tag]

/-- Trims all texts, drops the empty ones and keeps each at its first place. -/
def normalizeTags (tags : List String) : List String := tags.foldl addNormal []

/-- Whether a list is trimmed, free of empty texts and free of repetitions. -/
structure NormalTags (tags : List String) : Prop where
  trimmed : ∀ t ∈ tags, Text.trim t = t
  nonempty : ∀ t ∈ tags, t ≠ ""
  nodup : tags.Nodup

section

variable {tags : List String} {raw : String}

theorem addNormal_of_blank (blank : Text.trim raw = "") : addNormal tags raw = tags := by
  simp [addNormal, blank]

theorem addNormal_of_mem (there : Text.trim raw ∈ tags) : addNormal tags raw = tags := by
  simp [addNormal, there]

theorem addNormal_of_new (full : Text.trim raw ≠ "") (new : Text.trim raw ∉ tags) :
    addNormal tags raw = tags ++ [Text.trim raw] := by
  simp [addNormal, full, new]

end

@[simp] theorem normalizeTags_nil : normalizeTags [] = [] := rfl

/-- Going on after a first part is adding to its result. -/
theorem normalizeTags_append (a b : List String) :
    normalizeTags (a ++ b) = b.foldl addNormal (normalizeTags a) := by
  simp [normalizeTags, List.foldl_append]

theorem normalizeTags_append_singleton (tags : List String) (raw : String) :
    normalizeTags (tags ++ [raw]) = addNormal (normalizeTags tags) raw :=
  normalizeTags_append tags [raw]

end VideoCatalog
