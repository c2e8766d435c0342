import VideoCatalog.Tags.Store

/-!
# Editing the tags of an item

Tags are added to and removed from an item together with the entry of its path in the store.

* `addTag`: adds a tag; a blank tag changes nothing and saves nothing.
* `removeTag`: removes a tag.
* `storeTags_eq`, `addTag_of_blank`, `addTag_of_full`: what they leave.

Both say whether the tags of the item changed.
-/

namespace VideoCatalog

/-- What editing the tags of an item leaves. -/
structure TagEdit where
  tree : FileTree
  store : TagStore
  item : Item
  result : Except Failure Bool

/-- Gives an item a list of tags and stores it. -/
def storeTags (refuse : SaveStep → Option Failure) (now : Binary64) (tree : FileTree)
    (store : TagStore) (item : Item) (tags : List String) (changed : Bool) : TagEdit :=
  let step := store.setTags refuse now tree item.relativePath tags
  ⟨step.tree, step.store, { item with tags := tags }, step.result.map fun _ => changed⟩

/-- Adds a tag to an item and stores its tags. -/
def addTag (refuse : SaveStep → Option Failure) (now : Binary64) (tree : FileTree)
    (store : TagStore) (item : Item) (tag : String) : TagEdit :=
  let value := Text.trim tag
  if value.isEmpty then ⟨tree, store, item, .ok false⟩
  else
    storeTags refuse now tree store item (normalizeTags (item.tags ++ [value]))
      (!item.tags.contains value)

/-- Removes a tag from an item and stores its tags. -/
def removeTag (refuse : SaveStep → Option Failure) (now : Binary64) (tree : FileTree)
    (store : TagStore) (item : Item) (tag : String) : TagEdit :=
  let value := Text.trim tag
  storeTags refuse now tree store item (item.tags.filter (· != value)) (item.tags.contains value)

section

variable (refuse : SaveStep → Option Failure) (now : Binary64) (tree : FileTree)
  (store : TagStore) (item : Item)

/-- The files and the answer are those of saving. -/
theorem storeTags_eq (tags : List String) (changed : Bool) :
    storeTags refuse now tree store item tags changed =
      let next := store.put item.relativePath (normalizeTags tags)
      ⟨(next.save refuse now tree).tree, next, { item with tags := tags },
        (next.save refuse now tree).result.map fun _ => changed⟩ := by
  simp only [storeTags, TagStore.setTags]
  cases ((store.put item.relativePath (normalizeTags tags)).save refuse now tree).result <;> rfl

variable {tag : String}

theorem addTag_of_blank (blank : Text.trim tag = "") :
    addTag refuse now tree store item tag = ⟨tree, store, item, .ok false⟩ := by
  have empty : (Text.trim tag).isEmpty = true := by simpa using blank
  simp only [addTag, empty, if_true]

theorem addTag_of_full (full : Text.trim tag ≠ "") : addTag refuse now tree store item tag =
    storeTags refuse now tree store item (normalizeTags (item.tags ++ [Text.trim tag]))
      (!item.tags.contains (Text.trim tag)) := by
  have filled : (Text.trim tag).isEmpty = false := by simpa using full
  simp only [addTag, filled, Bool.false_eq_true, if_false]

end

end VideoCatalog
