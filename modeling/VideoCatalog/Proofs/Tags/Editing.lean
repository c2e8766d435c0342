import VideoCatalog.Proofs.Tags.Entries
import VideoCatalog.Tags.Edit

/-!
# Adding and removing undo each other

Adding normalises, removing filters, and the store normalises once more. On an item with normal
tags that are those of the store, all of this comes to one change of one list.

* `PathEdit`, `PathEdit.apply`, `PathEdit.changes`: an edit of the tags of a path, what it makes of
  them and whether that is different.
* `PathEdit.apply_apply`, `PathEdit.changes_iff`: the second time an edit changes nothing, and it
  changes a list exactly if it changes what is in it.
* `filter_addNormal`: removing what was added.
* `PathEdit.change_cases`: what editing the tags of an item does.
* `LawfulEdit`: what is expected of a way to change the tags of an item.
* `edits_undo_each_other`: the main statement.
-/

namespace VideoCatalog

/-! ### Edits -/

/-- A tag that is added to those of a path, or removed from them. -/
structure PathEdit where
  path : String
  tag : String
  adds : Bool

namespace PathEdit

/-- What an edit makes of tags. A blank tag is not added, nor one that is there already. -/
def apply (e : PathEdit) (tags : List String) : List String :=
  if e.adds then addNormal tags e.tag else tags.filter (· != Text.trim e.tag)

/-- Whether an edit saves the store. Adding a blank tag does not. -/
def saves (e : PathEdit) : Bool := !e.adds || !(Text.trim e.tag).isEmpty

/-- Whether an edit changes tags: it saves and adds a tag that is not there, or removes one that
is. -/
def changes (e : PathEdit) (tags : List String) : Bool :=
  e.saves && (tags.contains (Text.trim e.tag) != e.adds)

/-- The change of an item that an edit is made by. -/
def change (e : PathEdit) : (SaveStep → Option Failure) → Binary64 → FileTree → TagStore → Item →
    String → TagEdit :=
  if e.adds then VideoCatalog.addTag else VideoCatalog.removeTag

variable (path tag : String)

@[simp] theorem apply_add (tags : List String) :
    apply ⟨path, tag, true⟩ tags = addNormal tags tag := if_pos rfl

@[simp] theorem apply_remove (tags : List String) :
    apply ⟨path, tag, false⟩ tags = tags.filter (· != Text.trim tag) := if_neg Bool.false_ne_true

@[simp] theorem change_add : change ⟨path, tag, true⟩ = VideoCatalog.addTag := if_pos rfl

@[simp] theorem change_remove : change ⟨path, tag, false⟩ = VideoCatalog.removeTag :=
  if_neg Bool.false_ne_true

end PathEdit

/-! ### One list of tags -/

/-- Removing a tag takes away what adding it added. -/
theorem filter_addNormal (tags : List String) (tag : String) :
    (addNormal tags tag).filter (· != Text.trim tag) = tags.filter (· != Text.trim tag) := by
  unfold addNormal
  dsimp only
  split
  · rfl
  · simp

namespace PathEdit

theorem normal_apply (e : PathEdit) {tags : List String} (normal : NormalTags tags) :
    NormalTags (e.apply tags) := by
  unfold apply
  split
  · exact normalTags_addNormal normal e.tag
  · exact normalTags_filter normal _

/-- An edit without a change leaves the list as it is. -/
theorem apply_of_not_changes {e : PathEdit} {tags : List String} (idle : e.changes tags = false) :
    e.apply tags = tags := by
  obtain ⟨path, tag, adds⟩ := e
  cases adds with
  | true =>
    have kept : ((Text.trim tag).isEmpty || tags.contains (Text.trim tag)) = true := by
      simpa [changes, saves, or_iff_not_imp_left] using idle
    simp only [apply_add, addNormal, kept, if_true]
  | false =>
    have gone : Text.trim tag ∉ tags := by simpa [changes, saves] using idle
    rw [apply_remove, filter_bne_of_not_mem gone]

/-- An edit with a change puts its tag where it was not, or takes it from where it was. -/
theorem mem_apply_of_changes {e : PathEdit} {tags : List String} (change : e.changes tags = true) :
    Text.trim e.tag ∈ e.apply tags ↔ Text.trim e.tag ∉ tags := by
  obtain ⟨path, tag, adds⟩ := e
  cases adds with
  | true =>
    obtain ⟨full, new⟩ : (Text.trim tag).isEmpty = false ∧ Text.trim tag ∉ tags := by
      simpa [changes, saves] using change
    simp [addNormal, full, new]
  | false =>
    have there : Text.trim tag ∈ tags := by simpa [changes, saves] using change
    simp [there]

/-- An edit changes a list exactly if other tags are in it afterwards. -/
theorem changes_iff (e : PathEdit) (tags : List String) :
    e.changes tags = true ↔ ¬ ∀ t, t ∈ e.apply tags ↔ t ∈ tags := by
  constructor
  · intro change same
    have turned := mem_apply_of_changes change
    rw [same] at turned
    exact iff_not_self turned
  · intro different
    by_contra idle
    rw [Bool.not_eq_true] at idle
    exact different fun t => by rw [apply_of_not_changes idle]

/-- After an edit there is nothing left to do for it. -/
theorem changes_apply (e : PathEdit) (tags : List String) : e.changes (e.apply tags) = false := by
  cases change : e.changes tags with
  | false => rw [apply_of_not_changes change, change]
  | true =>
    have turned := mem_apply_of_changes change
    obtain ⟨path, tag, adds⟩ := e
    cases adds with
    | true =>
      have new : Text.trim tag ∉ tags := by simpa using (Bool.and_eq_true_iff.1 change).2
      have there := turned.2 new
      rw [apply_add] at there ⊢
      simp [changes, there]
    | false =>
      simp [changes]

/-- The second time an edit changes nothing. -/
theorem apply_apply (e : PathEdit) (tags : List String) : e.apply (e.apply tags) = e.apply tags :=
  apply_of_not_changes (e.changes_apply tags)

/-! ### Items and stores -/

/-- An edit that adds a blank tag does nothing. Any other one puts the tags that it makes, gives
them to the item, saves, and tells whether they are different. -/
theorem change_cases (e : PathEdit) {item : Item} (normal : NormalTags item.tags)
    (refuse : SaveStep → Option Failure) (now : Binary64) (tree : FileTree) (store : TagStore) :
    let edit := e.change refuse now tree store item e.tag
    let next := store.put item.relativePath (e.apply item.tags)
    (e.saves = false ∧ e.apply item.tags = item.tags ∧ edit = ⟨tree, store, item, .ok false⟩) ∨
    (e.saves = true ∧
      edit.tree = (next.save refuse now tree).tree ∧ edit.store = next ∧
      edit.item = { item with tags := e.apply item.tags } ∧
      edit.result = (next.save refuse now tree).result.map fun _ => e.changes item.tags) := by
  have next := normalizeTags_of_normal (e.normal_apply normal)
  obtain ⟨path, tag, adds⟩ := e
  cases adds with
  | true =>
    rw [apply_add] at next ⊢
    rw [change_add]
    by_cases blank : Text.trim tag = ""
    · refine .inl ⟨by simp [saves, blank], by simp [addNormal, blank], ?_⟩
      exact addTag_of_blank refuse now tree store item blank
    · have told : changes ⟨path, tag, true⟩ item.tags = !item.tags.contains (Text.trim tag) := by
        simp [changes, saves, blank]
      refine .inr ⟨by simp [saves, blank], ?_⟩
      rw [addTag_of_full refuse now tree store item blank, storeTags_eq,
        normalizeTags_concat normal, next, told]
      exact ⟨rfl, rfl, rfl, rfl⟩
  | false =>
    have told : changes ⟨path, tag, false⟩ item.tags = item.tags.contains (Text.trim tag) := by
      simp [changes, saves]
    rw [apply_remove] at next ⊢
    refine .inr ⟨rfl, ?_⟩
    rw [change_remove, removeTag, storeTags_eq, next, told]
    exact ⟨rfl, rfl, rfl, rfl⟩

variable (e : PathEdit) {item : Item} (normal : NormalTags item.tags)
  (refuse : SaveStep → Option Failure) (now : Binary64) (tree : FileTree) (store : TagStore)

include normal

theorem item_change : (e.change refuse now tree store item e.tag).item =
    { item with tags := e.apply item.tags } := by
  rcases e.change_cases normal refuse now tree store with ⟨-, same, edit⟩ | ⟨-, -, -, edited, -⟩
  · rw [edit, same]
  · exact edited

theorem store_change : (e.change refuse now tree store item e.tag).store =
    if e.saves then store.put item.relativePath (e.apply item.tags) else store := by
  rcases e.change_cases normal refuse now tree store with
    ⟨idle, -, edit⟩ | ⟨saves, -, stored, -, -⟩
  · rw [edit, idle]
    rfl
  · rw [stored, saves]
    rfl

/-- If the store can be saved, the edit tells whether it made a change. -/
theorem result_change
    (saved : ((e.change refuse now tree store item e.tag).store.save refuse now tree).result =
      .ok ()) :
    (e.change refuse now tree store item e.tag).result = .ok (e.changes item.tags) := by
  rcases e.change_cases normal refuse now tree store with ⟨idle, -, edit⟩ | ⟨-, -, stored, -, told⟩
  · have same : e.changes item.tags = false := by simp [changes, idle]
    rw [edit, same]
  · rw [stored] at saved
    rw [told, saved]
    rfl

/-- The path of the item has the tags that the edit makes, and every other one what it had. -/
theorem tagsFor_change (agree : item.tags = store.tagsFor item.relativePath) (path : String) :
    (e.change refuse now tree store item e.tag).store.tagsFor path =
      if path = item.relativePath then e.apply item.tags else store.tagsFor path := by
  rw [e.store_change normal]
  cases saves : e.saves with
  | true => exact store.tagsFor_put item.relativePath path _
  | false =>
    have idle : e.changes item.tags = false := by simp [changes, saves]
    rw [if_neg Bool.false_ne_true, apply_of_not_changes idle]
    split
    · next here => rw [here, agree]
    · rfl

end PathEdit

/-! ### The main statement -/

/-- What is expected of a way to change the tags of an item that agrees with the store, by a given
tag. The item keeps agreeing with the store, and all else stays as it was. If the store can be
saved, the answer tells whether the set of tags changed. The second time, nothing changes. The
blanks around the tag do not matter. -/
structure LawfulEdit
    (change : (SaveStep → Option Failure) → Binary64 → FileTree → TagStore → Item → String →
      TagEdit) (store : TagStore) (item : Item) (tag : String) : Prop where
  keeps : ∀ refuse now tree,
    let edit := change refuse now tree store item tag
    edit.item = { item with tags := edit.item.tags } ∧ NormalTags edit.item.tags ∧
      edit.item.tags = edit.store.tagsFor edit.item.relativePath
  others : ∀ refuse now tree, ∀ path ≠ item.relativePath,
    (change refuse now tree store item tag).store.tagsFor path = store.tagsFor path
  told : ∀ refuse now tree,
    let edit := change refuse now tree store item tag
    (edit.store.save refuse now tree).result = .ok () →
      ∃ changed, edit.result = .ok changed ∧
        (changed = true ↔ ¬ ∀ t, t ∈ edit.item.tags ↔ t ∈ item.tags)
  again : ∀ refuse now tree refuse' now' tree',
    let edit := change refuse now tree store item tag
    let second := change refuse' now' tree' edit.store edit.item tag
    second.store = edit.store ∧ second.item = edit.item ∧
      ((second.store.save refuse' now' tree').result = .ok () → second.result = .ok false)
  padding : ∀ refuse now tree padded, Text.trim padded = Text.trim tag →
    change refuse now tree store item padded = change refuse now tree store item tag

theorem PathEdit.lawful (e : PathEdit) {store : TagStore} {item : Item}
    (normal : NormalTags item.tags) (agree : item.tags = store.tagsFor item.relativePath) :
    LawfulEdit e.change store item e.tag where
  keeps refuse now tree := by
    intro edit
    have edited : edit.item = { item with tags := e.apply item.tags } :=
      e.item_change normal refuse now tree store
    have stored := e.tagsFor_change normal refuse now tree store agree item.relativePath
    rw [if_pos rfl] at stored
    rw [edited]
    exact ⟨rfl, e.normal_apply normal, stored.symm⟩
  others refuse now tree path other := by
    rw [e.tagsFor_change normal refuse now tree store agree, if_neg other]
  told refuse now tree := by
    intro edit saved
    refine ⟨e.changes item.tags, e.result_change normal refuse now tree store saved, ?_⟩
    have edited : edit.item.tags = e.apply item.tags := by
      rw [show edit.item = _ from e.item_change normal refuse now tree store]
    rw [edited]
    exact e.changes_iff item.tags
  again refuse now tree refuse' now' tree' := by
    intro edit second
    have edited : edit.item = { item with tags := e.apply item.tags } :=
      e.item_change normal refuse now tree store
    have next : NormalTags edit.item.tags := edited ▸ e.normal_apply normal
    refine ⟨?_, ?_, fun saved => ?_⟩
    · have stored : edit.store = _ := e.store_change normal refuse now tree store
      rw [show second.store = _ from e.store_change next refuse' now' tree' edit.store, edited,
        stored]
      dsimp only
      rw [e.apply_apply]
      split
      · exact store.put_put _ _
      · rfl
    · rw [show second.item = _ from e.item_change next refuse' now' tree' edit.store, edited]
      dsimp only
      rw [e.apply_apply]
    · have told := e.result_change next refuse' now' tree' edit.store saved
      have idle : e.changes edit.item.tags = false := edited ▸ e.changes_apply item.tags
      rwa [idle] at told
  padding refuse now tree padded same := by
    unfold change
    split
    · simp only [addTag, same]
    · simp only [removeTag, same]

section

variable {store : TagStore} {item : Item} (normal : NormalTags item.tags)

include normal

theorem lawful_addTag (agree : item.tags = store.tagsFor item.relativePath) (tag : String) :
    LawfulEdit addTag store item tag := by
  simpa only [PathEdit.change_add] using
    PathEdit.lawful ⟨item.relativePath, tag, true⟩ normal agree

theorem lawful_removeTag (agree : item.tags = store.tagsFor item.relativePath) (tag : String) :
    LawfulEdit removeTag store item tag := by
  simpa only [PathEdit.change_remove] using
    PathEdit.lawful ⟨item.relativePath, tag, false⟩ normal agree

theorem item_addTag (refuse : SaveStep → Option Failure) (now : Binary64) (tree : FileTree)
    (tag : String) : (addTag refuse now tree store item tag).item =
      { item with tags := addNormal item.tags tag } := by
  simpa only [PathEdit.change_add, PathEdit.apply_add] using
    PathEdit.item_change ⟨item.relativePath, tag, true⟩ normal refuse now tree store

theorem item_removeTag (refuse : SaveStep → Option Failure) (now : Binary64) (tree : FileTree)
    (tag : String) : (removeTag refuse now tree store item tag).item =
      { item with tags := item.tags.filter (· != Text.trim tag) } := by
  simpa only [PathEdit.change_remove, PathEdit.apply_remove] using
    PathEdit.item_change ⟨item.relativePath, tag, false⟩ normal refuse now tree store

end

/-- Removing a tag from an item that it was added to leaves what was there before, without it. -/
theorem removeTag_after_add {added : TagStore} {item tagged : Item} {tag : String}
    (edited : tagged = { item with tags := addNormal item.tags tag })
    (normal : NormalTags tagged.tags) (agree : tagged.tags = added.tagsFor tagged.relativePath)
    (refuse : SaveStep → Option Failure) (now : Binary64) (tree : FileTree) :
    let back := removeTag refuse now tree added tagged tag
    let rest := item.tags.filter (· != Text.trim tag)
    back.item = { item with tags := rest } ∧ back.store.tagsFor item.relativePath = rest := by
  intro back rest
  have left : back.item = { item with tags := rest } := by
    have taken : back.item = { tagged with tags := tagged.tags.filter (· != Text.trim tag) } :=
      item_removeTag normal refuse now tree tag
    rw [taken, edited]
    dsimp only
    rw [filter_addNormal]
  have stored : back.item.tags = back.store.tagsFor back.item.relativePath :=
    ((lawful_removeTag normal agree tag).keeps refuse now tree).2.2
  rw [left] at stored
  exact ⟨left, stored.symm⟩

/-- Adding and removing tags of an item with normal tags that are those of the store. Both keep the
laws of edits, and adding a blank tag touches nothing at all. Removing a tag after adding it leaves
the tags of before without it: just the tags of before, in their order, if it was not among them. -/
theorem edits_undo_each_other (store : TagStore) (item : Item) (tag : String)
    (normal : NormalTags item.tags) (agree : item.tags = store.tagsFor item.relativePath) :
    LawfulEdit addTag store item tag ∧ LawfulEdit removeTag store item tag ∧
    (∀ refuse now tree, Text.trim tag = "" →
      addTag refuse now tree store item tag = ⟨tree, store, item, .ok false⟩) ∧
    ∀ refuse now tree refuse' now' tree',
      let added := addTag refuse now tree store item tag
      let back := removeTag refuse' now' tree' added.store added.item tag
      let rest := item.tags.filter (· != Text.trim tag)
      LawfulEdit removeTag added.store added.item tag ∧
      back.item = { item with tags := rest } ∧
      back.store.tagsFor item.relativePath = rest ∧
      (Text.trim tag ∉ item.tags →
        back.item = item ∧
        back.store.tagsFor item.relativePath = store.tagsFor item.relativePath) := by
  refine ⟨lawful_addTag normal agree tag, lawful_removeTag normal agree tag,
    fun refuse now tree blank => ?_, fun refuse now tree refuse' now' tree' => ?_⟩
  · exact addTag_of_blank refuse now tree store item blank
  · obtain ⟨-, next, agreeing⟩ := (lawful_addTag normal agree tag).keeps refuse now tree
    obtain ⟨left, stored⟩ := removeTag_after_add (item_addTag normal refuse now tree tag) next
      agreeing refuse' now' tree'
    refine ⟨lawful_removeTag next agreeing tag, left, stored, fun new => ?_⟩
    have same := filter_bne_of_not_mem new
    exact ⟨left.trans (by rw [same]), stored.trans (same.trans agree)⟩

/-- An item with one tag, and a store that has the same one for its path. -/
def familyItem : Item := { (default : Item) with relativePath := "a/b.mp4", tags := ["family"] }

def familyStore : TagStore := ⟨⟨"", ["tags.json"]⟩, [("a/b.mp4", ["family"])]⟩

/-- A tag with blanks around it is added and removed again, and both are told. -/
theorem edits_undo_each_other_padded :
    let added := addTag (fun _ => none) .zero .empty familyStore familyItem " x "
    let back := removeTag (fun _ => none) .zero added.tree added.store added.item " x "
    NormalTags familyItem.tags ∧ familyItem.tags = familyStore.tagsFor familyItem.relativePath ∧
      added.item.tags = ["family", "x"] ∧ added.result = .ok true ∧ back.result = .ok true ∧
      back.item = familyItem ∧ back.store.tagsFor "a/b.mp4" = ["family"] := by
  have normal : NormalTags familyItem.tags := ⟨by decide, by decide, by decide⟩
  obtain ⟨-, -, -, undone⟩ := edits_undo_each_other familyStore familyItem " x " normal rfl
  obtain ⟨-, -, -, restored⟩ := undone (fun _ => none) .zero .empty (fun _ => none) .zero
    (addTag (fun _ => none) .zero .empty familyStore familyItem " x ").tree
  obtain ⟨item, tags⟩ := restored (by decide)
  exact ⟨normal, rfl, rfl, rfl, rfl, item, tags⟩

end VideoCatalog
