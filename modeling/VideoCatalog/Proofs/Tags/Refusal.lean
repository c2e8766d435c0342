import VideoCatalog.Proofs.Tags.Reload

/-!
# Changes that cannot be saved

When the operating system refuses to save the tag store, the files stay as they were, and the
change stays in memory: nothing takes it back. The next saving that succeeds writes it, but the
call that made it is not told so.

* `Unsaved`: what a change leaves that is in memory alone.
* `unsaved_of_save`: a saving that is refused leaves it.
* `addTag_again`, `removeTag_again`: making the change once more changes nothing.
* `refused_change_stays_in_memory`: the main statement.
-/

namespace VideoCatalog

variable {refuse : SaveStep → Option Failure} {now : Binary64} {tree : FileTree}
  {store : TagStore} {item : Item} {f : Failure}

/-- The store has new tags for a path. No file has changed, none is new and none is gone. -/
structure Unsaved (tree : FileTree) (store : TagStore) (path : String) (tags : List String)
    (tree' : FileTree) (store' : TagStore) : Prop where
  files : tree.Grown tree'
  content : ∀ p bytes, tree.read p = .ok bytes → tree'.read p = .ok bytes
  stored : store' = store.put path tags
  tagsFor : ∀ q, store'.tagsFor q = if q = path then tags else store.tagsFor q
  contains : ∀ q, store'.contains q = (q == path || store.contains q)

theorem unsaved_of_save {path : String} {tags : List String} (system : f.isSystem = true)
    (failed : ((store.put path tags).save refuse now tree).result = .error f) :
    Unsaved tree store path tags ((store.put path tags).save refuse now tree).tree
      (store.put path tags) where
  files := TagStore.grown_of_save system failed
  content _ _ := (TagStore.grown_of_save system failed).within.read
  stored := rfl
  tagsFor q := store.tagsFor_put path q tags
  contains q := store.contains_put path q tags

/-! ### Making a change once more -/

/-- A normalised list that holds a text already is normalised with it to itself. -/
theorem normalizeTags_concat_of_mem {tags : List String} {tag : String}
    (there : Text.trim tag ∈ normalizeTags tags) :
    normalizeTags (normalizeTags tags ++ [Text.trim tag]) = normalizeTags tags := by
  rw [normalizeTags_concat (normalTags_normalizeTags tags), addNormal_of_mem there]

/-- A text that is not blank is among the tags that it was added to. -/
theorem mem_normalizeTags_concat (tags : List String) {tag : String} (full : Text.trim tag ≠ "") :
    Text.trim tag ∈ normalizeTags (tags ++ [Text.trim tag]) := by
  rw [normalizeTags_append_singleton]
  simp only [addNormal, Text.trim_trim]
  split
  · next there => simpa [full] using there
  · simp

/-- An item that has a tag, stored as it is, is left alone when the tag is added. -/
theorem addTag_again (refuse : SaveStep → Option Failure) (now : Binary64) (tree : FileTree)
    (store : TagStore) (item : Item) {tags : List String} {tag : String}
    (full : Text.trim tag ≠ "") (there : Text.trim tag ∈ normalizeTags tags) :
    let tagged : Item := { item with tags := normalizeTags tags }
    let stored := store.put item.relativePath (normalizeTags tags)
    let again := addTag refuse now tree stored tagged tag
    again.store = stored ∧ again.item = tagged ∧
      again.result = (stored.save refuse now tree).result.map fun _ => false := by
  intro tagged stored again
  have same : again = storeTags refuse now tree stored tagged (normalizeTags tags) false := by
    simp only [again, addTag_of_full _ _ _ _ _ full, tagged]
    rw [normalizeTags_concat_of_mem there, List.contains_iff_mem.2 there]
    rfl
  have put : stored.put item.relativePath (normalizeTags (normalizeTags tags)) = stored := by
    rw [normalizeTags_normalizeTags]
    exact store.put_put _ _
  rw [same, storeTags_eq]
  simp only [tagged, put, and_self]

/-- An item without a tag, stored as it is, is left alone when the tag is removed. -/
theorem removeTag_again (refuse : SaveStep → Option Failure) (now : Binary64) (tree : FileTree)
    (store : TagStore) (item : Item) {tags : List String} {tag : String}
    (gone : Text.trim tag ∉ tags) :
    let tagged : Item := { item with tags := tags }
    let stored := store.put item.relativePath (normalizeTags tags)
    let again := removeTag refuse now tree stored tagged tag
    again.store = stored ∧ again.item = tagged ∧
      again.result = (stored.save refuse now tree).result.map fun _ => false := by
  intro tagged stored again
  have kept : tags.filter (· != Text.trim tag) = tags := filter_bne_of_not_mem gone
  have absent : tags.contains (Text.trim tag) = false := by simpa using gone
  have put : stored.put item.relativePath (normalizeTags tags) = stored := store.put_put _ _
  simp only [again, removeTag, storeTags_eq, tagged, kept, absent, put, and_self]

/-! ### The main statement -/

/-- Whatever step of saving the operating system refuses: the call raises the refusal, all files
are as they were, and the store and the item have the new tags. Setting, adding or removing the
same once more changes neither, and adding and removing report no change even if it can be saved
then. -/
theorem refused_change_stays_in_memory (refuse : SaveStep → Option Failure) (now : Binary64)
    (tree : FileTree) (store : TagStore) (item : Item) (path tag : String) (tags : List String)
    (f : Failure) (system : f.isSystem = true) :
    (let step := store.setTags refuse now tree path tags;
      (step.store.save refuse now tree).result = .error f →
        step.result = .error f ∧
        Unsaved tree store path (normalizeTags tags) step.tree step.store ∧
        ∀ refuse' now' tree', (step.store.setTags refuse' now' tree' path tags).store =
          step.store) ∧
    (let edit := addTag refuse now tree store item tag;
      Text.trim tag ≠ "" → (edit.store.save refuse now tree).result = .error f →
        edit.result = .error f ∧
        edit.item = { item with tags := normalizeTags (item.tags ++ [Text.trim tag]) } ∧
        Unsaved tree store item.relativePath edit.item.tags edit.tree edit.store ∧
        ∀ refuse' now' tree',
          let again := addTag refuse' now' tree' edit.store edit.item tag;
          again.store = edit.store ∧ again.item = edit.item ∧
            again.result = (edit.store.save refuse' now' tree').result.map fun _ => false) ∧
    (let edit := removeTag refuse now tree store item tag;
      (edit.store.save refuse now tree).result = .error f →
        edit.result = .error f ∧
        edit.item = { item with tags := item.tags.filter (· != Text.trim tag) } ∧
        Unsaved tree store item.relativePath (normalizeTags edit.item.tags) edit.tree
          edit.store ∧
        ∀ refuse' now' tree',
          let again := removeTag refuse' now' tree' edit.store edit.item tag;
          again.store = edit.store ∧ again.item = edit.item ∧
            again.result = (edit.store.save refuse' now' tree').result.map fun _ => false) := by
  refine ⟨?_, ?_, ?_⟩
  · intro step failed
    have raised : step.result = .error f := by
      simp only [step, TagStore.setTags] at failed ⊢
      rw [failed]
      rfl
    exact ⟨raised, unsaved_of_save system failed, fun _ _ _ => store.put_put path _⟩
  · intro edit full
    have filled : (Text.trim tag).isEmpty = false := by simpa using full
    have stored : edit = storeTags refuse now tree store item
        (normalizeTags (item.tags ++ [Text.trim tag])) (!item.tags.contains (Text.trim tag)) := by
      simp only [edit, addTag, filled, Bool.false_eq_true, if_false]
    have normal : normalizeTags (normalizeTags (item.tags ++ [Text.trim tag])) =
        normalizeTags (item.tags ++ [Text.trim tag]) :=
      normalizeTags_of_normal (normalTags_normalizeTags _)
    rw [stored]
    simp only [storeTags, TagStore.setTags, normal]
    intro failed
    refine ⟨by rw [failed]; rfl, trivial, unsaved_of_save system failed,
      fun refuse' now' tree' => ?_⟩
    exact addTag_again refuse' now' tree' store item full (mem_normalizeTags_concat item.tags full)
  · intro edit
    simp only [edit, removeTag, storeTags, TagStore.setTags]
    intro failed
    refine ⟨by rw [failed]; rfl, trivial, unsaved_of_save system failed,
      fun refuse' now' tree' => ?_⟩
    exact removeTag_again refuse' now' tree' store item (by simp)

/-- A file where the directory of the store would have to be. -/
def blockedTree : FileTree := ⟨[(["a"], .file [] .zero)], [], []⟩

/-- A store below that file. -/
def blockedStore : TagStore := ⟨⟨"", ["a", "tags.json"]⟩, []⟩

/-- The tag that could not be saved is among those of the item and of its path, and adding it once
more, when the file is gone, reports no change. -/
theorem refused_change_is_not_taken_back :
    let edit := addTag (fun _ => none) .zero blockedTree blockedStore taggedItem "x"
    edit.result = .error (.file .alreadyThere "a") ∧
      (Failure.file .alreadyThere "a").isSystem = true ∧
      blockedStore.tagsFor taggedItem.relativePath = [] ∧
      edit.store.tagsFor taggedItem.relativePath = ["x"] ∧
      taggedItem.tags = [] ∧ edit.item.tags = ["x"] ∧
      (addTag (fun _ => none) .zero .empty edit.store edit.item "x").result = .ok false := by
  refine ⟨rfl, rfl, rfl, rfl, rfl, rfl, rfl⟩

/-- The refusal is raised, and all the tree holds is still the file. -/
theorem refused_change_stays_in_memory_blocked :
    let edit := addTag (fun _ => none) .zero blockedTree blockedStore taggedItem "x"
    edit.result = .error (.file .alreadyThere "a") ∧ edit.tree.read ⟨"", ["a"]⟩ = .ok [] ∧
      edit.store.tagsFor taggedItem.relativePath = ["x"] := by
  obtain ⟨-, added, -⟩ := refused_change_stays_in_memory (fun _ => none) .zero blockedTree
    blockedStore taggedItem "" "x" [] (.file .alreadyThere "a") rfl
  obtain ⟨raised, changed, unsaved, -⟩ := added (by decide) rfl
  refine ⟨raised, unsaved.content _ _ rfl, ?_⟩
  rw [unsaved.tagsFor, if_pos rfl, changed]
  rfl

end VideoCatalog
