import VideoCatalog.Proofs.Files.Steady
import VideoCatalog.Proofs.Tags.Entries
import VideoCatalog.Proofs.Tags.Saving
import VideoCatalog.Tags.Edit

/-!
# Stores are read as they were saved

* `TagCall`, `runCalls`: changes of tags one after another, as long as they can be saved.
* `TagCall.saves`: a blank tag is not added, and then nothing is saved.
* `Live`: what holds of a store and the files around it before and after every call.
* `reload_after_calls`: once a call has saved, reading the store anew gives the store.
-/

namespace VideoCatalog

/-- A change of tags. -/
inductive TagChange where
  | set (path : String) (tags : List String)
  | add (item : Item) (tag : String)
  | remove (item : Item) (tag : String)

/-- A change of tags, with what is refused while it is saved and the time. -/
structure TagCall where
  change : TagChange
  refuse : SaveStep → Option Failure
  now : Binary64

namespace TagCall

/-- Makes the change. -/
def run (call : TagCall) (tree : FileTree) (store : TagStore) : TagStore.Step Unit :=
  match call.change with
  | .set path tags =>
    let step := store.setTags call.refuse call.now tree path tags
    ⟨step.tree, step.store, step.result.map fun _ => ()⟩
  | .add item tag =>
    let edit := addTag call.refuse call.now tree store item tag
    ⟨edit.tree, edit.store, edit.result.map fun _ => ()⟩
  | .remove item tag =>
    let edit := removeTag call.refuse call.now tree store item tag
    ⟨edit.tree, edit.store, edit.result.map fun _ => ()⟩

/-- Whether a call saves the store. -/
def saves (call : TagCall) : Bool :=
  match call.change with
  | .add _ tag => !(Text.trim tag).isEmpty
  | _ => true

end TagCall

/-- Runs calls in order. A call that fails is the last one. -/
def runCalls : List TagCall → FileTree → TagStore → TagStore.Step Unit
  | [], tree, store => ⟨tree, store, .ok ()⟩
  | call :: rest, tree, store =>
    let step := call.run tree store
    match step.result with
    | .ok _ => runCalls rest step.tree step.store
    | .error f => ⟨step.tree, step.store, .error f⟩

/-! ### One call -/

/-- A call puts a normal list of tags and saves, or else changes nothing. -/
theorem TagCall.run_cases (call : TagCall) (tree : FileTree) (store : TagStore) :
    (call.saves = false ∧ call.run tree store = ⟨tree, store, .ok ()⟩) ∨
    (call.saves = true ∧ ∃ path tags, NormalTags tags ∧
      call.run tree store =
        ⟨((store.put path tags).save call.refuse call.now tree).tree, store.put path tags,
          ((store.put path tags).save call.refuse call.now tree).result⟩) := by
  obtain ⟨change, refuse, now⟩ := call
  have forget {α β : Type} (result : Except Failure α) (f : α → β) :
      ((result.map f).map fun _ => ()) = result.map fun _ => () := by
    cases result <;> rfl
  have unit (result : Except Failure Unit) : (result.map fun _ => ()) = result := by
    cases result <;> rfl
  cases change with
  | set path tags =>
    refine .inr ⟨rfl, path, normalizeTags tags, normalTags_normalizeTags tags, ?_⟩
    simp only [run, TagStore.setTags, forget, unit]
  | add item tag =>
    by_cases blank : Text.trim tag = ""
    · refine .inl ⟨by simp [saves, blank], ?_⟩
      simp only [run, addTag_of_blank _ _ _ _ _ blank]
      rfl
    · refine .inr ⟨by simp [saves, blank], item.relativePath,
        normalizeTags (normalizeTags (item.tags ++ [Text.trim tag])),
        normalTags_normalizeTags _, ?_⟩
      simp only [run, addTag_of_full _ _ _ _ _ blank, storeTags_eq, forget, unit]
  | remove item tag =>
    refine .inr ⟨rfl, item.relativePath,
      normalizeTags (item.tags.filter (· != Text.trim tag)), normalTags_normalizeTags _, ?_⟩
    simp only [run, removeTag, storeTags_eq, forget, unit]

/-- A store belongs to its path, has normal entries, and can be saved where its path leads. -/
structure Live (path : Path) (tree : FileTree) (store : TagStore) : Prop where
  owned : store.path = path
  entries : TagStore.NormalEntries store.entries
  steady : tree.Steady path

/-- What a call leaves is live again, and its file holds the document of the store if the call
saves or if it did so before. -/
theorem live_run (live : Live path tree store) {call : TagCall}
    (succeeded : (call.run tree store).result = .ok ()) :
    Live path (call.run tree store).tree (call.run tree store).store ∧
      (call.saves = true ∨ tree.Settled path (Text.encode store.document) →
        (call.run tree store).tree.Settled path
          (Text.encode (call.run tree store).store.document)) := by
  rcases call.run_cases tree store with ⟨idle, same⟩ | ⟨-, name, tags, normal, same⟩
  · rw [same]
    refine ⟨live, fun settled => ?_⟩
    rw [idle] at settled
    exact settled.resolve_left (by simp)
  · rw [same] at succeeded ⊢
    have moved : (store.put name tags).path = path := (store.path_put name tags).trans live.owned
    have steady : tree.Steady (store.put name tags).path := moved.symm ▸ live.steady
    have settled := TagStore.settled_of_save steady succeeded
    rw [moved] at settled
    exact ⟨⟨moved, TagStore.normalEntries_put live.entries name normal, settled.steady⟩,
      fun _ => settled⟩

/-! ### Runs of calls -/

/-- The first of some calls that all succeed succeeds, and the others run after it. -/
theorem runCalls_cons {call : TagCall} {rest : List TagCall}
    (succeeded : (runCalls (call :: rest) tree store).result = .ok ()) :
    (call.run tree store).result = .ok () ∧ runCalls (call :: rest) tree store =
      runCalls rest (call.run tree store).tree (call.run tree store).store := by
  cases ended : (call.run tree store).result with
  | error f => simp [runCalls, ended] at succeeded
  | ok _ => exact ⟨rfl, by simp [runCalls, ended]⟩

/-- Calls that all succeed keep a store live, and its file holds its document from the first call
on that saves. -/
theorem live_runCalls (calls : List TagCall) (live : Live path tree store)
    (succeeded : (runCalls calls tree store).result = .ok ()) :
    Live path (runCalls calls tree store).tree (runCalls calls tree store).store ∧
      ((∃ call ∈ calls, call.saves = true) ∨ tree.Settled path (Text.encode store.document) →
        (runCalls calls tree store).tree.Settled path
          (Text.encode (runCalls calls tree store).store.document)) := by
  induction calls generalizing tree store with
  | nil => exact ⟨live, fun settled => settled.resolve_left (by simp)⟩
  | cons call rest ih =>
    obtain ⟨ended, onward⟩ := runCalls_cons succeeded
    rw [onward] at succeeded ⊢
    obtain ⟨next, kept⟩ := live_run live ended
    obtain ⟨last, settled⟩ := ih next succeeded
    refine ⟨last, fun saved => settled ?_⟩
    rcases saved with ⟨saver, mem, saves⟩ | before
    · rcases List.mem_cons.1 mem with rfl | later
      · exact .inr (kept (.inl saves))
      · exact .inl ⟨saver, later, saves⟩
    · exact .inr (kept (.inr before))

/-- If all calls succeed, so do the first ones. -/
theorem succeeded_of_append {before after : List TagCall}
    (succeeded : (runCalls (before ++ after) tree store).result = .ok ()) :
    (runCalls before tree store).result = .ok () := by
  induction before generalizing tree store with
  | nil => rfl
  | cons call rest ih =>
    rw [List.cons_append] at succeeded
    obtain ⟨ended, onward⟩ := runCalls_cons succeeded
    rw [onward] at succeeded
    simpa [runCalls, ended] using ih succeeded

/-- Whatever the file of a store held when the store was read, and if there was none: once one of
the calls has saved, reading anew gives the store as it is, with the same paths and for each the
same tags, all in the same order. All lists of tags are normal. -/
theorem reload_after_calls {log : List Record}
    (loaded : TagStore.load tree path = .ok (store, log)) (steady : tree.Steady path)
    {before after : List TagCall}
    (succeeded : (runCalls (before ++ after) tree store).result = .ok ())
    (saved : ∃ call ∈ before, call.saves = true) :
    TagStore.load (runCalls before tree store).tree path =
        .ok ((runCalls before tree store).store, []) ∧
      ∀ e ∈ (runCalls before tree store).store.entries, NormalTags e.2 := by
  obtain ⟨owned, entries⟩ := TagStore.normalEntries_of_load loaded
  obtain ⟨live, settled⟩ :=
    live_runCalls before ⟨owned, entries, steady⟩ (succeeded_of_append succeeded)
  have here := settled (.inl saved)
  have read : TagStore.load (runCalls before tree store).tree
      (runCalls before tree store).store.path = .ok ((runCalls before tree store).store, []) :=
    TagStore.load_of_settled (live.owned.symm ▸ here) live.entries
  rw [live.owned] at read
  exact ⟨read, live.entries.normal⟩

/-- A directory with a file that is no text. -/
def damagedTree : FileTree :=
  ⟨[(["data"], .directory), (["data", "tags.json"], .file [0xff, 0x22] .zero)], [], []⟩

/-- The path of that file. -/
def damagedPath : Path := ⟨"/", ["data", "tags.json"]⟩

/-- What is wrong with that file. -/
def damagedReason : String :=
  "'utf-8' codec can't decode byte 0xff in position 0: invalid start byte"

/-- An item in a directory of its own. -/
def taggedItem : Item where
  name := "a.mp4"
  relativePath := "new/\"a\".mp4"
  size := none
  modified := none
  mime := "video/mp4"
  source := ⟨"/", ["new", "a.mp4"]⟩

/-- Three calls that save, with one between them that does not. -/
def someCalls : List TagCall :=
  [⟨.set "b.mp4" [" \"b\"\\ ", "𝄞", "", "𝄞 "], fun _ => none, .zero⟩,
    ⟨.add taggedItem " \t", fun _ => none, .zero⟩,
    ⟨.add taggedItem "one\r\ntwo\u0001 ", fun _ => none, .zero⟩,
    ⟨.remove taggedItem "three", fun _ => none, .zero⟩]

theorem reload_after_calls_damaged :
    TagStore.load damagedTree damagedPath = .ok (⟨damagedPath, []⟩,
        [TagStore.unreadable damagedPath damagedReason]) ∧
      damagedTree.Steady damagedPath ∧
      (runCalls someCalls damagedTree ⟨damagedPath, []⟩).result = .ok () ∧
      TagStore.load (runCalls (someCalls.take 3) damagedTree ⟨damagedPath, []⟩).tree damagedPath =
        .ok (⟨damagedPath, [("b.mp4", ["\"b\"\\", "𝄞"]),
          ("new/\"a\".mp4", ["one\r\ntwo\u0001"])]⟩, []) := by
  have loaded : TagStore.load damagedTree damagedPath = .ok (⟨damagedPath, []⟩,
      [TagStore.unreadable damagedPath damagedReason]) := by rfl
  have found : damagedTree.find true damagedPath =
      .ok (.present ["data", "tags.json"] (.file [0xff, 0x22] .zero)) := by rfl
  have steady : damagedTree.Steady damagedPath := FileTree.steady_of_find found (by simp)
  have succeeded : (runCalls (someCalls.take 3 ++ someCalls.drop 3) damagedTree
      ⟨damagedPath, []⟩).result = .ok () := by rfl
  refine ⟨loaded, steady, succeeded, ?_⟩
  exact (reload_after_calls loaded steady succeeded ⟨_, List.mem_cons_self, rfl⟩).1

end VideoCatalog
