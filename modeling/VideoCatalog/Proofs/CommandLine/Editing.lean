import VideoCatalog.CommandLine.Run
import VideoCatalog.Proofs.CommandLine.Parsing
import VideoCatalog.Proofs.Files.Steady
import VideoCatalog.Proofs.Session.Tagging

/-!
# Editing tags on the command line and in a session

The command line edits the tags that its store has for a path, and the store normalises them. A
session edits the tags of an item, which it normalises itself, and the store does so once more.
Both come to the same, but for a blank tag: the command line saves also then.

* `TagsRequest.ofEdit`, `commandStep`, `sessionEdit`: an edit as the command line and a session make
  it.
* `run_of_editWords`: the words for an edit lead to a run that makes it.
* `commandStep_eq`: the command line puts what the edit makes of the tags of the path.
* `run_sessionEdit`: a session does so, too, unless the edit adds a blank tag.
* `SameFile`, `SameEdit`: what is meant by making the same edit.
* `command_edit_agrees_with_session`: the main statement.
-/

namespace VideoCatalog.CommandLine

open SessionM

/-- The request for an edit. -/
def TagsRequest.ofEdit (e : PathEdit) : TagsRequest :=
  ⟨if e.adds then .add else .remove, some e.path, some e.tag⟩

/-- What an edit on the command line puts in the store and saves. -/
def commandStep (now : Binary64) (tree : FileTree) (store : TagStore) (e : PathEdit) :
    TagStore.Step (List String) :=
  store.setTags (fun _ => none) now tree e.path
    ((TagsRequest.ofEdit e).action.edit (store.tagsFor e.path) (Text.trim e.tag))

/-- An edit in a session. -/
def sessionEdit (e : PathEdit) : SessionM Item :=
  if e.adds then SessionM.addTag e.path e.tag else SessionM.removeTag e.path e.tag

variable {now : Binary64} {tree : FileTree} {store : TagStore} {e : PathEdit}

/-! ### On the command line -/

/-- The words for an edit make the program edit tags, under the settings file that is there. -/
theorem run_of_editWords {world : World} {config : Configuration} {words : List String}
    (settings : Configuration.load world.around tree none = .ok config)
    (asked : EditWords (TagsRequest.ofEdit e).action e.path e.tag words) :
    run world tree words = runTags world config tree (TagsRequest.ofEdit e) := by
  rw [run, parse_of_editWords asked]
  dsimp only [configPath?]
  rw [settings]
  rfl

/-- A run that edits tags prints the tags that are put. -/
theorem tagsIn_ofEdit (named : e.path ≠ "") (full : e.tag ≠ "") {tags : List String}
    (ended : (commandStep now tree store e).result = .ok tags) :
    tagsIn now tree store (TagsRequest.ofEdit e) =
      { tree := (commandStep now tree store e).tree, code := .ok 0,
        out := [tagLine e.path tags] } := by
  have target : (TagsRequest.ofEdit e).target? = some (e.path, e.tag) := by
    simp [TagsRequest.ofEdit, TagsRequest.target?, named, full]
  have other : (TagsRequest.ofEdit e).action ≠ .list := by
    unfold TagsRequest.ofEdit
    split <;> simp
  rw [commandStep] at ended ⊢
  generalize TagsRequest.ofEdit e = request at *
  unfold tagsIn
  split
  · next listed => exact absurd listed other
  · rw [target]
    dsimp only
    rw [ended]

/-- The command line puts the tags that the edit makes of those of the path. -/
theorem commandStep_eq (normal : NormalTags (store.tagsFor e.path)) :
    commandStep now tree store e =
      let next := store.put e.path (e.apply (store.tagsFor e.path))
      ⟨(next.save (fun _ => none) now tree).tree, next,
        (next.save (fun _ => none) now tree).result.map fun _ =>
          e.apply (store.tagsFor e.path)⟩ := by
  have made : normalizeTags ((TagsRequest.ofEdit e).action.edit (store.tagsFor e.path)
      (Text.trim e.tag)) = e.apply (store.tagsFor e.path) := by
    obtain ⟨path, tag, adds⟩ := e
    cases adds with
    | true =>
      rw [PathEdit.apply_add, ← normalizeTags_concat normal]
      rfl
    | false =>
      rw [PathEdit.apply_remove]
      exact normalizeTags_of_normal (normalTags_filter normal _)
  rw [commandStep, TagStore.setTags, made]

/-- If the store can be saved with the tags that the edit makes, the run prints them. -/
theorem runTags_ofEdit {world : World} {config : Configuration} {path : Path} {log : List Record}
    (located : Session.settingPath config world.around tree "tag_store" "data/tags.json" =
      .ok path)
    (loaded : TagStore.load tree path = .ok (store, log)) (named : e.path ≠ "") (full : e.tag ≠ "")
    (saved : ((store.put e.path (e.apply (store.tagsFor e.path))).save (fun _ => none) world.now
      tree).result = .ok ()) :
    runTags world config tree (TagsRequest.ofEdit e) =
      { tree := ((store.put e.path (e.apply (store.tagsFor e.path))).save (fun _ => none) world.now
          tree).tree
        code := .ok 0
        out := [tagLine e.path (e.apply (store.tagsFor e.path))]
        log := Record.visible ({} : LogSettings).threshold log } := by
  have entries := (TagStore.normalEntries_of_load loaded).2
  have step : commandStep world.now tree store e = _ :=
    commandStep_eq (TagStore.normalTags_tagsFor entries e.path)
  have ended : (commandStep world.now tree store e).result =
      .ok (e.apply (store.tagsFor e.path)) := by
    rw [step]
    dsimp only
    rw [saved]
    rfl
  rw [runTags, located]
  dsimp only [bind, Except.bind]
  rw [loaded]
  dsimp only
  rw [tagsIn_ofEdit named full ended, step]

/-! ### In a session -/

theorem sessionEdit_eq (e : PathEdit) : sessionEdit e = editTags e.change e.path e.tag := by
  unfold sessionEdit PathEdit.change
  split <;> rfl

/-- The item is given the tags that the edit makes. They are put and saved, unless a blank tag is
added: that leaves the files and the store alone. -/
theorem run_sessionEdit {s : Session} {catalog : Catalog} {item : Item}
    (held : s.catalog = some catalog) (found : catalog.get? e.path = some item)
    (normal : NormalTags item.tags) :
    let next := s.store.put e.path (e.apply item.tags)
    let edited := (sessionEdit e).run s
    (e.saves = false ∧ e.apply item.tags = item.tags ∧ edited.1 = .ok item ∧
      edited.2.tree = s.tree ∧ edited.2.store = s.store) ∨
    (e.saves = true ∧
      edited.1 = ((next.save (fun _ => none) s.now s.tree).result.map fun _ =>
        { item with tags := e.apply item.tags }) ∧
      edited.2.tree = (next.save (fun _ => none) s.now s.tree).tree ∧
      edited.2.store = next) := by
  intro next edited
  have here : item.relativePath = e.path := by simpa using List.find?_some found
  have ran : edited = _ := (congrArg (·.run s) (sessionEdit_eq e)).trans
    (run_editTags_of_found e.change e.path e.tag held found)
  rw [ran]
  rcases e.change_cases normal (fun _ => none) s.now s.tree s.store with
    ⟨idle, same, edit⟩ | ⟨saves, files, stored, changed, told⟩
  · exact .inl ⟨idle, same, by rw [edit]; rfl, by rw [edit], by rw [edit]⟩
  · rw [here] at files stored told
    refine .inr ⟨saves, ?_, files, stored⟩
    dsimp only
    rw [told, changed]
    cases (next.save (fun _ => none) s.now s.tree).result <;> rfl

/-! ### The main statement -/

/-- What is found on the path of the store after a run that edits tags, and after the same edit in a
session. -/
structure SameFile (e : PathEdit) (path : Path) (run : Run) (left : TagStore) (edited : Session) :
    Prop where
  /-- Unless the tag is blank, the file has the same text. -/
  text : Text.trim e.tag ≠ "" →
    run.tree.readText path = .ok left.document ∧ edited.tree.readText path = .ok left.document
  /-- Each file is read as the store that was left. -/
  reloaded : TagStore.load run.tree path = .ok (left, []) ∧
    ∃ log, TagStore.load edited.tree path = .ok (edited.store, log)

/-- A run that edits tags and the same edit in a session, both on the files and the store that the
session has. `left` is the store that the run ends with. -/
structure SameEdit (e : PathEdit) (path : Path) (now : Binary64) (s : Session) (run : Run)
    (left : TagStore) (edited : Except Failure Item × Session) : Prop where
  /-- The run prints the tags that the item has then, and nothing else. -/
  printed : ∃ item, edited.1 = .ok item ∧ item.relativePath = e.path ∧
    run.code = .ok 0 ∧ run.out = [tagLine e.path item.tags] ∧ run.err = []
  /-- Every path has the same tags. -/
  tags : ∀ q, left.tagsFor q = edited.2.store.tagsFor q
  /-- Unless the tag is blank, the same paths have entries, in the same order. -/
  mapping : Text.trim e.tag ≠ "" → left = edited.2.store
  /-- If the path of the store is steady, the same is found there. -/
  file : s.tree.Steady path → SameFile e path run left edited.2
  /-- All files are the same then but for the time. -/
  files : Text.trim e.tag ≠ "" → now = s.now → run.tree = edited.2.tree

/-- Edit the tags of a path on the command line, or those of an item that has the tags of the store
for its path in a session. If the store can be saved, both leave the same tags for every path, and
the run prints those of the item. If the tag is not blank, they also leave the same mapping and the
same text of the file. -/
theorem command_edit_agrees_with_session {world : World} {config : Configuration} {s : Session}
    {path : Path} {log : List Record}
    (located : Session.settingPath config world.around s.tree "tag_store" "data/tags.json" =
      .ok path)
    (loaded : TagStore.load s.tree path = .ok (s.store, log)) {e : PathEdit} (named : e.path ≠ "")
    (full : e.tag ≠ "") {catalog : Catalog} {item : Item} (held : s.catalog = some catalog)
    (found : catalog.get? e.path = some item) (agree : item.tags = s.store.tagsFor e.path)
    (saved : ∀ now ∈ [world.now, s.now],
      ((s.store.put e.path (e.apply (s.store.tagsFor e.path))).save (fun _ => none) now
        s.tree).result = .ok ()) :
    SameEdit e path world.now s (runTags world config s.tree (TagsRequest.ofEdit e))
      (commandStep world.now s.tree s.store e).store ((sessionEdit e).run s) := by
  obtain ⟨owned, entries⟩ := TagStore.normalEntries_of_load loaded
  have stored := TagStore.normalTags_tagsFor entries e.path
  have normal : NormalTags item.tags := agree ▸ stored
  have here : item.relativePath = e.path := by simpa using List.find?_some found
  have left : (commandStep world.now s.tree s.store e).store =
      s.store.put e.path (e.apply (s.store.tagsFor e.path)) := by rw [commandStep_eq stored]
  have ran := runTags_ofEdit located loaded named full (saved world.now (by simp))
  have next_tags (q : String) := s.store.tagsFor_put e.path q (e.apply (s.store.tagsFor e.path))
  have place := s.store.path_put e.path (e.apply (s.store.tagsFor e.path))
  have next_entries := TagStore.normalEntries_put entries e.path (e.normal_apply stored)
  have edited := run_sessionEdit (e := e) held found normal
  rw [agree] at edited
  generalize s.store.put e.path (e.apply (s.store.tagsFor e.path)) = next at *
  have settled {now : Binary64} (known : now ∈ [world.now, s.now]) (steady : s.tree.Steady path) :
      (next.save (fun _ => none) now s.tree).tree.Settled path (Text.encode next.document) := by
    rw [← owned, ← place] at steady ⊢
    exact TagStore.settled_of_save steady (saved now known)
  rw [left]
  have reread {now : Binary64} (known : now ∈ [world.now, s.now]) (steady : s.tree.Steady path) :
      TagStore.load (next.save (fun _ => none) now s.tree).tree path = .ok (next, []) := by
    have read := settled known steady
    rw [← owned, ← place] at read ⊢
    exact TagStore.load_of_settled read next_entries
  rcases edited with ⟨idle, same, answer, files, kept⟩ | ⟨saves, answer, files, kept⟩
  · -- A blank tag is added: the command line puts the tags that the path had.
    obtain ⟨-, blank⟩ : e.adds = true ∧ Text.trim e.tag = "" := by
      simpa [PathEdit.saves] using idle
    have tags (q : String) : next.tagsFor q = s.store.tagsFor q := by
      rw [next_tags, same]
      split
      · next at_path => rw [at_path]
      · rfl
    exact {
      printed := ⟨item, answer, here, by rw [ran], by rw [ran, same, agree], by rw [ran]⟩
      tags := fun q => by rw [kept, tags]
      mapping := fun full => absurd blank full
      file := fun steady => by
        refine ⟨fun full => absurd blank full, ?_⟩
        rw [ran, files, kept]
        exact ⟨reread (by simp) steady, log, loaded⟩
      files := fun full => absurd blank full }
  · rw [saved s.now (by simp)] at answer
    exact {
      printed := ⟨_, answer, here, by rw [ran], by rw [ran], by rw [ran]⟩
      tags := fun q => by rw [kept]
      mapping := fun _ => kept.symm
      file := fun steady => by
        rw [ran]
        refine ⟨fun _ => ?_, ?_⟩
        · rw [files]
          exact ⟨FileTree.readText_of_read (settled (by simp) steady).read,
            FileTree.readText_of_read (settled (by simp) steady).read⟩
        · rw [files, kept]
          exact ⟨reread (by simp) steady, [], reread (by simp) steady⟩
      files := fun _ same => by rw [ran, files, same] }

/-- What a store of one path holds, with a blank before a tag. -/
def storedContent : List UInt8 :=
  Text.encode (TagStore.document ⟨default, [("a.mp4", [" x", "y"])]⟩)

/-- The file of the store next to the video. -/
def filesWithStore : FileTree :=
  ⟨[(["a.mp4"], .file [] .zero), (["data"], .directory),
    (["data", "tags.json"], .file storedContent .zero)], [], []⟩

/-- A session that shows the video with the tags of the store. -/
def taggedSession : Session :=
  .showing filesWithStore ⟨⟨"/", ["data", "tags.json"]⟩, [("a.mp4", ["x", "y"])]⟩
    [{ (default : Item) with relativePath := "a.mp4", tags := ["x", "y"] }]

/-- The command line prints the tags without the one that is removed, blanks or not, and that is
what is read again. -/
theorem command_edit_agrees_with_session_padded :
    let world : World :=
      { around := taggedSession.around, source := .decoder Extractor.hanging.backend }
    let run := runTags world taggedSession.config taggedSession.tree
      ⟨.remove, some "a.mp4", some " x\n"⟩
    let removed : Except Failure Item × Session :=
      (SessionM.removeTag "a.mp4" " x\n").run taggedSession
    run.out = ["a.mp4: y"] ∧ removed.1.map (·.tags) = .ok ["y"] ∧
      TagStore.load run.tree taggedSession.store.path = .ok (removed.2.store, []) ∧
      run.tree = removed.2.tree := by
  intro world run removed
  have loaded : TagStore.load taggedSession.tree taggedSession.store.path =
      .ok (taggedSession.store, []) := by decide +kernel
  have found : taggedSession.tree.find true taggedSession.store.path =
      .ok (.present ["data", "tags.json"] (.file storedContent .zero)) := rfl
  have steady : taggedSession.tree.Steady taggedSession.store.path :=
    FileTree.steady_of_find found (by simp)
  have located : Session.settingPath taggedSession.config world.around taggedSession.tree
      "tag_store" "data/tags.json" = .ok taggedSession.store.path := by decide +kernel
  have same := command_edit_agrees_with_session located loaded (e := ⟨"a.mp4", " x\n", false⟩)
    (by decide) (by decide) rfl rfl (by decide) (by decide +kernel)
  rw [show sessionEdit _ = SessionM.removeTag "a.mp4" " x\n" from rfl,
    show TagsRequest.ofEdit _ = ⟨.remove, some "a.mp4", some " x\n"⟩ from rfl] at same
  have computed : removed.1.map (·.tags) = .ok ["y"] := by decide +kernel
  obtain ⟨item, answer, -, -, out, -⟩ := same.printed
  have tags : item.tags = ["y"] := by
    rw [show removed.1 = .ok item from answer] at computed
    exact Except.ok.inj computed
  rw [tags] at out
  refine ⟨out, computed, ?_, same.files (by decide) rfl⟩
  rw [show removed.2.store = _ from (same.mapping (by decide)).symm]
  exact (same.file steady).reloaded.1

end VideoCatalog.CommandLine
