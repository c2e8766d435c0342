import VideoCatalog.Proofs.Catalog.Building
import VideoCatalog.Proofs.Files.Steady
import VideoCatalog.Proofs.Session.Handles
import VideoCatalog.Proofs.Tags.Editing
import VideoCatalog.Proofs.Tags.Saving

/-!
# The tags that a session shows

The tags of an item are kept twice, with the item and in the store. Both stay what the edits of its
path have left, through any scans and through sessions that are started anew.

* `tagsAfter`: what a path has after edits of the tags of paths.
* `Labelled`, `KeepsLabels`: items have the tags of the store, and operations that keep it so.
* `Reached`: the states that a session and its successors on the same file come to.
* `Faithful`: the invariant; `faithful_edit` and `faithful_restart` are its main steps.
* `tags_follow_edits`: the main statement.
-/

namespace VideoCatalog

open Session SessionM

/-! ### Edits -/

/-- The tags of a path after edits. Each edit of the path goes on from what the one before has
left, and edits of other paths do not matter. -/
def tagsAfter (initial : String → List String) (edits : List PathEdit) (path : String) :
    List String :=
  (edits.filter (·.path == path)).foldl (fun tags e => e.apply tags) (initial path)

/-- The last edit of a path decides, together with what was there before it. -/
theorem tagsAfter_concat (initial : String → List String) (edits : List PathEdit) (e : PathEdit)
    (path : String) : tagsAfter initial (edits ++ [e]) path =
      if path = e.path then e.apply (tagsAfter initial edits path)
      else tagsAfter initial edits path := by
  unfold tagsAfter
  rw [List.filter_append, List.foldl_append]
  by_cases same : path = e.path
  · simp [same]
  · have other : (e.path == path) = false := by simpa using Ne.symm same
    simp [other, same]

/-- The edit that a call asks for. -/
def SessionCall.edit? : SessionCall → Option PathEdit
  | .addTag path tag => some ⟨path, tag, true⟩
  | .removeTag path tag => some ⟨path, tag, false⟩
  | _ => none

theorem Client.step_of_edit {c : Client} {call : SessionCall} {e : PathEdit}
    (edit : call.edit? = some e) : c.step call =
      (((editTags e.change e.path e.tag).run c.session).1.map fun _ => (),
        { c with session := ((editTags e.change e.path e.tag).run c.session).2 }) := by
  cases call with
  | addTag path tag | removeTag path tag =>
    obtain rfl := Option.some.inj edit
    simp only [Client.step, SessionM.addTag, SessionM.removeTag, PathEdit.change, if_true,
      Bool.false_eq_true, if_false]
  | _ => cases edit

/-! ### Items with the tags of the store -/

/-- Every item has the tags that a store has for its path, and no two items share a path. -/
structure Labelled (store : TagStore) (items : List Item) : Prop where
  tagged : ∀ item ∈ items, item.tags = store.tagsFor item.relativePath
  distinct : (items.map (·.relativePath)).Nodup

theorem labelled_nil (store : TagStore) : Labelled store [] := ⟨by simp, List.nodup_nil⟩

/-- Handles and what is learned about items make no difference. -/
theorem Labelled.congr {store : TagStore} {items items' : List Item}
    (labelled : Labelled store items)
    (described : items'.map Item.described = items.map Item.described) :
    Labelled store items' := by
  constructor
  · intro item mem
    have among : item.described ∈ items.map Item.described :=
      described ▸ List.mem_map_of_mem mem
    obtain ⟨old, there, same⟩ := List.mem_map.1 among
    obtain ⟨path, -, tags⟩ := Item.label_of_described same
    rw [← tags, ← path]
    exact labelled.tagged old there
  · have paths (list : List Item) : list.map (·.relativePath) =
        (list.map Item.described).map (·.relativePath) := by
      rw [List.map_map]
      rfl
    rw [paths, described, ← paths]
    exact labelled.distinct

/-- When the tags of a path are put, its item has to be given them, too. -/
theorem Labelled.update {store : TagStore} {catalog : Catalog} {item : Item}
    (labelled : Labelled store catalog.items) (tags : List String) :
    Labelled (store.put item.relativePath tags)
      (catalog.update { item with tags := tags }).items := by
  constructor
  · intro other mem
    obtain ⟨old, there, rfl⟩ := List.mem_map.1 mem
    rw [TagStore.tagsFor_put]
    by_cases same : old.relativePath = item.relativePath
    · simp [same]
    · simpa [same] using labelled.tagged old there
  · have paths : (catalog.update { item with tags := tags }).items.map (·.relativePath) =
        catalog.items.map (·.relativePath) := by
      simp only [Catalog.update, Catalog.mapItems, List.map_map]
      refine List.map_congr_left fun old _ => ?_
      by_cases same : old.relativePath = item.relativePath <;> simp [same]
    rw [paths]
    exact labelled.distinct

namespace SessionM

variable {α β : Type} {op : SessionM α} {next : α → SessionM β}

/-- An operation leaves the files and the store alone, and the items with the tags of the store. -/
def KeepsLabels (op : SessionM α) : Prop :=
  ∀ s, Labelled s.store s.current →
    (op.run s).2.tree = s.tree ∧ (op.run s).2.store = s.store ∧
      Labelled s.store (op.run s).2.current

theorem keepsLabels_of_quiet (quiet : Quiet op) : KeepsLabels op := by
  intro s labelled
  have shown := quiet s
  refine ⟨shown.tree, shown.store, ?_⟩
  rw [current, shown.catalog]
  exact labelled

theorem keepsLabels_bind (first : KeepsLabels op) (rest : ∀ a, KeepsLabels (next a)) :
    KeepsLabels (op >>= next) := by
  intro s labelled
  obtain ⟨tree, store, kept⟩ := first s labelled
  rw [run_bind]
  rcases ran : op.run s with ⟨_ | a, s₁⟩ <;> rw [ran] at tree store kept
  · exact ⟨tree, store, kept⟩
  · obtain ⟨tree', store', kept'⟩ := rest a s₁ (by rwa [store])
    exact ⟨tree'.trans tree, store'.trans store, store ▸ kept'⟩

/-- What is read from the state is its own. -/
theorem keepsLabels_get {next : Session → SessionM β}
    (rest : ∀ s, Labelled s.store s.current → ((next s).run s).2.tree = s.tree ∧
      ((next s).run s).2.store = s.store ∧ Labelled s.store ((next s).run s).2.current) :
    KeepsLabels (get >>= next) := by
  intro s labelled
  rw [run_bind_of_ok (run_get s)]
  exact rest s labelled

theorem keepsLabels_tryCatch {handle : Failure → SessionM α} (first : KeepsLabels op)
    (rest : ∀ f, KeepsLabels (handle f)) : KeepsLabels (tryCatch op handle) := by
  intro s labelled
  obtain ⟨tree, store, kept⟩ := first s labelled
  rw [run_tryCatch]
  rcases ran : op.run s with ⟨f | a, s₁⟩ <;> rw [ran] at tree store kept
  · obtain ⟨tree', store', kept'⟩ := rest f s₁ (by rwa [store])
    exact ⟨tree'.trans tree, store'.trans store, store ▸ kept'⟩
  · exact ⟨tree, store, kept⟩

/-- Changes of the registry alone, or of what is no tag of an item. -/
theorem keepsLabels_modify {g : Session → Session} (tree : ∀ s, (g s).tree = s.tree)
    (store : ∀ s, (g s).store = s.store)
    (described : ∀ s, (g s).current.map Item.described = s.current.map Item.described) :
    KeepsLabels (modify g) :=
  fun s labelled => ⟨tree s, store s, labelled.congr (described s)⟩

/-- Giving back handles, also if one of them cannot be closed. -/
theorem keepsLabels_teardown : KeepsLabels teardown := by
  unfold teardown
  refine keepsLabels_bind (keepsLabels_of_quiet fun s => .refl s) fun s₀ => ?_
  refine keepsLabels_bind (keepsLabels_modify (fun _ => rfl) (fun _ => rfl) fun _ => rfl)
    fun _ => ?_
  refine keepsLabels_bind (keepsLabels_of_quiet (quiet_note _)) fun _ => ?_
  refine keepsLabels_bind (keepsLabels_of_quiet (quiet_ofResult _)) fun released => ?_
  refine keepsLabels_bind ?_ fun _ => ?_
  · refine keepsLabels_modify (fun _ => rfl) (fun _ => rfl) fun s => ?_
    cases held : s.catalog with
    | none => simp [current, held]
    | some catalog =>
      simp only [current, held, Option.map_some, Option.getD_some, Catalog.mapItems, List.map_map]
      rfl
  · split
    · exact keepsLabels_of_quiet (quiet_note _)
    · exact keepsLabels_of_quiet (quiet_pure ())

theorem keepsLabels_shutdown : KeepsLabels shutdown :=
  keepsLabels_bind keepsLabels_teardown fun _ s _ => ⟨rfl, rfl, labelled_nil s.store⟩

/-- The items of a new catalog get their tags from the store. -/
theorem keepsLabels_rebuild (enumerate : FileTree → Enumeration) :
    KeepsLabels (rebuild enumerate) := by
  unfold rebuild
  refine keepsLabels_bind (keepsLabels_of_quiet fun s => .refl s) fun s₀ => ?_
  refine keepsLabels_bind (keepsLabels_of_quiet (quiet_note _)) fun _ => ?_
  refine keepsLabels_bind (keepsLabels_of_quiet (quiet_ofResult _)) fun descriptors => ?_
  refine keepsLabels_bind keepsLabels_teardown fun _ => keepsLabels_get fun s _ => ?_
  have built : Labelled s.store
      (Catalog.buildItems s.registry s.store.tagsFor descriptors).items :=
    ⟨Catalog.tags_buildItems, Catalog.nodup_buildItems⟩
  exact ⟨rfl, rfl, built⟩

/-- A pass does not touch the tags, however it ends. -/
theorem keepsLabels_enrich (order : Nat → Nat → List Nat) : KeepsLabels (enrich order) := by
  intro s labelled
  obtain ⟨result, s', ran, shown, -⟩ := run_enrich s order
  rw [ran]
  refine ⟨shown.tree, shown.store, labelled.congr ?_⟩
  rw [current, shown.catalog]
  exact Pass.described_runPass _ _ _ _ _ _ _

theorem keepsLabels_scan (enumerate : FileTree → Enumeration) (order : Nat → Nat → List Nat) :
    KeepsLabels (scan enumerate order) :=
  keepsLabels_bind (keepsLabels_rebuild enumerate) fun _ => keepsLabels_enrich order

theorem keepsLabels_throw (f : Failure) : KeepsLabels (throw f : SessionM α) :=
  fun _ labelled => ⟨rfl, rfl, labelled⟩

theorem keepsLabels_scanDirectory (root : Path) (fallback : Option (List Path))
    (order fallbackOrder : Nat → Nat → List Nat) :
    KeepsLabels (scanDirectory root fallback order fallbackOrder) := by
  unfold scanDirectory
  refine keepsLabels_bind (keepsLabels_of_quiet fun s => .refl s) fun s₀ => ?_
  refine keepsLabels_tryCatch (keepsLabels_scan _ order) fun f => ?_
  split
  · split
    · exact keepsLabels_bind (keepsLabels_of_quiet (quiet_note _)) fun _ =>
        keepsLabels_scan _ fallbackOrder
    · exact keepsLabels_throw f
  · exact keepsLabels_throw f

end SessionM

/-- What is no edit leaves the files and the store alone, and the items with the tags of the
store. -/
theorem Client.labelled_step {c : Client} {call : SessionCall} (plain : call.edit? = none)
    (inside : ∀ tree, call ≠ .files tree)
    (labelled : Labelled c.session.store c.session.current) :
    (c.step call).2.session.tree = c.session.tree ∧
      (c.step call).2.session.store = c.session.store ∧
      Labelled c.session.store (c.step call).2.session.current := by
  cases call with
  | files tree => exact absurd rfl (inside tree)
  | habits backend onProgress => exact ⟨rfl, rfl, labelled⟩
  | scan enumerate order =>
    simp only [Client.step, session_scanned]
    exact keepsLabels_scan enumerate order _ labelled
  | scanDirectory root fallback order fallbackOrder =>
    simp only [Client.step, session_scanned]
    exact keepsLabels_scanDirectory root fallback order fallbackOrder _ labelled
  | query text order => exact keepsLabels_of_quiet (quiet_query text order) _ labelled
  | addTag path tag | removeTag path tag => cases plain
  | openPlayback path =>
    unfold Client.step
    rcases run_openPlayback path c.session with ⟨f, ran⟩ | ⟨stream, -, -, ran⟩ <;>
      simp only [ran] <;> exact ⟨trivial, trivial, labelled⟩
  | closeStream k =>
    unfold Client.step
    cases hat : c.streams[k]? with
    | none =>
      simp only [hat]
      exact ⟨trivial, trivial, labelled⟩
    | some stream =>
      obtain ⟨s', ran, shown⟩ := run_closeStream stream c.session
      have kept : s'.tree = c.session.tree ∧ s'.store = c.session.store ∧
          Labelled c.session.store s'.current := by
        refine ⟨shown.tree, shown.store, ?_⟩
        rw [current, shown.catalog]
        exact labelled
      simp only [hat, ran]
      cases (stream.close c.session.registry).result <;> exact kept
  | teardown => exact keepsLabels_teardown _ labelled
  | shutdown => exact keepsLabels_shutdown _ labelled

/-! ### Sessions on one file -/

/-- The states that a session comes to, with the edits made so far. Nobody else changes the files,
and every edit of an item is saved. A session may be followed by another one on the same file: the
path is the same, and if something has been saved, that path was steady at first. (If it was not,
nothing is found there after a saving: `TagStore.steady_iff_read_of_save`.) As long as nothing has
been saved, the directory of the logs has to be there already. -/
inductive Reached (s : Session) : Client → List PathEdit → Prop
  | start : Reached s { session := s } []
  | plain {c : Client} {edits : List PathEdit} (call : SessionCall) :
      Reached s c edits → call.edit? = none → (∀ tree, call ≠ .files tree) →
      Reached s (c.step call).2 edits
  | missed {c : Client} {edits : List PathEdit} {e : PathEdit} (call : SessionCall) :
      Reached s c edits → call.edit? = some e →
      (∀ item ∈ c.session.current, item.relativePath ≠ e.path) → Reached s (c.step call).2 edits
  | edit {c : Client} {edits : List PathEdit} {e : PathEdit} (call : SessionCall) :
      Reached s c edits → call.edit? = some e → (c.step call).1 = .ok () →
      Reached s (c.step call).2 (edits ++ [e])
  | restart {c : Client} {edits : List PathEdit} {config : Configuration} {around : Surroundings}
      {source : FrameSource} {options : Options} {s' : Session} {log : List Record} :
      Reached s c edits →
      Session.start config around c.session.tree source options = (.ok s', log) →
      s'.store.path = c.session.store.path →
      ((∃ e ∈ edits, e.saves = true) → s.tree.Steady s.store.path) →
      ((∀ e ∈ edits, e.saves = false) → s'.tree = c.session.tree) →
      Reached s { session := s' } edits

/-- The store holds what the edits have left since a first session, and the items have the tags of
the store. As long as nothing was saved, files and store are those of the first session; then the
file of the store holds its document, if its path was steady. -/
structure Faithful (first : Session) (edits : List PathEdit) (s : Session) : Prop where
  labelled : Labelled s.store s.current
  followed : ∀ path, s.store.tagsFor path = tagsAfter first.store.tagsFor edits path
  entries : TagStore.NormalEntries s.store.entries
  place : s.store.path = first.store.path
  unsaved : (∀ e ∈ edits, e.saves = false) → s.tree = first.tree ∧ s.store = first.store
  saved : (∃ e ∈ edits, e.saves = true) → first.tree.Steady first.store.path →
    s.tree.Settled first.store.path (Text.encode s.store.document)

variable {first : Session} {edits : List PathEdit} {s s' : Session}

theorem exists_saves {edits : List PathEdit} (some_saves : ¬∀ e ∈ edits, e.saves = false) :
    ∃ e ∈ edits, e.saves = true := by
  simpa using some_saves

theorem Faithful.congr (faithful : Faithful first edits s) (tree : s'.tree = s.tree)
    (store : s'.store = s.store) (labelled : Labelled s.store s'.current) :
    Faithful first edits s' where
  labelled := store.symm ▸ labelled
  followed := store.symm ▸ faithful.followed
  entries := store.symm ▸ faithful.entries
  place := store.symm ▸ faithful.place
  unsaved := by rw [tree, store]; exact faithful.unsaved
  saved := by rw [tree, store]; exact faithful.saved

/-- A steady path stays so. -/
theorem Faithful.steady (faithful : Faithful first edits s)
    (steady : first.tree.Steady first.store.path) : s.tree.Steady first.store.path := by
  by_cases none_saves : ∀ e ∈ edits, e.saves = false
  · rw [(faithful.unsaved none_saves).1]
    exact steady
  · exact (faithful.saved (exists_saves none_saves) steady).steady

/-- What a new session has read. -/
theorem Session.Started.loaded {config : Configuration} {around : Surroundings} {tree : FileTree}
    {source : FrameSource} {options : Options}
    (started : Started config around tree source options s) :
    ∃ log, TagStore.load s.tree s.store.path = .ok (s.store, log) := by
  obtain ⟨path, log, -, loaded⟩ := started.store
  exact ⟨log, (TagStore.normalEntries_of_load loaded).1.symm ▸ loaded⟩

theorem Session.Started.grown {config : Configuration} {around : Surroundings} {tree : FileTree}
    {source : FrameSource} {options : Options}
    (started : Started config around tree source options s) :
    tree.Grown s.tree := by
  obtain ⟨logs, ran⟩ := started.logs
  unfold startLogs at ran
  split at ran
  · cases ran
  · dsimp only at ran
    split at ran
    · cases ran
    · next made parents =>
      cases ready : LogSettings.setup {} (.int Level.info)
          (Level.resolve (config.setting "logging" "enrichment_level" .null) (.int Level.info)) with
      | error f =>
        rw [ready] at ran
        cases ran
      | ok settings =>
        rw [ready] at ran
        cases ran
        exact FileTree.grown_makeDirectories parents

theorem faithful_start {config : Configuration} {around : Surroundings} {tree : FileTree}
    {source : FrameSource} {options : Options}
    (started : Started config around tree source options s) : Faithful s [] s := by
  obtain ⟨log, loaded⟩ := started.loaded
  have empty : s.current = [] := by rw [current, started.catalog]; rfl
  exact ⟨empty ▸ labelled_nil s.store, fun path => rfl,
    (TagStore.normalEntries_of_load loaded).2, rfl, fun _ => ⟨rfl, rfl⟩, by simp⟩

/-- An item that is found has the tags of the store for its path. -/
theorem Faithful.tags_of_found (faithful : Faithful first edits s) {catalog : Catalog}
    {item : Item} {path : String} (held : s.catalog = some catalog)
    (found : catalog.get? path = some item) :
    item.relativePath = path ∧ item.tags = s.store.tagsFor path := by
  have here : item.relativePath = path := by simpa using List.find?_some found
  have mem : item ∈ s.current := by
    rw [current, held]
    exact List.mem_of_find?_eq_some found
  exact ⟨here, here ▸ faithful.labelled.tagged item mem⟩

/-- After an edit that saves nothing everything stays as it was. -/
theorem Faithful.idle (faithful : Faithful first edits s) {e : PathEdit} {catalog : Catalog}
    {item : Item} (held : s.catalog = some catalog) (found : catalog.get? e.path = some item)
    (idle : e.saves = false) (same : e.apply item.tags = item.tags) :
    Faithful first (edits ++ [e]) { s with catalog := some (catalog.update item) } := by
  have tags := (faithful.tags_of_found held found).2
  have items : s.current = catalog.items := by rw [current, held]; rfl
  have labelled := faithful.labelled
  rw [items] at labelled
  refine ⟨?_, fun other => ?_, faithful.entries, faithful.place,
    fun none_saves => faithful.unsaved ?_, fun saving => faithful.saved ?_⟩
  · have described : (catalog.update item).items.map Item.described =
        catalog.items.map Item.described :=
      Catalog.map_update item labelled.distinct found rfl Item.described rfl
    exact labelled.congr described
  · rw [tagsAfter_concat]
    split
    · next here => rw [here, ← faithful.followed, ← tags, same, tags]
    · exact faithful.followed other
  · exact fun e' mem => none_saves e' (List.mem_append_left _ mem)
  · obtain ⟨e', mem, saves⟩ := saving
    rcases List.mem_append.1 mem with old | new
    · exact ⟨e', old, saves⟩
    · rw [List.mem_singleton.1 new, idle] at saves
      cases saves

/-- After an edit that is saved the store and the item have the tags that it makes. -/
theorem Faithful.stored (faithful : Faithful first edits s) {e : PathEdit} {catalog : Catalog}
    {item : Item} {next : TagStore} (held : s.catalog = some catalog)
    (found : catalog.get? e.path = some item) (saves : e.saves = true)
    (put : s.store.put item.relativePath (e.apply item.tags) = next)
    (saved : (next.save (fun _ => none) s.now s.tree).result = .ok ()) :
    Faithful first (edits ++ [e]) { s with
      tree := (next.save (fun _ => none) s.now s.tree).tree
      store := next
      catalog := some (catalog.update { item with tags := e.apply item.tags }) } := by
  obtain ⟨path, tags⟩ := faithful.tags_of_found held found
  have items : s.current = catalog.items := by rw [current, held]; rfl
  have labelled := faithful.labelled
  rw [items] at labelled
  subst put
  have place := (s.store.path_put item.relativePath (e.apply item.tags)).trans faithful.place
  refine ⟨labelled.update _, fun other => ?_, ?_, place, fun none_saves => ?_, fun _ steady => ?_⟩
  · rw [TagStore.tagsFor_put, tagsAfter_concat, path]
    split
    · next here => rw [here, tags, faithful.followed]
    · exact faithful.followed other
  · exact TagStore.normalEntries_put faithful.entries item.relativePath
      (e.normal_apply (tags ▸ TagStore.normalTags_tagsFor faithful.entries e.path))
  · have idle := none_saves e (by simp)
    rw [saves] at idle
    cases idle
  · have here := faithful.steady steady
    rw [← place] at here ⊢
    exact TagStore.settled_of_save here saved

/-- An edit of an item that ends well. -/
theorem faithful_edit (faithful : Faithful first edits s) (e : PathEdit)
    (ended : ((editTags e.change e.path e.tag).run s).1.map (fun _ => ()) = .ok ()) :
    Faithful first (edits ++ [e]) ((editTags e.change e.path e.tag).run s).2 := by
  rcases run_editTags e.change e.path e.tag s with ⟨f, ran⟩ | ⟨catalog, item, held, found, ran⟩
  · rw [ran] at ended
    cases ended
  have tags := (faithful.tags_of_found held found).2
  have normal : NormalTags item.tags := tags ▸ TagStore.normalTags_tagsFor faithful.entries e.path
  rw [ran] at ended ⊢
  rcases e.change_cases normal (fun _ => none) s.now s.tree s.store with
    ⟨idle, same, edit⟩ | ⟨saves, tree, store, edited, result⟩
  · rw [edit]
    exact faithful.idle held found idle same
  · generalize put : s.store.put item.relativePath (e.apply item.tags) = next at *
    rw [tree, store, edited]
    refine faithful.stored held found saves put ?_
    rw [result] at ended
    revert ended
    cases (next.save (fun _ => none) s.now s.tree).result with
    | error f => intro ended; cases ended
    | ok _ => exact fun _ => rfl

/-- A session that is started on the file of another one has the same store. -/
theorem faithful_restart (faithful : Faithful first edits s) {config config' : Configuration}
    {around around' : Surroundings} {tree : FileTree} {source source' : FrameSource}
    {options options' : Options} (began : Started config around tree source options first)
    (started : Started config' around' s.tree source' options' s')
    (same : s'.store.path = s.store.path)
    (saved : (∃ e ∈ edits, e.saves = true) → first.tree.Steady first.store.path)
    (unsaved : (∀ e ∈ edits, e.saves = false) → s'.tree = s.tree) : Faithful first edits s' := by
  obtain ⟨log, loaded⟩ := started.loaded
  rw [same] at loaded
  have empty : s'.current = [] := by rw [current, started.catalog]; rfl
  have settled (some_saves : ∃ e ∈ edits, e.saves = true) :
      s'.tree.Settled first.store.path (Text.encode s.store.document) :=
    started.grown.within.settled (faithful.saved some_saves (saved some_saves))
  have kept (none_saves : ∀ e ∈ edits, e.saves = false) : s'.tree = first.tree :=
    (unsaved none_saves).trans (faithful.unsaved none_saves).1
  have store : s'.store = s.store := by
    by_cases none_saves : ∀ e ∈ edits, e.saves = false
    · obtain ⟨log', read⟩ := began.loaded
      rw [(faithful.unsaved none_saves).2] at loaded ⊢
      rw [kept none_saves, read] at loaded
      exact (Prod.ext_iff.1 (Except.ok.inj loaded)).1.symm
    · have here := settled (exists_saves none_saves)
      rw [← faithful.place] at here
      rw [TagStore.load_of_settled here faithful.entries] at loaded
      exact (Prod.ext_iff.1 (Except.ok.inj loaded)).1.symm
  constructor
  · rw [empty]
    exact labelled_nil s'.store
  · rw [store]
    exact faithful.followed
  · rw [store]
    exact faithful.entries
  · exact same.trans faithful.place
  · exact fun none_saves => ⟨kept none_saves, store.trans (faithful.unsaved none_saves).2⟩
  · rw [store]
    exact fun some_saves _ => settled some_saves

theorem faithful_reached {config : Configuration} {around : Surroundings} {tree : FileTree}
    {source : FrameSource} {options : Options}
    (started : Started config around tree source options s)
    {c : Client} (reached : Reached s c edits) : Faithful s edits c.session := by
  induction reached with
  | start => exact faithful_start started
  | plain call _ plain inside ih =>
    obtain ⟨tree, store, labelled⟩ := Client.labelled_step plain inside ih.labelled
    exact ih.congr tree store labelled
  | @missed c _ e call _ edit absent ih =>
    rw [Client.step_of_edit edit]
    -- Without such an item nothing is tried.
    rcases run_editTags e.change e.path e.tag c.session with ⟨f, ran⟩ |
      ⟨catalog, item, held, found, -⟩
    · rw [ran]
      exact ih
    · have among : item ∈ c.session.current := by
        rw [current, held]
        exact List.mem_of_find?_eq_some found
      exact absurd (by simpa using List.find?_some found) (absent item among)
  | @edit c _ e call _ edit ended ih =>
    rw [Client.step_of_edit edit] at ended ⊢
    exact faithful_edit ih e ended
  | restart _ ran same saved unsaved ih =>
    exact faithful_restart ih started (started_of_start ran) same saved unsaved

/-- Take a session that was started, and whatever state it comes to, also through sessions that are
started after it on the same file, as long as every edit of an item can be saved. Then the tags of
every item of the catalog are those that the store has for its path, in the same order, and the
store has for every path what the edits of that path have left of the tags that it had at first. -/
theorem tags_follow_edits {config : Configuration} {around : Surroundings} {tree : FileTree}
    {source : FrameSource} {options : Options} {log : List Record}
    (started : Session.start config around tree source options = (.ok s, log))
    {c : Client} (reached : Reached s c edits) :
    (∀ item ∈ c.session.current, item.tags = c.session.store.tagsFor item.relativePath) ∧
      ∀ path, c.session.store.tagsFor path = tagsAfter s.store.tagsFor edits path := by
  have faithful := faithful_reached (started_of_start started) reached
  exact ⟨faithful.labelled.tagged, faithful.followed⟩

/-- Two videos, and a directory for the store. -/
def videosWithData : FileTree :=
  ⟨[(["a.mp4"], .file [] .zero), (["b.mp4"], .file [] .zero), (["data"], .directory)], [], []⟩

/-- A session among some files. -/
def startedAmong (tree : FileTree) : Except Failure Session × List Record :=
  Session.start ⟨⟨"/", []⟩, .map []⟩ ⟨⟨"/", []⟩, [], none⟩ tree
    (.decoder Extractor.hanging.backend) {}

/-- A scan of videos with some names. -/
def scanOf (names : List String) : SessionCall :=
  .scan (fun _ => ⟨.ok (names.map videoNamed), []⟩) Pass.inTurn

/-- The first video is given a tag, and is lost in the next scan. -/
def tagAndLose : List SessionCall :=
  [scanOf ["a.mp4", "b.mp4"], .addTag "a.mp4" " x ", scanOf ["b.mp4"], .shutdown]

/-- What is computed of that: whether there is no file at first, whether the tag can be saved, and
the path and the tags that a new session finds. -/
structure TagsFound where
  vacant : Bool
  saved : Bool
  again : Option (Bool × List (String × List String))
deriving DecidableEq

def tagsFound (s : Session) : TagsFound where
  vacant := s.tree.find true s.store.path = .ok (.absent ["data", "tags.json"])
  saved := ((Client.run { session := s } (tagAndLose.take 1)).step (.addTag "a.mp4" " x ")).1.isOk
  again :=
    let lost := (Client.run { session := s } tagAndLose).session
    (startedAmong lost.tree).1.toOption.map fun s' =>
      (s'.store.path == lost.store.path,
        (Client.run { session := s' } [scanOf ["b.mp4", "a.mp4"]]).session.current.map
          fun item => (item.relativePath, item.tags))

theorem exists_of_isOk {ε α : Type} {result : Except ε α} (ended : result.isOk = true) :
    ∃ a, result = .ok a := by
  cases result with
  | error f => cases ended
  | ok a => exact ⟨a, rfl⟩

/-- The tag is found again by the session after the next one. -/
theorem tags_follow_edits_through_restart :
    ∃ s log s' log', startedAmong videosWithData = (.ok s, log) ∧
      startedAmong (Client.run { session := s } tagAndLose).session.tree = (.ok s', log') ∧
      let c := Client.run { session := s' } [scanOf ["b.mp4", "a.mp4"]];
      c.session.current.map (fun item => (item.relativePath, item.tags)) =
          [("b.mp4", []), ("a.mp4", ["x"])] ∧
        c.session.store.tagsFor "a.mp4" =
          tagsAfter s.store.tagsFor [⟨"a.mp4", " x ", true⟩] "a.mp4" := by
  have found : (startedAmong videosWithData).1.toOption.map tagsFound =
      some ⟨true, true, some (true, [("b.mp4", []), ("a.mp4", ["x"])])⟩ := by
    decide +kernel
  obtain ⟨s, log, started, found⟩ := exists_of_started found
  have saved : (tagsFound s).saved = true := by rw [found]
  have vacant : (tagsFound s).vacant = true := by rw [found]
  have again : (tagsFound s).again = some (true, [("b.mp4", []), ("a.mp4", ["x"])]) := by
    rw [found]
  dsimp only [tagsFound] at saved vacant again
  obtain ⟨s', log', restarted, shown⟩ := exists_of_started again
  obtain ⟨same, shown⟩ := Prod.ext_iff.1 shown
  have steady : s.tree.Steady s.store.path :=
    FileTree.steady_of_find (of_decide_eq_true vacant) (by simp)
  have ended : ((Client.run { session := s } (tagAndLose.take 1)).step
      (.addTag "a.mp4" " x ")).1 = .ok () := by
    obtain ⟨_, ended⟩ := exists_of_isOk saved
    exact ended
  have first : Reached s (Client.run { session := s } (tagAndLose.take 1)) [] :=
    Reached.start.plain (scanOf ["a.mp4", "b.mp4"]) rfl (by simp [scanOf])
  have lost : Reached s (Client.run { session := s } tagAndLose) [⟨"a.mp4", " x ", true⟩] :=
    ((first.edit (.addTag "a.mp4" " x ") rfl ended).plain (scanOf ["b.mp4"]) rfl
      (by simp [scanOf])).plain .shutdown rfl (by simp)
  have last : Reached s (Client.run { session := s' } [scanOf ["b.mp4", "a.mp4"]])
      [⟨"a.mp4", " x ", true⟩] :=
    (lost.restart restarted (eq_of_beq same)
      (fun _ => steady)
      (fun none_saves => absurd (none_saves _ (List.mem_singleton_self _)) (by decide))).plain
        (scanOf ["b.mp4", "a.mp4"]) rfl (by simp [scanOf])
  exact ⟨s, log, s', log', started, restarted, shown,
    (tags_follow_edits started last).2 "a.mp4"⟩

end VideoCatalog
