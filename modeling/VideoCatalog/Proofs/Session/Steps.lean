import VideoCatalog.Proofs.Handles.Ownership
import VideoCatalog.Session.Library

/-!
# What the operations of a session do

One statement for each operation: how it ends and what it changes. What is only shown to the user
(the log, the reports, the reporter, the statistics) is left open.

* `Session.Shown`: two states differ in nothing else.
* `Session.Started`: what a session has when it has just been started; `exists_of_started` and
  `exists_of_checked` give what is computed from one.
* `SessionM.run_bind`, `SessionM.run_tryCatch`: operations one after another.
* `run_teardown`, `run_rebuild`, `run_enrich`, `run_scanDirectory`: scans and their parts.
* `run_editTags`, `run_openPlayback`, `run_closeStream`, `quiet_query`: the use of a catalog.
-/

namespace VideoCatalog

/-- A registry whose handles have all been taken out and closed. -/
def Registry.emptied (r : Registry) : Registry :=
  { r with registered := [], closings := r.closings ++ r.registered.map (·.id) }

namespace Session

/-- The items of the current catalog. -/
def current (s : Session) : List Item := (s.catalog.map (·.items)).getD []

/-- Nothing differs but what is shown: the log, the reporter, the reports, the commands and the
statistics. -/
structure Shown (s s' : Session) : Prop where
  config : s'.config = s.config
  around : s'.around = s.around
  tree : s'.tree = s.tree
  now : s'.now = s.now
  registry : s'.registry = s.registry
  store : s'.store = s.store
  extractor : s'.extractor = s.extractor
  workers : s'.workers = s.workers
  onProgress : s'.onProgress = s.onProgress
  catalog : s'.catalog = s.catalog

theorem Shown.refl (s : Session) : Shown s s := ⟨rfl, rfl, rfl, rfl, rfl, rfl, rfl, rfl, rfl, rfl⟩

theorem Shown.trans {a b c : Session} (ab : Shown a b) (bc : Shown b c) : Shown a c where
  config := bc.config.trans ab.config
  around := bc.around.trans ab.around
  tree := bc.tree.trans ab.tree
  now := bc.now.trans ab.now
  registry := bc.registry.trans ab.registry
  store := bc.store.trans ab.store
  extractor := bc.extractor.trans ab.extractor
  workers := bc.workers.trans ab.workers
  onProgress := bc.onProgress.trans ab.onProgress
  catalog := bc.catalog.trans ab.catalog

variable {config : Configuration} {around : Surroundings} {tree : FileTree} {source : FrameSource}
  {options : Options} {s : Session} {log : List Record}

/-- What a session has when it has just been started: the tags that its files hold, and neither
handles nor a catalog. -/
structure Started (config : Configuration) (around : Surroundings) (tree : FileTree)
    (source : FrameSource) (options : Options) (s : Session) : Prop where
  logs : ∃ logs, startLogs config around tree = .ok (s.tree, logs)
  store : ∃ path log, settingPath config around s.tree "tag_store" "data/tags.json" = .ok path ∧
    TagStore.load s.tree path = .ok (s.store, log)
  workers : workersOf (some config) options.workers = .ok s.workers
  backend : s.extractor.backend = (backendOf config source).1
  registry : s.registry = {}
  catalog : s.catalog = none
  config : s.config = config
  around : s.around = around

theorem started_of_start (ran : start config around tree source options = (.ok s, log)) :
    Started config around tree source options s := by
  unfold start at ran
  cases logged : startLogs config around tree with
  | error f => simp [logged] at ran
  | ok parts =>
    obtain ⟨grown, logs⟩ := parts
    simp only [logged] at ran
    cases named : settingPath config around grown "tag_store" "data/tags.json" with
    | error f => simp [named] at ran
    | ok path =>
      simp only [named] at ran
      cases loaded : TagStore.load grown path with
      | error f => simp [loaded] at ran
      | ok parts =>
        obtain ⟨store, storeLog⟩ := parts
        simp only [loaded] at ran
        have finished := congrArg Prod.fst ran
        unfold finishStart at finished
        dsimp only at finished
        split at finished
        · cases finished
        · split at finished
          · cases finished
          · split at finished
            · cases finished
            · next workers wanted =>
              cases made : ProgressReporter.make (config.setting "progress" "interval_seconds"
                  (.int 5)) (config.setting "progress" "enabled" (.bool true)).truthy with
              | error f =>
                rw [made] at finished
                cases finished
              | ok reporter =>
                rw [made] at finished
                cases finished
                exact ⟨⟨logs, logged⟩, ⟨path, storeLog, named, loaded⟩, wanted, rfl, rfl, rfl,
                  rfl, rfl⟩

/-- What is computed from a session that could be started. -/
theorem exists_of_started {ran : Except Failure Session × List Record} {β : Type} {f : Session → β}
    {b : β} (known : ran.1.toOption.map f = some b) : ∃ s log, ran = (.ok s, log) ∧ f s = b := by
  rcases ran with ⟨_ | s, log⟩
  · cases known
  · exact ⟨s, log, rfl, Option.some.inj known⟩

/-- What can be checked of a session that could be started. -/
theorem exists_of_checked {ran : Except Failure Session × List Record} {P : Session → Prop}
    [DecidablePred P] (known : ran.1.toOption.map (fun s => decide (P s)) = some true) :
    ∃ s log, ran = (.ok s, log) ∧ P s := by
  obtain ⟨s, log, started, holds⟩ := exists_of_started known
  exact ⟨s, log, started, of_decide_eq_true holds⟩

end Session

open Session

namespace SessionM

variable {α β : Type} {op : SessionM α} {next : α → SessionM β} {s s' : Session}

/-! ### Operations in general -/

theorem run_bind (op : SessionM α) (next : α → SessionM β) (s : Session) :
    (op >>= next).run s = match op.run s with
      | (.ok a, s') => (next a).run s'
      | (.error f, s') => (.error f, s') := by
  rcases ran : op.run s with ⟨result, s'⟩
  simp only [bind, ExceptT.bind, ExceptT.mk, StateT.bind, ExceptT.run] at ran ⊢
  rw [ran]
  cases result <;> rfl

theorem run_bind_of_ok {a : α} (ran : op.run s = (.ok a, s')) :
    (op >>= next).run s = (next a).run s' := by
  rw [run_bind, ran]

theorem run_bind_of_error {f : Failure} (ran : op.run s = (.error f, s')) :
    (op >>= next).run s = (.error f, s') := by
  rw [run_bind, ran]

/-- What ends well has begun well. -/
theorem run_of_bind_ok {b : β} (ran : (op >>= next).run s = (.ok b, s')) :
    ∃ a s₁, op.run s = (.ok a, s₁) ∧ (next a).run s₁ = (.ok b, s') := by
  rw [run_bind] at ran
  split at ran
  · next a s₁ first => exact ⟨a, s₁, first, ran⟩
  · cases ran

theorem run_tryCatch (op : SessionM α) (handle : Failure → SessionM α) (s : Session) :
    (tryCatch op handle).run s = match op.run s with
      | (.ok a, s') => (.ok a, s')
      | (.error f, s') => (handle f).run s' := by
  rcases ran : op.run s with ⟨result, s'⟩
  simp only [tryCatch, tryCatchThe, MonadExceptOf.tryCatch, ExceptT.tryCatch, bind, ExceptT.mk,
    StateT.bind, ExceptT.run] at ran ⊢
  rw [ran]
  cases result <;> rfl

theorem run_ofResult (result : Except Failure α) (s : Session) :
    (ofResult result).run s = (result, s) := by
  cases result <;> rfl

theorem run_note (records : List Record) (s : Session) :
    (note records).run s = (.ok (), { s with log := s.log ++ records }) := rfl

theorem run_get (s : Session) : (get : SessionM Session).run s = (.ok s, s) := rfl

theorem run_modify (g : Session → Session) (s : Session) :
    (modify g : SessionM Unit).run s = (.ok (), g s) := rfl

theorem run_items (s : Session) : items.run s = (.ok s.current, s) := rfl

/-- The operation changes nothing but what is shown. -/
def Quiet (op : SessionM α) : Prop := ∀ s, Shown s (op.run s).2

theorem quiet_bind (first : Quiet op) (rest : ∀ a, Quiet (next a)) : Quiet (op >>= next) := by
  intro s
  have shown := first s
  rw [run_bind]
  rcases ran : op.run s with ⟨_ | a, s₁⟩ <;> rw [ran] at shown
  · exact shown
  · exact shown.trans (rest a s₁)

theorem quiet_pure (a : α) : Quiet (pure a) := fun s => .refl s

theorem quiet_note (records : List Record) : Quiet (note records) :=
  fun _ => ⟨rfl, rfl, rfl, rfl, rfl, rfl, rfl, rfl, rfl, rfl⟩

theorem quiet_ofResult (result : Except Failure α) : Quiet (ofResult result) := by
  intro s
  rw [run_ofResult]
  exact .refl s

/-! ### Giving back handles -/

/-- A closing that raises ends everything. Otherwise the handles are gone, and no item has one any
more. -/
theorem run_teardown_cases (s : Session) :
    (∃ f s', s.registry.releaseAll.result = .error f ∧ teardown.run s = (.error f, s')) ∨
    ∃ n log, s.registry.releaseAll.result = .ok n ∧ teardown.run s = (.ok (), { s with
      registry := s.registry.releaseAll.registry
      catalog := s.catalog.map fun c => c.mapItems fun item => { item with content := none }
      log := log }) := by
  unfold teardown
  rw [run_bind_of_ok (run_get s), run_bind_of_ok (run_modify _ s), run_bind_of_ok (run_note _ _)]
  cases released : s.registry.releaseAll.result with
  | error f => exact .inl ⟨f, _, rfl, run_bind_of_error (run_ofResult _ _)⟩
  | ok n =>
    rw [run_bind_of_ok (run_ofResult _ _), run_bind_of_ok (run_modify _ _)]
    split <;> exact .inr ⟨n, _, rfl, rfl⟩

/-- All handles are closed, and no item has one any more. -/
theorem run_teardown (mild : ∀ h ∈ s.registry.registered, h.Mild) :
    ∃ s', teardown.run s = (.ok (), s') ∧ Shown { s with
      registry := s.registry.emptied
      catalog := s.catalog.map fun c => c.mapItems fun item => { item with content := none } }
      s' := by
  obtain ⟨result, registry⟩ := Registry.releaseAll_of_mild mild
  rcases run_teardown_cases s with ⟨f, s', failed, -⟩ | ⟨n, log, -, ran⟩
  · rw [result] at failed
    cases failed
  · exact ⟨_, ran, ⟨rfl, rfl, rfl, rfl, registry, rfl, rfl, rfl, rfl, rfl⟩⟩

/-- So it is after a shutdown, and the catalog is forgotten. -/
theorem run_shutdown (mild : ∀ h ∈ s.registry.registered, h.Mild) :
    ∃ s', shutdown.run s = (.ok (), s') ∧
      Shown { s with registry := s.registry.emptied, catalog := none } s' := by
  obtain ⟨s₁, ran, shown⟩ := run_teardown mild
  refine ⟨{ s₁ with catalog := none }, ?_, { shown with catalog := rfl }⟩
  unfold shutdown
  rw [run_bind_of_ok ran, run_modify]

/-! ### Scans -/

/-- An enumeration that fails ends everything before a handle is given back. Its records are all that
is left of it. -/
theorem run_rebuild_of_failure {enumerate : FileTree → Enumeration} {f : Failure}
    (found : (enumerate s.tree).result = .error f) : (rebuild enumerate).run s =
      (.error f, { s with log := s.log ++ (enumerate s.tree).log }) := by
  unfold rebuild
  rw [run_bind_of_ok (run_get s), run_bind_of_ok (run_note _ s), found,
    run_bind_of_error (run_ofResult _ _)]

/-- A catalog is built of what is enumerated, after all handles have been given back. If nothing can
be enumerated, nothing changes. -/
theorem run_rebuild (mild : ∀ h ∈ s.registry.registered, h.Mild)
    (enumerate : FileTree → Enumeration) :
    (∃ f s', (enumerate s.tree).result = .error f ∧ (rebuild enumerate).run s = (.error f, s') ∧
      Shown s s') ∨
    ∃ descriptors s', (enumerate s.tree).result = .ok descriptors ∧
      (rebuild enumerate).run s = (.ok (), s') ∧ Shown { s with
        registry :=
          (Catalog.buildItems s.registry.emptied s.store.tagsFor descriptors).registry
        catalog :=
          some ⟨(Catalog.buildItems s.registry.emptied s.store.tagsFor descriptors).items⟩ }
        s' := by
  cases found : (enumerate s.tree).result with
  | error f => exact .inl ⟨f, _, rfl, run_rebuild_of_failure found, quiet_note _ s⟩
  | ok descriptors =>
    unfold rebuild
    rw [run_bind_of_ok (run_get s), run_bind_of_ok (run_note _ s), found]
    obtain ⟨s₁, torn, shown⟩ :=
      run_teardown (s := { s with log := s.log ++ (enumerate s.tree).log }) mild
    rw [run_bind_of_ok (run_ofResult _ _), run_bind_of_ok torn, run_bind_of_ok (run_get _)]
    have built : Catalog.build s₁.registry (some s₁.store) descriptors =
        (Catalog.buildItems s.registry.emptied s.store.tagsFor descriptors,
          ⟨(Catalog.buildItems s.registry.emptied s.store.tagsFor descriptors).items⟩) := by
      rw [shown.registry, shown.store]
      rfl
    rw [built]
    refine .inr ⟨descriptors, _, rfl, rfl, ?_⟩
    exact { shown with registry := rfl, catalog := rfl }

/-- The end of the pass over the current catalog. -/
def passEnd (s : Session) (order : Nat → Nat → List Nat) : PassEnd :=
  runPass s.extractor s.workers s.onProgress .zero s.registry s.current order

theorem quiet_keepStats (result : Except Failure PassStats) : Quiet (keepStats result) := by
  cases result with
  | ok stats => exact fun _ => ⟨rfl, rfl, rfl, rfl, rfl, rfl, rfl, rfl, rfl, rfl⟩
  | error f => exact fun s => .refl s

theorem quiet_stopReporter : Quiet stopReporter := by
  refine quiet_bind (fun s => .refl s) fun s => quiet_bind ?_ fun _ =>
    quiet_bind (quiet_ofResult _) fun _ => quiet_note _
  exact fun _ => ⟨rfl, rfl, rfl, rfl, rfl, rfl, rfl, rfl, rfl, rfl⟩

/-- The registry and the items of a pass are in place before anything is made of how it ended. -/
theorem run_enrich_passed (s : Session) (order : Nat → Nat → List Nat) :
    ∃ s', (enrich order).run s = (do
        keepStats (passEnd s order).result
        stopReporter
        let _ ← ofResult (passEnd s order).result : SessionM Unit).run s' ∧
      Shown { s with
        registry := (passEnd s order).registry, catalog := some ⟨(passEnd s order).items⟩ } s' ∧
      s'.stats = s.stats := by
  unfold enrich
  rw [run_bind_of_ok (run_get s), run_bind_of_ok (run_items s)]
  dsimp only
  rw [show runPass s.extractor s.workers s.onProgress .zero s.registry s.current order =
    passEnd s order from rfl]
  rw [run_bind_of_ok (run_modify _ s), run_bind_of_ok (run_note _ _)]
  exact ⟨_, rfl, ⟨rfl, rfl, rfl, rfl, rfl, rfl, rfl, rfl, rfl, rfl⟩, rfl⟩

/-- A pass leaves its registry and its items, and only a pass that ends well lets the enrichment
end well. -/
theorem run_enrich (s : Session) (order : Nat → Nat → List Nat) :
    ∃ result s', (enrich order).run s = (result, s') ∧
      Shown { s with
        registry := (passEnd s order).registry, catalog := some ⟨(passEnd s order).items⟩ } s' ∧
      (result = .ok () → ∃ stats, (passEnd s order).result = .ok stats) := by
  obtain ⟨s₁, ran, shown, -⟩ := run_enrich_passed s order
  rw [ran]
  refine ⟨_, _, rfl, ?_, fun ended => ?_⟩
  · exact shown.trans (quiet_bind (quiet_keepStats _) (fun _ => quiet_bind quiet_stopReporter
      fun _ => quiet_bind (quiet_ofResult _) fun _ => quiet_pure ()) _)
  · obtain ⟨_, _, -, rest⟩ := run_of_bind_ok (Prod.ext ended rfl)
    obtain ⟨_, _, -, rest⟩ := run_of_bind_ok rest
    obtain ⟨stats, _, last, -⟩ := run_of_bind_ok rest
    rw [run_ofResult] at last
    exact ⟨stats, congrArg Prod.fst last⟩

/-- What is noted before a selection of files is scanned instead of a directory. -/
def directoryFailed (f : Failure) : Record :=
  .warning ("Directory scan failed (" ++ f.report ++ "); using file selection instead.")

section
variable {root : Path} {files : List Path} {order fallbackOrder : Nat → Nat → List Nat} {f : Failure}

/-- If the root cannot be enumerated, the fallback is scanned. -/
theorem run_scanDirectory_of_root
    (ran : (scan (directory s.config root) order).run s = (.error f, s')) (isRoot : f.isRoot = true) :
    (scanDirectory root (some files) order fallbackOrder).run s =
      (scan (selection s.config root files) fallbackOrder).run
        { s' with log := s'.log ++ [directoryFailed f] } := by
  unfold scanDirectory
  rw [run_bind_of_ok (run_get s)]
  dsimp only
  rw [run_tryCatch, ran]
  dsimp only
  rw [if_pos isRoot]
  exact run_bind_of_ok (run_note _ s')

/-- However else the scan of the directory ends, it is the only one; and so it is if there is no
fallback. -/
theorem run_scanDirectory_of_other {fallback : Option (List Path)} (other : fallback = none ∨
      ∀ f, ((scan (directory s.config root) order).run s).1 = .error f → f.isRoot = false) :
    (scanDirectory root fallback order fallbackOrder).run s =
      (scan (directory s.config root) order).run s := by
  unfold scanDirectory
  rw [run_bind_of_ok (run_get s)]
  dsimp only
  rw [run_tryCatch]
  rcases ran : (scan (directory s.config root) order).run s with ⟨f | _, s'⟩
  · dsimp only
    cases fallback with
    | none => rfl
    | some files =>
      have passedOn : f.isRoot = false := by
        rcases other with none | other
        · cases none
        · exact other f (by rw [ran])
      dsimp only
      rw [if_neg (by simp [passedOn])]
      rfl
  · rfl

end

/-- The files that are scanned instead, and the state from which, if a scan has failed because its
directory cannot be enumerated. -/
def retried (ran : Except Failure Unit × Session) (fallback : Option (List Path)) :
    Option (List Path × Session) :=
  match ran, fallback with
  | (.error f, s), some files => if f.isRoot then some (files, s) else none
  | _, _ => none

/-- A scan of a directory is a scan of what it holds, and then perhaps one of the fallback. -/
theorem run_scanDirectory (root : Path) (fallback : Option (List Path))
    (order fallbackOrder : Nat → Nat → List Nat) (s : Session) :
    let ran := (scan (directory s.config root) order).run s
    (retried ran fallback = none ∧
      (scanDirectory root fallback order fallbackOrder).run s = ran) ∨
    ∃ files s₁ s₂, retried ran fallback = some (files, s₁) ∧ s₁ = ran.2 ∧ Shown s₁ s₂ ∧
      (scanDirectory root fallback order fallbackOrder).run s =
        (scan (selection s.config root files) fallbackOrder).run s₂ := by
  intro ran
  rcases same : ran with ⟨result, s₁⟩
  have first : (scan (directory s.config root) order).run s = (result, s₁) := same
  have alone (other : fallback = none ∨ ∀ f, result = .error f → f.isRoot = false) :
      (scanDirectory root fallback order fallbackOrder).run s = (result, s₁) := by
    rw [run_scanDirectory_of_other (by rwa [first]), first]
  cases result with
  | ok _ => exact .inl ⟨rfl, alone (.inr fun _ => nofun)⟩
  | error f =>
    cases fallback with
    | none => exact .inl ⟨rfl, alone (.inl rfl)⟩
    | some files =>
      dsimp only [retried]
      by_cases isRoot : f.isRoot = true
      · rw [if_pos isRoot]
        exact .inr ⟨files, s₁, _, rfl, rfl, quiet_note _ s₁, run_scanDirectory_of_root first isRoot⟩
      · rw [if_neg isRoot]
        exact .inl ⟨rfl, alone (.inr fun g same => Except.error.inj same ▸ by simpa using isRoot)⟩

/-! ### Using the catalog -/

theorem quiet_query (text : String) (order : Query.Order) : Quiet (query text order) := by
  refine quiet_bind (fun s => .refl s) fun s => ?_
  split
  · exact quiet_pure _
  · exact quiet_ofResult _

/-- An item is only found in a catalog that is there. -/
theorem run_requireItem (path : String) (s : Session) :
    (∃ f, (requireItem path).run s = (.error f, s)) ∨
      ∃ catalog item, s.catalog = some catalog ∧ catalog.get? path = some item ∧
        (requireItem path).run s = (.ok item, s) := by
  unfold requireItem
  rw [run_bind_of_ok (run_get s)]
  cases held : s.catalog with
  | none => exact .inl ⟨_, rfl⟩
  | some catalog =>
    dsimp only
    rw [run_ofResult, Catalog.require]
    cases found : catalog.get? path with
    | none => exact .inl ⟨_, rfl⟩
    | some item => exact .inr ⟨catalog, item, rfl, found, rfl⟩

section

variable (edit : (SaveStep → Option Failure) → Binary64 → FileTree → TagStore → Item → String →
  TagEdit) (path tag : String)

/-- What is edited is taken over, also if it cannot be saved. -/
theorem run_editTags_of_found {catalog : Catalog} {item : Item}
    (held : s.catalog = some catalog) (found : catalog.get? path = some item) :
    let edited := edit (fun _ => none) s.now s.tree s.store item tag
    (editTags edit path tag).run s = (edited.result.map fun _ => edited.item, { s with
      tree := edited.tree, store := edited.store
      catalog := some (catalog.update edited.item) }) := by
  intro edited
  have there : (requireItem path).run s = (.ok item, s) := by
    rw [requireItem, run_bind_of_ok (run_get s), held]
    dsimp only
    rw [run_ofResult, Catalog.require, found]
  rw [editTags, run_bind_of_ok there, run_bind_of_ok (run_get s), absorbEdit,
    run_bind_of_ok (run_modify _ s), run_bind, run_ofResult, held]
  cases edited.result <;> rfl

/-- Without such an item nothing is tried. -/
theorem run_editTags (s : Session) :
    (∃ f, (editTags edit path tag).run s = (.error f, s)) ∨
      ∃ catalog item, s.catalog = some catalog ∧ catalog.get? path = some item ∧
        let edited := edit (fun _ => none) s.now s.tree s.store item tag
        (editTags edit path tag).run s = (edited.result.map fun _ => edited.item, { s with
          tree := edited.tree, store := edited.store
          catalog := some (catalog.update edited.item) }) := by
  rcases run_requireItem path s with ⟨f, ran⟩ | ⟨catalog, item, held, found, -⟩
  · exact .inl ⟨f, run_bind_of_error ran⟩
  · exact .inr ⟨catalog, item, held, found, run_editTags_of_found edit path tag held found⟩

/-- An edit takes and gives back no handle. -/
theorem registry_editTags (s : Session) :
    ((editTags edit path tag).run s).2.registry = s.registry := by
  rcases run_editTags edit path tag s with ⟨f, ran⟩ | ⟨catalog, item, -, -, ran⟩ <;> rw [ran]

end

/-- A stream that is opened has a new handle. -/
theorem run_openPlayback (path : String) (s : Session) :
    (∃ f, (openPlayback path).run s = (.error f, s)) ∨
      ∃ stream, stream.handle = s.registry.issued + 1 ∧ stream.detached = false ∧
        (openPlayback path).run s = (.ok stream, { s with
          registry := (s.registry.acquire Registry.playbackKind none).2 }) := by
  unfold openPlayback
  rcases run_requireItem path s with ⟨f, ran⟩ | ⟨catalog, item, held, found, ran⟩
  · exact .inl ⟨f, run_bind_of_error ran⟩
  · rw [run_bind_of_ok ran, run_bind_of_ok (run_get s), run_bind, run_ofResult,
      PlaybackStream.start]
    cases s.tree.read item.source with
    | error f => exact .inl ⟨f, rfl⟩
    | ok content => exact .inr ⟨_, rfl, rfl, rfl⟩

/-- A stream that is closed gives its handle back. -/
theorem run_closeStream (stream : PlaybackStream) (s : Session) :
    ∃ s', (closeStream stream).run s = ((stream.close s.registry).result, s') ∧
      Shown { s with registry := (stream.close s.registry).registry } s' := by
  unfold closeStream
  rw [run_bind_of_ok (run_get s), run_bind_of_ok (run_modify _ s), run_bind_of_ok (run_note _ _),
    run_ofResult]
  exact ⟨_, rfl, ⟨rfl, rfl, rfl, rfl, rfl, rfl, rfl, rfl, rfl, rfl⟩⟩

end SessionM

end VideoCatalog
