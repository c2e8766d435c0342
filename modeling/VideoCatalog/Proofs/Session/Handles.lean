import VideoCatalog.Proofs.Catalog.Building
import VideoCatalog.Proofs.Session.Calls

/-!
# The handles of a session

Every handle that a session holds is that of a stream in use, or that of an item which an aborted
pass has not reached.

* `Session.Sane`: what every operation can rely on.
* `scan_cases`: a scan fails without a trace, or a pass runs over a catalog that was built anew.
* `Client.Plays`, `Client.Unclaimed`: the two kinds of handles that may be left.
* `Client.Kept`: the invariant; `Kept.step` is one call.
* `handles_accounted_for`: the main statement.
-/

namespace VideoCatalog

open Session SessionM

/-! ### Scans -/

/-- Handles and resources are apart, closing raises nothing but refusals of the system, there are
workers, and no two items share a path. -/
structure Session.Sane (s : Session) : Prop where
  sound : s.registry.Sound
  mild : ∀ h ∈ s.registry.registered, h.Mild
  closing : s.extractor.backend.Mild
  wanted : ∃ W : Nat, 1 ≤ W ∧ s.workers.quantity? = some (.whole W)
  distinct : (s.current.map (·.relativePath)).Nodup

variable {s s' : Session} {enumerate : FileTree → Enumeration} {order : Nat → Nat → List Nat}

theorem Session.Shown.current (shown : Shown s s') : s'.current = s.current := by
  rw [Session.current, shown.catalog]
  rfl

theorem Session.Shown.sane (shown : Shown s s') (sane : s.Sane) : s'.Sane where
  sound := shown.registry ▸ sane.sound
  mild := shown.registry ▸ sane.mild
  closing := shown.extractor ▸ sane.closing
  wanted := shown.workers ▸ sane.wanted
  distinct := shown.current ▸ sane.distinct

/-- The pass over a catalog that is built when all handles have been given back. -/
def freshPass (s : Session) (descriptors : List Descriptor) (order : Nat → Nat → List Nat) :
    PassRun :=
  let built := Catalog.buildItems s.registry.emptied s.store.tagsFor descriptors
  ⟨s.extractor, s.workers, s.onProgress, built.registry, built.items, order⟩

theorem Registry.Sound.emptied {r : Registry} (sound : r.Sound)
    (mild : ∀ h ∈ r.registered, h.Mild) :
    r.emptied.Sound := by
  have released := sound.releaseAll
  rw [(Registry.releaseAll_of_mild mild).2] at released
  exact released

theorem ready_freshPass (sane : s.Sane) (descriptors : List Descriptor)
    (fair : PassRun.Fair order) : (freshPass s descriptors order).Ready where
  leased := leased_buildItems (sane.sound.emptied sane.mild) (by simp [Registry.emptied]) _ _
  closing := sane.closing
  wanted := sane.wanted
  fair := fair

/-- Nothing but leases on content is out when a pass begins. -/
theorem leases_freshPass (s : Session) (descriptors : List Descriptor) :
    ∀ h ∈ (freshPass s descriptors order).registry.registered,
      h.kind = Registry.contentKind ∧ h.Mild := by
  intro h mem
  exact (Catalog.fresh_buildItems.1 h mem).resolve_left (by simp [Registry.emptied])

theorem passOf_eq (mild : ∀ h ∈ s.registry.registered, h.Mild)
    (enumerate : FileTree → Enumeration) (order : Nat → Nat → List Nat) :
    Client.passOf s enumerate order = match (enumerate s.tree).result with
      | .error _ => none
      | .ok descriptors => some (freshPass s descriptors order) := by
  rcases run_rebuild mild enumerate with ⟨f, s', found, ran, -⟩ | ⟨ds, s', found, ran, shown⟩
  · simp only [Client.passOf, ran, found]
  · simp only [Client.passOf, ran, found]
    rw [shown.extractor, shown.workers, shown.onProgress, shown.registry, shown.current]
    rfl

/-- What is shown to the user makes no difference for a pass. -/
theorem passOf_shown (mild : ∀ h ∈ s.registry.registered, h.Mild) (shown : Shown s s') :
    Client.passOf s' enumerate order = Client.passOf s enumerate order := by
  rw [passOf_eq mild, passOf_eq (shown.registry ▸ mild), shown.tree]
  split
  · rfl
  · simp only [freshPass, shown.extractor, shown.workers, shown.onProgress, shown.registry,
      shown.store]

/-- A scan that finds nothing to enumerate leaves no trace. Any other runs a pass over a catalog
that was built anew, and ends well only if the pass does. -/
theorem scan_cases (mild : ∀ h ∈ s.registry.registered, h.Mild)
    (enumerate : FileTree → Enumeration) (order : Nat → Nat → List Nat) :
    (∃ f s', (scan enumerate order).run s = (.error f, s') ∧
      Client.passOf s enumerate order = none ∧ Shown s s') ∨
    ∃ descriptors result s', (scan enumerate order).run s = (result, s') ∧
      (enumerate s.tree).result = .ok descriptors ∧
      Client.passOf s enumerate order = some (freshPass s descriptors order) ∧
      Shown { s with
        registry := (freshPass s descriptors order).ending.registry
        catalog := some ⟨(freshPass s descriptors order).ending.items⟩ } s' ∧
      (result = .ok () → ∃ stats, (freshPass s descriptors order).ending.result = .ok stats) := by
  have pass := passOf_eq mild enumerate order
  rcases run_rebuild mild enumerate with ⟨f, s₁, found, ran, shown⟩ | ⟨ds, s₁, found, ran, shown⟩
  · rw [found] at pass
    exact .inl ⟨f, s₁, run_bind_of_error ran, pass, shown⟩
  · rw [found] at pass
    obtain ⟨result, s₂, enriched, shown', ended⟩ := run_enrich s₁ order
    have same : passEnd s₁ order = (freshPass s ds order).ending := by
      rw [passEnd, shown.extractor, shown.workers, shown.onProgress, shown.registry, shown.current]
      rfl
    rw [same] at shown' ended
    refine .inr ⟨ds, result, s₂, (run_bind_of_ok ran).trans enriched, found, pass, ?_, ended⟩
    refine Shown.trans ?_ shown'
    exact { shown with registry := rfl, catalog := rfl }

/-- What an aborted pass leaves is sane, too. -/
theorem Session.Sane.after_pass (sane : s.Sane) {descriptors : List Descriptor}
    (fair : PassRun.Fair order) : Session.Sane { s with
      registry := (freshPass s descriptors order).ending.registry
      catalog := some ⟨(freshPass s descriptors order).ending.items⟩ } := by
  have after := (ready_freshPass sane descriptors fair).aftermath
  refine ⟨after.sound, fun h mem => ?_, sane.closing, sane.wanted, ?_⟩
  · exact (leases_freshPass s descriptors h (after.kept h mem)).2
  · have paths : (freshPass s descriptors order).ending.items.map (·.relativePath) =
        (freshPass s descriptors order).items.map (·.relativePath) := by
      have described := congrArg (List.map Item.relativePath) after.described
      rw [List.map_map, List.map_map] at described
      exact described
    change ((freshPass s descriptors order).ending.items.map (·.relativePath)).Nodup
    rw [paths]
    exact Catalog.nodup_buildItems

theorem Session.Sane.scan (sane : s.Sane) (enumerate : FileTree → Enumeration)
    (fair : PassRun.Fair order) :
    ((scan enumerate order).run s).2.Sane := by
  rcases scan_cases sane.mild enumerate order with ⟨f, s', ran, -, shown⟩ |
    ⟨ds, result, s', ran, -, -, shown, -⟩
  · rw [ran]
    exact shown.sane sane
  · rw [ran]
    exact shown.sane (sane.after_pass fair)

/-- A scan that ends well leaves no handle. -/
theorem emptied_of_scan (sane : s.Sane) (fair : PassRun.Fair order)
    (ended : ((scan enumerate order).run s).1 = .ok ()) :
    ((scan enumerate order).run s).2.registry.registered = [] := by
  rcases scan_cases sane.mild enumerate order with ⟨f, s', ran, -⟩ |
    ⟨ds, result, s', ran, -, -, shown, well⟩
  · rw [ran] at ended
    cases ended
  · rw [ran] at ended ⊢
    obtain ⟨stats, done⟩ := well ended
    have after := (ready_freshPass sane ds fair).aftermath
    refine List.eq_nil_iff_forall_not_mem.2 fun h mem => ?_
    rw [shown.registry] at mem
    have kind := (leases_freshPass s ds h (after.kept h mem)).1
    obtain ⟨⟨f, k, -, failed⟩, -⟩ := after.unclaimed h mem kind
    rw [done] at failed
    cases failed

/-- A scan forgets no closing. -/
theorem closings_scan (sane : s.Sane) (enumerate : FileTree → Enumeration)
    (fair : PassRun.Fair order) :
    s.registry.closings ⊆ ((scan enumerate order).run s).2.registry.closings := by
  rcases scan_cases sane.mild enumerate order with ⟨f, s', ran, -, shown⟩ |
    ⟨ds, result, s', ran, -, -, shown, -⟩
  · rw [ran, shown.registry]
    exact List.Subset.refl _
  · rw [ran, shown.registry]
    have after := (ready_freshPass sane ds fair).aftermath.closings
    rw [show (freshPass s ds order).registry.closings = s.registry.emptied.closings from
      Catalog.fresh_buildItems.2] at after
    exact List.Subset.trans (List.subset_append_left _ _) after

theorem closings_scanDirectory (sane : s.Sane) (root : Path) (fallback : Option (List Path))
    {fallbackOrder : Nat → Nat → List Nat} (fair : PassRun.Fair order)
    (fallbackFair : PassRun.Fair fallbackOrder) :
    s.registry.closings ⊆
      ((scanDirectory root fallback order fallbackOrder).run s).2.registry.closings := by
  have first := closings_scan sane (directory s.config root) fair
  rcases run_scanDirectory root fallback order fallbackOrder s with ⟨-, ran⟩ |
    ⟨files, s₁, s₂, -, rfl, shown, ran⟩
  · rw [ran]
    exact first
  · rw [ran]
    have second := closings_scan (shown.sane (sane.scan _ fair))
      (selection s.config root files) fallbackFair
    rw [shown.registry] at second
    exact List.Subset.trans first second

/-! ### The invariant -/

namespace Client

variable {c : Client} {h : Handle}

/-- The handle is that of a stream opened since all handles were last given back, and the stream is
open. -/
def Plays (c : Client) (h : Handle) : Prop :=
  h.kind = Registry.playbackKind ∧ h.id ∈ c.recent ∧
    ∃ stream ∈ c.streams, stream.handle = h.id ∧ stream.closed c.session.registry = false

/-- The handle is that of the content of an item in the current catalog which the last pass never
claimed, and that pass was ended by its callback. -/
def Unclaimed (c : Client) (h : Handle) : Prop :=
  h.kind = Registry.contentKind ∧ ∃ pass, c.pass = some pass ∧ pass.Aborted ∧
    ∃ k item, k ∉ pass.claimed ∧ c.session.current[k]? = some item ∧ item.content = some h.id ∧
      pass.items[k]?.map (·.relativePath) = some item.relativePath

/-- Every handle is accounted for, and every stream that has no handle any more is closed. -/
structure Kept (c : Client) : Prop where
  sane : c.session.Sane
  owned : ∀ h ∈ c.session.registry.registered, c.Plays h ∨ c.Unclaimed h
  streamed : ∀ stream ∈ c.streams, stream.handle ∈ c.session.registry.closings ∨
    ∃ h ∈ c.session.registry.registered, h.id = stream.handle

/-- A stream whose handle is registered is open unless the handle was given back through it. -/
theorem closed_of_registered {r : Registry} (sound : r.Sound) (mem : h ∈ r.registered)
    {stream : PlaybackStream} (same : stream.handle = h.id) :
    stream.closed r = stream.detached := by
  have absent : r.isClosed stream.handle = false := by
    rw [same]
    simpa [Registry.isClosed] using sound.not_closed h mem
  simp [PlaybackStream.closed, absent]

/-- When no handle is left, all streams are closed. -/
theorem Kept.closed_of_empty (kept : Kept c) (empty : c.session.registry.registered = []) :
    ∀ stream ∈ c.streams, stream.closed c.session.registry = true := by
  intro stream mem
  rcases kept.streamed stream mem with gone | ⟨h, registered, -⟩
  · simp [PlaybackStream.closed, Registry.isClosed, gone]
  · rw [empty] at registered
    exact absurd registered List.not_mem_nil

/-- What is only shown makes no difference, nor do the files and the ways of the backend. -/
theorem Kept.congr (kept : Kept c) (sane : s.Sane) (registry : s.registry = c.session.registry)
    (current : s.current = c.session.current) : Kept { c with session := s } where
  sane := sane
  owned h mem := by
    rw [show ({ c with session := s } : Client).session.registry.registered =
      c.session.registry.registered from congrArg _ registry] at mem
    rcases kept.owned h mem with ⟨kind, recent, stream, among, same, hopen⟩ |
      ⟨kind, pass, last, aborted, k, item, out, hat, held⟩
    · exact .inl ⟨kind, recent, stream, among, same, by rw [← hopen, registry]⟩
    · exact .inr ⟨kind, pass, last, aborted, k, item, out, by rw [← hat, current], held⟩
  streamed := by
    rw [registry]
    exact kept.streamed

theorem Kept.shown (kept : Kept c) (shown : Shown c.session s) : Kept { c with session := s } :=
  kept.congr (shown.sane kept.sane) shown.registry shown.current

/-- After all handles have been given back, all streams are closed. -/
theorem Kept.emptied (kept : Kept c) (sane : s.Sane)
    (registry : s.registry = c.session.registry.emptied) :
    Kept { c with session := s, recent := [] } where
  sane := sane
  owned h mem := by
    rw [show ({ c with session := s, recent := [] } : Client).session.registry.registered = [] from
      congrArg Registry.registered registry] at mem
    exact absurd mem List.not_mem_nil
  streamed stream mem := by
    rw [registry]
    refine .inl ?_
    rcases kept.streamed stream mem with gone | ⟨h, registered, same⟩
    · exact List.mem_append_left _ gone
    · exact List.mem_append_right _ (List.mem_map.2 ⟨h, registered, same⟩)

/-! ### Calls -/

/-- A scan, with the pass that it runs. -/
theorem Kept.scan (kept : Kept c) (enumerate : FileTree → Enumeration)
    (fair : PassRun.Fair order) :
    Kept (c.scanned ((SessionM.scan enumerate order).run c.session).2
      (passOf c.session enumerate order)) := by
  have sane := kept.sane.scan enumerate fair
  rcases scan_cases kept.sane.mild enumerate order with ⟨f, s', ran, pass, shown⟩ |
    ⟨ds, result, s', ran, -, pass, shown, -⟩
  · rw [ran, pass]
    exact kept.shown shown
  · rw [ran] at sane
    rw [ran, pass]
    have after := (ready_freshPass kept.sane ds fair).aftermath
    refine ⟨sane, fun h mem => ?_, fun stream mem => ?_⟩
    · rw [show (c.scanned s' (some (freshPass c.session ds order))).session.registry =
        (freshPass c.session ds order).ending.registry from shown.registry] at mem
      have kind := (leases_freshPass c.session ds h (after.kept h mem)).1
      obtain ⟨aborted, k, item, out, hat, held⟩ := after.unclaimed h mem kind
      refine .inr ⟨kind, _, rfl, aborted, k, item, out, shown.current ▸ hat, held, ?_⟩
      have described := congrArg (·[k]?) after.described
      simp only [List.getElem?_map, hat, Option.map_some] at described
      obtain ⟨old, there, same⟩ := Option.map_eq_some_iff.1 described.symm
      rw [there, Option.map_some, (Item.label_of_described same).1]
    · rw [show (c.scanned s' (some (freshPass c.session ds order))).session.registry =
        (freshPass c.session ds order).ending.registry from shown.registry]
      refine .inl (after.closings ?_)
      rw [show (freshPass c.session ds order).registry.closings =
        c.session.registry.emptied.closings from Catalog.fresh_buildItems.2]
      rcases kept.streamed stream mem with gone | ⟨h, registered, same⟩
      · exact List.mem_append_left _ gone
      · exact List.mem_append_right _ (List.mem_map.2 ⟨h, registered, same⟩)

/-- A scan of a directory, which may be followed by one of the fallback. -/
theorem Kept.scanDirectory (kept : Kept c) (root : Path) (fallback : Option (List Path))
    {order fallbackOrder : Nat → Nat → List Nat} (fair : PassRun.Fair order)
    (fairly : PassRun.Fair fallbackOrder) :
    Kept (c.scanned
      ((SessionM.scanDirectory root fallback order fallbackOrder).run c.session).2
      (directoryPass c.session root fallback order fallbackOrder)) := by
  have first := kept.scan (directory c.session.config root) fair
  rcases run_scanDirectory root fallback order fallbackOrder c.session with ⟨once, ran⟩ |
    ⟨files, s₁, s₂, twice, rfl, shown, ran⟩
  · simp only [directoryPass, once, ran]
    exact first
  · simp only [directoryPass, twice, ran]
    obtain ⟨pass, hp⟩ : ∃ pass, pass = passOf c.session (directory c.session.config root) order :=
      ⟨_, rfl⟩
    rw [← hp] at first ⊢
    have mild := (kept.sane.scan (directory c.session.config root) fair).mild
    rw [← passOf_shown mild shown]
    -- The second scan is one by a client who has seen the first pass, if there was one.
    cases pass with
    | none =>
      have second := (first.shown shown).scan (selection c.session.config root files) fairly
      revert second
      cases passOf s₂ (selection c.session.config root files) fallbackOrder <;> exact id
    | some pass =>
      have second := (first.shown shown).scan (selection c.session.config root files) fairly
      revert second
      cases passOf s₂ (selection c.session.config root files) fallbackOrder <;> exact id

/-- Editing tags changes nothing of an item but its tags. -/
theorem Kept.editTags (kept : Kept c)
    {edit : (SaveStep → Option Failure) → Binary64 → FileTree → TagStore → Item → String → TagEdit}
    (edits : ∀ refuse now tree store item tag,
      ∃ tags, (edit refuse now tree store item tag).item = { item with tags := tags })
    (path tag : String) :
    Kept { c with session := ((SessionM.editTags edit path tag).run c.session).2 } := by
  rcases run_editTags edit path tag c.session with ⟨f, ran⟩ | ⟨catalog, item, held, found, ran⟩
  · rw [ran]
    exact kept
  · rw [ran]
    obtain ⟨tags, edited⟩ := edits (fun _ => none) c.session.now c.session.tree c.session.store
      item tag
    have current : c.session.current = catalog.items := by rw [Session.current, held]; rfl
    have distinct := kept.sane.distinct
    rw [current] at distinct
    rw [edited]
    have paths := Catalog.map_update { item with tags := tags } distinct found rfl
      Item.relativePath rfl
    refine ⟨⟨kept.sane.sound, kept.sane.mild, kept.sane.closing, kept.sane.wanted, ?_⟩,
      fun h mem => ?_, kept.streamed⟩
    · exact paths.symm ▸ distinct
    · rcases kept.owned h mem with plays | ⟨kind, pass, last, aborted, k, old, out, hat, rest⟩
      · exact .inl plays
      · refine .inr ⟨kind, pass, last, aborted, k, ?_⟩
        rw [current] at hat
        have place := Catalog.getElem?_update { item with tags := tags } distinct found
          rfl k
        by_cases here : catalog.items[k]? = some item
        · rw [if_pos here] at place
          obtain rfl : old = item := Option.some.inj (hat.symm.trans here)
          exact ⟨_, out, place, rest⟩
        · rw [if_neg here, hat] at place
          exact ⟨_, out, place, rest⟩

theorem edits_addTag (refuse : SaveStep → Option Failure) (now : Binary64) (tree : FileTree)
    (store : TagStore) (item : Item) (tag : String) :
    ∃ tags, (VideoCatalog.addTag refuse now tree store item tag).item =
      { item with tags := tags } := by
  unfold VideoCatalog.addTag
  dsimp only
  split
  · exact ⟨item.tags, rfl⟩
  · exact ⟨_, rfl⟩

theorem edits_removeTag (refuse : SaveStep → Option Failure) (now : Binary64) (tree : FileTree)
    (store : TagStore) (item : Item) (tag : String) :
    ∃ tags, (VideoCatalog.removeTag refuse now tree store item tag).item =
      { item with tags := tags } :=
  ⟨_, rfl⟩

/-- A stream that is opened gets a handle of its own. -/
theorem Kept.openPlayback (kept : Kept c) (path : String) :
    Kept (c.step (.openPlayback path)).2 := by
  unfold step
  rcases run_openPlayback path c.session with ⟨f, ran⟩ | ⟨stream, handle, attached, ran⟩
  · simp only [ran]
    exact kept
  · simp only [ran]
    have sane := kept.sane
    have sound := sane.sound.acquire Registry.playbackKind none
    refine ⟨⟨sound, fun h mem => ?_, sane.closing, sane.wanted, sane.distinct⟩, fun h mem => ?_,
      fun other mem => ?_⟩
    · rcases List.mem_append.1 mem with old | new
      · exact sane.mild h old
      · obtain rfl := List.mem_singleton.1 new
        exact fun f raised => by cases raised
    · rcases List.mem_append.1 mem with old | new
      · rcases kept.owned h old with ⟨kind, recent, other, among, same, hopen⟩ | unclaimed
        · exact .inl ⟨kind, List.mem_append_left _ recent, other, List.mem_append_left _ among,
            same, hopen⟩
        · exact .inr unclaimed
      · have here : stream.handle = h.id := by
          rw [List.mem_singleton.1 new]
          exact handle
        refine .inl ⟨by rw [List.mem_singleton.1 new], ?_, stream, ?_, here, ?_⟩
        · exact List.mem_append_right _ (List.mem_singleton.2 here.symm)
        · exact List.mem_append_right _ (List.mem_singleton.2 rfl)
        · exact (closed_of_registered sound mem here).trans attached
    · rcases List.mem_append.1 mem with old | new
      · rcases kept.streamed other old with gone | ⟨h, registered, same⟩
        · exact .inl gone
        · exact .inr ⟨h, List.mem_append_left _ registered, same⟩
      · refine .inr ⟨_, List.mem_append_right _ (List.mem_singleton.2 rfl), ?_⟩
        rw [List.mem_singleton.1 new, handle]

/-- What a client keeps when the handle of a stream has been released: whatever becomes of the
stream itself, the others are as they were. -/
theorem Kept.released (kept : Kept c) {stream : PlaybackStream} {s' : Session}
    (shown : Session.Shown
      { c.session with registry := (c.session.registry.release stream.handle).registry } s')
    {streams : List PlaybackStream}
    (kept_streams : ∀ other ∈ c.streams, other.handle ≠ stream.handle → other ∈ streams)
    (old : ∀ other ∈ streams, ∃ before ∈ c.streams, before.handle = other.handle) :
    Kept { c with session := s', streams := streams } := by
  have sane := kept.sane
  have spent := Registry.spent_release c.session.registry stream.handle
  have sound := sane.sound.release stream.handle
  have registry : ({ c with session := s', streams := streams } : Client).session.registry =
      (c.session.registry.release stream.handle).registry := shown.registry
  refine ⟨?_, fun h mem => ?_, fun other mem => ?_⟩
  · refine shown.sane ⟨sound, fun h mem => ?_, sane.closing, sane.wanted, sane.distinct⟩
    exact sane.mild h (spent.registered mem)
  · rw [registry] at mem
    have out := Registry.out_of_release c.session.registry stream.handle h mem
    rcases kept.owned h (spent.registered mem) with
      ⟨kind, recent, other, among, same, hopen⟩ | ⟨kind, pass, last, aborted, j, item, rest⟩
    · have still : other.closed s'.registry = false := by
        rw [shown.registry, closed_of_registered sound mem same]
        rw [closed_of_registered sane.sound (spent.registered mem) same] at hopen
        exact hopen
      exact .inl ⟨kind, recent, other,
        kept_streams other among (fun own => out (same.symm.trans own)), same, still⟩
    · refine .inr ⟨kind, pass, last, aborted, j, item, ?_⟩
      rw [show ({ c with session := s', streams := streams } : Client).session.current =
        c.session.current from shown.current]
      exact rest
  · rw [registry]
    obtain ⟨before, among, same⟩ := old other mem
    rcases kept.streamed before among with gone | ⟨h, registered, mine⟩
    · exact .inl (spent.closings (same ▸ gone))
    · rcases Registry.mem_release registered stream.handle with left | gone
      · exact .inr ⟨h, left, mine.trans same⟩
      · exact .inl ((mine.trans same) ▸ gone)

/-- A stream that is closed gives back its handle, and no other stream has that. -/
theorem Kept.closeStream (kept : Kept c) (k : Nat) : Kept (c.step (.closeStream k)).2 := by
  unfold step
  cases hat : c.streams[k]? with
  | none => simpa only [hat] using kept
  | some stream =>
    simp only [hat]
    obtain ⟨s', ran, shown⟩ := run_closeStream stream c.session
    rw [ran]
    by_cases attached : stream.detached = true
    · -- A stream that has been closed already changes nothing.
      have idle : stream.close c.session.registry = ⟨c.session.registry, .ok stream, []⟩ := by
        rw [PlaybackStream.close, if_pos attached]
      rw [idle] at shown ⊢
      dsimp only
      obtain ⟨bound, there⟩ := List.getElem?_eq_some_iff.1 hat
      rw [show c.streams.set k stream = c.streams by rw [← there, List.set_getElem_self]]
      exact kept.shown shown
    · have released : stream.close c.session.registry =
          ⟨(c.session.registry.release stream.handle).registry,
            (c.session.registry.release stream.handle).result.map fun _ =>
              { stream with detached := true },
            (c.session.registry.release stream.handle).log⟩ := by
        rw [PlaybackStream.close, if_neg attached]
      rw [released] at shown ⊢
      cases (c.session.registry.release stream.handle).result with
      | error f =>
        exact kept.released shown (fun _ mem _ => mem) fun other mem => ⟨other, mem, rfl⟩
      | ok b =>
        refine kept.released shown (fun other mem ne => ?_) fun other mem => ?_
        · obtain ⟨j, there⟩ := List.mem_iff_getElem?.1 mem
          refine List.mem_iff_getElem?.2 ⟨j, ?_⟩
          rw [List.getElem?_set_ne, there]
          rintro rfl
          rw [hat] at there
          exact ne (congrArg PlaybackStream.handle (Option.some.inj there.symm))
        · rcases List.mem_or_eq_of_mem_set mem with old | rfl
          · exact ⟨other, old, rfl⟩
          · exact ⟨stream, List.mem_of_getElem? hat, rfl⟩

/-- What holds of a client holds after every call. -/
theorem Kept.step (kept : Kept c) (call : SessionCall) (regular : call.Regular) :
    Kept (c.step call).2 := by
  have sane := kept.sane
  cases call with
  | files tree =>
    exact kept.congr ⟨sane.sound, sane.mild, sane.closing, sane.wanted, sane.distinct⟩ rfl rfl
  | habits backend onProgress =>
    exact kept.congr ⟨sane.sound, sane.mild, regular, sane.wanted, sane.distinct⟩ rfl rfl
  | scan enumerate order => exact kept.scan enumerate regular
  | scanDirectory root fallback order fallbackOrder =>
    exact kept.scanDirectory root fallback regular.1 regular.2
  | query text order => exact kept.shown (quiet_query text order c.session)
  | addTag path tag => exact kept.editTags edits_addTag path tag
  | removeTag path tag => exact kept.editTags edits_removeTag path tag
  | openPlayback path => exact kept.openPlayback path
  | closeStream k => exact kept.closeStream k
  | teardown =>
    obtain ⟨s', ran, shown⟩ := run_teardown sane.mild
    simp only [Client.step, ran]
    refine kept.emptied (shown.sane ⟨sane.sound.emptied sane.mild,
      by simp [Registry.emptied], sane.closing, sane.wanted, ?_⟩) shown.registry
    cases held : c.session.catalog with
    | none => exact List.nodup_nil
    | some catalog =>
      have distinct := sane.distinct
      simp only [Session.current, held, Option.map_some, Option.getD_some, Catalog.mapItems,
        List.map_map] at distinct ⊢
      exact distinct
  | shutdown =>
    obtain ⟨s', ran, shown⟩ := run_shutdown sane.mild
    simp only [Client.step, ran]
    exact kept.emptied (shown.sane ⟨sane.sound.emptied sane.mild,
      by simp [Registry.emptied], sane.closing, sane.wanted, List.nodup_nil⟩) shown.registry

/-- A scan of a directory that ends well leaves no handle. -/
theorem Kept.emptied_of_scan (kept : Kept c) (call : SessionCall) (regular : call.Regular)
    (scans : call.Scans) (ended : (c.step call).1 = .ok ()) :
    (c.step call).2.session.registry.registered = [] ∧ (c.step call).2.streams = c.streams := by
  cases call with
  | scan enumerate order =>
    refine ⟨?_, streams_scanned ..⟩
    simp only [Client.step, session_scanned]
    exact VideoCatalog.emptied_of_scan kept.sane regular ended
  | scanDirectory root fallback order fallbackOrder =>
    refine ⟨?_, streams_scanned ..⟩
    simp only [Client.step, session_scanned] at ended ⊢
    rcases run_scanDirectory root fallback order fallbackOrder c.session with ⟨-, ran⟩ |
      ⟨files, s₁, s₂, -, rfl, shown, ran⟩
    · rw [ran] at ended ⊢
      exact VideoCatalog.emptied_of_scan kept.sane regular.1 ended
    · rw [ran] at ended ⊢
      exact VideoCatalog.emptied_of_scan (shown.sane (kept.sane.scan _ regular.1)) regular.2 ended
  | _ => exact absurd scans id

/-- What gives back all handles leaves none, also not with an item. -/
theorem Kept.emptied_of_givesBack (kept : Kept c) (call : SessionCall) (gives : call.GivesBack) :
    (c.step call).1 = .ok () ∧ (c.step call).2.session.registry.registered = [] ∧
      ∀ item ∈ (c.step call).2.session.current, item.content = none := by
  cases call with
  | teardown =>
    obtain ⟨s', ran, shown⟩ := run_teardown kept.sane.mild
    simp only [Client.step, ran]
    refine ⟨trivial, congrArg Registry.registered shown.registry, fun item mem => ?_⟩
    rw [shown.current] at mem
    cases held : c.session.catalog with
    | none => simp [Session.current, held] at mem
    | some catalog =>
      simp only [Session.current, held, Option.map_some, Option.getD_some, Catalog.mapItems,
        List.mem_map] at mem
      obtain ⟨before, -, rfl⟩ := mem
      rfl
  | shutdown =>
    obtain ⟨s', ran, shown⟩ := run_shutdown kept.sane.mild
    simp only [Client.step, ran]
    refine ⟨trivial, congrArg Registry.registered shown.registry, fun item mem => ?_⟩
    rw [shown.current] at mem
    exact absurd mem List.not_mem_nil
  | _ => exact absurd gives id

theorem spent_close (stream : PlaybackStream) (r : Registry) :
    r.Spent (stream.close r).registry := by
  unfold PlaybackStream.close
  split
  · exact .refl _
  · exact Registry.spent_release _ _

/-- No closing is forgotten. -/
theorem Kept.closings_step (kept : Kept c) (call : SessionCall) (regular : call.Regular) :
    c.session.registry.closings ⊆ (c.step call).2.session.registry.closings := by
  cases call with
  | files tree => exact List.Subset.refl _
  | habits backend onProgress => exact List.Subset.refl _
  | scan enumerate order =>
    simp only [Client.step, session_scanned]
    exact closings_scan kept.sane enumerate regular
  | scanDirectory root fallback order fallbackOrder =>
    simp only [Client.step, session_scanned]
    exact closings_scanDirectory kept.sane root fallback regular.1 regular.2
  | query text order =>
    have shown := quiet_query text order c.session
    simp only [Client.step, shown.registry]
    exact List.Subset.refl _
  | addTag path tag =>
    simp only [Client.step, SessionM.addTag, registry_editTags]
    exact List.Subset.refl _
  | removeTag path tag =>
    simp only [Client.step, SessionM.removeTag, registry_editTags]
    exact List.Subset.refl _
  | openPlayback path =>
    unfold Client.step
    rcases run_openPlayback path c.session with ⟨f, ran⟩ | ⟨stream, -, -, ran⟩ <;>
      simp only [ran] <;> exact List.Subset.refl _
  | closeStream k =>
    unfold Client.step
    cases hat : c.streams[k]? with
    | none => simp only [hat, List.Subset.refl]
    | some stream =>
      simp only [hat]
      obtain ⟨s', ran, shown⟩ := run_closeStream stream c.session
      have spent := spent_close stream c.session.registry
      rw [← show s'.registry = (stream.close c.session.registry).registry from shown.registry]
        at spent
      rw [ran]
      cases (stream.close c.session.registry).result <;> exact spent.closings
  | teardown =>
    obtain ⟨s', ran, shown⟩ := run_teardown kept.sane.mild
    simp only [Client.step, ran, shown.registry]
    exact List.subset_append_left _ _
  | shutdown =>
    obtain ⟨s', ran, shown⟩ := run_shutdown kept.sane.mild
    simp only [Client.step, ran, shown.registry]
    exact List.subset_append_left _ _

/-- So it is when a session has just been started. -/
theorem kept_start {config : Configuration} {around : Surroundings} {tree : FileTree}
    {source : FrameSource} {options : Options}
    (started : Started config around tree source options s)
    (wanted : options.workers = .null ∨ ∃ n, options.workers.quantity? = some (.whole n))
    (closing : s.extractor.backend.Mild) : Kept { session := s } := by
  have current : s.current = [] := by rw [Session.current, started.catalog]; rfl
  refine ⟨⟨?_, ?_, closing, Pass.wanted_of_workersOf wanted started.workers, ?_⟩, ?_, ?_⟩
  · exact started.registry ▸ Registry.Reached.fresh.sound
  · simp [started.registry]
  · simp [current]
  · simp [started.registry]
  · simp

end Client

/-- Take a session that was started, and calls of it one after another, with resources whose closing
raises nothing but refusals of the operating system. Then every handle is that of an open stream
which was opened since all handles were last given back, or that of the content of an item in the
current catalog which the last pass never claimed because its callback ended it. Nothing was closed
twice, and no closing is forgotten. A scan that ends well next leaves no handle and closes all
streams. Giving back all handles ends well next, and leaves no handle and no item that holds one. -/
theorem handles_accounted_for {config : Configuration} {around : Surroundings} {tree : FileTree}
    {source : FrameSource} {options : Options} {s : Session} {log : List Record}
    (started : Session.start config around tree source options = (.ok s, log))
    (wanted : options.workers = .null ∨ ∃ n, options.workers.quantity? = some (.whole n))
    (closing : s.extractor.backend.Mild) (calls : List SessionCall)
    (regular : ∀ call ∈ calls, call.Regular) :
    let c := Client.run { session := s } calls;
    (∀ h ∈ c.session.registry.registered, c.Plays h ∨ c.Unclaimed h) ∧
      c.session.registry.closings.Nodup ∧
      ∀ call : SessionCall, call.Regular →
        c.session.registry.closings ⊆ (c.step call).2.session.registry.closings ∧
        (call.Scans → (c.step call).1 = .ok () →
          (c.step call).2.session.registry.registered = [] ∧
          ∀ stream ∈ c.streams, stream.closed (c.step call).2.session.registry = true) ∧
        (call.GivesBack → (c.step call).1 = .ok () ∧
          (c.step call).2.session.registry.registered = [] ∧
          ∀ item ∈ (c.step call).2.session.current, item.content = none) := by
  intro c
  have kept : c.Kept := Client.run_induction (fun c call regular kept => kept.step call regular) _
    regular (Client.kept_start (Session.started_of_start started) wanted closing)
  refine ⟨kept.owned, kept.sane.sound.closed_once, fun call regular =>
    ⟨kept.closings_step call regular, ?_, ?_⟩⟩
  · intro scans ended
    obtain ⟨empty, streams⟩ := kept.emptied_of_scan call regular scans ended
    exact ⟨empty, streams ▸ (kept.step call regular).closed_of_empty empty⟩
  · exact fun gives => kept.emptied_of_givesBack call gives

/-- Two videos. -/
def twoVideos : FileTree :=
  ⟨[(["a.mp4"], .file [] .zero), (["b.mp4"], .file [] .zero)], [], []⟩

/-- What describes a video in the top directory. -/
def videoNamed (name : String) : Descriptor :=
  { name := name, relativePath := name, size := none, modified := none, mime := "video/mp4",
    source := ⟨"/", [name]⟩ }

/-- One worker, and a callback that refuses the report on the first video. -/
def oneReport : Options where
  workers := .int 1
  onProgress completed _ := if completed = 1 then some .closedStream else none

/-- A session among the two videos, all of which hang. -/
def startedAmongVideos : Except Failure Session × List Record :=
  Session.start ⟨⟨"/", []⟩, .map []⟩ ⟨⟨"/", []⟩, [], none⟩ twoVideos
    (.decoder Extractor.hanging.backend) oneReport

/-- A scan that the callback ends, and a stream. -/
def scanAndPlay : List SessionCall :=
  [.scan (fun _ => ⟨.ok [videoNamed "a.mp4", videoNamed "b.mp4"], []⟩) Pass.inTurn,
    .openPlayback "a.mp4"]

/-- The content of the second video is left, and the stream is open. -/
theorem handles_accounted_for_after_refused_report :
    ∃ s log, startedAmongVideos = (.ok s, log) ∧
      let c := Client.run { session := s } scanAndPlay;
      c.session.registry.registered.map (·.kind) = ["content", "playback"] ∧
      ∀ h ∈ c.session.registry.registered, c.Plays h ∨ c.Unclaimed h := by
  have kinds : startedAmongVideos.1.toOption.map (fun s =>
      (Client.run { session := s } scanAndPlay).session.registry.registered.map (·.kind)) =
        some ["content", "playback"] := by decide +kernel
  obtain ⟨s, log, started, left⟩ := exists_of_started kinds
  have closing : s.extractor.backend.Mild := by
    rw [(started_of_start started).backend]
    exact fun _ _ f raised => Option.some.inj raised ▸ rfl
  refine ⟨s, log, started, left, ?_⟩
  exact (handles_accounted_for started (.inr ⟨1, rfl⟩) closing scanAndPlay (by
    simp [scanAndPlay, SessionCall.Regular, PassRun.fair_inTurn])).1

end VideoCatalog
