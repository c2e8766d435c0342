import VideoCatalog.Proofs.Session.Enumerations

/-!
# The statistics of a session

A scan puts its catalog in place before the pass over it begins, and takes over the statistics when
the pass has ended well. Nothing else touches the statistics.

* `SessionM.Keeps`: operations that leave some part of a session alone.
* `Session.tally`: the statistics of a session, and the size of its catalog.
* `PassRun.tally`: what a pass makes of them; `run_scan_tally` says so of every scan.
* `Client.passes`, `Client.history`: the passes that a call runs, and those of calls one after
  another.
* `Client.tally_step`, `Client.tally_run`: one call, and all of them.
* `statistics_of_last_complete_pass`: the main statement.
-/

namespace VideoCatalog

open SessionM

/-! ### Operations that leave something alone -/

namespace SessionM

variable {α β γ : Type} {f : Session → γ} {op : SessionM α} {next : α → SessionM β}

/-- The operation leaves a part of the session as it was, however it ends. -/
def Keeps (f : Session → γ) (op : SessionM α) : Prop := ∀ s, f (op.run s).2 = f s

theorem keeps_bind (first : Keeps f op) (rest : ∀ a, Keeps f (next a)) : Keeps f (op >>= next) := by
  intro s
  have kept := first s
  rw [run_bind]
  rcases ran : op.run s with ⟨_ | a, s₁⟩ <;> rw [ran] at kept
  · exact kept
  · exact (rest a s₁).trans kept

theorem keeps_get : Keeps f (get : SessionM Session) := fun _ => rfl

theorem keeps_pure (a : α) : Keeps f (pure a) := fun _ => rfl

theorem keeps_ofResult (result : Except Failure α) : Keeps f (ofResult result) := by
  intro s
  rw [run_ofResult]

theorem keeps_modify {g : Session → Session} (same : ∀ s, f (g s) = f s) :
    Keeps f (modify g : SessionM Unit) := same

end SessionM

/-! ### Tallies -/

/-- Statistics, and the size of a catalog if there is one. -/
structure Tally where
  stats : Option PassStats := none
  size : Option Nat := none

/-- The statistics of a session, and the size of its catalog. -/
def Session.tally (s : Session) : Tally := ⟨s.stats, s.catalog.map (·.items.length)⟩

/-- The statistics that a pass leaves: its own if it has ended well, and else those before. -/
def PassRun.kept (pass : PassRun) (before : Option PassStats) : Option PassStats :=
  match pass.ending.result with
  | .ok stats => some stats
  | .error _ => before

/-- What a pass makes of a tally: its items are the catalog in any case. -/
def PassRun.tally (before : Tally) (pass : PassRun) : Tally :=
  ⟨pass.kept before.stats, some pass.items.length⟩

theorem PassRun.length_ending (pass : PassRun) : pass.ending.items.length = pass.items.length := by
  have described : (pass.ending.items.map Item.described).length = _ :=
    congrArg List.length (Pass.described_runPass ..)
  simpa using described

/-- Statistics count all items. -/
def PassEnd.Counts (e : PassEnd) : Prop :=
  ∀ stats, e.result = .ok stats → stats.total = e.items.length

theorem counts_endPass (p : Pass) (elapsed : Binary64) (started : List Record) :
    (endPass p elapsed started).Counts := by
  unfold endPass
  dsimp only
  split
  · exact fun _ => nofun
  · split
    · exact fun _ => nofun
    · intro stats ended
      obtain rfl := Except.ok.inj ended
      rfl

theorem counts_runPass (x : Extractor) (workers : Value)
    (onProgress : Nat → Nat → Option Failure) (elapsed : Binary64) (registry : Registry)
    (items : List Item) (order : Nat → Nat → List Nat) :
    (runPass x workers onProgress elapsed registry items order).Counts := by
  unfold runPass
  dsimp only
  split
  · exact fun _ => nofun
  · split
    · exact counts_endPass _ _ _
    · split
      · exact counts_endPass _ _ _
      · exact fun _ => nofun

theorem PassRun.total_eq {pass : PassRun} {stats : PassStats}
    (ended : pass.ending.result = .ok stats) : stats.total = pass.items.length :=
  (counts_runPass _ _ _ _ _ _ _ stats ended).trans pass.length_ending

section

variable {s : Session} {enumerate : FileTree → Enumeration} {order : Nat → Nat → List Nat}

theorem keeps_note {γ : Type} {f : Session → γ} (same : ∀ s log, f { s with log := log } = f s)
    (records : List Record) : Keeps f (note records) := fun s => same s _

theorem keeps_teardown : Keeps Session.tally teardown := by
  refine keeps_bind keeps_get fun s => keeps_bind (keeps_modify fun _ => rfl) fun _ =>
    keeps_bind (keeps_note (fun _ _ => rfl) _) fun _ => keeps_bind (keeps_ofResult _) fun n =>
      keeps_bind (keeps_modify fun s => ?_) fun _ => ?_
  · simp [Session.tally, Catalog.mapItems, Function.comp_def]
  · split
    · exact keeps_note (fun _ _ => rfl) _
    · exact keeps_pure _

theorem keeps_rebuild (enumerate : FileTree → Enumeration) :
    Keeps Session.stats (rebuild enumerate) := by
  refine keeps_bind keeps_get fun s => keeps_bind (keeps_note (fun _ _ => rfl) _) fun _ =>
    keeps_bind (keeps_ofResult _) fun descriptors =>
      keeps_bind (fun s => congrArg Tally.stats (keeps_teardown s)) fun _ =>
        keeps_bind keeps_get fun s => keeps_bind (keeps_modify fun _ => rfl) fun _ =>
          keeps_bind (keeps_note (fun _ _ => rfl) _) fun _ => keeps_note (fun _ _ => rfl) _

/-- A catalog that cannot be built leaves the one before. -/
theorem tally_of_rebuild_error {f : Failure} {s' : Session}
    (failed : (rebuild enumerate).run s = (.error f, s')) : s'.tally = s.tally := by
  cases found : (enumerate s.tree).result with
  | error g =>
    rw [run_rebuild_of_failure found] at failed
    obtain rfl : _ = s' := congrArg Prod.snd failed
    rfl
  | ok descriptors =>
    unfold rebuild at failed
    rw [run_bind_of_ok (run_get s), run_bind_of_ok (run_note _ s), found,
      run_bind_of_ok (run_ofResult _ _)] at failed
    let noted : Session := { s with log := s.log ++ (enumerate s.tree).log }
    have kept := keeps_teardown noted
    rcases torn : teardown.run noted with ⟨_ | _, s₁⟩
    · rw [run_bind_of_error torn] at failed
      rw [torn] at kept
      obtain rfl : s₁ = s' := congrArg Prod.snd failed
      exact kept
    · rw [run_bind_of_ok torn] at failed
      cases failed

theorem run_keepStats (result : Except Failure PassStats) (s : Session) :
    (keepStats result).run s = (.ok (), { s with stats := match result with
      | .ok stats => some stats
      | .error _ => s.stats }) := by
  cases result <;> rfl

/-- Statistics are taken over from a pass that has ended well. -/
theorem stats_enrich (s : Session) (order : Nat → Nat → List Nat) :
    ((enrich order).run s).2.stats = match (passEnd s order).result with
      | .ok stats => some stats
      | .error _ => s.stats := by
  have stopped : Keeps Session.stats stopReporter := by
    refine keeps_bind keeps_get fun s => keeps_bind (keeps_modify fun _ => rfl) fun _ =>
      keeps_bind (keeps_ofResult _) fun _ => keeps_note (fun _ _ => rfl) _
  have rest (result : Except Failure PassStats) : Keeps Session.stats (do
      stopReporter
      let _ ← ofResult result) :=
    keeps_bind stopped fun _ => keeps_bind (keeps_ofResult _) fun _ => keeps_pure _
  obtain ⟨s₁, ran, -, before⟩ := run_enrich_passed s order
  rw [ran, run_bind_of_ok (run_keepStats _ _), ← before]
  exact rest _ _

/-- A scan whose catalog cannot be built leaves the tally alone. Any other puts the items of its
pass in place, and takes over the statistics if that has ended well. It does not end well itself if
its pass does not. -/
theorem run_scan_tally (s : Session) (enumerate : FileTree → Enumeration)
    (order : Nat → Nat → List Nat) :
    (Client.passOf s enumerate order = none ∧
      ((scan enumerate order).run s).2.tally = s.tally) ∨
    ∃ pass, Client.passOf s enumerate order = some pass ∧
      ((scan enumerate order).run s).2.catalog = some ⟨pass.ending.items⟩ ∧
      ((scan enumerate order).run s).2.stats = pass.kept s.stats ∧
      (((scan enumerate order).run s).1 = .ok () → ∃ stats, pass.ending.result = .ok stats) := by
  rcases built : (rebuild enumerate).run s with ⟨f | _, s₁⟩
  · refine .inl ⟨by rw [Client.passOf, built], ?_⟩
    rw [SessionM.scan, run_bind_of_error built]
    exact tally_of_rebuild_error built
  · refine .inr ⟨_, by rw [Client.passOf, built], ?_⟩
    have stats : s₁.stats = s.stats := by
      have kept := keeps_rebuild enumerate s
      rwa [built] at kept
    rw [SessionM.scan, run_bind_of_ok built, stats_enrich, stats]
    obtain ⟨result, s₂, ran, shown, ends⟩ := run_enrich s₁ order
    rw [ran]
    exact ⟨shown.catalog, rfl, ends⟩

end

/-! ### Calls -/

namespace Client

/-- The passes that a call runs. A scan of a directory may run two. -/
def passes (c : Client) : SessionCall → List PassRun
  | .scan enumerate order => (passOf c.session enumerate order).toList
  | .scanDirectory root fallback order fallbackOrder =>
    (passOf c.session (directory c.session.config root) order).toList ++
      match retried ((SessionM.scan (directory c.session.config root) order).run c.session)
          fallback with
      | some (files, s) => (passOf s (selection c.session.config root files) fallbackOrder).toList
      | none => []
  | _ => []

/-- The passes of calls one after another. -/
def history (c : Client) : List SessionCall → List PassRun
  | [] => []
  | call :: rest => c.passes call ++ (c.step call).2.history rest

/-- What passes one after another make of a tally. -/
def tallied (before : Tally) (passes : List PassRun) : Tally := passes.foldl PassRun.tally before

/-- The statistics of the last pass that has ended well. -/
def lastStats (passes : List PassRun) : Option PassStats :=
  (passes.filterMap fun pass => pass.ending.result.toOption).getLast?

theorem lastStats_append (earlier later : List PassRun) :
    lastStats (earlier ++ later) = (lastStats later).or (lastStats earlier) := by
  rw [lastStats, List.filterMap_append, List.getLast?_append]
  rfl

/-- If the last pass has ended well, the statistics are its own. -/
theorem lastStats_of_getLast {passes : List PassRun} {pass : PassRun} {own : PassStats}
    (last : passes.getLast? = some pass) (ended : pass.ending.result = .ok own) :
    lastStats passes = some own := by
  obtain ⟨front, rfl⟩ := List.getLast?_eq_some_iff.1 last
  rw [lastStats_append]
  simp [lastStats, ended, Except.toOption]

theorem tallied_append (before : Tally) (earlier later : List PassRun) :
    tallied before (earlier ++ later) = tallied (tallied before earlier) later :=
  List.foldl_append ..

/-- The statistics are those of the last pass that has ended well, and the size that of the last
pass at all. -/
theorem tallied_eq (before : Tally) (passes : List PassRun) : tallied before passes =
    ⟨(lastStats passes).or before.stats,
      (passes.getLast?.map (·.items.length)).or before.size⟩ := by
  induction passes using List.reverseRecOn with
  | nil => rfl
  | append_singleton passes pass ih =>
    rw [tallied_append, ih, lastStats_append, List.getLast?_concat]
    cases ended : pass.ending.result <;>
      simp [tallied, PassRun.tally, PassRun.kept, lastStats, ended, Except.toOption]

variable {c : Client}

theorem tally_scan (s : Session) (enumerate : FileTree → Enumeration)
    (order : Nat → Nat → List Nat) : ((SessionM.scan enumerate order).run s).2.tally =
      tallied s.tally (passOf s enumerate order).toList := by
  rcases run_scan_tally s enumerate order with ⟨none, kept⟩ | ⟨pass, some, catalog, stats, -⟩
  · rw [none, kept]
    rfl
  · rw [some, Session.tally, catalog, stats, Option.map_some, pass.length_ending]
    rfl

/-- A scan that fails in its enumeration leaves statistics and catalog. -/
theorem step_scan_of_refused {enumerate : FileTree → Enumeration} {order : Nat → Nat → List Nat}
    {f : Failure} (failed : (enumerate c.session.tree).result = .error f) :
    (c.step (.scan enumerate order)).1 = .error f ∧
      (c.step (.scan enumerate order)).2.session.stats = c.session.stats ∧
      (c.step (.scan enumerate order)).2.session.catalog = c.session.catalog := by
  have ran : (SessionM.scan enumerate order).run c.session = _ :=
    run_bind_of_error (run_rebuild_of_failure failed)
  rw [step, session_scanned, ran]
  exact ⟨rfl, rfl, rfl⟩

/-- A scan that has a pass puts its catalog in place, and takes over statistics if there are any.
If there are none, the scan ends with a failure. -/
theorem step_scan_of_pass {enumerate : FileTree → Enumeration} {order : Nat → Nat → List Nat}
    {pass : PassRun} (runs : passOf c.session enumerate order = some pass) :
    (c.step (.scan enumerate order)).2.session.catalog = some ⟨pass.ending.items⟩ ∧
      (∀ f, pass.ending.result = .error f →
        (∃ g, (c.step (.scan enumerate order)).1 = .error g) ∧
          (c.step (.scan enumerate order)).2.session.stats = c.session.stats) ∧
      ∀ stats, pass.ending.result = .ok stats →
        (c.step (.scan enumerate order)).2.session.stats = some stats := by
  rw [step, session_scanned]
  rcases run_scan_tally c.session enumerate order with
    ⟨none, -⟩ | ⟨other, some, catalog, taken, ends⟩
  · rw [none] at runs
    cases runs
  · obtain rfl : other = pass := Option.some.inj (some.symm.trans runs)
    refine ⟨catalog, fun f failed => ?_, fun own ended => ?_⟩
    · refine ⟨?_, by rw [taken, PassRun.kept, failed]⟩
      cases ended : ((SessionM.scan enumerate order).run c.session).1 with
      | error g => exact ⟨g, rfl⟩
      | ok _ =>
        obtain ⟨stats, ok⟩ := ends ended
        rw [failed] at ok
        cases ok
    · rw [taken, PassRun.kept, ended]

/-- A scan of a directory leaves what its own pass leaves, and then that of the fallback. -/
theorem tally_scanDirectory (s : Session) (root : Path) (fallback : Option (List Path))
    (order fallbackOrder : Nat → Nat → List Nat) :
    ((SessionM.scanDirectory root fallback order fallbackOrder).run s).2.tally =
      tallied s.tally ((passOf s (directory s.config root) order).toList ++
        match retried ((SessionM.scan (directory s.config root) order).run s) fallback with
        | some (files, s₁) => (passOf s₁ (selection s.config root files) fallbackOrder).toList
        | none => []) := by
  have first := tally_scan s (directory s.config root) order
  rcases ran : (SessionM.scan (directory s.config root) order).run s with ⟨result, s₁⟩
  rw [ran] at first
  have alone (other : fallback = none ∨ ∀ f, result = .error f → f.isRoot = false) :
      ((SessionM.scanDirectory root fallback order fallbackOrder).run s).2.tally =
        tallied s.tally ((passOf s (directory s.config root) order).toList ++ []) := by
    rw [run_scanDirectory_of_other (by rwa [ran]), ran, List.append_nil]
    exact first
  cases result with
  | ok _ => exact alone (.inr fun _ => nofun)
  | error f =>
    cases fallback with
    | none => exact alone (.inl rfl)
    | some files =>
      dsimp only [retried]
      by_cases isRoot : f.isRoot = true
      · have second := tally_scan { s₁ with log := s₁.log ++ [directoryFailed f] }
          (selection s.config root files) fallbackOrder
        rw [passOf_noted] at second
        rw [run_scanDirectory_of_root ran isRoot, second, if_pos isRoot, tallied_append]
        exact congrArg (tallied · _) first
      · rw [if_neg isRoot]
        exact alone (.inr fun g same => Except.error.inj same ▸ by simpa using isRoot)

theorem keeps_query (text : String) (order : Query.Order) :
    Keeps Session.tally (SessionM.query text order) := by
  refine keeps_bind keeps_get fun s => ?_
  split
  · exact keeps_pure _
  · exact keeps_ofResult _

theorem keeps_closeStream (stream : PlaybackStream) :
    Keeps Session.tally (SessionM.closeStream stream) :=
  keeps_bind keeps_get fun _ => keeps_bind (keeps_modify fun _ => rfl) fun _ =>
    keeps_bind (keeps_note (fun _ _ => rfl) _) fun _ => keeps_ofResult _

theorem keeps_editTags (edit : (SaveStep → Option Failure) → Binary64 → FileTree → TagStore →
    Item → String → TagEdit) (path tag : String) : Keeps Session.tally (editTags edit path tag) := by
  intro s
  rcases run_editTags edit path tag s with ⟨f, ran⟩ | ⟨catalog, item, held, -, ran⟩
  · rw [ran]
  · rw [ran]
    simp [Session.tally, held, Catalog.update, Catalog.mapItems]

/-- A call leaves what its passes leave. After a shutdown there is no catalog. -/
theorem tally_step (c : Client) (call : SessionCall) :
    (c.step call).2.session.tally = tallied c.session.tally (c.passes call) ∨
      (c.step call).2.session.tally = ⟨(tallied c.session.tally (c.passes call)).stats, none⟩ := by
  cases call with
  | files tree => exact .inl rfl
  | habits backend onProgress => exact .inl rfl
  | scan enumerate order =>
    refine .inl ?_
    rw [step, session_scanned]
    exact tally_scan c.session enumerate order
  | scanDirectory root fallback order fallbackOrder =>
    refine .inl ?_
    rw [step, session_scanned]
    exact tally_scanDirectory c.session root fallback order fallbackOrder
  | query text order =>
    exact .inl (keeps_query text order c.session)
  | addTag path tag => exact .inl (keeps_editTags _ path tag c.session)
  | removeTag path tag => exact .inl (keeps_editTags _ path tag c.session)
  | openPlayback path =>
    refine .inl ?_
    rw [step]
    rcases run_openPlayback path c.session with ⟨f, ran⟩ | ⟨stream, -, -, ran⟩
    · rw [ran]
      rfl
    · rw [ran]
      rfl
  | closeStream k =>
    refine .inl ?_
    rw [step]
    cases hat : c.streams[k]? with
    | none => rfl
    | some stream =>
      have same := keeps_closeStream stream c.session
      dsimp only
      rcases ran : (SessionM.closeStream stream).run c.session with ⟨_ | _, s⟩ <;>
        rw [ran] at same <;> exact same
  | teardown => exact .inl (keeps_teardown c.session)
  | shutdown =>
    have kept := keeps_teardown c.session
    rcases torn : teardown.run c.session with ⟨f | _, s⟩ <;> rw [torn] at kept
    · refine .inl ?_
      simp only [step, SessionM.shutdown, run_bind_of_error torn]
      exact kept
    · refine .inr ?_
      simp only [step, SessionM.shutdown, run_bind_of_ok torn]
      exact congrArg (fun t : Tally => (⟨t.stats, none⟩ : Tally)) kept

/-- After calls the statistics are those of the last pass that has ended well. If there is a catalog,
it has as many items as the last pass. -/
theorem tally_run (c : Client) (calls : List SessionCall) :
    (c.run calls).session.stats = (lastStats (c.history calls)).or c.session.stats ∧
      ((c.run calls).session.tally.size = none ∨ (c.run calls).session.tally.size =
        ((c.history calls).getLast?.map (·.items.length)).or c.session.tally.size) := by
  induction calls generalizing c with
  | nil => exact ⟨rfl, .inr rfl⟩
  | cons call rest ih =>
    obtain ⟨stats, size⟩ := ih (c.step call).2
    have here : (c.step call).2.session.stats =
        (lastStats (c.passes call)).or c.session.stats ∧
        ((c.step call).2.session.tally.size = none ∨ (c.step call).2.session.tally.size =
          ((c.passes call).getLast?.map (·.items.length)).or c.session.tally.size) := by
      rcases tally_step c call with same | same
      · rw [tallied_eq] at same
        exact ⟨congrArg Tally.stats same, .inr (congrArg Tally.size same)⟩
      · rw [tallied_eq] at same
        exact ⟨congrArg Tally.stats same, .inl (congrArg Tally.size same)⟩
    rw [run_cons, history, lastStats_append, List.getLast?_append, stats, here.1,
      ← Option.or_assoc]
    refine ⟨rfl, ?_⟩
    rcases size with gone | size
    · exact .inl gone
    · cases last : ((c.step call).2.history rest).getLast? with
      | some pass =>
        rw [last] at size
        exact .inr size
      | none =>
        rw [last] at size
        rcases here.2 with gone | same
        · exact .inl (size.trans gone)
        · exact .inr (size.trans same)

end Client

/-! ### Sessions that were started -/

section

variable {config : Configuration} {around : Surroundings} {tree : FileTree}
  {source : Session.FrameSource} {options : Session.Options} {s : Session} {log : List Record}

/-- A session that has just been started has no statistics. -/
theorem stats_of_start (ran : Session.start config around tree source options = (.ok s, log)) :
    s.stats = none := by
  have finished (tree : FileTree) (logs : LogSettings) (store : TagStore) (backend : Backend)
      (log : List Record)
      (ended : Session.finishStart config around tree logs store backend options log = .ok s) :
      s.stats = none := by
    unfold Session.finishStart at ended
    split at ended
    · cases ended
    · split at ended
      · cases ended
      · split at ended
        · cases ended
        · cases made : ProgressReporter.make (config.setting "progress" "interval_seconds" (.int 5))
              (config.setting "progress" "enabled" (.bool true)).truthy with
          | error f =>
            rw [made] at ended
            cases ended
          | ok reporter =>
            rw [made] at ended
            cases ended
            rfl
  unfold Session.start at ran
  split at ran
  · cases ran
  · split at ran
    · cases ran
    · split at ran
      · cases ran
      · exact finished _ _ _ _ _ (congrArg Prod.fst ran)

/-- Calls of a started session leave the statistics of the last pass that has ended well. The
catalog, if there is one, has as many items as the last pass. -/
theorem Client.run_started
    (started : Session.start config around tree source options = (.ok s, log))
    (calls : List SessionCall) :
    (Client.run { session := s } calls).session.stats =
      Client.lastStats (Client.history { session := s } calls) ∧
    ∀ catalog, (Client.run { session := s } calls).session.catalog = some catalog →
      ∃ pass, (Client.history { session := s } calls).getLast? = some pass ∧
        catalog.items.length = pass.items.length := by
  obtain ⟨stats, size⟩ := Client.tally_run { session := s } calls
  have fresh : (Session.tally s).size = none := by
    rw [Session.tally, (Session.started_of_start started).catalog]
    rfl
  rw [stats_of_start started, Option.or_none] at stats
  rw [fresh, Option.or_none] at size
  refine ⟨stats, fun catalog has => ?_⟩
  have shown : (Client.run { session := s } calls).session.tally.size =
      some catalog.items.length := by rw [Session.tally, has]; rfl
  rcases size with gone | same
  · rw [gone] at shown
    cases shown
  · obtain ⟨pass, last, same⟩ := Option.map_eq_some_iff.1 (same.symm.trans shown)
    exact ⟨pass, last, same.symm⟩

/-- Take a session that was started, and calls of it one after another. Its statistics are those of
the last pass that has ended well, and its catalog, if there is one, has the items of the last pass.
So the two describe each other whenever that pass has ended well. What a scan makes of them is this:
if its enumeration fails, the scan fails with the same failure and both stay; if its pass fails, the
scan fails, too, the statistics stay and the catalog is new; and if its pass ends well, both are new.
-/
theorem statistics_of_last_complete_pass
    (started : Session.start config around tree source options = (.ok s, log))
    (calls : List SessionCall) :
    let c := Client.run { session := s } calls;
    let passes := Client.history { session := s } calls;
    c.session.stats = Client.lastStats passes ∧
    (∀ catalog, c.session.catalog = some catalog → ∃ pass, passes.getLast? = some pass ∧
      catalog.items.length = pass.items.length) ∧
    (∀ pass ∈ passes, ∀ stats, pass.ending.result = .ok stats →
      stats.total = pass.items.length) ∧
    (∀ catalog stats pass own, c.session.catalog = some catalog → c.session.stats = some stats →
      passes.getLast? = some pass → pass.ending.result = .ok own →
      stats = own ∧ stats.total = catalog.items.length) ∧
    ∀ (enumerate : FileTree → Enumeration) (order : Nat → Nat → List Nat),
      let scanned := c.step (.scan enumerate order);
      let next := scanned.2.session;
      (∀ f, (enumerate c.session.tree).result = .error f → scanned.1 = .error f ∧
        next.stats = c.session.stats ∧ next.catalog = c.session.catalog) ∧
      ∀ pass, Client.passOf c.session enumerate order = some pass →
        next.catalog = some ⟨pass.ending.items⟩ ∧
        (∀ f, pass.ending.result = .error f →
          (∃ g, scanned.1 = .error g) ∧ next.stats = c.session.stats) ∧
        ∀ stats, pass.ending.result = .ok stats → next.stats = some stats := by
  intro c passes
  obtain ⟨stats, held⟩ := Client.run_started started calls
  refine ⟨stats, held, fun pass _ _ => PassRun.total_eq, ?_, fun enumerate order =>
    ⟨fun f => Client.step_scan_of_refused, fun pass => Client.step_scan_of_pass⟩⟩
  intro catalog shown pass own has known last ended
  obtain ⟨other, last', length⟩ := held catalog has
  obtain rfl : pass = other := Option.some.inj (last.symm.trans last')
  have same := stats.trans (Client.lastStats_of_getLast last ended)
  obtain rfl : shown = own := Option.some.inj (known.symm.trans same)
  exact ⟨rfl, (PassRun.total_eq ended).trans length.symm⟩

end

/-- One worker, and a callback that refuses the report on the first of two videos. -/
def firstOfTwoRefused : Session.Options where
  workers := .int 1
  onProgress completed total := if completed = 1 ∧ total = 2 then some .closedStream else none

/-- A session among the two videos with that callback. -/
def startedRefusing : Except Failure Session × List Record :=
  Session.start ⟨⟨"/", []⟩, .map []⟩ ⟨⟨"/", []⟩, [], none⟩ twoVideos
    (.decoder Extractor.hanging.backend) firstOfTwoRefused

/-- A scan of one video, and then one of both. -/
def oneThenBoth : List SessionCall :=
  [.scan (fun _ => ⟨.ok [videoNamed "a.mp4"], []⟩) Pass.inTurn,
    .scan (fun _ => ⟨.ok [videoNamed "a.mp4", videoNamed "b.mp4"], []⟩) Pass.inTurn]

/-- Two passes were run, and the statistics are those of the first. -/
theorem statistics_of_first_of_two_passes :
    ∃ s log, startedRefusing = (.ok s, log) ∧
      let passes := Client.history { session := s } oneThenBoth;
      passes.map (·.items.length) = [1, 2] ∧
      (Client.run { session := s } oneThenBoth).session.stats = Client.lastStats passes ∧
      (Client.lastStats passes).map (·.total) = some 1 := by
  have known : startedRefusing.1.toOption.map (fun s =>
      let passes := Client.history { session := s } oneThenBoth
      (passes.map (·.items.length), (Client.lastStats passes).map (·.total))) =
        some ([1, 2], some 1) := by decide +kernel
  obtain ⟨s, log, started, counted⟩ := Session.exists_of_started known
  obtain ⟨lengths, total⟩ := Prod.mk.inj counted
  exact ⟨s, log, started, lengths,
    (statistics_of_last_complete_pass started oneThenBoth).1, total⟩

/-- The second scan ends with the refusal of its report. The catalog has two items then, and the
statistics count one. -/
theorem statistics_miss_refused_pass :
    ∃ s log, startedRefusing = (.ok s, log) ∧
      let first := (Client.mk s [] [] none).step
        (.scan (fun _ => ⟨.ok [videoNamed "a.mp4"], []⟩) Pass.inTurn);
      let second := first.2.step
        (.scan (fun _ => ⟨.ok [videoNamed "a.mp4", videoNamed "b.mp4"], []⟩) Pass.inTurn);
      first.1 = .ok () ∧ second.1 = .error .closedStream ∧
      second.2.session.catalog.map (·.items.length) = some 2 ∧
      second.2.session.stats.map (·.total) = some 1 := by
  have known : startedRefusing.1.toOption.map (fun s =>
      let first := (Client.mk s [] [] none).step
        (.scan (fun _ => ⟨.ok [videoNamed "a.mp4"], []⟩) Pass.inTurn)
      let second := first.2.step
        (.scan (fun _ => ⟨.ok [videoNamed "a.mp4", videoNamed "b.mp4"], []⟩) Pass.inTurn)
      (first.1, second.1, second.2.session.catalog.map (·.items.length),
        second.2.session.stats.map (·.total))) =
      some (.ok (), .error .closedStream, some 2, some 1) := by decide +kernel
  obtain ⟨s, log, started, left⟩ := Session.exists_of_started known
  simp only [Prod.mk.injEq] at left
  exact ⟨s, log, started, left⟩

end VideoCatalog
