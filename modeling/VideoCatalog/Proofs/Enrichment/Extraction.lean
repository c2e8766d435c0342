import VideoCatalog.Proofs.Enrichment.Release

/-!
# What an extraction does to the handles

* `Extractor.stake_begin`, `Extractor.headway_begin`: how the race for an item starts.
* `Extractor.met`, `Extractor.ended`: the two moments of a race that an extraction reads.
* `Extractor.conclude_runs`, `Extractor.conclude_released`: an extraction comes to its end,
  whatever turns the paths take.
* `Extractor.handles_released_once`: at the end of every race for an item the session and the
  content have been closed once, and all other handles are as they were.
-/

namespace VideoCatalog.Extractor

open Race

variable {x : Extractor} {registry : Registry} {item : Item} {lease : Handle}

/-! ### The start -/

theorem begin_of_absent (missing : item.content = none) :
    x.begin registry item =
      { registry := registry, item := item, session := none, decode := .ended
        deadline := .resorting .contentReleased } := by
  simp only [begin, missing]

theorem begin_of_refused {id : Nat} {f : Failure} (held : item.content = some id)
    (refused : (x.decoding registry item).opening = .error f) :
    x.begin registry item =
      { registry := registry, item := item, session := none, decode := .ended
        deadline := .resorting (.notOpened f) } := by
  simp only [begin, held, refused]

theorem begin_of_opened {id : Nat} (held : item.content = some id)
    (opened : (x.decoding registry item).opening = .ok ()) :
    x.begin registry item =
      { registry := (registry.acquire Registry.decodeKind (x.decoding registry item).closing).2
        item := item
        session := some (registry.issued + 1) } := by
  simp only [begin, held, opened]
  rfl

theorem gate_begin (x : Extractor) (registry : Registry) (item : Item) :
    (x.begin registry item).gate = {} := by
  unfold begin
  split
  · rfl
  · dsimp only
    split <;> rfl

/-- The session that is opened for an item gets a number of its own. -/
theorem stake_begin (sound : registry.Sound) (registered : lease ∈ registry.registered)
    (held : item.content = some lease.id) (mild : lease.Mild)
    (closing : ∀ f, (x.decoding registry item).closing = some f → f.isSystem = true) :
    Stake (x.begin registry item).registry (x.begin registry item).session lease.id := by
  cases opening : (x.decoding registry item).opening with
  | error f =>
    rw [begin_of_refused held opening]
    exact ⟨sound, ⟨lease, registered, rfl, mild⟩, by simp⟩
  | ok _ =>
    rw [begin_of_opened held opening]
    refine ⟨sound.acquire _ _, ⟨lease, ?_, rfl, mild⟩, ?_⟩
    · simp [Registry.acquire, registered]
    · intro id opened
      obtain rfl : registry.issued + 1 = id := by simpa using opened
      have le := sound.registered_le lease registered
      refine ⟨by omega, ⟨registry.issued + 1, Registry.decodeKind, _⟩, ?_, rfl, closing⟩
      simp [Registry.acquire]

theorem item_begin : (x.begin registry item).item = item := by
  unfold begin
  split
  · rfl
  · dsimp only
    split <;> rfl

/-- When a race begins nothing has been decided, and nothing has been released. -/
theorem headway_begin {Held : Release → Race → Prop}
    (holds : Held .session (x.begin registry item)) : Headway Held (x.begin registry item) := by
  cases held : item.content with
  | none =>
    rw [begin_of_absent held] at holds ⊢
    exact .undecided rfl trivial trivial (by simp) holds
  | some id =>
    cases opening : (x.decoding registry item).opening with
    | error f =>
      rw [begin_of_refused held opening] at holds ⊢
      exact .undecided rfl trivial trivial (by simp) holds
    | ok _ =>
      rw [begin_of_opened held opening] at holds ⊢
      exact .undecided rfl trivial trivial (by simp) holds

theorem phase_begin (x : Extractor) (registry : Registry) (held : item.content = some lease.id) :
    Phase (x.begin registry item).registry (x.begin registry item).session lease.id
      (x.begin registry item) :=
  phase_iff_headway.2 (headway_begin ⟨rfl, rfl, (congrArg Item.content item_begin).trans held⟩)

theorem ended_of_no_session (hnone : (x.begin registry item).session = none) :
    (x.begin registry item).decode = .ended := by
  unfold begin at hnone ⊢
  split at hnone
  · rfl
  · dsimp only at hnone ⊢
    split at hnone
    · rfl
    · cases hnone

/-! ### The end -/

/-- The moment of a race at which an extraction gives its answer. -/
def met (x : Extractor) (decoding : Decoding) (start : Race) : Race :=
  start.run x.encoder x.settings decoding (decoding.turns ++ List.replicate pathSteps .decode ++
    List.replicate pathSteps .deadline)

/-- The moment at which a decode path that was blocked has gone on. -/
def ended (x : Extractor) (decoding : Decoding) (start : Race) : Race :=
  (x.met decoding start).run x.encoder x.settings decoding (List.replicate pathSteps .decode)

theorem conclude_eq (x : Extractor) (decoding : Decoding) (start : Race) :
    x.conclude decoding start =
      { registry := (x.ended decoding start).registry, item := (x.ended decoding start).item
        result := answer (x.met decoding start), log := (x.ended decoding start).log
        opened := if start.item.content.isNone then [] else [start.item.source]
        sessions := start.session.toList, seeks := (x.ended decoding start).seeks
        commands := (x.ended decoding start).commands } := rfl

/-- When the answer is given the deadline path has stopped and the decode path is in no release;
then the decode path comes to where it cannot go on. -/
theorem stopped_met (x : Extractor) (decoding : Decoding) (start : Race) :
    (x.met decoding start).stepDeadline x.settings = none ∧
      (x.met decoding start).decode.Apart ∧
      (x.ended decoding start).deadline = (x.met decoding start).deadline ∧
      (x.ended decoding start).stepDecode x.encoder x.settings decoding = none := by
  let turned := start.run x.encoder x.settings decoding decoding.turns
  let worked := turned.run x.encoder x.settings decoding (List.replicate pathSteps .decode)
  have met_eq : x.met decoding start =
      worked.run x.encoder x.settings decoding (List.replicate pathSteps .deadline) := by
    rw [met, run_append, run_append]
  -- The decode path has stopped before the deadline path goes on alone.
  have stopped : worked.stepDecode x.encoder x.settings decoding = none :=
    stuck_run_decode _ _ (Nat.le_trans (DecodePoint.left_le _) (by decide))
  have same : (x.met decoding start).decode = worked.decode :=
    met_eq ▸ decode_run_deadline _ _
  refine ⟨?_, ?_, deadline_run_decode _ _, ?_⟩
  · rw [met_eq]
    exact stuck_run_deadline _ _ (Nat.le_trans (DeadlinePoint.left_le _) (by decide))
  · rw [same]
    rcases decode_of_stuck stopped with stop | ⟨stop, -⟩
    · rw [stop]
      trivial
    · exact apart_of_inStage stop
  · exact stuck_run_decode _ _ (Nat.le_trans (DecodePoint.left_le _) (by decide))

/-- The two moments of a race that an extraction reads: one at which the deadline path has stopped
and the decode path is in no release, and a later one. -/
theorem conclude_runs (x : Extractor) (decoding : Decoding) (start : Race) :
    ∃ order later met ended, met = start.run x.encoder x.settings decoding order ∧
      ended = met.run x.encoder x.settings decoding later ∧
      (x.conclude decoding start).registry = ended.registry ∧
      (x.conclude decoding start).item = ended.item ∧
      (x.conclude decoding start).result = answer met ∧
      met.stepDeadline x.settings = none ∧ met.decode.Apart ∧ ended.deadline = met.deadline := by
  obtain ⟨stuck, apart, still, -⟩ := stopped_met x decoding start
  exact ⟨_, _, x.met decoding start, x.ended decoding start, rfl, rfl, rfl, rfl, rfl, stuck, apart,
    still⟩

/-- When the answer is given the deadline path has returned. -/
theorem returned_met (x : Extractor) (decoding : Decoding) {base : Registry}
    {session : Option Nat} {id : Nat} {start : Race} (stake : Stake base session id)
    (phase : Phase base session id start) :
    Phase base session id (x.met decoding start) ∧
      (x.met decoding start).deadline = .returned := by
  obtain ⟨stuck, apart, -, -⟩ := stopped_met x decoding start
  have phase_met : Phase base session id (x.met decoding start) := phase.run stake _
  rcases phase_met.returned_of_stuck stuck with returned | ⟨next, note, h⟩
  · exact ⟨phase_met, returned⟩
  · rw [h] at apart
    exact apart.elim

/-- An extraction is concluded when the deadline path has returned and all is released. -/
theorem conclude_released (x : Extractor) (decoding : Decoding) {base : Registry}
    {session : Option Nat} {id : Nat} {start : Race} (stake : Stake base session id)
    (phase : Phase base session id start) :
    (x.conclude decoding start).registry = base.without (session.toList ++ [id]) ∧
      (x.conclude decoding start).item.content = none ∧
      ∃ r order, r = start.run x.encoder x.settings decoding order ∧ r.deadline = .returned ∧
        (x.conclude decoding start).result = answer r := by
  obtain ⟨phase_met, returned⟩ := returned_met x decoding stake phase
  obtain ⟨-, -, still, -⟩ := stopped_met x decoding start
  have phase_ended : Phase base session id (x.ended decoding start) := phase_met.run stake _
  obtain ⟨-, -, -, gone, content⟩ := phase_ended.settled_of_returned (still.trans returned)
  exact ⟨gone, content, x.met decoding start, _, rfl, returned, rfl⟩

/-- The registry at the end of a race, seen from before it. -/
theorem registry_released (sound : registry.Sound) (held : item.content = some lease.id) :
    ((x.begin registry item).registry.without
        ((x.begin registry item).session.toList ++ [lease.id])).registered =
        registry.registered.filter (·.id != lease.id) ∧
      ((x.begin registry item).registry.without
        ((x.begin registry item).session.toList ++ [lease.id])).closings =
        registry.closings ++ ((x.begin registry item).session.toList ++ [lease.id]) := by
  cases opening : (x.decoding registry item).opening with
  | error f =>
    rw [begin_of_refused held opening]
    refine ⟨List.filter_congr fun h _ => ?_, rfl⟩
    rw [Bool.eq_iff_iff]
    simp
  | ok _ =>
    rw [begin_of_opened held opening]
    refine ⟨?_, rfl⟩
    -- The session got a number beyond all that were given out, so it leaves no gap.
    have fresh : ∀ h ∈ registry.registered, h.id ≠ registry.issued + 1 := by
      intro h mem
      have := sound.registered_le h mem
      omega
    simp only [Registry.without, Registry.acquire, List.filter_append, Option.toList_some]
    rw [show List.filter _ [_] = [] by simp, List.append_nil]
    refine List.filter_congr fun h mem => ?_
    rw [Bool.eq_iff_iff]
    simp [fresh h mem]

/-- A session is opened exactly if opening succeeds, and its number is new. -/
theorem session_begin (sound : registry.Sound) (held : item.content = some lease.id) :
    ((x.begin registry item).session.isSome = true ↔
        (x.decoding registry item).opening = .ok ()) ∧
      ∀ id ∈ (x.begin registry item).session, ∀ h ∈ registry.registered, h.id ≠ id := by
  cases opening : (x.decoding registry item).opening with
  | error f => simp [begin_of_refused held opening]
  | ok _ =>
    rw [begin_of_opened held opening]
    refine ⟨by simp, fun id opened h mem => ?_⟩
    obtain rfl : registry.issued + 1 = id := by simpa using opened
    have := sound.registered_le h mem
    omega

/-- For every order in which the two paths take their steps: when the deadline path has returned
and the decode path has ended, one call has given the verdict, the session and the content have
been closed once, the item has let go of its content, and every other handle is registered and
open as before. A race that no step changes has come to that end. -/
theorem handles_released_once (x : Extractor) (registry : Registry) (item : Item)
    (lease : Handle) (sound : registry.Sound) (registered : lease ∈ registry.registered)
    (held : item.content = some lease.id) (mild : lease.Mild)
    (closing : ∀ f, (x.decoding registry item).closing = some f → f.isSystem = true)
    (order : List Party) :
    let decoding := x.decoding registry item
    let start := x.begin registry item
    let r := start.run x.encoder x.settings decoding order
    (r.deadline = .returned → r.decode = .ended →
      (answers x.encoder x.settings decoding order start).count true = 1 ∧
      (r.session.isSome = true ↔ decoding.opening = .ok ()) ∧
      (∀ id ∈ r.session, (∀ h ∈ registry.registered, h.id ≠ id) ∧
        r.registry.closings.count id = 1) ∧
      r.registry.closings.count lease.id = 1 ∧
      r.item.content = none ∧
      r.registry.registered = registry.registered.filter (·.id != lease.id) ∧
      ∀ h ∈ registry.registered, h.id ≠ lease.id →
        h ∈ r.registry.registered ∧ h.id ∉ r.registry.closings) ∧
    ((∀ party, r.step x.encoder x.settings decoding party = r) →
      r.deadline = .returned ∧ r.decode = .ended) := by
  intro decoding start r
  have stake := stake_begin (x := x) sound registered held mild closing
  have phase : Phase start.registry start.session lease.id r :=
    (phase_begin x registry held).run stake order
  refine ⟨fun returned _ => ?_, fun fixed => ?_⟩
  · obtain ⟨finished, -, due⟩ := phase.settled_of_returned returned
    obtain ⟨same, after, content⟩ := due
    obtain ⟨left, closed⟩ := registry_released (x := x) sound held
    have whole : r.registry.Sound := after ▸ stake.sound_without
    rw [← after] at left closed
    obtain ⟨some_iff, fresh⟩ := session_begin (x := x) sound held
    have once : ∀ id ∈ start.session.toList ++ [lease.id], r.registry.closings.count id = 1 := by
      intro id mem
      exact List.count_eq_one_of_mem whole.closed_once (closed ▸ List.mem_append_right _ mem)
    refine ⟨?_, same.symm ▸ some_iff, fun id opened => ?_, once _ (by simp), content, left,
      fun h mem other => ?_⟩
    · have count : (answers x.encoder x.settings decoding order start).count true +
          start.gate.finished.toNat = r.gate.finished.toNat :=
        count_answers stake (phase_begin x registry held) order
      rw [gate_begin, finished] at count
      exact count
    · rw [same] at opened
      exact ⟨fresh id opened, once id (by simp [Option.mem_toList.2 opened])⟩
    · have kept : h ∈ r.registry.registered := left ▸ List.mem_filter.2 ⟨mem, by simpa using other⟩
      exact ⟨kept, whole.not_closed h kept⟩
  · refine phase.ended_of_stuck ?_ (stuck_of_step_decode (fixed .decode))
      (stuck_of_step_deadline (fixed .deadline))
    intro hnone
    exact ended_run order (ended_of_no_session ((session_run order start).symm.trans hnone))

/-- An extractor whose sessions hang while they read the metadata, and are closed badly. -/
def hanging : Extractor where
  backend _ _ :=
    { metadata := { result := .error (.decode .sessionClosed), blocks := true }
      seek := fun _ => { result := .ok () }
      capture := fun _ => { result := .error (.decode .sessionClosed) }
      closing := some (.file .denied "clip.mp4") }
  settings := ⟨.one, 640, 70⟩
  encoder := default

/-- The content of a clip under the number 1, and a stream under the number 2. -/
def leased : Registry := ⟨2, [⟨1, "content", none⟩, ⟨2, "playback", none⟩], []⟩

/-- A clip that holds its content. -/
def clip : Item :=
  ⟨"clip.mp4", "clip.mp4", none, none, "video/mp4", ⟨"", ["clip.mp4"]⟩, some 1, none, none, []⟩

theorem sound_leased : leased.Sound := ⟨by decide, by decide, by decide, by decide, by decide⟩

theorem mild_hanging (f : Failure) (raised : (hanging.decoding leased clip).closing = some f) :
    f.isSystem = true := by
  obtain rfl : Failure.file .denied "clip.mp4" = f := Option.some.inj raised
  rfl

/-- The deadline passes while the metadata is read, and the decode path goes on between the two
parts of the release. -/
def handover : List Party :=
  [.decode, .deadline, .deadline, .deadline, .decode, .decode, .deadline, .deadline]

/-- The clip lets go of its content, and the stream stays registered. -/
theorem handles_released_once_hanging :
    let decoding := hanging.decoding leased clip
    let start := hanging.begin leased clip
    let r := start.run hanging.encoder hanging.settings decoding handover
    r.deadline = .returned ∧ r.decode = .ended ∧
      (answers hanging.encoder hanging.settings decoding handover start).count true = 1 ∧
      r.session = some 3 ∧ r.registry.closings.count 3 = 1 ∧ r.registry.closings.count 1 = 1 ∧
      r.item.content = none ∧ r.registry.registered = [⟨2, "playback", none⟩] := by
  have returned : ((hanging.begin leased clip).run hanging.encoder hanging.settings
      (hanging.decoding leased clip) handover).deadline = .returned := by decide +kernel
  have ended : ((hanging.begin leased clip).run hanging.encoder hanging.settings
      (hanging.decoding leased clip) handover).decode = .ended :=
    DecodePoint.ended_of_left (by decide +kernel)
  obtain ⟨verdict, -, session, content, gone, left, -⟩ :=
    (handles_released_once hanging leased clip ⟨1, "content", none⟩ sound_leased (by decide) rfl
      (by simp [Handle.Mild]) mild_hanging handover).1 returned ended
  have three : ((hanging.begin leased clip).run hanging.encoder hanging.settings
      (hanging.decoding leased clip) handover).session = some 3 := session_run _ _
  exact ⟨returned, ended, verdict, three, (session 3 three).2, content, gone, left⟩

end VideoCatalog.Extractor
