import VideoCatalog.Proofs.Enrichment.Extraction
import VideoCatalog.Proofs.Handles.Emptying

/-!
# Content that stays behind

The release closes the decode session and then the content. A failure that is more than a refusal
of the operating system ends it where it occurs, so a session that cannot be closed leaves the
content of its item registered and open, whichever path gives the verdict.

* `Race.Pledge`: the session and the content of a race, whatever closing them does.
* `Release.Stands`: how much of the two is released when a part of the release is next.
* `Pledge.carried`: this is carried from part to part, so `Headway.run` applies.
* `Extractor.content_released_iff`: what a race has released at its end.
-/

namespace VideoCatalog

namespace Registry

variable {r : Registry} {h : Handle}

theorem result_release (found : r.find? h.id = some h) :
    (r.release h.id).result = (closingResult [h]).map fun _ => true := by
  unfold release
  rw [found]
  exact congrArg (Except.map fun _ => true) (result_close_eq _ h)

end Registry

/-- The registry holds the content of an item and the session, if there is one. Closing them may
raise anything. -/
structure Race.Pledge (base : Registry) (session : Option Handle) (lease : Handle) : Prop where
  sound : base.Sound
  content : lease ∈ base.registered
  decoding : ∀ h ∈ session, h.id ≠ lease.id ∧ h ∈ base.registered

/-- What the release closes, in this order. -/
def Race.due (session : Option Handle) (lease : Handle) : List Handle := session.toList ++ [lease]

/-- What has been released when a part of the release is next. The failure that has ended the
release is the first one that closing raises. -/
def Release.Stands (base : Registry) (session : Option Handle) (lease : Handle) (r : Race)
    (next : Release) : Prop :=
  r.session = session.map (·.id) ∧
  match next with
  | .session => r.registry = base ∧ r.item.content = some lease.id
  | .content =>
    (∀ h ∈ session, h.Mild) ∧ r.registry = base.without (session.toList.map (·.id)) ∧
      r.item.content = some lease.id
  | .finish failed =>
    failed = (Race.due session lease).findSome? Handle.severe? ∧
      r.registry = base.without ((Registry.reached (Race.due session lease)).map (·.id)) ∧
      r.item.content = failed.map fun _ => lease.id

namespace Race

variable {encoder : Encoder} {settings : ExtractionSettings}
  {decoding : Decoding} {base : Registry} {session : Option Handle} {lease : Handle} {r r' : Race}

/-! ### The parts of the release -/

theorem due_of_severe (lease : Handle) {h : Handle} {f : Failure} (severe : h.severe? = some f) :
    (due (some h) lease).findSome? Handle.severe? = some f ∧
      Registry.reached (due (some h) lease) = [h] :=
  ⟨by simp [due, severe], (Registry.reached_of_severe _ severe).1⟩

theorem due_of_mild (lease : Handle) (mild : ∀ h ∈ session, h.Mild) :
    (due session lease).findSome? Handle.severe? = lease.severe? ∧
      Registry.reached (due session lease) = due session lease := by
  constructor
  · cases session with
    | none => simp [due]
    | some h => simp [due, Handle.mild_iff.1 (mild h rfl)]
  · refine (Registry.reached_eq_self_iff _).2 fun h mem => mild h ?_
    simpa [due] using mem

/-- The session is closed in any case. -/
theorem session_reached {h : Handle} (opened : h ∈ session) :
    h ∈ Registry.reached (due session lease) := by
  obtain rfl : session = some h := opened
  cases severe : h.severe? with
  | some f => simp [(due_of_severe lease severe).2]
  | none => simp [due, Registry.reached, severe]

/-- The content is closed unless closing the session fails. -/
theorem lease_reached_iff (pledge : Pledge base session lease) :
    lease ∈ Registry.reached (due session lease) ↔ ∀ h ∈ session, h.Mild := by
  constructor
  · intro front h opened
    obtain rfl : session = some h := opened
    refine Handle.mild_iff.2 ?_
    by_contra fails
    obtain ⟨f, severe⟩ := Option.ne_none_iff_exists'.1 fails
    rw [(due_of_severe lease severe).2, List.mem_singleton] at front
    exact (pledge.decoding h rfl).1 (congrArg Handle.id front.symm)
  · intro mild
    rw [(due_of_mild lease mild).2]
    exact List.mem_append_right _ List.mem_cons_self

theorem Pledge.mem_due (pledge : Pledge base session lease) {h : Handle}
    (mem : h ∈ due session lease) : h ∈ base.registered := by
  rcases List.mem_append.1 mem with mem | mem
  · exact (pledge.decoding h (Option.mem_toList.1 mem)).2
  · exact List.mem_singleton.1 mem ▸ pledge.content

theorem Pledge.sound_without (pledge : Pledge base session lease) :
    (base.without ((Registry.reached (due session lease)).map (·.id))).Sound := by
  have among := Registry.prefix_reached (due session lease)
  refine pledge.sound.without (List.Nodup.sublist (among.sublist.map _) ?_) fun id mem => ?_
  · cases session with
    | none => simp [due]
    | some h => simpa [due] using (pledge.decoding h rfl).1
  · obtain ⟨h, front, rfl⟩ := List.mem_map.1 mem
    exact ⟨h, pledge.mem_due (among.subset front), rfl⟩

/-- Closing the session fails or goes on to the content. -/
theorem Pledge.release_session (pledge : Pledge base session lease) :
    (base.release? (session.map (·.id))).registry = base.without (session.toList.map (·.id)) ∧
      ((∀ h ∈ session, h.Mild) ∧
          (∃ b, (base.release? (session.map (·.id))).result = .ok b) ∨
        ∃ h f, session = some h ∧ h.severe? = some f ∧
          (base.release? (session.map (·.id))).result = .error f) := by
  cases session with
  | none => exact ⟨(base.without_nil).symm, .inl ⟨by simp, false, rfl⟩⟩
  | some h =>
    obtain ⟨-, mem⟩ := pledge.decoding h rfl
    have found : base.find? h.id = some h :=
      Registry.find?_eq mem fun g there same => pledge.sound.eq_of_id there mem same
    have result := Registry.result_release found
    refine ⟨?_, ?_⟩
    · have released := (Registry.release_without pledge.sound mem List.not_mem_nil).1
      rwa [Registry.without_nil] at released
    · cases severe : h.severe? with
      | none =>
        rw [(Registry.reached_of_mild _ severe).2] at result
        exact .inl ⟨fun g same => Option.some.inj same ▸ Handle.mild_iff.2 severe, true, result⟩
      | some f =>
        rw [(Registry.reached_of_severe _ severe).2] at result
        exact .inr ⟨h, f, rfl, severe, result⟩

/-- So does closing the content afterwards. -/
theorem Pledge.release_content (pledge : Pledge base session lease) :
    let before := base.without (session.toList.map (·.id))
    (before.release lease.id).registry = base.without ((due session lease).map (·.id)) ∧
      (before.release lease.id).result =
        match lease.severe? with
        | some f => .error f
        | none => .ok true := by
  intro before
  have out : lease.id ∉ session.toList.map (·.id) := by
    intro twice
    obtain ⟨h, mem, same⟩ := List.mem_map.1 twice
    exact (pledge.decoding h (Option.mem_toList.1 mem)).1 same
  have found : before.find? lease.id = some lease :=
    Registry.find?_eq (Registry.mem_without.2 ⟨pledge.content, out⟩) fun g left same =>
      pledge.sound.eq_of_id (Registry.mem_without.1 left).1 pledge.content same
  refine ⟨?_, ?_⟩
  · rw [(Registry.release_without pledge.sound pledge.content out).1]
    simp [due]
  · rw [Registry.result_release found]
    cases severe : lease.severe? with
    | none => rw [(Registry.reached_of_mild _ severe).2]; rfl
    | some f => rw [(Registry.reached_of_severe _ severe).2]; rfl

/-- A part of the release leads to the next one with what stands then. -/
theorem Stands.releaseStep {next later : Release} (pledge : Pledge base session lease)
    (stands : next.Stands base session lease r) (more : (r.releaseStep next).2 = some later) :
    later.Stands base session lease (r.releaseStep next).1 := by
  obtain ⟨own, rest⟩ := stands
  cases next with
  | session =>
    obtain ⟨rfl, held⟩ := rest
    obtain ⟨registry, ⟨mild, b, ok⟩ | ⟨h, f, rfl, severe, failed⟩⟩ := pledge.release_session
    · rw [← own] at registry ok
      simp only [Race.releaseStep, ok, Option.some.injEq] at more ⊢
      subst more
      exact ⟨own, mild, registry, held⟩
    · rw [← own] at registry failed
      simp only [Race.releaseStep, failed, Option.some.injEq] at more ⊢
      subst more
      obtain ⟨first, front⟩ := due_of_severe lease severe
      exact ⟨own, first.symm, by rw [front]; exact registry, held⟩
  | content =>
    obtain ⟨mild, registry, held⟩ := rest
    obtain ⟨after, result⟩ := pledge.release_content
    obtain ⟨first, front⟩ := due_of_mild lease mild
    rw [← registry] at after result
    cases severe : lease.severe? with
    | none =>
      simp only [severe] at result
      simp only [Race.releaseStep, held, Registry.release?, result, Option.some.injEq] at more ⊢
      subst more
      exact ⟨own, (first.trans severe).symm, by rw [front]; exact after, rfl⟩
    | some f =>
      simp only [severe] at result
      simp only [Race.releaseStep, held, Registry.release?, result, Option.some.injEq] at more ⊢
      subst more
      exact ⟨own, (first.trans severe).symm, by rw [front]; exact after, held⟩
  | finish failed => simp [Race.releaseStep] at more

/-- What stands depends on the registry, the session and the content of the item alone. -/
theorem Stands.congr {next : Release} (stands : next.Stands base session lease r)
    (same : r'.session = r.session) (registry : r'.registry = r.registry)
    (content : r'.item.content = r.item.content) : next.Stands base session lease r' := by
  unfold Release.Stands at stands ⊢
  rwa [same, registry, content]

theorem Pledge.carried (pledge : Pledge base session lease) :
    Carried fun next r => next.Stands base session lease r where
  congr := Stands.congr
  onward := Stands.releaseStep pledge

/-! ### The end of a race -/

/-- A session is closed when the release is over. -/
theorem sessionClosed_of_stands {failed : Option Failure}
    (stands : (Release.finish failed).Stands base session lease r)
    (opened : r.session.isSome = true) : r.sessionClosed = true := by
  obtain ⟨own, -, registry, -⟩ := stands
  cases session with
  | none => simp [own] at opened
  | some h =>
    rw [sessionClosed, own, registry]
    exact Registry.isClosed_without.2 (.inr (List.mem_map_of_mem (session_reached rfl)))

end Race

namespace Extractor

open Race

variable {x : Extractor} {registry : Registry} {item : Item} {lease : Handle}

/-- The handle of the session that is opened for an item. -/
def sessionOf (x : Extractor) (registry : Registry) (item : Item) : Option Handle :=
  match (x.decoding registry item).opening with
  | .error _ => none
  | .ok _ =>
    some ⟨registry.issued + 1, Registry.decodeKind, (x.decoding registry item).closing⟩

theorem pledge_begin (sound : registry.Sound) (registered : lease ∈ registry.registered)
    (held : item.content = some lease.id) :
    Pledge (x.begin registry item).registry (x.sessionOf registry item) lease := by
  unfold sessionOf
  cases opening : (x.decoding registry item).opening with
  | error f =>
    rw [begin_of_refused held opening]
    exact ⟨sound, registered, by simp⟩
  | ok _ =>
    rw [begin_of_opened held opening]
    refine ⟨sound.acquire _ _, List.mem_append_left _ registered, fun h opened => ?_⟩
    obtain rfl := Option.some.inj opened
    have := sound.registered_le lease registered
    exact ⟨by dsimp only; omega, by simp [Registry.acquire]⟩

theorem headway_stands_begin (x : Extractor) (registry : Registry)
    (held : item.content = some lease.id) :
    Headway
      (fun next r => next.Stands (x.begin registry item).registry (x.sessionOf registry item) lease r)
      (x.begin registry item) := by
  refine headway_begin ⟨?_, rfl, (congrArg Item.content item_begin).trans held⟩
  unfold sessionOf
  cases opening : (x.decoding registry item).opening with
  | error f => rw [begin_of_refused held opening]; rfl
  | ok _ => rw [begin_of_opened held opening]; rfl

/-- A session that cannot be closed is one that is opened and whose closing fails. -/
theorem mild_sessionOf_iff :
    (∀ h ∈ x.sessionOf registry item, h.Mild) ↔
      ¬((x.decoding registry item).opening = .ok () ∧
        ∃ f, (x.decoding registry item).closing = some f ∧ f.isSystem = false) := by
  unfold sessionOf
  cases (x.decoding registry item).opening with
  | error f => simp
  | ok _ => simp [Handle.Mild]

/-- For every order in which the two paths take their steps. When both have ended, by a return or
by a failure, the session has been closed once and is out of the registry. If closing it raised
more than a refusal of the operating system then the content is still registered and open, and the
item still holds it; otherwise the content has been closed once and is out of the registry, and
the item has let go of it unless closing it failed in turn. A race that no step changes has come to
that end. -/
theorem content_released_iff (x : Extractor) (registry : Registry) (item : Item) (lease : Handle)
    (sound : registry.Sound) (registered : lease ∈ registry.registered)
    (held : item.content = some lease.id) (order : List Party) :
    let decoding := x.decoding registry item
    let start := x.begin registry item
    let r := start.run x.encoder x.settings decoding order
    let stranded := decoding.opening = .ok () ∧
      ∃ f, decoding.closing = some f ∧ f.isSystem = false
    (r.deadline.Over → r.decode = .ended →
      (∀ id ∈ r.session,
        r.registry.closings.count id = 1 ∧ ∀ h ∈ r.registry.registered, h.id ≠ id) ∧
      (stranded → lease ∈ r.registry.registered ∧ lease.id ∉ r.registry.closings ∧
        r.item.content = some lease.id) ∧
      (¬stranded → lease ∉ r.registry.registered ∧ r.registry.closings.count lease.id = 1 ∧
        (r.item.content = none ↔ lease.Mild))) ∧
    ((∀ party, r.step x.encoder x.settings decoding party = r) →
      r.deadline.Over ∧ r.decode = .ended) := by
  intro decoding start r stranded
  let session := x.sessionOf registry item
  have pledge : Pledge start.registry session lease := pledge_begin sound registered held
  have headway : Headway (fun next r => next.Stands start.registry session lease r) r :=
    (headway_stands_begin x registry held).run pledge.carried order
  refine ⟨fun ended _ => ?_, fun fixed => ?_⟩
  · obtain ⟨-, -, failed, ⟨own, first, after, content⟩, -⟩ := headway.held_of_over ended
    have whole : r.registry.Sound := after ▸ pledge.sound_without
    -- What the release reached is closed once and out, and nothing else.
    have reached {h : Handle} (front : h ∈ Registry.reached (due session lease)) :
        r.registry.closings.count h.id = 1 ∧ ∀ g ∈ r.registry.registered, g.id ≠ h.id := by
      have closed : h.id ∈ r.registry.closings := by
        rw [after]
        exact List.mem_append_right _ (List.mem_map_of_mem front)
      exact ⟨List.count_eq_one_of_mem whole.closed_once closed,
        fun g mem same => whole.not_closed g mem (same ▸ closed)⟩
    refine ⟨fun id opened => ?_, fun bad => ?_, fun fine => ?_⟩
    · rw [own] at opened
      obtain ⟨h, there, rfl⟩ := Option.map_eq_some_iff.1 opened
      exact reached (session_reached there)
    · obtain ⟨h, there, fails⟩ : ∃ h ∈ session, ¬h.Mild := by
        by_contra none
        refine mild_sessionOf_iff.1 (fun h there => ?_) bad
        exact not_not.1 fun fails => none ⟨h, there, fails⟩
      obtain ⟨f, severe⟩ := Option.ne_none_iff_exists'.1 (mt Handle.mild_iff.2 fails)
      obtain rfl : failed = some f := by
        rw [show session = some h from there] at first
        exact first.trans (due_of_severe lease severe).1
      have kept : lease ∈ r.registry.registered := by
        rw [after, show session = some h from there, (due_of_severe lease severe).2]
        refine Registry.mem_without.2 ⟨pledge.content, ?_⟩
        simpa using (pledge.decoding h there).1.symm
      exact ⟨kept, whole.not_closed lease kept, content⟩
    · have mild : ∀ h ∈ session, h.Mild := mild_sessionOf_iff.2 fine
      obtain ⟨once, out⟩ := reached ((lease_reached_iff pledge).2 mild)
      refine ⟨fun mem => out lease mem rfl, once, ?_⟩
      rw [content, Option.map_eq_none_iff, first, (due_of_mild lease mild).1, Handle.mild_iff]
  · refine headway.ended_of_stuck ?_ (fun _ => sessionClosed_of_stands)
      (stuck_of_step_decode (fixed .decode))
      (stuck_of_step_deadline (fixed .deadline))
    intro hnone
    exact ended_run order (ended_of_no_session ((session_run order start).symm.trans hnone))

/-- An extractor whose sessions hang and cannot be closed. -/
def clinging : Extractor where
  backend path closed :=
    { hanging.backend path closed with
      closing := some (.raised (.other "ValueError") "close failed") }
  settings := hanging.settings
  encoder := hanging.encoder

/-- The decode path hangs, the deadline path gives the verdict and closes the session, and its
failure ends the release. -/
theorem content_released_iff_clinging :
    let r := (clinging.begin leased clip).run clinging.encoder clinging.settings
      (clinging.decoding leased clip)
      [.decode, .deadline, .deadline, .deadline, .deadline, .decode, .decode]
    r.deadline = .failed (.raised (.other "ValueError") "close failed") ∧ r.decode = .ended ∧
      r.registry.closings.count 3 = 1 ∧
      (⟨1, "content", none⟩ : Handle) ∈ r.registry.registered ∧ 1 ∉ r.registry.closings ∧
      r.item.content = some 1 := by
  intro r
  have failed : r.deadline = .failed (.raised (.other "ValueError") "close failed") := by
    decide +kernel
  have ended : r.decode = .ended := DecodePoint.ended_of_left (by decide +kernel)
  obtain ⟨session, stranded, -⟩ := (content_released_iff clinging leased clip
    ⟨1, "content", none⟩ sound_leased (by decide) rfl _).1 (failed ▸ trivial) ended
  exact ⟨failed, ended, (session 3 (session_run _ _)).1, stranded ⟨rfl, _, rfl, rfl⟩⟩

end Extractor

end VideoCatalog
