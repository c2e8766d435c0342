import VideoCatalog.Enrichment.Extraction
import VideoCatalog.Proofs.Enrichment.Moves
import VideoCatalog.Proofs.Handles.Ownership

/-!
# One release for every race

Whichever path gives the first verdict takes the decode session and the content out of the
registry, and no other step of a race touches the registry.

* `Race.Headway`: nothing is decided, or one of the two paths is releasing, or the release is over.
  `Headway.run` says that every order of steps keeps it, whatever is carried from part to part.
* `Race.Stake`: what the registry holds for a race when it starts.
* `Release.Due`: what a race holds when a part of the release is next.
* `Race.Phase`: the same where no part of the release fails; `Phase.run` is a whole run.
* `Race.answers`: what the calls that give verdicts answer along a run.
* `Phase.ended_of_stuck`: a race in which no path can go on is over.
-/

namespace VideoCatalog

/-- Whether the decode path is not releasing anything. -/
def DecodePoint.Apart : DecodePoint → Prop
  | .releasing .. => False
  | _ => True

/-- Whether the deadline path has still to learn or to give a verdict. -/
def DeadlinePoint.Waits : DeadlinePoint → Prop
  | .waiting | .resorting _ | .yielding => True
  | _ => False

/-- Whether the deadline path has come to its end. -/
def DeadlinePoint.Over : DeadlinePoint → Prop
  | .returned | .failed _ => True
  | _ => False

/-- The registry holds the content of the item under one number, and the decode session, if
there is one, under another. Closing them raises no more than refusals of the system. -/
structure Race.Stake (base : Registry) (session : Option Nat) (lease : Nat) : Prop where
  sound : base.Sound
  content : ∃ h ∈ base.registered, h.id = lease ∧ h.Mild
  decoding : ∀ id ∈ session, id ≠ lease ∧ ∃ h ∈ base.registered, h.id = id ∧ h.Mild

/-- What a race holds when a part of the release is next. A part that fails is never next. -/
def Release.Due (base : Registry) (session : Option Nat) (lease : Nat) (r : Race) :
    Release → Prop
  | .session => r.session = session ∧ r.registry = base ∧ r.item.content = some lease
  | .content =>
    r.session = session ∧ r.registry = base.without session.toList ∧
      r.item.content = some lease
  | .finish none =>
    r.session = session ∧ r.registry = base.without (session.toList ++ [lease]) ∧
      r.item.content = none
  | .finish (some _) => False

namespace Race

variable {encoder : Encoder} {settings : ExtractionSettings}
  {decoding : Decoding} {base : Registry} {session : Option Nat} {lease : Nat} {r r' : Race}

/-! ### How far a race has come -/

/-- What a race holds when a part of the release is next depends on its session, its registry and
the content of its item alone, and each part leads to what is held when the next one is. -/
structure Carried (Held : Release → Race → Prop) : Prop where
  congr : ∀ {next : Release} {r r' : Race}, Held next r → r'.session = r.session →
    r'.registry = r.registry → r'.item.content = r.item.content → Held next r'
  onward : ∀ {next later : Release} {r : Race}, Held next r →
    (r.releaseStep next).2 = some later → Held later (r.releaseStep next).1

/-- How far a race has come with the release, which may end early. A deadline path fails with what
has ended its release. -/
inductive Headway (Held : Release → Race → Prop) (r : Race) : Prop
  | undecided (gate : r.gate = ⟨none, false⟩) (decode : r.decode.Apart)
      (deadline : r.deadline.Waits) (undefeated : r.deadline ≠ .yielding)
      (held : Held .session r)
  | byDecode {v : Ruling} {next : Release} {note : Record} (gate : r.gate = ⟨some v, false⟩)
      (decode : r.decode = .releasing next note) (deadline : r.deadline.Waits)
      (held : Held next r)
  | byDeadline {v : Ruling} {next : Release} {notes : List Record}
      (gate : r.gate = ⟨some v, false⟩) (decode : r.decode.Apart)
      (deadline : r.deadline = .releasing next notes) (held : Held next r)
  | done {v : Ruling} {failed : Option Failure} (gate : r.gate = ⟨some v, true⟩)
      (decode : r.decode.Apart)
      (deadline : r.deadline.Waits ∨ r.deadline = .returned ∨
        ∃ f, failed = some f ∧ r.deadline = .failed f)
      (held : Held (.finish failed) r)

section Headway

variable {Held : Release → Race → Prop}

/-- A decode path that is releasing gave the verdict. -/
theorem Headway.of_decode_releasing (headway : Headway Held r) {next : Release} {note : Record}
    (hat : r.decode = .releasing next note) :
    ∃ v, r.gate = ⟨some v, false⟩ ∧ r.deadline.Waits ∧ Held next r := by
  cases headway with
  | byDecode gate d waits held =>
    rw [hat] at d
    cases d
    exact ⟨_, gate, waits, held⟩
  | undecided _ d | byDeadline _ d | done _ d => rw [hat] at d; exact d.elim

/-- So did a deadline path that is releasing. -/
theorem Headway.of_deadline_releasing (headway : Headway Held r) {next : Release}
    {notes : List Record} (hat : r.deadline = .releasing next notes) :
    ∃ v, r.gate = ⟨some v, false⟩ ∧ r.decode.Apart ∧ Held next r := by
  cases headway with
  | byDeadline gate apart d held =>
    rw [hat] at d
    cases d
    exact ⟨_, gate, apart, held⟩
  | undecided _ _ d | byDecode _ _ d => rw [hat] at d; exact d.elim
  | done _ _ d => rw [hat] at d; rcases d with d | d | ⟨f, -, d⟩ <;> cases d

/-- A move of the decode path that neither decides nor releases. -/
theorem Headway.aside (carried : Carried Held) (headway : Headway Held r)
    (before : r.decode.Apart) (after : r'.decode.Apart) (gate : r'.gate = r.gate)
    (deadline : r'.deadline = r.deadline) (same : r'.session = r.session)
    (registry : r'.registry = r.registry) (content : r'.item.content = r.item.content) :
    Headway Held r' := by
  cases headway with
  | undecided g _ d u held =>
    exact .undecided (gate.trans g) after (deadline ▸ d) (deadline ▸ u)
      (carried.congr held same registry content)
  -- A decode path that is releasing does nothing else.
  | byDecode _ hat => rw [hat] at before; exact before.elim
  | byDeadline g _ d held =>
    exact .byDeadline (gate.trans g) after (deadline.trans d)
      (carried.congr held same registry content)
  | done g _ d held =>
    exact .done (gate.trans g) after (deadline ▸ d) (carried.congr held same registry content)

theorem apart_of_leads {metadata : Except Failure Value} {p : DecodePoint}
    (leads : p.Leads metadata) : p.Apart := by
  cases leads <;> trivial

theorem apart_of_inStage {p : DecodePoint} (stage : p.InStage) : p.Apart := by
  cases p <;> trivial

theorem content_noted (r : Race) (seconds : Binary64) :
    (r.noted seconds).content = r.item.content := by
  unfold noted Item.recordDuration
  split
  · split <;> rfl
  · rfl

theorem content_kept (r : Race) (thumbnail : Thumbnail) :
    (r.kept thumbnail).content = r.item.content := by
  unfold kept Item.recordThumbnail
  split
  · split <;> rfl
  · rfl

theorem Headway.decodeMove (carried : Carried Held) (headway : Headway Held r)
    (move : DecodeMove decoding r r') : Headway Held r' := by
  cases move with
  | pass hat leads =>
    exact headway.aside carried (apart_of_inStage hat) (apart_of_leads leads) rfl rfl rfl rfl rfl
  | note hat =>
    exact headway.aside carried (hat ▸ trivial) trivial rfl rfl rfl rfl (content_noted r _)
  | keep hat =>
    exact headway.aside carried (hat ▸ trivial) trivial rfl rfl rfl rfl (content_kept r _)
  | lose hat => exact headway.aside carried (hat ▸ trivial) trivial rfl rfl rfl rfl rfl
  | @win ruling _ _ hat first =>
    cases headway with
    | undecided g _ d _ held =>
      have gate : { r.gate with verdict := some ruling } = Gate.mk (some ruling) false := by rw [g]
      exact .byDecode gate rfl d (carried.congr held rfl rfl rfl)
    | byDecode g | byDeadline g | done g => rw [g] at first; cases first
  | release hat more =>
    obtain ⟨v, gate, waits, held⟩ := headway.of_decode_releasing hat
    refine .byDecode ((gate_releaseStep more).trans gate) rfl ?_
      (carried.congr (carried.onward held more) rfl rfl rfl)
    exact (deadline_releaseStep r _).symm ▸ waits
  | finish hat =>
    -- The gate is finished whether the release failed or not.
    obtain ⟨v, verdict, waits, held⟩ := headway.of_decode_releasing hat
    have gate : r.gate.finish = ⟨some v, true⟩ := by rw [verdict]; rfl
    exact .done gate trivial (.inl waits) (carried.congr held rfl rfl rfl)

theorem Headway.deadlineMove (carried : Carried Held) (headway : Headway Held r)
    (move : DeadlineMove r r') : Headway Held r' := by
  cases move with
  | expire hat unfinished =>
    cases headway with
    | undecided g d _ _ held =>
      exact .undecided g d trivial (by simp) (carried.congr held rfl rfl rfl)
    | byDecode g d _ held => exact .byDecode g d trivial (carried.congr held rfl rfl rfl)
    | byDeadline _ _ d => rw [hat] at d; cases d
    | done g => rw [g] at unfinished; cases unfinished
  | wake hat finished =>
    cases headway with
    | done g d _ held => exact .done g d (.inr (.inl rfl)) (carried.congr held rfl rfl rfl)
    | undecided g | byDecode g | byDeadline g => rw [g] at finished; cases finished
  | lose hat late =>
    cases headway with
    | undecided g => rw [g] at late; cases late
    | byDecode g d _ held => exact .byDecode g d trivial (carried.congr held rfl rfl rfl)
    | byDeadline _ _ d => rw [hat] at d; cases d
    | done g d _ held => exact .done g d (.inl trivial) (carried.congr held rfl rfl rfl)
  | @win why _ hat first =>
    cases headway with
    | undecided g d _ _ held =>
      have gate : { r.gate with verdict := some why.ruling } =
          Gate.mk (some why.ruling) false := by rw [g]
      exact .byDeadline gate d rfl (carried.congr held rfl rfl rfl)
    | byDecode g | byDeadline g | done g => rw [g] at first; cases first
  | release hat more =>
    obtain ⟨v, gate, apart, held⟩ := headway.of_deadline_releasing hat
    refine .byDeadline ((gate_releaseStep more).trans gate) ?_ rfl
      (carried.congr (carried.onward held more) rfl rfl rfl)
    exact (decode_releaseStep r _).symm ▸ apart
  | finish hat =>
    obtain ⟨v, verdict, apart, held⟩ := headway.of_deadline_releasing hat
    have gate : r.gate.finish = ⟨some v, true⟩ := by rw [verdict]; rfl
    exact .done gate apart (.inr (.inl rfl)) (carried.congr held rfl rfl rfl)
  | fail hat =>
    obtain ⟨v, verdict, apart, held⟩ := headway.of_deadline_releasing hat
    have gate : r.gate.finish = ⟨some v, true⟩ := by rw [verdict]; rfl
    exact .done gate apart (.inr (.inr ⟨_, rfl, rfl⟩)) (carried.congr held rfl rfl rfl)

/-- The invariant holds under every order of steps. -/
theorem Headway.run (carried : Carried Held) (headway : Headway Held r) (order : List Party) :
    Headway Held (r.run encoder settings decoding order) :=
  run_induction (fun _ _ move headway => headway.decodeMove carried move)
    (fun _ _ move headway => headway.deadlineMove carried move) order headway

/-- When the deadline path has come to its end the release is over. -/
theorem Headway.held_of_over (headway : Headway Held r) (ended : r.deadline.Over) :
    r.gate.finished = true ∧ r.gate.verdict.isSome = true ∧
      ∃ failed, Held (.finish failed) r ∧ ∀ f, r.deadline = .failed f → failed = some f := by
  cases headway with
  | done g _ d held =>
    refine ⟨by rw [g], by rw [g]; rfl, _, held, fun f stop => ?_⟩
    rw [stop] at d
    rcases d with d | d | ⟨f', same, d⟩
    · exact d.elim
    · cases d
    · cases d
      exact same
  | undecided _ _ d | byDecode _ _ d =>
    cases hat : r.deadline <;> rw [hat] at d ended <;> first | exact d.elim | exact ended.elim
  | byDeadline _ _ d => rw [d] at ended; exact ended.elim

/-- A deadline path that cannot go on waits for a release that has begun, or has come to its end. -/
theorem Headway.over_of_stuck (headway : Headway Held r) (stuck : r.stepDeadline settings = none) :
    r.deadline.Over ∨ ∃ next note, r.decode = .releasing next note := by
  rcases deadline_of_stuck stuck with stop | ⟨f, stop⟩ | ⟨stop, unfinished⟩
  · exact .inl (stop ▸ trivial)
  · exact .inl (stop ▸ trivial)
  · cases headway with
    | undecided _ _ _ u => exact absurd stop u
    | byDecode _ d => exact .inr ⟨_, _, d⟩
    | byDeadline _ _ d => rw [stop] at d; cases d
    | done g => rw [g] at unfinished; cases unfinished

/-- A race in which no path can go on is over. A path without a session has not set out, and the
session is closed when the release is over. -/
theorem Headway.ended_of_stuck (headway : Headway Held r)
    (set_out : r.session = none → r.decode = .ended)
    (closed : ∀ failed, Held (.finish failed) r → r.session.isSome = true → r.sessionClosed = true)
    (decode : r.stepDecode encoder settings decoding = none)
    (deadline : r.stepDeadline settings = none) : r.deadline.Over ∧ r.decode = .ended := by
  have ended : r.deadline.Over := by
    rcases headway.over_of_stuck deadline with ended | ⟨next, note, h⟩
    · exact ended
    · rcases decode_of_stuck decode with stop | ⟨stop, -⟩ <;> rw [h] at stop
      · cases stop
      · exact stop.elim
  refine ⟨ended, ?_⟩
  rcases decode_of_stuck decode with stop | ⟨-, blocked⟩
  · exact stop
  · cases opened : r.session with
    | none => exact set_out opened
    | some id =>
      -- The session was closed at the end of the release, so no stage blocks.
      obtain ⟨-, -, failed, held, -⟩ := headway.held_of_over ended
      rw [closed failed held (by simp [opened])] at blocked
      cases blocked

end Headway

/-- How far a race has come with the release. -/
inductive Phase (base : Registry) (session : Option Nat) (lease : Nat) (r : Race) : Prop
  | undecided (gate : r.gate = ⟨none, false⟩) (decode : r.decode.Apart)
      (deadline : r.deadline.Waits) (undefeated : r.deadline ≠ .yielding)
      (held : Release.session.Due base session lease r)
  | decodeWon {v : Ruling} {next : Release} {note : Record} (gate : r.gate = ⟨some v, false⟩)
      (decode : r.decode = .releasing next note) (deadline : r.deadline.Waits)
      (due : next.Due base session lease r)
  | deadlineWon {v : Ruling} {next : Release} {notes : List Record}
      (gate : r.gate = ⟨some v, false⟩) (decode : r.decode.Apart)
      (deadline : r.deadline = .releasing next notes) (due : next.Due base session lease r)
  | settled {v : Ruling} (gate : r.gate = ⟨some v, true⟩) (decode : r.decode.Apart)
      (deadline : r.deadline.Waits ∨ r.deadline = .returned)
      (gone : (Release.finish none).Due base session lease r)

/-! ### The parts of the release -/

/-- What a race holds depends on its registry, its session and its item alone. -/
theorem Due.congr {next : Release} (due : next.Due base session lease r)
    (same : r'.session = r.session) (registry : r'.registry = r.registry)
    (content : r'.item.content = r.item.content) : next.Due base session lease r' := by
  cases next with
  | session | content => exact ⟨same ▸ due.1, registry ▸ due.2.1, content ▸ due.2.2⟩
  | finish failed =>
    cases failed with
    | none => exact ⟨same ▸ due.1, registry ▸ due.2.1, content ▸ due.2.2⟩
    | some f => exact due

/-- What a release takes out are different numbers of registered handles. -/
theorem Stake.sound_without (stake : Stake base session lease) :
    (base.without (session.toList ++ [lease])).Sound := by
  refine stake.sound.without ?_ ?_
  · cases session with
    | none => simp
    | some id => simpa using (stake.decoding id rfl).1
  · intro id mem
    rcases List.mem_append.1 mem with mem | mem
    · obtain ⟨-, h, registered, same, -⟩ := stake.decoding id (Option.mem_toList.1 mem)
      exact ⟨h, registered, same⟩
    · obtain ⟨h, registered, same, -⟩ := stake.content
      exact ⟨h, registered, same.trans (List.mem_singleton.1 mem).symm⟩

/-- The content is open. -/
theorem Stake.content_open (stake : Stake base session lease) : base.isClosed lease = false := by
  obtain ⟨h, registered, rfl, -⟩ := stake.content
  simpa [Registry.isClosed] using stake.sound.not_closed h registered

theorem release?_without (stake : Stake base session lease) :
    (base.release? session).registry = base.without session.toList ∧
      ∃ b, (base.release? session).result = .ok b := by
  cases session with
  | none => exact ⟨by simp [Registry.release?], false, rfl⟩
  | some id =>
    obtain ⟨-, h, mem, rfl, mild⟩ := stake.decoding id rfl
    have released := Registry.release_without stake.sound mem List.not_mem_nil
    rw [Registry.without_nil] at released
    exact ⟨released.1, true, released.2 mild⟩

theorem release_lease (stake : Stake base session lease) :
    ((base.without session.toList).release lease).registry =
        base.without (session.toList ++ [lease]) ∧
      ∃ b, ((base.without session.toList).release lease).result = .ok b := by
  obtain ⟨h, mem, rfl, mild⟩ := stake.content
  have out : h.id ∉ session.toList := by
    intro twice
    exact (stake.decoding h.id (Option.mem_toList.1 twice)).1 rfl
  have released := Registry.release_without stake.sound mem out
  exact ⟨released.1, true, released.2 mild⟩

/-- A part of the release that is due succeeds, and the next one is due. -/
theorem Due.releaseStep {next later : Release} (stake : Stake base session lease)
    (due : next.Due base session lease r) (more : (r.releaseStep next).2 = some later) :
    later.Due base session lease (r.releaseStep next).1 := by
  cases next with
  | session =>
    obtain ⟨rfl, rfl, held⟩ := due
    obtain ⟨registry, b, ok⟩ := release?_without stake
    simp only [Race.releaseStep, ok, Option.some.injEq] at more ⊢
    subst more
    exact ⟨rfl, registry, held⟩
  | content =>
    obtain ⟨rfl, registry, held⟩ := due
    obtain ⟨after, b, ok⟩ := release_lease stake
    rw [← registry] at after ok
    simp only [Race.releaseStep, held, Registry.release?, ok, Option.some.injEq] at more ⊢
    subst more
    exact ⟨rfl, after, rfl⟩
  | finish failed => simp [Race.releaseStep] at more

/-! ### The invariant -/

theorem Stake.carried (stake : Stake base session lease) :
    Carried fun next r => next.Due base session lease r where
  congr := Due.congr
  onward := Due.releaseStep stake

/-- A part that fails is never due, so a release is only over when it is done. -/
theorem phase_iff_headway :
    Phase base session lease r ↔ Headway (fun next r => next.Due base session lease r) r := by
  constructor
  · rintro (⟨g, d, w, u, held⟩ | ⟨g, d, w, due⟩ | ⟨g, d, w, due⟩ | ⟨g, d, w, gone⟩)
    · exact .undecided g d w u held
    · exact .byDecode g d w due
    · exact .byDeadline g d w due
    · exact .done g d (w.imp_right .inl) gone
  · rintro (⟨g, d, w, u, held⟩ | ⟨g, d, w, due⟩ | ⟨g, d, w, due⟩ | @⟨v, failed, g, d, w, gone⟩)
    · exact .undecided g d w u held
    · exact .decodeWon g d w due
    · exact .deadlineWon g d w due
    · cases failed with
      | none => exact .settled g d (w.imp_right fun w => w.resolve_right (by simp)) gone
      | some f => exact gone.elim

/-- A decode path that is releasing has won, and the part that is next is due. -/
theorem Phase.of_decode_releasing (phase : Phase base session lease r) {next : Release}
    {note : Record} (hat : r.decode = .releasing next note) :
    ∃ v, r.gate = ⟨some v, false⟩ ∧ r.deadline.Waits ∧ next.Due base session lease r :=
  (phase_iff_headway.1 phase).of_decode_releasing hat

/-- So has a deadline path that is releasing. -/
theorem Phase.of_deadline_releasing (phase : Phase base session lease r) {next : Release}
    {notes : List Record} (hat : r.deadline = .releasing next notes) :
    ∃ v, r.gate = ⟨some v, false⟩ ∧ r.decode.Apart ∧ next.Due base session lease r :=
  (phase_iff_headway.1 phase).of_deadline_releasing hat

/-- The invariant holds under every order of steps. -/
theorem Phase.run (stake : Stake base session lease) (phase : Phase base session lease r)
    (order : List Party) : Phase base session lease (r.run encoder settings decoding order) :=
  phase_iff_headway.2 ((phase_iff_headway.1 phase).run stake.carried order)

/-! ### The calls that give verdicts -/

/-- What a call that gives a verdict answers, if it ends with the next step of a path: the first
one says `true` when it has finished the gate, later ones say `false` at once. -/
def answered (r : Race) : Party → Option Bool
  | .decode =>
    match r.decode with
    | .ruling .. => if r.gate.admits then none else some false
    | .releasing (.finish none) _ => some true
    | _ => none
  | .deadline =>
    match r.deadline with
    | .resorting _ => if r.gate.admits then none else some false
    | .releasing (.finish none) _ => some true
    | _ => none

/-- What the calls that give verdicts answer along a run. -/
def answers (encoder : Encoder) (settings : ExtractionSettings)
    (decoding : Decoding) : List Party → Race → List Bool
  | [], _ => []
  | party :: order, r =>
    (r.answered party).toList ++
      answers encoder settings decoding order (r.step encoder settings decoding party)

theorem count_answered_decode (apart : ∀ note, r.decode ≠ .releasing (.finish none) note) :
    (r.answered .decode).toList.count true = 0 := by
  unfold answered
  dsimp only
  split
  · split <;> simp
  · next note hat => exact absurd hat (apart note)
  · simp

theorem count_answered_deadline (apart : ∀ notes, r.deadline ≠ .releasing (.finish none) notes) :
    (r.answered .deadline).toList.count true = 0 := by
  unfold answered
  dsimp only
  split
  · split <;> simp
  · next notes hat => exact absurd hat (apart notes)
  · simp

/-- The last part of a release has none after it. -/
theorem ne_finish_of_more {next later : Release} (more : (r.releaseStep next).2 = some later)
    (failed : Option Failure) : next ≠ .finish failed := by
  rintro rfl
  simp [Race.releaseStep] at more

/-- A move of the decode path answers `true` exactly if it finishes the gate. -/
theorem count_decodeMove (phase : Phase base session lease r) (move : DecodeMove decoding r r') :
    (r.answered .decode).toList.count true + r.gate.finished.toNat = r'.gate.finished.toNat := by
  cases move with
  | pass hat =>
    rw [count_answered_decode (by intro _ h; rw [h] at hat; exact hat), Nat.zero_add]
  | note hat | keep hat | lose hat | win hat =>
    rw [count_answered_decode (by simp [hat]), Nat.zero_add]
  | release hat more =>
    rw [count_answered_decode (by simp [hat, ne_finish_of_more more]), Nat.zero_add]
    exact congrArg (·.finished.toNat) (gate_releaseStep more).symm
  | @finish failed _ _ hat =>
    obtain ⟨v, gate, -, due⟩ := phase.of_decode_releasing hat
    cases failed with
    | none => simp [answered, hat, gate, Gate.finish]
    | some f => exact due.elim

/-- A move of the deadline path answers `true` exactly if it finishes the gate. -/
theorem count_deadlineMove (phase : Phase base session lease r) (move : DeadlineMove r r') :
    (r.answered .deadline).toList.count true + r.gate.finished.toNat =
      r'.gate.finished.toNat := by
  cases move with
  | wake hat =>
    rw [count_answered_deadline (by rcases hat with hat | hat <;> simp [hat]), Nat.zero_add]
  | expire hat | lose hat | win hat =>
    rw [count_answered_deadline (by simp [hat]), Nat.zero_add]
  | release hat more =>
    rw [count_answered_deadline (by simp [hat, ne_finish_of_more more]), Nat.zero_add]
    exact congrArg (·.finished.toNat) (gate_releaseStep more).symm
  | finish hat =>
    obtain ⟨v, gate, -, -⟩ := phase.of_deadline_releasing hat
    simp [answered, hat, gate, Gate.finish]
  | fail hat =>
    obtain ⟨-, -, -, due⟩ := phase.of_deadline_releasing hat
    exact due.elim

theorem count_answered (phase : Phase base session lease r) (party : Party) :
    (r.answered party).toList.count true + r.gate.finished.toNat =
      (r.step encoder settings decoding party).gate.finished.toNat := by
  cases party with
  | decode =>
    cases next : r.stepDecode encoder settings decoding with
    | none =>
      have apart : ∀ note, r.decode ≠ .releasing (.finish none) note := by
        intro note hat
        rcases decode_of_stuck next with stop | ⟨stop, -⟩ <;> rw [hat] at stop
        · cases stop
        · exact stop
      rw [count_answered_decode apart, Nat.zero_add]
      simp [step, next]
    | some r' =>
      rw [count_decodeMove phase (decodeMove_of_step next)]
      simp [step, next]
  | deadline =>
    cases next : r.stepDeadline settings with
    | none =>
      have apart : ∀ notes, r.deadline ≠ .releasing (.finish none) notes := by
        intro notes hat
        rcases deadline_of_stuck next with stop | ⟨f, stop⟩ | ⟨stop, -⟩ <;>
          (rw [hat] at stop; cases stop)
      rw [count_answered_deadline apart, Nat.zero_add]
      simp [step, next]
    | some r' =>
      rw [count_deadlineMove phase (deadlineMove_of_step next)]
      simp [step, next]

/-- Along a run `true` is answered once if the gate is finished on the way, and never
otherwise. -/
theorem count_answers (stake : Stake base session lease) (phase : Phase base session lease r)
    (order : List Party) :
    (answers encoder settings decoding order r).count true + r.gate.finished.toNat =
      (r.run encoder settings decoding order).gate.finished.toNat := by
  induction order generalizing r with
  | nil => simp [answers]
  | cons party order ih =>
    have kept : Phase base session lease (r.step encoder settings decoding party) :=
      phase.run stake [party]
    have first : (r.answered party).toList.count true + r.gate.finished.toNat =
        (r.step encoder settings decoding party).gate.finished.toNat := count_answered phase party
    have rest := ih kept
    -- The counts of the first step and of the rest add up, the gate in between cancels out.
    simp only [answers, List.count_append, run_cons]
    omega

/-! ### The end of a race -/

/-- A deadline path that has come to its end has returned, and has seen the release done. -/
theorem Phase.settled_of_over (phase : Phase base session lease r) (ended : r.deadline.Over) :
    r.deadline = .returned ∧ r.gate.finished = true ∧ r.gate.verdict.isSome = true ∧
      (Release.finish none).Due base session lease r := by
  obtain ⟨finished, verdict, failed, due, why⟩ := (phase_iff_headway.1 phase).held_of_over ended
  cases failed with
  | none =>
    refine ⟨?_, finished, verdict, due⟩
    cases hat : r.deadline with
    | returned => rfl
    | failed f => cases why f hat
    | waiting | resorting _ | releasing _ _ | yielding => rw [hat] at ended; exact ended.elim
  | some f => exact due.elim

theorem Phase.settled_of_returned (phase : Phase base session lease r)
    (returned : r.deadline = .returned) :
    r.gate.finished = true ∧ r.gate.verdict.isSome = true ∧
      (Release.finish none).Due base session lease r :=
  (phase.settled_of_over (returned ▸ trivial)).2

/-- A session of which nothing is left has been closed. -/
theorem sessionClosed_of_due {failed : Option Failure}
    (due : (Release.finish failed).Due base session lease r)
    (opened : r.session.isSome = true) : r.sessionClosed = true := by
  cases failed with
  | none =>
    obtain ⟨rfl, registry, -⟩ := due
    obtain ⟨id, hsome⟩ := Option.isSome_iff_exists.1 opened
    rw [sessionClosed, registry, hsome]
    exact Registry.isClosed_without.2 (.inr (by simp))
  | some f => exact due.elim

/-- A deadline path that cannot go on waits for a release that has begun, or has returned. -/
theorem Phase.returned_of_stuck (phase : Phase base session lease r)
    (stuck : r.stepDeadline settings = none) :
    r.deadline = .returned ∨ ∃ next note, r.decode = .releasing next note :=
  ((phase_iff_headway.1 phase).over_of_stuck stuck).imp_left fun ended =>
    (phase.settled_of_over ended).1

/-- A race in which no path can go on is over. A path without a session has not set out. -/
theorem Phase.ended_of_stuck (phase : Phase base session lease r)
    (set_out : r.session = none → r.decode = .ended)
    (decode : r.stepDecode encoder settings decoding = none)
    (deadline : r.stepDeadline settings = none) : r.deadline = .returned ∧ r.decode = .ended := by
  obtain ⟨ended, stopped⟩ := (phase_iff_headway.1 phase).ended_of_stuck set_out
    (fun _ => sessionClosed_of_due) decode deadline
  exact ⟨(phase.settled_of_over ended).1, stopped⟩

end Race

end VideoCatalog
