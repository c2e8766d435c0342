import VideoCatalog.Proofs.Enrichment.Leases
import VideoCatalog.Proofs.Enrichment.Recording

/-!
# The decode path alone

As long as the deadline has not passed, a race shows what its decode path would show if it went on
alone, whatever the registry holds besides the handles of the item.

* `Record.aboutItems`, `Item.shown`: what of the records and the items does not name a handle.
* `Race.Staked`: the invariant of the release, whatever race it is about.
* `Race.Follows`: a race goes as another whose decode path runs alone; `Follows.stepDecode` is one
  step of both.
* `Race.alone`: the decode path goes on alone; `alone_eq_of_stuck` says that it ends in one way.
-/

namespace VideoCatalog

/-- The records about items. Warnings about handles are not among them: they name numbers, and which
number a handle gets depends on what was registered before. -/
def Record.aboutItems (log : List Record) : List Record :=
  log.filter (·.source == .enrichment)

@[simp] theorem Record.aboutItems_append (a b : List Record) :
    aboutItems (a ++ b) = aboutItems a ++ aboutItems b := by
  simp [aboutItems]

/-- An item without its handle on content. -/
def Item.shown (item : Item) : Item := { item with content := none }

/-- What follows a part of the release that succeeds. -/
def Release.onward : Release → Option Release
  | .session => some .content
  | .content => some (.finish none)
  | .finish _ => none

/-- Only the last part has nothing after it. -/
theorem Release.eq_finish {next : Release} (last : next.onward = none)
    (sure : ∀ f, next ≠ .finish (some f)) : next = .finish none := by
  cases next with
  | session | content => cases last
  | finish failed =>
    cases failed with
    | none => rfl
    | some f => exact absurd rfl (sure f)

/-- Whether the decode path has still to give its verdict. -/
def DecodePoint.Early : DecodePoint → Prop
  | .releasing .. | .ended => False
  | _ => True

theorem DecodePoint.early_of_leads {metadata : Except Failure Value} {p : DecodePoint}
    (leads : p.Leads metadata) : p.Early := by
  cases leads <;> trivial

theorem DecodePoint.early_of_inStage {p : DecodePoint} (stage : p.InStage) : p.Early := by
  cases p <;> trivial

theorem Item.recorded_of_shown {a b : Item} (same : a.shown = b.shown) :
    a.duration = b.duration ∧ a.thumbnail = b.thumbnail :=
  ⟨show a.shown.duration = b.shown.duration from congrArg Item.duration same,
    show a.shown.thumbnail = b.shown.thumbnail from congrArg Item.thumbnail same⟩

theorem Item.shown_recordDuration {a b : Item} (same : a.shown = b.shown) (seconds : Binary64) :
    (a.recordDuration seconds).2.shown = (b.recordDuration seconds).2.shown := by
  unfold recordDuration
  rw [(recorded_of_shown same).1]
  split
  · exact same
  · exact congrArg (fun item : Item => { item with duration := some (.real seconds) }) same

theorem Item.shown_recordThumbnail {a b : Item} (same : a.shown = b.shown)
    (thumbnail : Thumbnail) :
    (a.recordThumbnail thumbnail).2.shown = (b.recordThumbnail thumbnail).2.shown := by
  unfold recordThumbnail
  rw [(recorded_of_shown same).2]
  split
  · exact same
  · exact congrArg (fun item : Item => { item with thumbnail := some thumbnail }) same

theorem Registry.aboutItems_close (registry : Registry) (h : Handle) :
    Record.aboutItems (registry.close h).log = [] := by
  unfold close
  dsimp only
  split
  · rfl
  · split <;> rfl

/-- Closing handles writes no records about items. -/
theorem Registry.aboutItems_release? (registry : Registry) (id : Option Nat) :
    Record.aboutItems (registry.release? id).log = [] := by
  cases id with
  | none => rfl
  | some id =>
    change Record.aboutItems (registry.release id).log = []
    unfold release
    split
    · rfl
    · exact aboutItems_close _ _

namespace Race

variable {encoder : Encoder} {settings : ExtractionSettings}
  {decoding : Decoding} {r r' s s' : Race}

theorem aboutItems_releaseStep (r : Race) (next : Release) :
    Record.aboutItems (r.releaseStep next).1.log = Record.aboutItems r.log := by
  cases next with
  | session =>
    unfold releaseStep
    dsimp only
    split <;> simp [Registry.aboutItems_release?]
  | content =>
    unfold releaseStep
    dsimp only
    split <;> simp [Registry.aboutItems_release?]
  | finish failed => rfl

theorem shown_releaseStep (r : Race) (next : Release) :
    (r.releaseStep next).1.item.shown = r.item.shown := by
  obtain ⟨_, _, _, _, state⟩ := releaseStep_frame r next
  rw [state]
  rfl

/-! ### The records about an item only name what it shows -/

theorem enriched_shown (item : Item) : enriched item.shown = enriched item := rfl

theorem decodeFailed_shown (item : Item) (f : Failure) :
    decodeFailed item.shown f = decodeFailed item f := rfl

theorem resorted_shown (settings : ExtractionSettings) (item : Item) (why : Resort) :
    resorted settings item.shown why = resorted settings item why := by
  cases why <;> rfl

theorem aboutItems_resorted (settings : ExtractionSettings) (item : Item) (why : Resort) :
    Record.aboutItems (resorted settings item why) = resorted settings item why := by
  cases why <;> rfl

/-! ### The steps of a release -/

theorem stepDecode_releasing {next later : Release} {note : Record}
    (hat : r.decode = .releasing next note) (more : (r.releaseStep next).2 = some later) :
    r.stepDecode encoder settings decoding =
      some { (r.releaseStep next).1 with decode := .releasing later note } := by
  have step : r.releaseStep next = ((r.releaseStep next).1, some later) := Prod.ext rfl more
  rw [stepDecode, hat]
  dsimp only
  rw [step]

theorem stepDecode_finishing {note : Record} (hat : r.decode = .releasing (.finish none) note) :
    r.stepDecode encoder settings decoding =
      some { r with gate := r.gate.finish, log := r.log ++ [note], decode := .ended } := by
  simp only [stepDecode, hat, releaseStep]

theorem stepDeadline_releasing {next later : Release} {notes : List Record}
    (hat : r.deadline = .releasing next notes) (more : (r.releaseStep next).2 = some later) :
    r.stepDeadline settings =
      some { (r.releaseStep next).1 with deadline := .releasing later notes } := by
  have step : r.releaseStep next = ((r.releaseStep next).1, some later) := Prod.ext rfl more
  rw [stepDeadline, hat]
  dsimp only
  rw [step]

theorem stepDeadline_finishing {notes : List Record}
    (hat : r.deadline = .releasing (.finish none) notes) :
    r.stepDeadline settings =
      some { r with gate := r.gate.finish, log := r.log ++ notes, deadline := .returned } := by
  simp only [stepDeadline, hat, releaseStep]

/-! ### A race that releases what it holds -/

/-- A race that holds a content and perhaps a session, and has come some way with their release. -/
def Staked (r : Race) : Prop :=
  ∃ base session lease, Stake base session lease ∧ Phase base session lease r

theorem Staked.run (staked : Staked r) (order : List Party) :
    Staked (r.run encoder settings decoding order) := by
  obtain ⟨base, session, lease, stake, phase⟩ := staked
  exact ⟨base, session, lease, stake, phase.run stake order⟩

theorem Staked.step (staked : Staked r) (party : Party) :
    Staked (r.step encoder settings decoding party) :=
  staked.run [party]

/-- The session stays open until the first verdict. -/
theorem Staked.session_open (staked : Staked r) (undecided : r.gate.verdict = none) :
    r.sessionClosed = false := by
  obtain ⟨base, session, lease, stake, phase⟩ := staked
  cases phase with
  | undecided _ _ _ _ held =>
    obtain ⟨rfl, rfl, -⟩ := held
    unfold sessionClosed
    cases opened : r.session with
    | none => rfl
    | some id =>
      obtain ⟨-, h, registered, rfl, -⟩ := stake.decoding id opened
      simpa [Registry.isClosed] using stake.sound.not_closed h registered
  | decodeWon g | deadlineWon g | settled g => rw [g] at undecided; cases undecided

/-- A part of the release that is due succeeds. -/
theorem Due.onward {base : Registry} {session : Option Nat} {lease : Nat} {next : Release}
    (stake : Stake base session lease) (due : next.Due base session lease r) :
    (r.releaseStep next).2 = next.onward := by
  cases next with
  | session =>
    obtain ⟨rfl, rfl, -⟩ := due
    obtain ⟨-, b, ok⟩ := release?_without stake
    simp only [Race.releaseStep, ok, Release.onward]
  | content =>
    obtain ⟨rfl, registry, held⟩ := due
    obtain ⟨-, b, ok⟩ := release_lease stake
    rw [← registry] at ok
    simp only [Race.releaseStep, held, Registry.release?, ok, Release.onward]
  | finish failed => rfl

theorem Staked.onward_decode (staked : Staked r) {next : Release} {note : Record}
    (hat : r.decode = .releasing next note) :
    (r.releaseStep next).2 = next.onward ∧ ∀ f, next ≠ .finish (some f) := by
  obtain ⟨base, session, lease, stake, phase⟩ := staked
  obtain ⟨-, -, -, due⟩ := phase.of_decode_releasing hat
  exact ⟨Due.onward stake due, fun f same => by rw [same] at due; exact due⟩

theorem Staked.onward_deadline (staked : Staked r) {next : Release} {notes : List Record}
    (hat : r.deadline = .releasing next notes) :
    r.decode.Apart ∧ (r.releaseStep next).2 = next.onward ∧ ∀ f, next ≠ .finish (some f) := by
  obtain ⟨base, session, lease, stake, phase⟩ := staked
  obtain ⟨-, -, apart, due⟩ := phase.of_deadline_releasing hat
  exact ⟨apart, Due.onward stake due, fun f same => by rw [same] at due; exact due⟩

/-- When the deadline path has returned, the decode path has no part in the release. -/
theorem Staked.of_returned (staked : Staked r) (returned : r.deadline = .returned) :
    r.decode.Apart ∧ r.gate.finished = true ∧ r.gate.verdict.isSome = true := by
  obtain ⟨base, session, lease, stake, phase⟩ := staked
  refine ⟨?_, (phase.settled_of_returned returned).1, (phase.settled_of_returned returned).2.1⟩
  cases phase with
  | settled _ apart => exact apart
  | undecided _ _ d | decodeWon _ _ d => rw [returned] at d; exact d.elim
  | deadlineWon _ _ d => rw [returned] at d; cases d

/-! ### The decode path alone -/

/-- How far a race has come if only its decode path gives verdicts. -/
inductive Solo (r : Race) : Prop
  | working (gate : r.gate = {}) (early : r.decode.Early) (silent : Record.aboutItems r.log = [])
  | releasing {v : Ruling} {next : Release} {note : Record} (gate : r.gate = ⟨some v, false⟩)
      (hat : r.decode = .releasing next note)
  | ended {v : Ruling} (gate : r.gate = ⟨some v, true⟩) (hat : r.decode = .ended)

/-- Before the verdict of the decode path nothing is written about the item. -/
theorem Solo.undecided (solo : Solo r) (early : r.decode.Early) :
    r.gate = {} ∧ Record.aboutItems r.log = [] := by
  cases solo with
  | working gate _ silent => exact ⟨gate, silent⟩
  | releasing _ hat | ended _ hat => rw [hat] at early; exact early.elim

/-- Two races that show the same and are at the same point of the decode path. Their registries,
sessions and deadline paths may differ. -/
structure Follows (r s : Race) : Prop where
  item : r.item.shown = s.item.shown
  gate : r.gate = s.gate
  decode : r.decode = s.decode
  log : Record.aboutItems r.log = Record.aboutItems s.log
  solo : Solo s

/-- Both sessions are open as long as the decode path is in its stages. -/
theorem Follows.session_open (follows : Follows r s) (hr : Staked r) (hs : Staked s)
    (early : s.decode.Early) : r.sessionClosed = false ∧ s.sessionClosed = false := by
  have gate := (follows.solo.undecided early).1
  exact ⟨hr.session_open (by rw [follows.gate, gate]), hs.session_open (by rw [gate])⟩

/-- A part of the release takes both to the next one, and its last part ends both. -/
theorem Follows.releasing (follows : Follows r s) (hr : Staked r) (hs : Staked s) {next : Release}
    {note : Record} (hat : s.decode = .releasing next note) :
    Option.Rel Follows (r.stepDecode encoder settings decoding)
      (s.stepDecode encoder settings decoding) := by
  obtain ⟨item, gate, decode, log, solo⟩ := follows
  obtain ⟨more, sure⟩ := hr.onward_decode (decode.trans hat)
  obtain ⟨more', -⟩ := hs.onward_decode hat
  obtain ⟨v, none_else⟩ : ∃ v, s.gate = ⟨some v, false⟩ := by
    cases solo with
    | releasing gate => exact ⟨_, gate⟩
    | working _ early => rw [hat] at early; exact early.elim
    | ended _ last => rw [hat] at last; cases last
  cases ahead : next.onward with
  | some later =>
    rw [ahead] at more more'
    rw [stepDecode_releasing (decode.trans hat) more, stepDecode_releasing hat more']
    refine .some ⟨?_, ?_, rfl, ?_, .releasing ((gate_releaseStep more').trans none_else) rfl⟩
    · exact (shown_releaseStep r next).trans (item.trans (shown_releaseStep s next).symm)
    · exact (gate_releaseStep more).trans (gate.trans (gate_releaseStep more').symm)
    · dsimp only
      rw [aboutItems_releaseStep, log, aboutItems_releaseStep]
  | none =>
    obtain rfl := Release.eq_finish ahead sure
    rw [stepDecode_finishing (decode.trans hat), stepDecode_finishing hat]
    refine .some ⟨item, congrArg Gate.finish gate, rfl, ?_, .ended (v := v) ?_ rfl⟩
    · simp only [Record.aboutItems_append, log]
    · exact congrArg Gate.finish none_else

/-- A step of the decode path takes both to the same point, or neither. -/
theorem Follows.stepDecode (follows : Follows r s) (hr : Staked r) (hs : Staked s) :
    Option.Rel Follows (r.stepDecode encoder settings decoding)
      (s.stepDecode encoder settings decoding) := by
  obtain ⟨item, gate, decode, log, solo⟩ := follows
  have sessions := Follows.session_open ⟨item, gate, decode, log, solo⟩ hr hs
  cases hat : s.decode with
  | probing =>
    obtain ⟨closed, closed'⟩ := sessions (by rw [hat]; trivial)
    obtain ⟨none_yet, silent⟩ := solo.undecided (by rw [hat]; trivial)
    simp only [Race.stepDecode, decode.trans hat, hat, closed, closed']
    split
    · refine .some ⟨item, gate, rfl, log, .working none_yet ?_ silent⟩
      exact DecodePoint.early_of_leads (leads_after fun found hf => hf ▸ leads_judge found)
    · exact .none
  | noting found seconds =>
    obtain ⟨none_yet, silent⟩ := solo.undecided (by rw [hat]; trivial)
    have admits : s.gate.admits = true := by rw [none_yet]; rfl
    simp only [Race.stepDecode, decode.trans hat, hat, gate, admits, if_true]
    exact .some
      ⟨Item.shown_recordDuration item seconds, rfl, rfl, log, .working none_yet trivial silent⟩
  | seeking found =>
    obtain ⟨closed, closed'⟩ := sessions (by rw [hat]; trivial)
    obtain ⟨none_yet, silent⟩ := solo.undecided (by rw [hat]; trivial)
    simp only [Race.stepDecode, decode.trans hat, hat, closed, closed']
    split
    · exact .some ⟨item, gate, rfl, log, .working none_yet trivial silent⟩
    · split
      · refine .some ⟨item, gate, rfl, log, .working none_yet ?_ silent⟩
        exact @DecodePoint.early_of_leads decoding.metadata.result _
          (leads_after fun _ _ => .capturing _)
      · exact .none
  | capturing position =>
    obtain ⟨closed, closed'⟩ := sessions (by rw [hat]; trivial)
    obtain ⟨none_yet, silent⟩ := solo.undecided (by rw [hat]; trivial)
    simp only [Race.stepDecode, decode.trans hat, hat, closed, closed']
    split
    · refine .some ⟨item, gate, rfl, log, .working none_yet ?_ silent⟩
      exact @DecodePoint.early_of_leads decoding.metadata.result _
        (leads_after fun _ _ => leads_after fun _ _ => .keeping _)
    · exact .none
  | keeping thumbnail =>
    obtain ⟨none_yet, silent⟩ := solo.undecided (by rw [hat]; trivial)
    have admits : s.gate.admits = true := by rw [none_yet]; rfl
    simp only [Race.stepDecode, decode.trans hat, hat, gate, admits, if_true]
    exact .some
      ⟨Item.shown_recordThumbnail item thumbnail, rfl, rfl, log, .working none_yet trivial silent⟩
  | ruling ruling cause =>
    obtain ⟨none_yet, -⟩ := solo.undecided (by rw [hat]; trivial)
    simp only [Race.stepDecode, decode.trans hat, hat, gate, none_yet]
    refine .some ⟨item, rfl, ?_, log, .releasing rfl rfl⟩
    -- The records only name what both items show.
    cases cause <;> dsimp only
    · rw [← enriched_shown r.item, item, enriched_shown]
    · rw [← decodeFailed_shown r.item, item, decodeFailed_shown]
  | releasing next note => exact Follows.releasing ⟨item, gate, decode, log, solo⟩ hr hs hat
  | ended =>
    simp only [Race.stepDecode, decode.trans hat, hat]
    exact .none

/-- Two such races are stuck together. -/
theorem Follows.stuck_iff (follows : Follows r s) (hr : Staked r) (hs : Staked s) :
    r.stepDecode encoder settings decoding = none ↔
      s.stepDecode encoder settings decoding = none := by
  have both : Option.Rel Follows (r.stepDecode encoder settings decoding)
    (s.stepDecode encoder settings decoding) := follows.stepDecode hr hs
  generalize r.stepDecode encoder settings decoding = next at both ⊢
  generalize s.stepDecode encoder settings decoding = next' at both ⊢
  cases both <;> simp

/-- A decode path that is stuck before its verdict is blocked, and the race is undecided. -/
theorem Solo.blocked (solo : Solo r) (unfinished : r.gate.finished = false)
    (stuck : r.stepDecode encoder settings decoding = none) :
    r.gate = {} ∧ Record.aboutItems r.log = [] := by
  rcases decode_of_stuck stuck with ended | ⟨stage, -⟩
  · cases solo with
    | ended gate => rw [gate] at unfinished; cases unfinished
    | working _ early => rw [ended] at early; exact early.elim
    | releasing _ hat => rw [ended] at hat; cases hat
  · exact solo.undecided (DecodePoint.early_of_inStage stage)

variable (encoder settings decoding) in
/-- The decode path goes on alone for some steps. -/
def alone (n : Nat) (r : Race) : Race :=
  r.run encoder settings decoding (List.replicate n .decode)

theorem alone_succ (n : Nat) (r : Race) :
    alone encoder settings decoding (n + 1) r =
      (alone encoder settings decoding n r).step encoder settings decoding .decode := by
  rw [alone, List.replicate_succ', run_append]
  rfl

/-- Once it is stuck more steps do not matter. -/
theorem alone_of_stuck {n : Nat}
    (stuck : (alone encoder settings decoding n r).stepDecode encoder settings decoding = none)
    (m : Nat) :
    alone encoder settings decoding (n + m) r = alone encoder settings decoding n r := by
  have fixed : (alone encoder settings decoding n r).step encoder settings decoding .decode =
      alone encoder settings decoding n r := by simp [step, stuck]
  rw [alone, ← List.replicate_append_replicate, run_append]
  exact run_of_stuck fixed m

/-- All moments at which it is stuck are the same. -/
theorem alone_eq_of_stuck {m n : Nat}
    (hm : (alone encoder settings decoding m r).stepDecode encoder settings decoding = none)
    (hn : (alone encoder settings decoding n r).stepDecode encoder settings decoding = none) :
    alone encoder settings decoding m r = alone encoder settings decoding n r := by
  rw [← alone_of_stuck hm n, Nat.add_comm, alone_of_stuck hn m]

end Race

end VideoCatalog
