import VideoCatalog.Proofs.Enrichment.Extraction

/-!
# What an extraction records

Nothing is recorded after the first verdict, so the result of an extraction is what its item
shows from then on.

* `Ruling.Proper`: only errors come with a text.
* `Item.Keeps`: durations and thumbnails stay once they are there.
* `Race.Records`: the invariant that ties what is recorded to the gate and to the two paths.
* `Calls`: extractions of one item, begun one after another or side by side.
* `Extractor.result_agrees_with_item`: the main statement.
-/

namespace VideoCatalog

/-- Whether a verdict comes with a text exactly if it is an error. -/
def Ruling.Proper (v : Ruling) : Prop :=
  match v.outcome with
  | .complete | .timeout => v.error = none
  | .error => v.error.isSome = true

theorem Resort.proper_ruling (why : Resort) :
    why.ruling.Proper ∧ why.ruling.outcome ≠ .complete := by
  cases why with
  | expired => exact ⟨rfl, by simp [ruling]⟩
  | notOpened f => exact ⟨rfl, by simp [ruling]⟩
  | contentReleased => exact ⟨rfl, by simp [ruling]⟩

/-- What one item shows, another shows too. -/
structure Item.Keeps (before after : Item) : Prop where
  duration : ∀ q, before.duration = some q → after.duration = some q
  thumbnail : ∀ t, before.thumbnail = some t → after.thumbnail = some t

namespace Item

theorem Keeps.refl (item : Item) : item.Keeps item := ⟨fun _ h => h, fun _ h => h⟩

theorem Keeps.trans {a b c : Item} (ab : a.Keeps b) (bc : b.Keeps c) : a.Keeps c :=
  ⟨fun q h => bc.duration q (ab.duration q h), fun t h => bc.thumbnail t (ab.thumbnail t h)⟩

theorem keeps_recordDuration (item : Item) (seconds : Binary64) :
    item.Keeps (item.recordDuration seconds).2 := by
  unfold recordDuration
  split
  · exact .refl item
  · next absent => exact ⟨fun q h => (by rw [absent] at h; cases h), fun _ h => h⟩

theorem keeps_recordThumbnail (item : Item) (thumbnail : Thumbnail) :
    item.Keeps (item.recordThumbnail thumbnail).2 := by
  unfold recordThumbnail
  split
  · exact .refl item
  · next absent => exact ⟨fun _ h => h, fun t h => (by rw [absent] at h; cases h)⟩

theorem isSome_recordThumbnail (item : Item) (thumbnail : Thumbnail) :
    (item.recordThumbnail thumbnail).2.thumbnail.isSome = true := by
  unfold recordThumbnail
  split
  · next t present => rw [present]; rfl
  · rfl

end Item

namespace Race

variable {encoder : Encoder} {settings : ExtractionSettings}
  {decoding : Decoding} {r r' : Race}

/-! ### One move -/

theorem keeps_noted (r : Race) (seconds : Binary64) : r.item.Keeps (r.noted seconds) := by
  unfold noted
  split
  · exact r.item.keeps_recordDuration seconds
  · exact .refl r.item

theorem keeps_kept (r : Race) (thumbnail : Thumbnail) : r.item.Keeps (r.kept thumbnail) := by
  unfold kept
  split
  · exact r.item.keeps_recordThumbnail thumbnail
  · exact .refl r.item

/-- Only a gate that a verdict has shut keeps a thumbnail out. -/
theorem isSome_kept (r : Race) (thumbnail : Thumbnail) :
    (r.kept thumbnail).thumbnail.isSome = true ∨ r.gate.verdict.isSome = true := by
  cases decided : r.gate.verdict with
  | some v => exact .inr rfl
  | none =>
    have hopen : r.gate.admits = true := by rw [Gate.admits, decided]; rfl
    refine .inl ?_
    simp only [kept, hopen, if_true]
    exact r.item.isSome_recordThumbnail thumbnail

theorem thumbnail_noted (r : Race) (seconds : Binary64) :
    (r.noted seconds).thumbnail = r.item.thumbnail := by
  unfold noted Item.recordDuration
  split
  · split <;> rfl
  · rfl

theorem duration_kept (r : Race) (thumbnail : Thumbnail) :
    (r.kept thumbnail).duration = r.item.duration := by
  unfold kept Item.recordThumbnail
  split
  · split <;> rfl
  · rfl

/-- A part of the release records nothing. -/
theorem recorded_releaseStep (r : Race) (next : Release) :
    (r.releaseStep next).1.item.duration = r.item.duration ∧
      (r.releaseStep next).1.item.thumbnail = r.item.thumbnail := by
  obtain ⟨_, _, _, _, state⟩ := releaseStep_frame r next
  rw [state]
  exact ⟨rfl, rfl⟩

theorem DecodeMove.keeps (move : DecodeMove decoding r r') : r.item.Keeps r'.item := by
  cases move with
  | note => exact keeps_noted r _
  | keep => exact keeps_kept r _
  | @release next =>
    obtain ⟨duration, thumbnail⟩ := recorded_releaseStep r next
    exact ⟨fun q h => duration.trans h, fun t h => thumbnail.trans h⟩
  | pass | lose | win | finish => exact .refl r.item

theorem DeadlineMove.recorded_eq (move : DeadlineMove r r') :
    r'.item.duration = r.item.duration ∧ r'.item.thumbnail = r.item.thumbnail := by
  cases move with
  | release => exact recorded_releaseStep r _
  | _ => exact ⟨rfl, rfl⟩

theorem DeadlineMove.keeps (move : DeadlineMove r r') : r.item.Keeps r'.item :=
  ⟨fun _ h => move.recorded_eq.1.trans h, fun _ h => move.recorded_eq.2.trans h⟩

theorem admits_of_verdict (decided : r.gate.verdict.isSome = true) : r.gate.admits = false := by
  obtain ⟨v, hsome⟩ := Option.isSome_iff_exists.1 decided
  rw [Gate.admits, hsome]
  rfl

/-- A shut gate lets nothing through. -/
theorem DecodeMove.recorded_eq (move : DecodeMove decoding r r')
    (decided : r.gate.verdict.isSome = true) :
    r'.item.duration = r.item.duration ∧ r'.item.thumbnail = r.item.thumbnail := by
  cases move with
  | note => simp [noted, admits_of_verdict decided]
  | keep => simp [kept, admits_of_verdict decided]
  | release => exact recorded_releaseStep r _
  | pass | lose | win | finish => exact ⟨rfl, rfl⟩

/-- The first verdict stays. -/
theorem DecodeMove.verdict_eq (move : DecodeMove decoding r r')
    (decided : r.gate.verdict.isSome = true) : r'.gate.verdict = r.gate.verdict := by
  cases move with
  | win _ first => rw [first] at decided; cases decided
  | release _ more => exact congrArg Gate.verdict (gate_releaseStep more)
  | _ => rfl

theorem DeadlineMove.verdict_eq (move : DeadlineMove r r')
    (decided : r.gate.verdict.isSome = true) : r'.gate.verdict = r.gate.verdict := by
  cases move with
  | win _ first => rw [first] at decided; cases decided
  | release _ more => exact congrArg Gate.verdict (gate_releaseStep more)
  | _ => rfl

/-! ### The invariant -/

/-- A duration that the metadata of a session hold, finite and positive. -/
def Measured (metadata : Except Failure Value) (seconds : Binary64) : Prop :=
  ∃ found, metadata = .ok found ∧ found.real = .ok seconds ∧ seconds.isFinite = true ∧
    Binary64.zero.less seconds = true

/-- What is recorded at a moment of a race that began with `item`. -/
structure Records (metadata : Except Failure Value) (item : Item) (r : Race) : Prop where
  noting : ∀ found seconds, r.decode = .noting found seconds → Measured metadata seconds
  duration : r.item.duration = item.duration ∨ item.duration = none ∧
    ∃ seconds, Measured metadata seconds ∧ r.item.duration = some (.real seconds)
  ruling : ∀ v cause, r.decode = .ruling v cause → v.Proper ∧
    (v.outcome = .complete → r.item.thumbnail.isSome = true ∨ r.gate.verdict.isSome = true)
  verdict : ∀ v, r.gate.verdict = some v →
    v.Proper ∧ (v.outcome = .complete → r.item.thumbnail.isSome = true)
  releasing : ∀ next note, r.decode = .releasing next note → r.gate.verdict.isSome = true
  decided : r.gate.finished = true ∨ r.deadline = .returned ∨ r.deadline = .yielding ∨
    (∃ next notes, r.deadline = .releasing next notes) → r.gate.verdict.isSome = true

variable {metadata : Except Failure Value} {item : Item}

theorem Records.duration_noted (records : Records metadata item r) {seconds : Binary64}
    (measured : Measured metadata seconds) :
    (r.noted seconds).duration = item.duration ∨ item.duration = none ∧
      ∃ q, Measured metadata q ∧ (r.noted seconds).duration = some (.real q) := by
  unfold Race.noted Item.recordDuration
  split
  · split
    · exact records.duration
    · next absent =>
      rcases records.duration with same | ⟨hnone, -⟩
      · exact .inr ⟨same.symm.trans absent, seconds, measured, rfl⟩
      · exact .inr ⟨hnone, seconds, measured, rfl⟩
  · exact records.duration

/-- A part of the release leaves everything as it is recorded. -/
theorem Records.releaseStep (records : Records metadata item r) {next later : Release}
    (more : (r.releaseStep next).2 = some later) :
    Records metadata item (r.releaseStep next).1 := by
  obtain ⟨duration, thumbnail⟩ := recorded_releaseStep r next
  obtain ⟨noting, same, ruling, verdict, releasing, decided⟩ := records
  constructor <;>
    simpa only [duration, thumbnail, decode_releaseStep, deadline_releaseStep, gate_releaseStep more]

theorem Records.decodeMove (records : Records decoding.metadata.result item r)
    (move : DecodeMove decoding r r') : Records decoding.metadata.result item r' := by
  cases move with
  | pass hat leads =>
    refine ⟨fun found seconds h => ?_, records.duration, fun v cause h => ?_, records.verdict,
      fun next note h => ?_, records.decided⟩
    · dsimp only at h
      subst h
      cases leads with
      | noting read real finite positive => exact ⟨found, read, real, finite, positive⟩
    · dsimp only at h
      subst h
      cases leads with
      | failing f => exact ⟨rfl, by simp⟩
    · dsimp only at h
      subst h
      cases leads
  | note hat =>
    refine ⟨by simp, ?_, by simp, fun v h => ?_, by simp, records.decided⟩
    · exact records.duration_noted (records.noting _ _ hat)
    · dsimp only
      rw [thumbnail_noted]
      exact records.verdict v h
  | @keep thumbnail hat =>
    refine ⟨by simp, ?_, fun v cause h => ?_, fun v h => ?_, by simp, records.decided⟩
    · dsimp only
      rw [duration_kept]
      exact records.duration
    · obtain ⟨rfl, rfl⟩ : ⟨.complete, none⟩ = v ∧ none = cause := by simpa using h
      exact ⟨rfl, fun _ => r.isSome_kept thumbnail⟩
    · obtain ⟨proper, complete⟩ := records.verdict v h
      refine ⟨proper, fun outcome => ?_⟩
      obtain ⟨t, present⟩ := Option.isSome_iff_exists.1 (complete outcome)
      exact Option.isSome_iff_exists.2 ⟨t, (keeps_kept r thumbnail).thumbnail t present⟩
  | lose hat late =>
    exact ⟨by simp, records.duration, by simp, records.verdict, by simp, records.decided⟩
  | win hat first =>
    obtain ⟨proper, complete⟩ := records.ruling _ _ hat
    refine ⟨by simp, records.duration, by simp, fun v h => ?_, fun _ _ _ => rfl, fun _ => rfl⟩
    obtain rfl : _ = v := Option.some.inj h
    refine ⟨proper, fun outcome => ?_⟩
    rcases complete outcome with present | decided
    · exact present
    · rw [first] at decided
      cases decided
  | release hat more =>
    have released := records.releaseStep more
    have decided := released.releasing _ _ ((decode_releaseStep r _).trans hat)
    exact ⟨by simp, released.duration, by simp, released.verdict, fun _ _ _ => decided,
      fun _ => decided⟩
  | finish hat =>
    exact ⟨by simp, records.duration, by simp, records.verdict, by simp,
      fun _ => records.releasing _ _ hat⟩

theorem Records.deadlineMove (records : Records metadata item r) (move : DeadlineMove r r') :
    Records metadata item r' := by
  have noting := records.noting
  have releasing := records.releasing
  cases move with
  | expire hat hopen =>
    refine ⟨noting, records.duration, records.ruling, records.verdict, releasing, ?_⟩
    simp [hopen]
  | wake hat finished =>
    exact ⟨noting, records.duration, records.ruling, records.verdict, releasing,
      fun _ => records.decided (.inl finished)⟩
  | lose hat late =>
    exact ⟨noting, records.duration, records.ruling, records.verdict, releasing,
      fun _ => by rw [late]; rfl⟩
  | @win why _ hat first =>
    refine ⟨noting, records.duration, fun v cause h => ?_, fun v h => ?_, fun _ _ _ => rfl,
      fun _ => rfl⟩
    -- The decode path may still be about to say that it is complete, but now it comes too late.
    · exact ⟨(records.ruling v cause h).1, fun _ => .inr rfl⟩
    · obtain rfl : why.ruling = v := Option.some.inj h
      obtain ⟨proper, other⟩ := why.proper_ruling
      exact ⟨proper, fun outcome => absurd outcome other⟩
  | release hat more =>
    have released := records.releaseStep more
    exact { released with
      decided := fun _ =>
        released.decided (.inr (.inr (.inr ⟨_, _, (deadline_releaseStep r _).trans hat⟩))) }
  | finish hat | fail hat =>
    exact ⟨noting, records.duration, records.ruling, records.verdict, releasing,
      fun _ => records.decided (.inr (.inr (.inr ⟨_, _, hat⟩)))⟩

theorem Records.run (records : Records decoding.metadata.result item r) (order : List Party) :
    Records decoding.metadata.result item (r.run encoder settings decoding order) :=
  run_induction (fun _ _ move records => records.decodeMove move)
    (fun _ _ move records => records.deadlineMove move) order records

/-- The race for an item at its start has recorded nothing. -/
theorem records_begin (x : Extractor) (registry : Registry) (item : Item) :
    Records (x.decoding registry item).metadata.result item (x.begin registry item) := by
  unfold Extractor.begin
  split
  · exact ⟨by simp, .inl rfl, by simp, by simp, by simp, by simp⟩
  · dsimp only
    split <;> exact ⟨by simp, .inl rfl, by simp, by simp, by simp, by simp⟩

theorem keeps_step (r : Race) (party : Party) :
    r.item.Keeps (r.step encoder settings decoding party).item :=
  step_induction (P := fun r' => r.item.Keeps r'.item)
    (fun _ _ move keeps => keeps.trans move.keeps)
    (fun _ _ move keeps => keeps.trans move.keeps) party (.refl r.item)

variable (encoder settings decoding) in
/-- What is recorded at the first verdict is recorded at every later moment. -/
theorem recorded_run (decided : r.gate.verdict.isSome = true) (order : List Party) :
    (r.run encoder settings decoding order).gate.verdict = r.gate.verdict ∧
      (r.run encoder settings decoding order).item.duration = r.item.duration ∧
      (r.run encoder settings decoding order).item.thumbnail = r.item.thumbnail := by
  refine run_induction
    (P := fun r' => r'.gate.verdict = r.gate.verdict ∧ r'.item.duration = r.item.duration ∧
      r'.item.thumbnail = r.item.thumbnail)
    (fun p q move same => ?_) (fun p q move same => ?_) order ⟨rfl, rfl, rfl⟩
  · have late : p.gate.verdict.isSome = true := by rw [same.1, decided]
    obtain ⟨duration, thumbnail⟩ := move.recorded_eq late
    exact ⟨(move.verdict_eq late).trans same.1, duration.trans same.2.1,
      thumbnail.trans same.2.2⟩
  · have late : p.gate.verdict.isSome = true := by rw [same.1, decided]
    obtain ⟨duration, thumbnail⟩ := move.recorded_eq
    exact ⟨(move.verdict_eq late).trans same.1, duration.trans same.2.1,
      thumbnail.trans same.2.2⟩

/-- What the deadline path has answered stays the answer. -/
theorem answer_run (decided : r.gate.verdict.isSome = true) (order : List Party)
    (same : (r.run encoder settings decoding order).deadline = r.deadline) :
    Extractor.answer (r.run encoder settings decoding order) = Extractor.answer r := by
  obtain ⟨verdict, duration, thumbnail⟩ :=
    recorded_run encoder settings decoding decided order
  have path : (r.run encoder settings decoding order).item.relativePath = r.item.relativePath :=
    (Item.label_of_described (described_run order r)).1
  simp only [Extractor.answer, Extractor.resultOf, same, verdict, duration, thumbnail, path]

theorem returned_run (returned : r.deadline = .returned) (order : List Party) :
    (r.run encoder settings decoding order).deadline = .returned := by
  refine run_induction (P := fun r' => r'.deadline = .returned)
    (fun _ _ move same => move.deadline_eq.trans same) (fun p q move same => ?_) order returned
  have lt := move.left_lt
  rw [same] at lt
  exact absurd lt (Nat.not_lt_zero _)

end Race

/-! ### Several extractions -/

/-- An extraction that has begun. Its registry and its item are those of all extractions. -/
structure Call where
  extractor : Extractor
  decoding : Decoding
  race : Race

/-- One item, and the extractions of it that have begun. -/
structure Calls where
  registry : Registry
  item : Item
  begun : List Call := []

namespace Calls

/-- What can happen to an item: its content is opened again, an extraction begins, or a path of
an extraction that has begun takes a step. -/
inductive Event where
  | lease
  | call (x : Extractor)
  | turn (i : Nat) (party : Party)

def step (s : Calls) : Event → Calls
  | .lease =>
    let (handle, registry) := s.registry.acquire Registry.contentKind none
    { s with registry := registry, item := { s.item with content := some handle.id } }
  | .call x =>
    let call : Call := ⟨x, x.decoding s.registry s.item, x.begin s.registry s.item⟩
    { s with registry := call.race.registry, begun := s.begun ++ [call] }
  | .turn i party =>
    match s.begun[i]? with
    | none => s
    | some call =>
      let race := { call.race with registry := s.registry, item := s.item }.step
        call.extractor.encoder call.extractor.settings call.decoding party
      { registry := race.registry, item := race.item,
        begun := s.begun.set i { call with race := race } }

def run (s : Calls) (history : List Event) : Calls := history.foldl step s

theorem keeps_step (s : Calls) (event : Event) : s.item.Keeps (s.step event).item := by
  cases event with
  | lease => exact ⟨fun _ h => h, fun _ h => h⟩
  | call x => exact .refl s.item
  | turn i party =>
    unfold step
    dsimp only
    split
    · exact .refl s.item
    · next call _ =>
      exact Race.keeps_step { call.race with registry := s.registry, item := s.item } party

/-- What an item shows once, it shows ever after. -/
theorem keeps_run (s : Calls) (history : List Event) : s.item.Keeps (s.run history).item := by
  induction history generalizing s with
  | nil => exact .refl s.item
  | cons event history ih => exact (s.keeps_step event).trans (ih (s.step event))

end Calls

/-! ### What a result says -/

/-- The outcome of a result fits the rest of it. -/
structure ExtractionResult.Fits (result : ExtractionResult) : Prop where
  complete : result.outcome = .complete → result.hasThumbnail = true ∧ result.error = none
  timeout : result.outcome = .timeout → result.error = none
  error : result.outcome = .error → ∃ text, result.error = some text

namespace Extractor

open Race

/-- A result shows what the item showed at the verdict. -/
theorem fits_answer {metadata : Except Failure Value} {item : Item} {r : Race}
    {result : ExtractionResult} (records : Records metadata item r)
    (decided : r.gate.verdict.isSome = true) (answered : answer r = .ok result) :
    result.duration = r.item.duration ∧
      result.hasThumbnail = r.item.thumbnail.isSome ∧ result.Fits := by
  obtain ⟨v, verdict⟩ := Option.isSome_iff_exists.1 decided
  obtain ⟨proper, complete⟩ := records.verdict v verdict
  have shown : resultOf r.item v = result := by
    unfold answer at answered
    rw [verdict] at answered
    split at answered
    · cases answered
    · exact Except.ok.inj answered
  subst shown
  refine ⟨rfl, rfl, fun outcome => ⟨complete outcome, ?_⟩, fun outcome => ?_, fun outcome => ?_⟩
  · rw [Ruling.Proper, show v.outcome = .complete from outcome] at proper
    exact proper
  · rw [Ruling.Proper, show v.outcome = .timeout from outcome] at proper
    exact proper
  · rw [Ruling.Proper, show v.outcome = .error from outcome] at proper
    exact Option.isSome_iff_exists.1 proper

/-- The deadline path of an extraction has seen a verdict when it stops. -/
theorem decided_of_stuck {metadata : Except Failure Value} {item : Item} {r : Race}
    {settings : ExtractionSettings} {result : ExtractionResult} (records : Records metadata item r)
    (stuck : r.stepDeadline settings = none) (answered : answer r = .ok result) :
    r.gate.verdict.isSome = true := by
  rcases deadline_of_stuck stuck with stop | ⟨f, stop⟩ | ⟨stop, -⟩
  · exact records.decided (.inr (.inl stop))
  · simp [answer, stop] at answered
  · exact records.decided (.inr (.inr (.inl stop)))

/-- For every order in which the two paths take their steps: nothing is recorded after the first
verdict; the result that is returned shows what the item shows then and ever after, and its
outcome fits; a duration that the race recorded was measured. Over any number of extractions of
an item, side by side or one after another, what is recorded stays. -/
theorem result_agrees_with_item (x : Extractor) (registry : Registry) (item : Item)
    (order later : List Party) (calls : Calls) (history : List Calls.Event) :
    let decoding := x.decoding registry item
    let r := (x.begin registry item).run x.encoder x.settings decoding order
    let r' := r.run x.encoder x.settings decoding later
    (r.gate.verdict.isSome = true →
      r'.gate.verdict = r.gate.verdict ∧ r'.item.duration = r.item.duration ∧
        r'.item.thumbnail = r.item.thumbnail) ∧
    (r.deadline = .returned →
      ∃ result, answer r = .ok result ∧ answer r' = .ok result ∧
        result.duration = r'.item.duration ∧
        result.hasThumbnail = r'.item.thumbnail.isSome ∧ result.Fits) ∧
    (∀ result, (x.extract registry item).result = .ok result →
      result.duration = (x.extract registry item).item.duration ∧
        result.hasThumbnail = (x.extract registry item).item.thumbnail.isSome ∧ result.Fits) ∧
    (r.item.duration = item.duration ∨ item.duration = none ∧
      ∃ seconds, Measured decoding.metadata.result seconds ∧
        r.item.duration = some (.real seconds)) ∧
    calls.item.Keeps (calls.run history).item := by
  intro decoding r r'
  have start := records_begin x registry item
  have records : Records decoding.metadata.result item r := start.run order
  have records' : Records decoding.metadata.result item r' := records.run later
  refine ⟨fun decided => recorded_run _ _ _ decided later, fun returned => ?_,
    fun result given => ?_, records.duration, calls.keeps_run history⟩
  · have decided := records.decided (.inr (.inl returned))
    have returned' : r'.deadline = .returned := returned_run returned later
    obtain ⟨result, answered⟩ : ∃ result, answer r' = .ok result := by simp [answer, returned']
    have decided' := records'.decided (.inr (.inl returned'))
    refine ⟨result, ?_, answered, fits_answer records' decided' answered⟩
    rw [← answered]
    exact (answer_run decided later (returned'.trans returned.symm)).symm
  · obtain ⟨first, rest, met, ended, hm, he, -, shown, concluded, stuck, -, -⟩ :=
      conclude_runs x decoding (x.begin registry item)
    have records_met : Records decoding.metadata.result item met := hm ▸ start.run first
    have answered : answer met = .ok result := concluded.symm.trans given
    have decided := decided_of_stuck records_met stuck answered
    -- The answer is read at `met`; the decode path goes on, but it records nothing.
    obtain ⟨duration, thumbnail, fits⟩ := fits_answer records_met decided answered
    obtain ⟨-, duration', thumbnail'⟩ :=
      recorded_run x.encoder x.settings decoding decided rest
    rw [← he, ← shown] at duration' thumbnail'
    exact ⟨duration.trans duration'.symm, thumbnail.trans (congrArg Option.isSome thumbnail'.symm),
      fits⟩

/-- An extractor whose sessions know the length, and hang while they capture a frame. -/
def measuring : Extractor where
  backend _ _ :=
    { metadata := { result := .ok (.int 12) }
      seek := fun _ => { result := .ok () }
      capture := fun _ => { result := .error (.decode .sessionClosed), blocks := true } }
  settings := ⟨.one, 640, 70⟩
  encoder := default

/-- The deadline passes after the length has been read. -/
def overdue : List Party := [.decode, .deadline, .deadline, .deadline, .deadline, .deadline]

/-- The length that was read too late is not recorded when the decode path goes on. -/
theorem result_agrees_with_item_overdue :
    let decoding := measuring.decoding leased clip
    let r := (measuring.begin leased clip).run measuring.encoder measuring.settings decoding overdue
    let r' := r.run measuring.encoder measuring.settings decoding [.decode, .decode]
    r.deadline = .returned ∧ r'.item.duration = none ∧
      ∃ result, answer r = .ok result ∧ answer r' = .ok result ∧ result.duration = none := by
  have returned : ((measuring.begin leased clip).run measuring.encoder measuring.settings
      (measuring.decoding leased clip) overdue).deadline = .returned := by decide +kernel
  have absent : (((measuring.begin leased clip).run measuring.encoder measuring.settings
      (measuring.decoding leased clip) overdue).run measuring.encoder measuring.settings
      (measuring.decoding leased clip) [.decode, .decode]).item.duration = none := by
    decide +kernel
  obtain ⟨result, answered, answered', duration, -⟩ :=
    (result_agrees_with_item measuring leased clip overdue [.decode, .decode] ⟨leased, clip, []⟩
      []).2.1 returned
  exact ⟨returned, absent, result, answered, answered', duration.trans absent⟩

end Extractor

end VideoCatalog
