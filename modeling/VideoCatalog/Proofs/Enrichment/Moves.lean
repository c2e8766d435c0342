import Mathlib.Tactic.Common
import VideoCatalog.Enrichment.Race

/-!
# The moves of a race

Everything that one step of a path can do, once for all invariants.

* `DecodePoint.Leads`: the points that a passed stage can lead to.
* `DecodePoint.left`, `DeadlinePoint.left`: a bound on the steps that a path has left.
* `DecodeMove`, `DeadlineMove`: the moves of the two paths; `decodeMove_of_step` and
  `deadlineMove_of_step` say that there are no others.
* `run_induction`: what all moves keep is kept by a run.
* `Item.described`: what a race leaves alone of its item; `described_run` says that it does.
* `decode_of_stuck`, `deadline_of_stuck`: where a path waits or has ended.
* `stuck_run_decode`, `stuck_run_deadline`: a path that goes on alone gets there.
-/

namespace VideoCatalog

/-- The points that a passed stage can lead to. A duration is noted only if the metadata holds
it and it is finite and positive. -/
inductive DecodePoint.Leads (metadata : Except Failure Value) : DecodePoint → Prop
  | noting {found : Value} {seconds : Binary64} (read : metadata = .ok found)
      (real : found.real = .ok seconds) (finite : seconds.isFinite = true)
      (positive : Binary64.zero.less seconds = true) : Leads metadata (.noting found seconds)
  | seeking (found : Value) : Leads metadata (.seeking found)
  | capturing (position : Binary64) : Leads metadata (.capturing position)
  | keeping (thumbnail : Thumbnail) : Leads metadata (.keeping thumbnail)
  | failing (f : Failure) : Leads metadata (Race.failing f)

/-- A bound on the steps of a release. -/
def Release.left : Release → Nat
  | .session => 3
  | .content => 2
  | .finish _ => 1

/-- A bound on the steps that the decode path has left. -/
def DecodePoint.left : DecodePoint → Nat
  | .probing => 9
  | .noting .. => 8
  | .seeking _ => 7
  | .capturing _ => 6
  | .keeping _ => 5
  | .ruling .. => 4
  | .releasing next _ => next.left
  | .ended => 0

/-- A bound on the steps that the deadline path has left. -/
def DeadlinePoint.left : DeadlinePoint → Nat
  | .waiting => 5
  | .resorting _ => 4
  | .releasing next _ => next.left
  | .yielding => 1
  | .returned | .failed _ => 0

theorem DecodePoint.left_le (p : DecodePoint) : p.left ≤ 9 := by
  cases p with
  | releasing next _ => cases next <;> simp [DecodePoint.left, Release.left]
  | _ => simp [DecodePoint.left]

theorem DeadlinePoint.left_le (p : DeadlinePoint) : p.left ≤ 5 := by
  cases p with
  | releasing next _ => cases next <;> simp [DeadlinePoint.left, Release.left]
  | _ => simp [DeadlinePoint.left]

theorem DecodePoint.ended_of_left {p : DecodePoint} (hnone : p.left = 0) : p = .ended := by
  cases p with
  | ended => rfl
  | releasing next _ => cases next <;> cases hnone
  | _ => cases hnone

/-- An item but for its handle on content and for what is learned about it. -/
def Item.described (item : Item) : Item :=
  { item with content := none, duration := none, thumbnail := none }

/-- Items that are described alike have the same path, source and tags. -/
theorem Item.label_of_described {a b : Item} (same : a.described = b.described) :
    a.relativePath = b.relativePath ∧ a.source = b.source ∧ a.tags = b.tags := by
  have path := congrArg Item.relativePath same
  have source := congrArg Item.source same
  have tags := congrArg Item.tags same
  exact ⟨path, source, tags⟩

theorem Item.described_recordDuration (item : Item) (seconds : Binary64) :
    (item.recordDuration seconds).2.described = item.described := by
  unfold recordDuration
  split <;> rfl

theorem Item.described_recordThumbnail (item : Item) (thumbnail : Thumbnail) :
    (item.recordThumbnail thumbnail).2.described = item.described := by
  unfold recordThumbnail
  split <;> rfl

/-- Whether the decode path is in a stage. -/
def DecodePoint.InStage : DecodePoint → Prop
  | .probing | .seeking _ | .capturing _ => True
  | _ => False

namespace Race

variable {encoder : Encoder} {settings : ExtractionSettings}
  {decoding : Decoding} {r r' : Race}

/-- What the item becomes when a duration is noted. -/
def noted (r : Race) (seconds : Binary64) : Item :=
  if r.gate.admits then (r.item.recordDuration seconds).2 else r.item

/-- What the item becomes when a thumbnail is kept. -/
def kept (r : Race) (thumbnail : Thumbnail) : Item :=
  if r.gate.admits then (r.item.recordThumbnail thumbnail).2 else r.item

/-- The moves of the decode path. -/
inductive DecodeMove (decoding : Decoding) (r : Race) : Race → Prop
  | pass {next : DecodePoint} {commands : List (List String)} {seeks : List Binary64}
      (hat : r.decode.InStage) (leads : next.Leads decoding.metadata.result)
      (onward : next.left < r.decode.left) :
      DecodeMove decoding r { r with decode := next, commands := commands, seeks := seeks }
  | note {found : Value} {seconds : Binary64} (hat : r.decode = .noting found seconds) :
      DecodeMove decoding r { r with item := r.noted seconds, decode := .seeking found }
  | keep {thumbnail : Thumbnail} (hat : r.decode = .keeping thumbnail) :
      DecodeMove decoding r
        { r with item := r.kept thumbnail, decode := .ruling ⟨.complete, none⟩ none }
  | lose {ruling v : Ruling} {cause : Option Failure} (hat : r.decode = .ruling ruling cause)
      (late : r.gate.verdict = some v) : DecodeMove decoding r { r with decode := .ended }
  | win {ruling : Ruling} {cause : Option Failure} {note : Record}
      (hat : r.decode = .ruling ruling cause) (first : r.gate.verdict = none) :
      DecodeMove decoding r
        { r with gate := { r.gate with verdict := some ruling }
                 decode := .releasing .session note }
  | release {next later : Release} {note : Record} (hat : r.decode = .releasing next note)
      (more : (r.releaseStep next).2 = some later) :
      DecodeMove decoding r { (r.releaseStep next).1 with decode := .releasing later note }
  | finish {failed : Option Failure} {note : Record} {log : List Record}
      (hat : r.decode = .releasing (.finish failed) note)
      (told : log = if failed.isSome then r.log else r.log ++ [note]) :
      DecodeMove decoding r { r with gate := r.gate.finish, decode := .ended, log := log }

/-- The moves of the deadline path. -/
inductive DeadlineMove (r : Race) : Race → Prop
  | expire (hat : r.deadline = .waiting) (hopen : r.gate.finished = false) :
      DeadlineMove r { r with deadline := .resorting .expired }
  | wake (hat : r.deadline = .waiting ∨ r.deadline = .yielding)
      (finished : r.gate.finished = true) : DeadlineMove r { r with deadline := .returned }
  | lose {why : Resort} {v : Ruling} (hat : r.deadline = .resorting why)
      (late : r.gate.verdict = some v) : DeadlineMove r { r with deadline := .yielding }
  | win {why : Resort} {notes : List Record} (hat : r.deadline = .resorting why)
      (first : r.gate.verdict = none) :
      DeadlineMove r
        { r with gate := { r.gate with verdict := some why.ruling }
                 deadline := .releasing .session notes }
  | release {next later : Release} {notes : List Record}
      (hat : r.deadline = .releasing next notes) (more : (r.releaseStep next).2 = some later) :
      DeadlineMove r { (r.releaseStep next).1 with deadline := .releasing later notes }
  | finish {notes : List Record} (hat : r.deadline = .releasing (.finish none) notes) :
      DeadlineMove r { r with gate := r.gate.finish, deadline := .returned, log := r.log ++ notes }
  | fail {f : Failure} {notes : List Record}
      (hat : r.deadline = .releasing (.finish (some f)) notes) :
      DeadlineMove r { r with gate := r.gate.finish, deadline := .failed f }

/-! ### There are no other moves -/

theorem leads_after {α : Type} {metadata : Except Failure Value} {result : Except Failure α}
    {next : α → DecodePoint} (leads : ∀ a, result = .ok a → (next a).Leads metadata) :
    (after result next).Leads metadata := by
  cases result with
  | error f => exact .failing f
  | ok a => exact leads a rfl

theorem left_after {α : Type} {result : Except Failure α} {next : α → DecodePoint} {k : Nat}
    (fails : 4 < k) (onward : ∀ a, (next a).left < k) : (after result next).left < k := by
  cases result with
  | error f => exact fails
  | ok a => exact onward a

theorem left_judge (found : Value) : (judge found).left < 9 := by
  unfold judge
  split
  · simp [DecodePoint.left]
  · refine left_after (by omega) fun x => ?_
    split <;> simp [DecodePoint.left]

theorem leads_judge (found : Value) : (judge found).Leads (.ok found) := by
  unfold judge
  split
  · exact .seeking _
  · refine leads_after fun x hx => ?_
    split
    · next fit =>
      obtain ⟨finite, positive⟩ := Bool.and_eq_true_iff.1 fit
      exact .noting rfl hx finite positive
    · exact .seeking _

theorem decide_eq_true {g g' : Gate Ruling} {v : Ruling} (h : g.decide v = (true, g')) :
    g.verdict = none ∧ g' = { g with verdict := some v } := by
  unfold Gate.decide at h
  split at h
  · simp at h
  · next hnone => exact ⟨hnone, by simpa using h.symm⟩

theorem decide_eq_false {g g' : Gate Ruling} {v : Ruling} (h : g.decide v = (false, g')) :
    ∃ w, g.verdict = some w := by
  unfold Gate.decide at h
  split at h
  · next w hsome => exact ⟨w, hsome⟩
  · simp at h

/-- Only the last part of a release has nothing after it. -/
theorem releaseStep_none {next : Release} (last : (r.releaseStep next).2 = none) :
    ∃ failed, next = .finish failed ∧
      (r.releaseStep next).1 = { r with gate := r.gate.finish } := by
  cases next with
  | session => unfold releaseStep at last; dsimp only at last; split at last <;> simp at last
  | content => unfold releaseStep at last; dsimp only at last; split at last <;> simp at last
  | finish failed => exact ⟨failed, rfl, rfl⟩

/-- A part of the release changes the registry, the content of the item, the gate and the log. -/
theorem releaseStep_frame (r : Race) (next : Release) : ∃ registry content gate log,
    (r.releaseStep next).1 =
      { r with registry := registry, item := { r.item with content := content }, gate := gate
               log := log } := by
  cases next with
  | session =>
    unfold releaseStep
    dsimp only
    split <;> exact ⟨_, r.item.content, r.gate, _, rfl⟩
  | content =>
    unfold releaseStep
    dsimp only
    split
    · exact ⟨_, none, r.gate, _, rfl⟩
    · exact ⟨_, r.item.content, r.gate, _, rfl⟩
  | finish failed => exact ⟨r.registry, r.item.content, r.gate.finish, r.log, rfl⟩

theorem decode_releaseStep (r : Race) (next : Release) :
    (r.releaseStep next).1.decode = r.decode := by
  obtain ⟨_, _, _, _, state⟩ := releaseStep_frame r next
  rw [state]

theorem deadline_releaseStep (r : Race) (next : Release) :
    (r.releaseStep next).1.deadline = r.deadline := by
  obtain ⟨_, _, _, _, state⟩ := releaseStep_frame r next
  rw [state]

theorem session_releaseStep (r : Race) (next : Release) :
    (r.releaseStep next).1.session = r.session := by
  obtain ⟨_, _, _, _, state⟩ := releaseStep_frame r next
  rw [state]

theorem gate_releaseStep {next later : Release} (more : (r.releaseStep next).2 = some later) :
    (r.releaseStep next).1.gate = r.gate := by
  cases next with
  | session | content =>
    unfold releaseStep
    dsimp only
    split <;> rfl
  | finish failed => simp [releaseStep] at more

theorem decodeMove_of_step (h : r.stepDecode encoder settings decoding = some r') :
    DecodeMove decoding r r' := by
  unfold stepDecode at h
  cases hat : r.decode with
  | probing =>
    have stage : r.decode.InStage := by rw [hat]; trivial
    simp only [hat] at h
    split at h
    · simp only [Option.some.injEq] at h
      subst h
      refine .pass stage (leads_after fun found hf => hf ▸ leads_judge found) ?_
      rw [hat]
      exact left_after (by simp [DecodePoint.left]) left_judge
    · simp at h
  | noting found seconds =>
    simp only [hat, Option.some.injEq] at h
    subst h
    exact .note hat
  | seeking found =>
    have stage : r.decode.InStage := by rw [hat]; trivial
    simp only [hat] at h
    split at h
    · simp only [Option.some.injEq] at h
      subst h
      refine .pass stage (.failing _) ?_
      simp [hat, failing, DecodePoint.left]
    · split at h
      · simp only [Option.some.injEq] at h
        subst h
        refine .pass stage (leads_after fun _ _ => .capturing _) ?_
        rw [hat]
        exact left_after (by simp [DecodePoint.left]) (by simp [DecodePoint.left])
      · simp at h
  | capturing position =>
    have stage : r.decode.InStage := by rw [hat]; trivial
    simp only [hat] at h
    split at h
    · simp only [Option.some.injEq] at h
      subst h
      refine .pass stage (leads_after fun _ _ => leads_after fun _ _ => .keeping _) ?_
      rw [hat]
      refine left_after (by simp [DecodePoint.left]) fun frame => ?_
      exact left_after (by simp [DecodePoint.left]) (by simp [DecodePoint.left])
    · simp at h
  | keeping thumbnail =>
    simp only [hat, Option.some.injEq] at h
    subst h
    exact .keep hat
  | ruling ruling cause =>
    simp only [hat] at h
    split at h
    · next verdict =>
      obtain ⟨v, late⟩ := decide_eq_false verdict
      simp only [Option.some.injEq] at h
      subst h
      exact .lose hat late
    · next verdict =>
      obtain ⟨first, rfl⟩ := decide_eq_true verdict
      simp only [Option.some.injEq] at h
      subst h
      exact .win hat first
  | releasing next note =>
    simp only [hat] at h
    split at h
    · next released =>
      simp only [Option.some.injEq] at h
      subst h
      have more := congrArg Prod.snd released
      have move : DecodeMove decoding r _ := .release hat more
      rwa [released] at move
    · next released =>
      -- Whether the release failed only decides what is logged at its end.
      obtain ⟨failed, rfl, state⟩ := releaseStep_none (congrArg Prod.snd released)
      rw [released] at state
      dsimp only at state
      subst state
      cases failed <;> simp only [Option.some.injEq] at h <;> subst h <;> exact .finish hat rfl
  | ended => simp [hat] at h

theorem deadlineMove_of_step (h : r.stepDeadline settings = some r') : DeadlineMove r r' := by
  unfold stepDeadline at h
  cases hat : r.deadline with
  | waiting =>
    simp only [hat, Option.some.injEq] at h
    subst h
    cases finished : r.gate.finished with
    | true => exact .wake (.inl hat) finished
    | false => exact .expire hat finished
  | resorting why =>
    simp only [hat] at h
    split at h
    · next verdict =>
      obtain ⟨v, late⟩ := decide_eq_false verdict
      simp only [Option.some.injEq] at h
      subst h
      exact .lose hat late
    · next verdict =>
      obtain ⟨first, rfl⟩ := decide_eq_true verdict
      simp only [Option.some.injEq] at h
      subst h
      exact .win hat first
  | releasing next notes =>
    simp only [hat] at h
    split at h
    · next released =>
      simp only [Option.some.injEq] at h
      subst h
      have more := congrArg Prod.snd released
      have move := DeadlineMove.release hat more
      rwa [released] at move
    · next released =>
      obtain ⟨failed, rfl, state⟩ := releaseStep_none (congrArg Prod.snd released)
      rw [released] at state
      dsimp only at state
      subst state
      cases failed <;> simp only [Option.some.injEq] at h <;> subst h
      · exact .finish hat
      · exact .fail hat
  | yielding =>
    simp only [hat] at h
    split at h
    · next finished =>
      simp only [Option.some.injEq] at h
      subst h
      exact .wake (.inr hat) finished
    · simp at h
  | returned => simp [hat] at h
  | failed f => simp [hat] at h

/-! ### Progress -/

theorem left_releaseStep {next later : Release} (more : (r.releaseStep next).2 = some later) :
    later.left < next.left := by
  cases next with
  | session =>
    unfold releaseStep at more
    dsimp only at more
    split at more <;> (cases more; simp [Release.left])
  | content =>
    unfold releaseStep at more
    dsimp only at more
    split at more <;> (cases more; simp [Release.left])
  | finish _ => simp [releaseStep] at more

theorem DecodeMove.left_lt (move : DecodeMove decoding r r') :
    r'.decode.left < r.decode.left := by
  cases move with
  | pass _ _ onward => exact onward
  | release hat more =>
    rw [hat]
    exact left_releaseStep more
  | note hat | keep hat | lose hat | win hat | finish hat =>
    rw [hat]
    simp [DecodePoint.left, Release.left]

theorem DeadlineMove.left_lt (move : DeadlineMove r r') : r'.deadline.left < r.deadline.left := by
  cases move with
  | release hat more =>
    rw [hat]
    exact left_releaseStep more
  | wake hat => rcases hat with hat | hat <;> rw [hat] <;> simp [DeadlinePoint.left]
  | expire hat | lose hat | win hat | finish hat | fail hat =>
    rw [hat]
    simp [DeadlinePoint.left, Release.left]

/-! ### What a move leaves alone -/

theorem DecodeMove.deadline_eq (move : DecodeMove decoding r r') : r'.deadline = r.deadline := by
  cases move with
  | release => exact deadline_releaseStep r _
  | _ => rfl

theorem DecodeMove.session_eq (move : DecodeMove decoding r r') : r'.session = r.session := by
  cases move with
  | release => exact session_releaseStep r _
  | _ => rfl

theorem DeadlineMove.decode_eq (move : DeadlineMove r r') : r'.decode = r.decode := by
  cases move with
  | release => exact decode_releaseStep r _
  | _ => rfl

theorem DeadlineMove.session_eq (move : DeadlineMove r r') : r'.session = r.session := by
  cases move with
  | release => exact session_releaseStep r _
  | _ => rfl

theorem described_releaseStep (r : Race) (next : Release) :
    (r.releaseStep next).1.item.described = r.item.described := by
  obtain ⟨_, _, _, _, state⟩ := releaseStep_frame r next
  rw [state]
  rfl

theorem DecodeMove.described_eq (move : DecodeMove decoding r r') :
    r'.item.described = r.item.described := by
  cases move with
  | note =>
    unfold noted
    split
    · exact r.item.described_recordDuration _
    · rfl
  | keep =>
    unfold kept
    split
    · exact r.item.described_recordThumbnail _
    · rfl
  | release => exact described_releaseStep r _
  | pass | lose | win | finish => rfl

theorem DeadlineMove.described_eq (move : DeadlineMove r r') :
    r'.item.described = r.item.described := by
  cases move with
  | release => exact described_releaseStep r _
  | _ => rfl

/-! ### Runs -/

theorem run_append (a b : List Party) (r : Race) :
    r.run encoder settings decoding (a ++ b) =
      (r.run encoder settings decoding a).run encoder settings decoding b := by
  simp [run, List.foldl_append]

/-- A path takes a step, or nothing changes. -/
theorem step_cases {P : Race → Prop}
    (decode : ∀ r', r.stepDecode encoder settings decoding = some r' → P r')
    (deadline : ∀ r', r.stepDeadline settings = some r' → P r') (party : Party) (h : P r) :
    P (r.step encoder settings decoding party) := by
  cases party with
  | decode =>
    cases next : r.stepDecode encoder settings decoding with
    | none => simpa [step, next] using h
    | some r' => simpa [step, next] using decode r' next
  | deadline =>
    cases next : r.stepDeadline settings with
    | none => simpa [step, next] using h
    | some r' => simpa [step, next] using deadline r' next

theorem step_induction {P : Race → Prop}
    (decode : ∀ r r', DecodeMove decoding r r' → P r → P r')
    (deadline : ∀ r r', DeadlineMove r r' → P r → P r') (party : Party) (h : P r) :
    P (r.step encoder settings decoding party) :=
  step_cases (fun r' next => decode r r' (decodeMove_of_step next) h)
    (fun r' next => deadline r r' (deadlineMove_of_step next) h) party h

/-- What all moves keep is kept by a run. -/
theorem run_induction {P : Race → Prop}
    (decode : ∀ r r', DecodeMove decoding r r' → P r → P r')
    (deadline : ∀ r r', DeadlineMove r r' → P r → P r') (order : List Party) (h : P r) :
    P (r.run encoder settings decoding order) := by
  induction order generalizing r with
  | nil => exact h
  | cons party order ih => exact ih (step_induction decode deadline party h)

theorem decode_run_deadline (n : Nat) (r : Race) :
    (r.run encoder settings decoding (List.replicate n .deadline)).decode = r.decode := by
  induction n generalizing r with
  | zero => rfl
  | succ n ih =>
    rw [List.replicate_succ, run_cons, ih]
    cases next : r.stepDeadline settings with
    | none => simp [step, next]
    | some r' => simpa [step, next] using (deadlineMove_of_step next).decode_eq

theorem deadline_run_decode (n : Nat) (r : Race) :
    (r.run encoder settings decoding (List.replicate n .decode)).deadline = r.deadline := by
  induction n generalizing r with
  | zero => rfl
  | succ n ih =>
    rw [List.replicate_succ, run_cons, ih]
    cases next : r.stepDecode encoder settings decoding with
    | none => simp [step, next]
    | some r' => simpa [step, next] using (decodeMove_of_step next).deadline_eq

/-- The session of a race stays the one that was opened. -/
theorem session_run (order : List Party) (r : Race) :
    (r.run encoder settings decoding order).session = r.session :=
  run_induction (P := fun r' => r'.session = r.session)
    (fun _ _ move same => move.session_eq.trans same)
    (fun _ _ move same => move.session_eq.trans same) order rfl

/-- A race only learns about its item. -/
theorem described_run (order : List Party) (r : Race) :
    (r.run encoder settings decoding order).item.described = r.item.described :=
  run_induction (P := fun r' => r'.item.described = r.item.described)
    (fun _ _ move same => move.described_eq.trans same)
    (fun _ _ move same => move.described_eq.trans same) order rfl

/-- A decode path that never set out stays where it is. -/
theorem ended_run (order : List Party) (ended : r.decode = .ended) :
    (r.run encoder settings decoding order).decode = .ended := by
  refine run_induction (P := fun r' => r'.decode = .ended) (fun r r' move ended => ?_)
    (fun _ _ move ended => move.decode_eq.trans ended) order ended
  have lt := move.left_lt
  rw [ended] at lt
  exact absurd lt (Nat.not_lt_zero _)

/-- A step that changes nothing is no move. -/
theorem stuck_of_step_decode (fixed : r.step encoder settings decoding .decode = r) :
    r.stepDecode encoder settings decoding = none := by
  cases next : r.stepDecode encoder settings decoding with
  | none => rfl
  | some r' =>
    have lt := (decodeMove_of_step next).left_lt
    simp only [step, next, Option.getD_some] at fixed
    rw [fixed] at lt
    exact absurd lt (Nat.lt_irrefl _)

theorem stuck_of_step_deadline (fixed : r.step encoder settings decoding .deadline = r) :
    r.stepDeadline settings = none := by
  cases next : r.stepDeadline settings with
  | none => rfl
  | some r' =>
    have lt := (deadlineMove_of_step next).left_lt
    simp only [step, next, Option.getD_some] at fixed
    rw [fixed] at lt
    exact absurd lt (Nat.lt_irrefl _)

/-! ### Where a path stops -/

/-- The decode path only stops at its end or in a stage that blocks. -/
theorem decode_of_stuck (stuck : r.stepDecode encoder settings decoding = none) :
    r.decode = .ended ∨ r.decode.InStage ∧ r.sessionClosed = false := by
  unfold stepDecode at stuck
  cases hat : r.decode with
  | ended => exact .inl rfl
  | probing | seeking _ | capturing _ =>
    refine .inr ⟨trivial, ?_⟩
    -- A session that is closed lets every stage pass.
    by_contra closed
    simp only [Bool.not_eq_false] at closed
    simp only [hat, closed, Stage.passes_closed, if_true] at stuck
    first
      | exact absurd stuck (by simp)
      | split at stuck <;> simp at stuck
  | noting _ _ | keeping _ => simp [hat] at stuck
  | ruling _ _ =>
    simp only [hat] at stuck
    split at stuck <;> simp at stuck
  | releasing next _ =>
    simp only [hat] at stuck
    split at stuck
    · simp at stuck
    · split at stuck <;> simp at stuck

/-- The deadline path only stops at its end or while it waits for the other path's release. -/
theorem deadline_of_stuck (stuck : r.stepDeadline settings = none) :
    r.deadline = .returned ∨ (∃ f, r.deadline = .failed f) ∨
      r.deadline = .yielding ∧ r.gate.finished = false := by
  unfold stepDeadline at stuck
  cases hat : r.deadline with
  | returned => exact .inl rfl
  | failed f => exact .inr (.inl ⟨f, rfl⟩)
  | yielding =>
    refine .inr (.inr ⟨rfl, ?_⟩)
    by_contra finished
    simp [hat, finished] at stuck
  | waiting => simp [hat] at stuck
  | resorting _ =>
    simp only [hat] at stuck
    split at stuck <;> simp at stuck
  | releasing next _ =>
    simp only [hat] at stuck
    split at stuck
    · simp at stuck
    · split at stuck <;> simp at stuck

/-- A path that cannot move stays where it is. -/
theorem run_of_stuck {party : Party} (stuck : r.step encoder settings decoding party = r)
    (n : Nat) : r.run encoder settings decoding (List.replicate n party) = r := by
  induction n with
  | zero => rfl
  | succ n ih => rw [List.replicate_succ, run_cons, stuck, ih]

/-- The decode path alone comes to where it cannot go on. -/
theorem stuck_run_decode (n : Nat) (r : Race) (bound : r.decode.left ≤ n) :
    (r.run encoder settings decoding (List.replicate n .decode)).stepDecode encoder settings
      decoding = none := by
  induction n generalizing r with
  | zero =>
    cases next : r.stepDecode encoder settings decoding with
    | none => simpa using next
    | some r' =>
      -- Every move uses up some of the bound, and there is nothing of it left.
      have := (decodeMove_of_step next).left_lt
      omega
  | succ n ih =>
    cases next : r.stepDecode encoder settings decoding with
    | none => rwa [run_of_stuck (by simp [step, next])]
    | some r' =>
      have lt := (decodeMove_of_step next).left_lt
      rw [List.replicate_succ, run_cons, show r.step encoder settings decoding .decode = r' by
        simp [step, next]]
      exact ih r' (by omega)

/-- The deadline path alone comes to where it cannot go on. -/
theorem stuck_run_deadline (n : Nat) (r : Race) (bound : r.deadline.left ≤ n) :
    (r.run encoder settings decoding (List.replicate n .deadline)).stepDeadline settings =
      none := by
  induction n generalizing r with
  | zero =>
    cases next : r.stepDeadline settings with
    | none => simpa using next
    | some r' =>
      have := (deadlineMove_of_step next).left_lt
      omega
  | succ n ih =>
    cases next : r.stepDeadline settings with
    | none => rwa [run_of_stuck (by simp [step, next])]
    | some r' =>
      have lt := (deadlineMove_of_step next).left_lt
      rw [List.replicate_succ, run_cons, show r.step encoder settings decoding .deadline = r' by
        simp [step, next]]
      exact ih r' (by omega)

end Race

end VideoCatalog
