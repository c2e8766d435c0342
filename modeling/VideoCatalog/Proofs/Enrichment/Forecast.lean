import VideoCatalog.Proofs.Enrichment.Solo

/-!
# What an extraction comes to

If the deadline passes only when the decode path is blocked, then an extraction comes to what the
decode path alone would come to: its own verdict, or the verdict that the time is over where it
blocks. Neither the registry nor the turns that the paths take matter.

* `Forecast`, `Extractor.forecast`: what an extraction comes to.
* `Race.Punctual`: orders under which the deadline passes only when the decode path is blocked.
* `Race.Yields`, `Race.Course`: where a punctual race can be; `Course.run` is a whole run.
* `Extractor.conclude_meets`: an extraction comes to its forecast.
* `Extractor.Alike`, `Extractor.forecast_congr`: the turns do not matter.
-/

namespace VideoCatalog

/-- What the extraction of an item comes to: the verdict, what is recorded of the item then, and
the records about it. -/
structure Forecast where
  ruling : Ruling
  duration : Option Quantity
  thumbnail : Option Thumbnail
  notes : List Record

namespace Forecast

/-- The item as the extraction leaves it. -/
def leave (f : Forecast) (item : Item) : Item :=
  { item with content := none, duration := f.duration, thumbnail := f.thumbnail }

/-- The result of the extraction. -/
def result (f : Forecast) (item : Item) : ExtractionResult :=
  Extractor.resultOf (f.leave item) f.ruling

end Forecast

namespace Race

variable {encoder : Encoder} {settings : ExtractionSettings}
  {decoding : Decoding} {r r' s : Race} {f : Forecast}

/-- What a race comes to whose decode path is stuck. The time is over if it has not ended. -/
def forecast (settings : ExtractionSettings) (r : Race) : Forecast :=
  match r.gate.verdict with
  | some v => ⟨v, r.item.duration, r.item.thumbnail, Record.aboutItems r.log⟩
  | none => ⟨Resort.expired.ruling, r.item.duration, r.item.thumbnail,
      resorted settings r.item .expired⟩

theorem forecast_of_decided {v : Ruling} (decided : r.gate.verdict = some v) :
    r.forecast settings =
      ⟨v, r.item.duration, r.item.thumbnail, Record.aboutItems r.log⟩ := by
  rw [forecast, decided]

theorem forecast_of_undecided (undecided : r.gate.verdict = none) :
    r.forecast settings =
      ⟨Resort.expired.ruling, r.item.duration, r.item.thumbnail,
        resorted settings r.item .expired⟩ := by
  rw [forecast, undecided]

theorem own_forecast (settings : ExtractionSettings) (r : Race) :
    Record.aboutItems (r.forecast settings).notes = (r.forecast settings).notes := by
  unfold forecast
  split
  · simp [Record.aboutItems]
  · exact aboutItems_resorted settings r.item .expired

/-- What a forecast says of a moment of a race: the item shows it, and what has been written about
the item so far. -/
structure Shows (f : Forecast) (written : List Record) (r : Race) : Prop where
  duration : r.item.duration = f.duration
  thumbnail : r.item.thumbnail = f.thumbnail
  log : Record.aboutItems r.log = written

/-- The deadline path brings about what is forecast. -/
inductive Yields (encoder : Encoder) (settings : ExtractionSettings)
    (decoding : Decoding) (f : Forecast) (r : Race) : Prop
  | about (why : Resort) (undecided : r.gate.verdict = none) (hat : r.deadline = .resorting why)
      (stuck : r.stepDecode encoder settings decoding = none) (ruling : why.ruling = f.ruling)
      (notes : resorted settings r.item why = f.notes) (shown : r.Shows f [])
  | given {next : Release} (verdict : r.gate.verdict = some f.ruling)
      (hat : r.deadline = .releasing next f.notes) (shown : r.Shows f [])
  | carried (verdict : r.gate.verdict = some f.ruling) (hat : r.deadline = .returned)
      (shown : r.Shows f f.notes)

/-- A step of the decode path writes nothing about the item unless it is in the release. -/
theorem DecodeMove.log_eq (move : DecodeMove decoding r r') (apart : r.decode.Apart) :
    r'.log = r.log := by
  cases move with
  | release hat | finish hat => rw [hat] at apart; exact apart.elim
  | _ => rfl

/-- After the verdict the decode path changes nothing that a forecast speaks of. -/
theorem Shows.decodeMove {written : List Record} (shown : r.Shows f written)
    (move : DecodeMove decoding r r') (decided : r.gate.verdict.isSome = true)
    (apart : r.decode.Apart) : r'.Shows f written := by
  obtain ⟨duration, thumbnail⟩ := move.recorded_eq decided
  exact ⟨duration.trans shown.duration, thumbnail.trans shown.thumbnail,
    (congrArg _ (move.log_eq apart)).trans shown.log⟩

theorem Yields.decodeMove (yields : Yields encoder settings decoding f r) (staked : Staked r)
    (next : r.stepDecode encoder settings decoding = some r') :
    Yields encoder settings decoding f r' := by
  have move := decodeMove_of_step next
  cases yields with
  | about _ _ _ stuck =>
    rw [stuck] at next
    cases next
  | given verdict hat shown =>
    have decided : r.gate.verdict.isSome = true := by rw [verdict]; rfl
    exact .given ((move.verdict_eq decided).trans verdict) (move.deadline_eq.trans hat)
      (shown.decodeMove move decided (staked.onward_deadline hat).1)
  | carried verdict hat shown =>
    have decided : r.gate.verdict.isSome = true := by rw [verdict]; rfl
    exact .carried ((move.verdict_eq decided).trans verdict) (move.deadline_eq.trans hat)
      (shown.decodeMove move decided (staked.of_returned hat).1)

theorem Yields.deadlineMove (yields : Yields encoder settings decoding f r) (staked : Staked r)
    (own : Record.aboutItems f.notes = f.notes)
    (next : r.stepDeadline settings = some r') : Yields encoder settings decoding f r' := by
  cases yields with
  | about why undecided hat _ ruling notes shown =>
    simp only [stepDeadline, hat, Gate.decide, undecided, Option.some.injEq] at next
    subst next
    exact .given (congrArg some ruling) (congrArg _ notes)
      ⟨shown.duration, shown.thumbnail, shown.log⟩
  | @given part verdict hat shown =>
    obtain ⟨-, more, sure⟩ := staked.onward_deadline hat
    cases ahead : part.onward with
    | some later =>
      rw [ahead] at more
      rw [stepDeadline_releasing hat more, Option.some.injEq] at next
      subst next
      obtain ⟨duration, thumbnail⟩ := recorded_releaseStep r part
      exact .given ((congrArg Gate.verdict (gate_releaseStep more)).trans verdict) rfl
        ⟨duration.trans shown.duration, thumbnail.trans shown.thumbnail,
          (aboutItems_releaseStep r part).trans shown.log⟩
    | none =>
      obtain rfl := Release.eq_finish ahead sure
      rw [stepDeadline_finishing hat, Option.some.injEq] at next
      subst next
      refine .carried verdict rfl ⟨shown.duration, shown.thumbnail, ?_⟩
      simp only [Record.aboutItems_append, shown.log, own, List.nil_append]
  | carried _ hat =>
    simp only [stepDeadline, hat] at next
    cases next

/-- What the deadline path brings about is kept by every order. -/
theorem Yields.run (yields : Yields encoder settings decoding f r) (staked : Staked r)
    (own : Record.aboutItems f.notes = f.notes) (order : List Party) :
    Yields encoder settings decoding f (r.run encoder settings decoding order) := by
  induction order generalizing r with
  | nil => exact yields
  | cons party order ih =>
    exact ih (step_cases (fun _ next => yields.decodeMove staked next)
      (fun _ next => yields.deadlineMove staked own next) party yields) (staked.step party)

/-! ### Punctual races -/

/-- Whether the deadline only passes when the decode path is blocked. -/
def Punctual (encoder : Encoder) (settings : ExtractionSettings)
    (decoding : Decoding) : List Party → Race → Prop
  | [], _ => True
  | party :: order, r =>
    (party = .deadline → r.deadline = .waiting → r.gate.finished = false →
      r.stepDecode encoder settings decoding = none) ∧
    Punctual encoder settings decoding order (r.step encoder settings decoding party)

theorem punctual_append {a b : List Party} (first : Punctual encoder settings decoding a r)
    (second : Punctual encoder settings decoding b (r.run encoder settings decoding a)) :
    Punctual encoder settings decoding (a ++ b) r := by
  induction a generalizing r with
  | nil => exact second
  | cons party a ih => exact ⟨first.1, ih first.2 second⟩

theorem punctual_decode (n : Nat) (r : Race) :
    Punctual encoder settings decoding (List.replicate n .decode) r := by
  induction n generalizing r with
  | zero => trivial
  | succ n ih => exact ⟨by simp, ih _⟩

/-- If the decode path is stuck, the deadline may pass. -/
theorem punctual_deadline (n : Nat) (r : Race)
    (stuck : r.stepDecode encoder settings decoding = none ∨ r.deadline ≠ .waiting) :
    Punctual encoder settings decoding (List.replicate n .deadline) r := by
  induction n generalizing r with
  | zero => trivial
  | succ n ih =>
    refine ⟨fun _ waiting _ => stuck.resolve_right fun ne => ne waiting, ih _ (.inr ?_)⟩
    -- The deadline path never comes back to where it waits.
    cases next : r.stepDeadline settings with
    | none =>
      rcases deadline_of_stuck next with stop | ⟨f, stop⟩ | ⟨stop, -⟩ <;>
        simp [step, next, stop]
    | some r' =>
      simp only [step, next, Option.getD_some]
      cases deadlineMove_of_step next <;> simp

/-- Where a punctual race can be that began like the race `s`, whose decode path is alone. -/
inductive Course (encoder : Encoder) (settings : ExtractionSettings)
    (decoding : Decoding) (s r : Race) : Prop
  | follows (n : Nat) (hat : r.deadline = .waiting ∨ r.deadline = .returned)
      (same : Follows r (alone encoder settings decoding n s))
  | yields (n : Nat)
      (stuck : (alone encoder settings decoding n s).stepDecode encoder settings decoding = none)
      (yields : Yields encoder settings decoding
        ((alone encoder settings decoding n s).forecast settings) r)

theorem Course.decodeStep (course : Course encoder settings decoding s r) (hr : Staked r)
    (hs : Staked s) :
    Course encoder settings decoding s (r.step encoder settings decoding .decode) := by
  cases course with
  | follows n hat same =>
    have both : Option.Rel Follows (r.stepDecode encoder settings decoding)
      ((alone encoder settings decoding n s).stepDecode encoder settings decoding) :=
      same.stepDecode hr (hs.run _)
    cases next : r.stepDecode encoder settings decoding with
    | none =>
      have still : r.step encoder settings decoding .decode = r := by simp [step, next]
      rw [still]
      exact .follows n hat same
    | some r' =>
      cases next' : (alone encoder settings decoding n s).stepDecode encoder settings decoding with
      | none =>
        rw [next, next'] at both
        cases both
      | some s' =>
        rw [next, next'] at both
        have moved : r.step encoder settings decoding .decode = r' := by simp [step, next]
        have moved' : alone encoder settings decoding (n + 1) s = s' := by
          rw [alone_succ]
          simp [step, next']
        have deadline := (decodeMove_of_step next).deadline_eq
        rw [moved]
        refine .follows (n + 1) (deadline ▸ hat) ?_
        rw [moved']
        cases both with
        | some same => exact same
  | yields n stuck yields =>
    exact .yields n stuck (yields.run hr (own_forecast _ _) [.decode])

theorem Course.deadlineStep (course : Course encoder settings decoding s r) (hr : Staked r)
    (hs : Staked s)
    (punctual : r.deadline = .waiting → r.gate.finished = false →
      r.stepDecode encoder settings decoding = none) :
    Course encoder settings decoding s (r.step encoder settings decoding .deadline) := by
  cases course with
  | yields n stuck yields =>
    exact .yields n stuck (yields.run hr (own_forecast _ _) [.deadline])
  | follows n hat same =>
    rcases hat with waiting | returned
    · cases finished : r.gate.finished with
      | true =>
        have moved : r.step encoder settings decoding .deadline =
            { r with deadline := .returned } := by
          simp [step, stepDeadline, waiting, finished]
        rw [moved]
        exact .follows n (.inr rfl) ⟨same.item, same.gate, same.decode, same.log, same.solo⟩
      | false =>
        have moved : r.step encoder settings decoding .deadline =
            { r with deadline := .resorting .expired } := by
          simp [step, stepDeadline, waiting, finished]
        have staked : Staked { r with deadline := .resorting .expired } := moved ▸ hr.step .deadline
        have still : Follows { r with deadline := .resorting .expired }
            (alone encoder settings decoding n s) :=
          ⟨same.item, same.gate, same.decode, same.log, same.solo⟩
        have stuck : (alone encoder settings decoding n s).stepDecode encoder settings decoding =
          none := (same.stuck_iff hr (hs.run _)).1 (punctual waiting finished)
        obtain ⟨gate, silent⟩ := same.solo.blocked (same.gate ▸ finished) stuck
        obtain ⟨duration, thumbnail⟩ := Item.recorded_of_shown same.item
        rw [moved]
        refine .yields n stuck ?_
        rw [forecast_of_undecided (congrArg Gate.verdict gate)]
        refine .about .expired (congrArg Gate.verdict (same.gate.trans gate)) rfl
          ((still.stuck_iff staked (hs.run _)).2 stuck) rfl ?_
          ⟨duration, thumbnail, same.log.trans silent⟩
        dsimp only
        rw [← resorted_shown settings r.item, same.item, resorted_shown]
    · have still : r.step encoder settings decoding .deadline = r := by
        simp [step, stepDeadline, returned]
      rw [still]
      exact .follows n (.inr returned) same

/-- A punctual race stays on its course. -/
theorem Course.run (course : Course encoder settings decoding s r) (hr : Staked r) (hs : Staked s)
    (order : List Party) (punctual : Punctual encoder settings decoding order r) :
    Course encoder settings decoding s (r.run encoder settings decoding order) := by
  induction order generalizing r with
  | nil => exact course
  | cons party order ih =>
    refine ih ?_ (hr.step party) punctual.2
    cases party with
    | decode => exact course.decodeStep hr hs
    | deadline => exact course.deadlineStep hr hs (punctual.1 rfl)

/-- At the end of its course a race shows what is forecast. -/
theorem Course.shows (course : Course encoder settings decoding s r) (hr : Staked r)
    (hs : Staked s) (returned : r.deadline = .returned)
    (stuck : r.stepDecode encoder settings decoding = none) :
    ∃ n, (alone encoder settings decoding n s).stepDecode encoder settings decoding = none ∧
      r.gate.verdict = some ((alone encoder settings decoding n s).forecast settings).ruling ∧
      r.Shows ((alone encoder settings decoding n s).forecast settings)
        ((alone encoder settings decoding n s).forecast settings).notes := by
  cases course with
  | follows n _ same =>
    obtain ⟨v, decided⟩ := Option.isSome_iff_exists.1 (hr.of_returned returned).2.2
    obtain ⟨duration, thumbnail⟩ := Item.recorded_of_shown same.item
    refine ⟨n, (same.stuck_iff hr (hs.run _)).1 stuck, ?_⟩
    rw [forecast_of_decided (same.gate ▸ decided)]
    exact ⟨decided, duration, thumbnail, same.log⟩
  | yields n stuck' yields =>
    refine ⟨n, stuck', ?_⟩
    cases yields with
    | carried verdict _ shown => exact ⟨verdict, shown⟩
    | about _ _ hat | given _ hat => rw [returned] at hat; cases hat

end Race

/-- An item as a forecast leaves it is known by what it shows. -/
theorem Forecast.eq_leave {f : Forecast} {a b : Item} (described : a.described = b.described)
    (content : a.content = none) (duration : a.duration = f.duration)
    (thumbnail : a.thumbnail = f.thumbnail) : a = f.leave b := by
  have same := congrArg (fun item : Item =>
    { item with duration := f.duration, thumbnail := f.thumbnail }) described
  cases a
  dsimp only at content duration thumbnail
  subst content duration thumbnail
  exact same

namespace Extractor

open Race

variable {x y : Extractor} {registry : Registry} {item : Item} {id session : Nat} {f : Forecast}
  {e : Extracted} {decoding : Decoding} {start : Race}

/-- The race for an item in a registry with nothing but its content and its session. -/
def rehearsal (item : Item) : Race where
  registry := ⟨2, [⟨1, Registry.contentKind, none⟩, ⟨2, Registry.decodeKind, none⟩], []⟩
  item := { item with content := some 1 }
  session := some 2

/-- What the extraction of an item comes to: the decode path goes on alone until it ends or is
blocked, unless there is no content or no session can be opened. -/
def forecast (x : Extractor) (item : Item) : Forecast :=
  let decoding := x.backend item.source false
  match item.content, decoding.opening with
  | none, _ => ⟨Resort.contentReleased.ruling, item.duration, item.thumbnail, []⟩
  | some _, .error f => ⟨(Resort.notOpened f).ruling, item.duration, item.thumbnail,
      resorted x.settings item (.notOpened f)⟩
  | some _, .ok () =>
    (alone x.encoder x.settings decoding pathSteps (rehearsal item)).forecast x.settings

/-- The path that the extraction of an item opens, if it opens one. -/
def opens (item : Item) : List Path := if item.content.isNone then [] else [item.source]

/-- An extraction that comes to what is forecast. -/
structure Meets (f : Forecast) (item : Item) (e : Extracted) : Prop where
  left : e.item = f.leave item
  result : e.result = .ok (f.result item)
  opened : e.opened = opens item
  log : Record.aboutItems e.log = f.notes

theorem staked_rehearsal (item : Item) : Staked (rehearsal item) := by
  refine ⟨(rehearsal item).registry, some 2, 1, ⟨?_, ?_, ?_⟩,
    .undecided rfl trivial trivial (by simp [rehearsal]) ⟨rfl, rfl, rfl⟩⟩
  · exact ⟨by simp [rehearsal], by simp [rehearsal], by simp [rehearsal], by simp [rehearsal],
      by simp [rehearsal]⟩
  · exact ⟨_, List.mem_cons_self, rfl, by simp [Handle.Mild]⟩
  · intro id opened
    obtain rfl : 2 = id := Option.some.inj opened
    exact ⟨by decide, _, List.mem_cons_of_mem _ List.mem_cons_self, rfl, by simp [Handle.Mild]⟩

/-- A race that ends with what is forecast is concluded so. -/
theorem conclude_meets {base : Registry} {opened : Option Nat} (stake : Stake base opened id)
    (phase : Phase base opened id start)
    (verdict : (x.ended decoding start).gate.verdict = some f.ruling)
    (shown : (x.ended decoding start).Shows f f.notes) :
    Meets f start.item (x.conclude decoding start) := by
  obtain ⟨-, content, -⟩ := conclude_released x decoding stake phase
  obtain ⟨phase_met, returned⟩ := returned_met x decoding stake phase
  obtain ⟨-, -, still, -⟩ := stopped_met x decoding start
  have described : (x.ended decoding start).item.described = start.item.described :=
    (described_run _ _).trans (described_run _ _)
  have leave : (x.ended decoding start).item = f.leave start.item :=
    Forecast.eq_leave described content shown.duration shown.thumbnail
  refine ⟨leave, ?_, ?_, shown.log⟩
  · have decided := (phase_met.settled_of_returned returned).2.1
    have same : answer (x.ended decoding start) = answer (x.met decoding start) :=
      answer_run decided _ still
    calc (x.conclude decoding start).result = answer (x.ended decoding start) := same.symm
      _ = .ok (f.result start.item) := by
        rw [answer, still, returned, verdict, leave]
        rfl
  · rfl

/-- An open session comes to what is forecast, if the deadline is punctual. -/
theorem finishItem_meets (stake : Stake registry (some session) id)
    (held : item.content = some id) (opening : (x.backend item.source false).opening = .ok ())
    (punctual : Punctual x.encoder x.settings (x.backend item.source false)
      (x.backend item.source false).turns
      { registry := registry, item := item, session := some session }) :
    Meets (x.forecast item) item
      (x.finishItem (x.backend item.source false) registry item session) := by
  obtain ⟨decoding, hd⟩ : ∃ decoding, decoding = x.backend item.source false := ⟨_, rfl⟩
  rw [← hd] at punctual opening ⊢
  obtain ⟨start, hs⟩ : ∃ start : Race,
      start = { registry := registry, item := item, session := some session } := ⟨_, rfl⟩
  have phase : Phase registry (some session) id start :=
    hs ▸ .undecided rfl trivial trivial (by simp) ⟨rfl, rfl, held⟩
  have staked : Staked start := ⟨_, _, _, stake, phase⟩
  have begun : Course x.encoder x.settings decoding (rehearsal item) start := by
    refine .follows 0 (.inl (by rw [hs])) ?_
    rw [hs]
    exact ⟨rfl, rfl, rfl, rfl, .working rfl trivial rfl⟩
  -- The decode path is stuck before the deadline path goes on alone.
  have order : Punctual x.encoder x.settings decoding (decoding.turns ++
      List.replicate pathSteps .decode ++ List.replicate pathSteps .deadline) start := by
    refine punctual_append (punctual_append (hs ▸ punctual) (punctual_decode _ _))
      (punctual_deadline _ _ (.inl ?_))
    rw [run_append]
    exact stuck_run_decode _ _ (Nat.le_trans (DecodePoint.left_le _) (by decide))
  have met := begun.run staked (staked_rehearsal item) _ order
  have ended : Course x.encoder x.settings decoding (rehearsal item) (x.ended decoding start) :=
    met.run (staked.run _) (staked_rehearsal item) _ (punctual_decode _ _)
  obtain ⟨-, -, still, stuck⟩ := stopped_met x decoding start
  have returned := (returned_met x decoding stake phase).2
  obtain ⟨n, stuck', verdict, shown⟩ := ended.shows ((staked.run _).run _)
    (staked_rehearsal item) (still.trans returned) stuck
  have same : alone x.encoder x.settings decoding n (rehearsal item) =
      alone x.encoder x.settings decoding pathSteps (rehearsal item) :=
    alone_eq_of_stuck stuck'
      (stuck_run_decode _ _ (Nat.le_trans (DecodePoint.left_le _) (by decide)))
  have comes : x.forecast item =
      (alone x.encoder x.settings decoding n (rehearsal item)).forecast x.settings := by
    rw [same, forecast, ← hd]
    simp only [held, opening]
  rw [comes]
  have meets := conclude_meets stake phase verdict shown
  rw [hs] at meets
  exact meets

/-- An item for which no session can be opened comes to what is forecast. -/
theorem refused_meets {why : Failure} (stake : Stake registry none id)
    (held : item.content = some id)
    (refused : (x.backend item.source false).opening = .error why) :
    Meets (x.forecast item) item (x.conclude decoding
      { registry := registry, item := item, session := none, decode := .ended
        deadline := .resorting (.notOpened why) }) := by
  obtain ⟨start, hs⟩ : ∃ start : Race,
      start = { registry := registry, item := item, session := none, decode := .ended
                deadline := .resorting (.notOpened why) } := ⟨_, rfl⟩
  have comes : x.forecast item = ⟨(Resort.notOpened why).ruling, item.duration, item.thumbnail,
      resorted x.settings item (.notOpened why)⟩ := by
    rw [forecast]
    simp only [held, refused]
  have phase : Phase registry none id start :=
    hs ▸ .undecided rfl trivial trivial (by simp) ⟨rfl, rfl, held⟩
  have staked : Staked start := ⟨_, _, _, stake, phase⟩
  have begun : Yields x.encoder x.settings decoding (x.forecast item) start := by
    rw [comes, hs]
    exact .about (.notOpened why) rfl rfl rfl rfl rfl ⟨rfl, rfl, rfl⟩
  have own : Record.aboutItems (x.forecast item).notes = (x.forecast item).notes := by
    rw [comes]
    exact aboutItems_resorted x.settings item (.notOpened why)
  have ended : Yields x.encoder x.settings decoding (x.forecast item) (x.ended decoding start) :=
    (begun.run staked own _).run (staked.run _) own _
  obtain ⟨-, -, still, -⟩ := stopped_met x decoding start
  have returned := still.trans (returned_met x decoding stake phase).2
  rw [← hs]
  cases ended with
  | carried verdict _ shown =>
    have meets := conclude_meets stake phase verdict shown
    rwa [show start.item = item by rw [hs]] at meets
  | about _ _ hat | given _ hat => rw [returned] at hat; cases hat

/-- So does an item without content. -/
theorem vacant_meets (x : Extractor) (empty : item.content = none) :
    Meets (x.forecast item) item
      { registry := registry, item := item
        result := .ok (resultOf item Resort.contentReleased.ruling) } := by
  have comes : x.forecast item =
      ⟨Resort.contentReleased.ruling, item.duration, item.thumbnail, []⟩ := by
    rw [forecast]
    simp only [empty]
  rw [comes]
  have same : item = { item with content := none } := by rw [← empty]
  refine ⟨same, ?_, by simp [opens, empty], rfl⟩
  exact congrArg (fun left => Except.ok (resultOf left Resort.contentReleased.ruling)) same

/-- Extractors that differ in nothing but the turns that the paths of their races take. -/
structure Alike (x y : Extractor) : Prop where
  settings : x.settings = y.settings
  encoder : x.encoder = y.encoder
  backend : ∀ path shut, ∃ turns,
    y.backend path shut = { x.backend path shut with turns := turns }

/-- The decode path alone takes no turns into account. -/
theorem alone_turns (encoder : Encoder) (settings : ExtractionSettings)
    (decoding : Decoding) (turns : List Party) (n : Nat) (r : Race) :
    alone encoder settings { decoding with turns := turns } n r =
      alone encoder settings decoding n r := rfl

/-- Neither does a forecast. -/
theorem forecast_congr (alike : x.Alike y) (item : Item) : y.forecast item = x.forecast item := by
  obtain ⟨turns, same⟩ := alike.backend item.source false
  unfold forecast
  rw [same, ← alike.settings, ← alike.encoder]
  simp only [alone_turns]

end Extractor

end VideoCatalog
