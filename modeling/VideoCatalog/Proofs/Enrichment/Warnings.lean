import VideoCatalog.Log.Setup
import VideoCatalog.Proofs.Enrichment.Solo
import VideoCatalog.Proofs.Enrichment.Stranding

/-!
# What the log says of failures

Timeouts are written as warnings, and so are failed items, with two exceptions: the decoder's own
failure is written below that level, and an item without content is not written about at all.

* `Race.fate`: the failure that ends a release, said in advance; `Release.Faces` is carried from
  part to part.
* `Decoding.picture`: what the stages of a session come to when they are passed one after another.
* `DecodePoint.Fits`, `DeadlinePoint.Fits`: what a path will write goes with its verdict.
* `Race.Tells`: what a race has written goes with its verdict; `Tells.run` is a whole run.
* `Extractor.failures_warned_iff`: the main statement.
-/

namespace VideoCatalog

/-! ### The failure that ends a release -/

/-- The failure of a result. -/
def Failure.of? {α : Type} : Except Failure α → Option Failure
  | .error f => some f
  | .ok _ => none

namespace Registry

variable {r : Registry}

/-- Releasing a handle passes on what closing its resource does, if it is registered. -/
theorem of?_release (r : Registry) (id : Nat) :
    Failure.of? (r.release id).result = (r.find? id).bind Handle.severe? := by
  cases found : r.find? id with
  | none =>
    rw [release_of_find?_none found]
    rfl
  | some h =>
    obtain rfl : h.id = id := by simpa using List.find?_some found
    rw [result_release found]
    cases severe : h.severe? with
    | none =>
      rw [(reached_of_mild [] severe).2]
      exact severe.symm
    | some f =>
      rw [(reached_of_severe [] severe).2]
      exact severe.symm

theorem of?_release? (r : Registry) (id : Option Nat) :
    Failure.of? (r.release? id).result = (id.bind r.find?).bind Handle.severe? := by
  cases id with
  | none => rfl
  | some id => exact of?_release r id

/-- A registered handle that is released is closed, whether closing it fails or not. -/
theorem isClosed_release {id : Nat} (there : (r.find? id).isSome = true) :
    (r.release id).registry.isClosed id = true := by
  obtain ⟨h, found⟩ := Option.isSome_iff_exists.1 there
  obtain rfl : h.id = id := by simpa using List.find?_some found
  rw [(release_of_find? found).1]
  simp [isClosed]

/-- Taking the handle that was given out last out again leaves the handles that were there. -/
theorem Sound.registered_acquired (sound : r.Sound) (kind : String) (fault : Option Failure) :
    ((r.acquire kind fault).2.release (r.issued + 1)).registry.registered = r.registered ∧
      (r.acquire kind fault).2.find? (r.issued + 1) = some (r.acquire kind fault).1 := by
  have fresh : ∀ h ∈ r.registered, h.id ≠ r.issued + 1 := by
    intro h mem
    have := sound.registered_le h mem
    omega
  have found : (r.acquire kind fault).2.find? (r.issued + 1) = some (r.acquire kind fault).1 := by
    have missing : r.registered.find? (·.id == r.issued + 1) = none :=
      List.find?_eq_none.2 fun h mem => by simpa using fresh h mem
    simp [Registry.find?, Registry.acquire, List.find?_append, missing]
  refine ⟨?_, found⟩
  rw [(release_of_find? found).1]
  simp only [Registry.acquire, List.filter_append]
  rw [List.filter_eq_self.2 fun h mem => by simpa using fresh h mem]
  simp

end Registry

namespace Race

variable {encoder : Encoder} {settings : ExtractionSettings}
  {decoding : Decoding} {r r' : Race}

/-- The failure that ends the release if a part of it is next: the first one that closing passes
on. -/
def fate (r : Race) : Release → Option Failure
  | .session =>
    (Failure.of? (r.registry.release? r.session).result).or
      (Failure.of? ((r.registry.release? r.session).registry.release? r.item.content).result)
  | .content => Failure.of? (r.registry.release? r.item.content).result
  | .finish failed => failed

/-- No part of the release changes what it comes to. -/
theorem fate_releaseStep {next later : Release} (more : (r.releaseStep next).2 = some later) :
    (r.releaseStep next).1.fate later = r.fate next := by
  cases next with
  | session =>
    cases result : (r.registry.release? r.session).result <;>
      (simp only [releaseStep, result, Option.some.injEq] at more ⊢; subst more) <;>
      simp [fate, result, Failure.of?]
  | content =>
    cases result : (r.registry.release? r.item.content).result <;>
      (simp only [releaseStep, result, Option.some.injEq] at more ⊢; subst more) <;>
      simp [fate, result, Failure.of?]
  | finish failed => simp [releaseStep] at more

end Race

/-- The session is registered until it is released, and closed from then on. -/
def Release.Shuts (r : Race) : Release → Prop
  | .session => ∀ id ∈ r.session, (r.registry.find? id).isSome = true
  | .content | .finish _ => r.session.isSome = true → r.sessionClosed = true

/-- The release comes to a given end when a part of it is next. -/
structure Release.Faces (ended : Option Failure) (r : Race) (next : Release) : Prop where
  fate : r.fate next = ended
  shuts : next.Shuts r

namespace Race

variable {encoder : Encoder} {settings : ExtractionSettings}
  {decoding : Decoding} {ended : Option Failure} {r r' : Race}

theorem Faces.congr {next : Release} (faces : next.Faces ended r)
    (same : r'.session = r.session) (registry : r'.registry = r.registry)
    (content : r'.item.content = r.item.content) : next.Faces ended r' := by
  obtain ⟨fate, shuts⟩ := faces
  refine ⟨?_, ?_⟩
  · rw [← fate]
    cases next <;> simp only [Race.fate, same, registry, content]
  · cases next <;> simp only [Release.Shuts, sessionClosed, same, registry] at shuts ⊢ <;>
      exact shuts

/-- When the session has been released it is closed. -/
theorem sessionClosed_release (there : ∀ id ∈ r.session, (r.registry.find? id).isSome = true)
    (opened : r.session.isSome = true) :
    r.session.any (r.registry.release? r.session).registry.isClosed = true := by
  obtain ⟨id, hsome⟩ := Option.isSome_iff_exists.1 opened
  rw [hsome]
  exact Registry.isClosed_release (there id hsome)

theorem Faces.releaseStep {next later : Release} (faces : next.Faces ended r)
    (more : (r.releaseStep next).2 = some later) : later.Faces ended (r.releaseStep next).1 := by
  refine ⟨(fate_releaseStep more).trans faces.fate, ?_⟩
  cases next with
  | session =>
    have closed := sessionClosed_release faces.shuts
    cases result : (r.registry.release? r.session).result <;>
      (simp only [Race.releaseStep, result, Option.some.injEq] at more ⊢; subst more) <;>
      exact closed
  | content =>
    -- What is closed stays closed when the content is released.
    have closed : r.session.isSome = true →
        r.session.any (r.registry.release? r.item.content).registry.isClosed = true := by
      intro opened
      obtain ⟨id, hsome⟩ := Option.isSome_iff_exists.1 opened
      have before : r.sessionClosed = true := faces.shuts opened
      simp only [sessionClosed, hsome, Option.any_some, Registry.isClosed, List.contains_iff_mem]
        at before ⊢
      exact (Registry.spent_release? r.registry r.item.content).closings before
    cases result : (r.registry.release? r.item.content).result <;>
      (simp only [Race.releaseStep, result, Option.some.injEq] at more ⊢; subst more) <;>
      exact closed
  | finish failed => simp [Race.releaseStep] at more

theorem carried_faces (ended : Option Failure) :
    Carried fun next r => next.Faces ended r where
  congr := Faces.congr
  onward := Faces.releaseStep

end Race

/-! ### What the stages come to -/

section Picture

variable (encoder : Encoder) (settings : ExtractionSettings)
  (decoding : Decoding)

/-- The picture that is taken at a position. -/
def Decoding.shoot (position : Binary64) : Except Failure Thumbnail :=
  (decoding.capture position).result.bind fun frame =>
    renderThumbnail encoder frame (.int settings.maxWidth) (.int settings.quality)

/-- The picture that is taken with found metadata. -/
def Decoding.aim (found : Value) : Except Failure Thumbnail :=
  (seekTarget found).bind fun position =>
    (decoding.seek position).result.bind fun _ => decoding.shoot encoder settings position

/-- The picture that a session gives if all its stages are passed. -/
def Decoding.picture : Except Failure Thumbnail :=
  decoding.metadata.result.bind (decoding.aim encoder settings)

end Picture

/-! ### What is written for a verdict -/

/-- The level of the record about an item that fails. -/
def Failure.level (f : Failure) : Level := if f.isDecode then Level.info else Level.warning

/-- The levels of the records of a verdict that the deadline path gives. -/
def Resort.levels : Resort → List Level
  | .expired | .notOpened _ => [Level.warning]
  | .contentReleased => []

/-- What is written when the stages of a session come to a result goes with its outcome. -/
structure Covers (notes : Outcome → List Level → Prop) (result : Except Failure Thumbnail) :
    Prop where
  complete : ∀ t, result = .ok t → notes .complete [Level.info]
  error : ∀ f, result = .error f → notes .error [f.level]

/-- What the decode path will write goes with the verdict that it will give or has given. -/
def DecodePoint.Fits (encoder : Encoder) (settings : ExtractionSettings)
    (decoding : Decoding) (notes : Outcome → List Level → Prop) (verdict : Option Ruling) :
    DecodePoint → Prop
  | .probing => Covers notes (decoding.picture encoder settings)
  | .noting found _ | .seeking found => Covers notes (decoding.aim encoder settings found)
  | .capturing position => Covers notes (decoding.shoot encoder settings position)
  | .keeping thumbnail => Covers notes (.ok thumbnail)
  | .ruling v cause => notes v.outcome [(cause.map Failure.level).getD Level.info]
  | .releasing _ note =>
    ∃ v, verdict = some v ∧ note.source = .enrichment ∧ notes v.outcome [note.level]
  | .ended => True

/-- What the deadline path will write goes with the verdict that it will give or has given. -/
def DeadlinePoint.Fits (notes : Outcome → List Level → Prop) (verdict : Option Ruling) :
    DeadlinePoint → Prop
  | .waiting => notes .timeout [Level.warning]
  | .resorting why => notes why.ruling.outcome why.levels
  | .releasing _ written =>
    ∃ v, verdict = some v ∧ Record.aboutItems written = written ∧
      notes v.outcome (written.map (·.level))
  | .yielding | .returned | .failed _ => True

section

variable {encoder : Encoder} {settings : ExtractionSettings}
  {decoding : Decoding} {notes : Outcome → List Level → Prop}

/-- A verdict of the other path does not matter to a path that has given none. -/
theorem DecodePoint.Fits.decided {p : DecodePoint}
    (fits : p.Fits encoder settings decoding notes none) (v : Ruling) :
    p.Fits encoder settings decoding notes (some v) := by
  cases p with
  | releasing part note =>
    obtain ⟨w, given, -⟩ := fits
    cases given
  | _ => exact fits

theorem DeadlinePoint.Fits.decided {p : DeadlinePoint} (fits : p.Fits notes none) (v : Ruling) :
    p.Fits notes (some v) := by
  cases p with
  | releasing part written =>
    obtain ⟨w, given, -⟩ := fits
    cases given
  | _ => exact fits

end

namespace Race

variable {encoder : Encoder} {settings : ExtractionSettings}
  {decoding : Decoding} {notes : Outcome → List Level → Prop} {verdict : Option Ruling}
  {ended : Option Failure} {r r' : Race}

theorem levels_resorted (settings : ExtractionSettings) (item : Item) (why : Resort) :
    (resorted settings item why).map (·.level) = why.levels := by
  cases why <;> rfl

theorem gate_released {part later : Release} (released : r.releaseStep part = (r', some later)) :
    r'.gate = r.gate := by
  have gate := gate_releaseStep (congrArg Prod.snd released)
  rwa [released] at gate

/-- A stage leads to what is left of the whole. -/
theorem fits_after {α : Type} {result : Except Failure α} {rest : α → Except Failure Thumbnail}
    {next : α → DecodePoint} (covers : Covers notes (result.bind rest))
    (onward : ∀ a, Covers notes (rest a) →
      (next a).Fits encoder settings decoding notes verdict) :
    (after result next).Fits encoder settings decoding notes verdict := by
  cases result with
  | error f => exact covers.error f rfl
  | ok a => exact onward a covers

/-- A duration that is no number is refused when it is judged, as it would be before seeking. -/
theorem fits_judge {found : Value} (covers : Covers notes (decoding.aim encoder settings found)) :
    (judge found).Fits encoder settings decoding notes verdict := by
  unfold judge
  split
  · exact covers
  · next nonnull =>
    cases read : found.real with
    | error f =>
      have refused : seekTarget found = .error f := by
        unfold seekTarget
        split
        · exact absurd rfl nonnull
        · rw [read]
          rfl
      rw [Decoding.aim, refused] at covers
      exact covers.error f rfl
    | ok x =>
      simp only [after]
      split <;> exact covers

theorem fits_stepDecode
    (fits : r.decode.Fits encoder settings decoding notes r.gate.verdict)
    (next : r.stepDecode encoder settings decoding = some r') :
    r'.decode.Fits encoder settings decoding notes r'.gate.verdict := by
  unfold stepDecode at next
  cases hat : r.decode with
  | probing =>
    simp only [hat] at next fits
    split at next
    · cases next
      exact fits_after fits fun found covers => fits_judge covers
    · cases next
  | noting found seconds =>
    simp only [hat, Option.some.injEq] at next fits
    subst next
    exact fits
  | seeking found =>
    simp only [hat] at next fits
    split at next
    · next refused =>
      cases next
      rw [DecodePoint.Fits, Decoding.aim, refused] at fits
      exact fits.error _ rfl
    · next position aimed =>
      rw [DecodePoint.Fits, Decoding.aim, aimed] at fits
      split at next
      · cases next
        exact fits_after fits fun _ covers => covers
      · cases next
  | capturing position =>
    simp only [hat] at next fits
    split at next
    · cases next
      refine fits_after fits fun frame covers => ?_
      generalize renderThumbnail encoder frame _ _ = shot at covers ⊢
      cases shot with
      | error f => exact covers.error f rfl
      | ok thumbnail => exact covers
    · cases next
  | keeping thumbnail =>
    simp only [hat, Option.some.injEq] at next fits
    subst next
    exact fits.complete thumbnail rfl
  | ruling ruling cause =>
    simp only [hat] at next fits
    split at next
    · cases next
      trivial
    · next verdict =>
      obtain ⟨-, rfl⟩ := decide_eq_true verdict
      cases next
      refine ⟨ruling, rfl, ?_⟩
      cases cause <;> exact ⟨rfl, fits⟩
  | releasing part note =>
    simp only [hat] at next fits
    split at next
    · next released =>
      cases next
      dsimp only
      rwa [gate_released released]
    · split at next <;> (cases next; trivial)
  | ended => simp [hat] at next

theorem fits_stepDeadline (fits : r.deadline.Fits notes r.gate.verdict)
    (next : r.stepDeadline settings = some r') : r'.deadline.Fits notes r'.gate.verdict := by
  unfold stepDeadline at next
  cases hat : r.deadline with
  | waiting =>
    simp only [hat, Option.some.injEq] at next fits
    subst next
    dsimp only
    split
    · trivial
    · exact fits
  | resorting why =>
    simp only [hat] at next fits
    split at next
    · cases next
      trivial
    · next verdict =>
      obtain ⟨-, rfl⟩ := decide_eq_true verdict
      cases next
      refine ⟨why.ruling, rfl, aboutItems_resorted settings r.item why, ?_⟩
      rw [levels_resorted]
      exact fits
  | releasing part written =>
    simp only [hat] at next fits
    split at next
    · next released =>
      cases next
      dsimp only
      rwa [gate_released released]
    · split at next <;> (cases next; trivial)
  | yielding =>
    simp only [hat] at next
    split at next
    · cases next
      trivial
    · cases next
  | returned | failed _ => simp [hat] at next

/-! ### What has been written -/

/-- What a race has written about its item, and what its paths will write, goes with its verdict.
Nothing is written before the release is over, nor if a failure ends it. -/
structure Tells (encoder : Encoder) (settings : ExtractionSettings)
    (decoding : Decoding) (notes : Outcome → List Level → Prop) (ended : Option Failure)
    (r : Race) : Prop where
  silent : r.gate.finished = false → Record.aboutItems r.log = []
  decode : r.decode.Fits encoder settings decoding notes r.gate.verdict
  deadline : r.deadline.Fits notes r.gate.verdict
  written : r.gate.finished = true → ∃ v levels, r.gate.verdict = some v ∧
    notes v.outcome levels ∧
    (Record.aboutItems r.log).map (·.level) = if ended.isSome then [] else levels

/-- The records are written when the release is over, unless a failure has ended it. -/
theorem levels_at_end {log lines : List Record} (silent : Record.aboutItems log = [])
    (own : Record.aboutItems lines = lines) (ended : Option Failure) :
    (Record.aboutItems (if ended.isSome then log else log ++ lines)).map (·.level) =
      if ended.isSome then [] else lines.map (·.level) := by
  cases ended <;> simp [silent, own]

theorem Tells.decodeStep (tells : Tells encoder settings decoding notes ended r)
    (headway : Headway (fun next r => next.Faces ended r) r)
    (next : r.stepDecode encoder settings decoding = some r') :
    Tells encoder settings decoding notes ended r' := by
  obtain ⟨silent, decode, deadline, written⟩ := tells
  have fits := fits_stepDecode decode next
  cases decodeMove_of_step next with
  | pass | note | keep | lose => exact ⟨silent, fits, deadline, written⟩
  | win hat first =>
    rw [first] at deadline written
    refine ⟨silent, fits, DeadlinePoint.Fits.decided deadline _, fun finished => ?_⟩
    obtain ⟨v, levels, given, -⟩ := written finished
    cases given
  | @release part later note hat more =>
    have gate := gate_releaseStep more
    refine ⟨?_, fits, ?_, ?_⟩
    · rw [gate, aboutItems_releaseStep]
      exact silent
    · rw [gate, deadline_releaseStep]
      exact deadline
    · rw [gate, aboutItems_releaseStep]
      exact written
  | @finish failed note log hat told =>
    obtain ⟨v, gate, -, faces⟩ := headway.of_decode_releasing hat
    obtain rfl : failed = ended := faces.fate
    rw [hat] at decode
    obtain ⟨w, given, own, level⟩ := decode
    have before : Record.aboutItems r.log = [] := silent (by rw [gate])
    have line : Record.aboutItems [note] = [note] := by simp [Record.aboutItems, own]
    subst told
    exact ⟨by simp [Gate.finish], fits, deadline, fun _ =>
      ⟨w, [note.level], given, level, levels_at_end before line failed⟩⟩

theorem Tells.deadlineStep (tells : Tells encoder settings decoding notes ended r)
    (headway : Headway (fun next r => next.Faces ended r) r)
    (next : r.stepDeadline settings = some r') :
    Tells encoder settings decoding notes ended r' := by
  obtain ⟨silent, decode, deadline, written⟩ := tells
  have fits := fits_stepDeadline deadline next
  cases deadlineMove_of_step next with
  | expire | wake | lose => exact ⟨silent, decode, fits, written⟩
  | win hat first =>
    rw [first] at decode written
    refine ⟨silent, DecodePoint.Fits.decided decode _, fits, fun finished => ?_⟩
    obtain ⟨v, levels, given, -⟩ := written finished
    cases given
  | @release part later notes hat more =>
    have gate := gate_releaseStep more
    refine ⟨?_, ?_, fits, ?_⟩
    · rw [gate, aboutItems_releaseStep]
      exact silent
    · rw [gate, decode_releaseStep]
      exact decode
    · rw [gate, aboutItems_releaseStep]
      exact written
  | @finish lines hat =>
    obtain ⟨v, gate, -, faces⟩ := headway.of_deadline_releasing hat
    obtain rfl : none = ended := faces.fate
    rw [hat] at deadline
    obtain ⟨w, given, own, level⟩ := deadline
    have before : Record.aboutItems r.log = [] := silent (by rw [gate])
    exact ⟨by simp [Gate.finish], decode, fits, fun _ =>
      ⟨w, lines.map (·.level), given, level, by simpa using levels_at_end before own none⟩⟩
  | @fail f lines hat =>
    obtain ⟨v, gate, -, faces⟩ := headway.of_deadline_releasing hat
    obtain rfl : some f = ended := faces.fate
    rw [hat] at deadline
    obtain ⟨w, given, own, level⟩ := deadline
    have before : Record.aboutItems r.log = [] := silent (by rw [gate])
    exact ⟨by simp [Gate.finish], decode, fits, fun _ =>
      ⟨w, lines.map (·.level), given, level, levels_at_end before own (some f)⟩⟩

/-- What is written goes with the verdict under every order of steps. -/
theorem Tells.run (tells : Tells encoder settings decoding notes ended r)
    (headway : Headway (fun next r => next.Faces ended r) r) (order : List Party) :
    Tells encoder settings decoding notes ended (r.run encoder settings decoding order) := by
  induction order generalizing r with
  | nil => exact tells
  | cons party order ih =>
    exact ih (step_cases (fun _ next => tells.decodeStep headway next)
      (fun _ next => tells.deadlineStep headway next) party tells)
      (headway.run (carried_faces ended) [party])

end Race

namespace Extractor

open Race

variable {x : Extractor} {registry : Registry} {item : Item}

/-- The registered handles that an extraction closes, in this order: that of its session and that of
the content. -/
def closes (x : Extractor) (registry : Registry) (item : Item) : List Handle :=
  match item.content with
  | none => []
  | some id => (x.sessionOf registry item).toList ++ (registry.find? id).toList

/-- The failure that ends the release of an extraction. -/
def broken (x : Extractor) (registry : Registry) (item : Item) : Option Failure :=
  (x.closes registry item).findSome? Handle.severe?

/-- What the session of an item comes to if all its stages are passed. -/
def pictureOf (x : Extractor) (registry : Registry) (item : Item) : Except Failure Thumbnail :=
  (x.decoding registry item).picture x.encoder x.settings

/-- The levels of what is written about an item for an outcome. -/
inductive Notes (x : Extractor) (registry : Registry) (item : Item) : Outcome → List Level → Prop
  | complete {t : Thumbnail} (shot : x.pictureOf registry item = .ok t) :
      Notes x registry item .complete [Level.info]
  | failed {f : Failure} (held : item.content ≠ none)
      (opened : (x.decoding registry item).opening = .ok ())
      (raised : x.pictureOf registry item = .error f) : Notes x registry item .error [f.level]
  | expired : Notes x registry item .timeout [Level.warning]
  | refused {f : Failure} (held : item.content ≠ none)
      (refused : (x.decoding registry item).opening = .error f) :
      Notes x registry item .error [Level.warning]
  | absent (missing : item.content = none) : Notes x registry item .error []

/-! ### The start -/

theorem findSome?_toList (h : Option Handle) :
    h.toList.findSome? Handle.severe? = h.bind Handle.severe? := by
  cases h <;> simp

/-- The failure that ends the release is known at the start. -/
theorem fate_begin (sound : registry.Sound) :
    (x.begin registry item).fate .session = x.broken registry item := by
  unfold broken closes
  cases held : item.content with
  | none =>
    rw [begin_of_absent held]
    simp [held, fate, Registry.release?, Failure.of?]
  | some id =>
    simp only [List.findSome?_append, findSome?_toList]
    unfold sessionOf
    cases opening : (x.decoding registry item).opening with
    | error f =>
      rw [begin_of_refused held opening]
      simp only [fate, Registry.of?_release?, held]
      rfl
    | ok _ =>
      rw [begin_of_opened held opening]
      obtain ⟨left, found⟩ := sound.registered_acquired Registry.decodeKind
        (x.decoding registry item).closing
      have first := Registry.of?_release (registry.acquire Registry.decodeKind
        (x.decoding registry item).closing).2 (registry.issued + 1)
      have second := Registry.of?_release ((registry.acquire Registry.decodeKind
        (x.decoding registry item).closing).2.release (registry.issued + 1)).registry id
      rw [found] at first
      rw [Registry.find?, left] at second
      simp only [fate, held, Registry.release?, first, second]
      rfl

theorem headway_faces_begin (sound : registry.Sound) :
    Headway (fun next r => next.Faces (x.broken registry item) r) (x.begin registry item) := by
  refine headway_begin ⟨fate_begin sound, ?_⟩
  cases held : item.content with
  | none =>
    rw [begin_of_absent held]
    simp [Release.Shuts]
  | some id =>
    cases opening : (x.decoding registry item).opening with
    | error f =>
      rw [begin_of_refused held opening]
      simp [Release.Shuts]
    | ok _ =>
      rw [begin_of_opened held opening]
      intro id opened
      obtain rfl : registry.issued + 1 = id := by simpa using opened
      exact Option.isSome_of_eq_some (sound.registered_acquired _ _).2

theorem tells_begin :
    Tells x.encoder x.settings (x.decoding registry item) (x.Notes registry item)
      (x.broken registry item) (x.begin registry item) := by
  cases held : item.content with
  | none =>
    rw [begin_of_absent held]
    exact ⟨fun _ => rfl, trivial, .absent held, by simp⟩
  | some id =>
    have there : item.content ≠ none := by simp [held]
    cases opening : (x.decoding registry item).opening with
    | error f =>
      rw [begin_of_refused held opening]
      exact ⟨fun _ => rfl, trivial, .refused there opening, by simp⟩
    | ok _ =>
      rw [begin_of_opened held opening]
      refine ⟨fun _ => rfl, ⟨fun _ shot => .complete shot, fun _ raised => ?_⟩, .expired, by simp⟩
      exact .failed there opening raised

/-! ### The end -/

/-- Whether an item that fails is not warned about: it has no content, or its session is opened and
the decoder's own failure ends its stages. -/
def Hushed (x : Extractor) (registry : Registry) (item : Item) : Prop :=
  item.content = none ∨ (x.decoding registry item).opening = .ok () ∧
    ∃ f, x.pictureOf registry item = .error f ∧ f.isDecode = true

/-- Whether an outcome is warned about: timeouts always, and errors that are not hushed. -/
def Warned (x : Extractor) (registry : Registry) (item : Item) (outcome : Outcome) : Prop :=
  outcome = .timeout ∨ outcome = .error ∧ ¬x.Hushed registry item

/-- What an extraction answers and what it writes about its item. -/
structure Warns (x : Extractor) (registry : Registry) (item : Item)
    (answer : Except Failure ExtractionResult) (log : List Record) : Prop where
  /-- Nothing is written if closing the session or the content fails. -/
  broken : (∃ h ∈ x.closes registry item, ¬h.Mild) → log = []
  /-- Otherwise there is a result, and a single record at most. It is a warning exactly if the
  outcome is warned about, and then it has a line in a log that is set up for warnings. -/
  whole : (∀ h ∈ x.closes registry item, h.Mild) → ∃ result, answer = .ok result ∧
    log.length ≤ 1 ∧
    ((∃ record ∈ log, Level.warning ≤ record.level) ↔ x.Warned registry item result.outcome) ∧
    ∀ (before s : LogSettings) (level : Value),
      before.setup level (Level.resolve (.text "WARNING") (.int Level.info)) = .ok s →
      (log.flatMap s.write ≠ [] ↔ x.Warned registry item result.outcome)

theorem broken_eq_none_iff :
    x.broken registry item = none ↔ ∀ h ∈ x.closes registry item, h.Mild := by
  simp only [broken, List.findSome?_eq_none_iff, Handle.mild_iff]

/-- Only failures of the decoder are written below the level of warnings. -/
theorem warning_le_level_iff (f : Failure) : Level.warning ≤ f.level ↔ f.isDecode = false := by
  unfold Failure.level
  cases f.isDecode <;> decide

/-- A verdict comes with a single record at most, which is a warning if its outcome is warned
about. -/
theorem Notes.warned {outcome : Outcome} {levels : List Level}
    (notes : x.Notes registry item outcome levels) :
    levels.length ≤ 1 ∧
      ((∃ level ∈ levels, Level.warning ≤ level) ↔ x.Warned registry item outcome) := by
  unfold Warned Hushed
  cases notes with
  | complete => exact ⟨by simp, by simp; decide⟩
  | expired => exact ⟨by simp, by simp⟩
  | @failed f held opened raised =>
    refine ⟨by simp, ?_⟩
    simp [held, opened, raised, warning_le_level_iff]
  | refused held refused => exact ⟨by simp, by simp [held, refused]⟩
  | absent missing => exact ⟨by simp, by simp [missing]⟩

/-- A log that is set up for warnings has a line exactly for the records that are one. -/
theorem write_ne_nil_iff {before s : LogSettings} {level : Value}
    (ready : before.setup level (Level.resolve (.text "WARNING") (.int Level.info)) = .ok s)
    {r : Record} (own : r.source = .enrichment) : s.write r ≠ [] ↔ Level.warning ≤ r.level := by
  have named : Level.named? (Text.upper (Text.trim "WARNING")) = some Level.warning := by
    decide +kernel
  have warning : Level.resolve (.text "WARNING") (.int Level.info) = .int Level.warning := by
    unfold Level.resolve
    dsimp only [Value.plain]
    rw [named]
  rw [warning] at ready
  obtain ⟨main, rfl⟩ : ∃ main, s = ⟨true, main, Level.info, Level.warning⟩ := by
    unfold LogSettings.setup at ready
    dsimp only at ready
    split at ready
    · cases ready
    · exact ⟨_, (Except.ok.inj ready).symm⟩
  have threshold : LogSettings.threshold ⟨true, main, Level.info, Level.warning⟩ .enrichment =
      Level.warning := rfl
  unfold LogSettings.write
  rw [own, threshold]
  split
  · next reaches => simp [reaches, LogSettings.targets]
  · next below => simp [below]

theorem Warns.of_notes {ruling : Ruling} {levels : List Level} {log : List Record}
    {answer : Except Failure ExtractionResult}
    (notes : x.Notes registry item ruling.outcome levels)
    (own : ∀ record ∈ log, record.source = .enrichment)
    (written : log.map (·.level) = if (x.broken registry item).isSome then [] else levels)
    (answered : x.broken registry item = none →
      ∃ result, answer = .ok result ∧ result.outcome = ruling.outcome) :
    x.Warns registry item answer log := by
  obtain ⟨short, warned⟩ := notes.warned
  refine ⟨fun ⟨h, mem, fails⟩ => ?_, fun mild => ?_⟩
  · have severe : (x.broken registry item).isSome = true := by
      rw [Option.isSome_iff_ne_none, Ne, broken_eq_none_iff]
      exact fun mild => fails (mild h mem)
    rw [severe] at written
    exact List.map_eq_nil_iff.1 written
  · have unbroken := broken_eq_none_iff.2 mild
    obtain ⟨result, answered, outcome⟩ := answered unbroken
    rw [unbroken] at written
    obtain rfl : log.map (·.level) = levels := written
    have found : (∃ record ∈ log, Level.warning ≤ record.level) ↔
        x.Warned registry item result.outcome := by
      rw [outcome, ← warned]
      simp
    refine ⟨result, answered, by simpa using short, found, fun before s level ready => ?_⟩
    rw [← found, Ne, List.flatMap_eq_nil_iff]
    push Not
    exact exists_congr fun record => and_congr_right fun mem =>
      write_ne_nil_iff ready (own record mem)

/-- What a race answers and has written when the deadline path has come to its end. -/
theorem warns_of_over {r : Race}
    (headway : Headway (fun next r => next.Faces (x.broken registry item) r) r)
    (tells : Tells x.encoder x.settings (x.decoding registry item) (x.Notes registry item)
      (x.broken registry item) r) (stopped : r.deadline.Over) :
    x.Warns registry item (answer r) (Record.aboutItems r.log) := by
  obtain ⟨finished, -, failed, faces, why⟩ := headway.held_of_over stopped
  obtain ⟨v, levels, verdict, notes, written⟩ := tells.written finished
  have own : ∀ record ∈ Record.aboutItems r.log, record.source = .enrichment := by
    intro record mem
    simpa using (List.mem_filter.1 mem).2
  refine .of_notes notes own written fun unbroken => ⟨resultOf r.item v, ?_, rfl⟩
  unfold answer
  rw [verdict]
  split
  · next f stop =>
    have same : failed = x.broken registry item := faces.fate
    rw [why f stop, unbroken] at same
    cases same
  · rfl

/-- For every order in which the two paths take their steps. When both have ended, the item has been
warned about exactly if its outcome is a timeout, or an error that is neither the decoder's own
failure nor the lack of content; nothing is written if closing fails. A race that no step changes
has come to that end, and so has every extraction. -/
theorem failures_warned_iff (x : Extractor) (registry : Registry) (item : Item)
    (sound : registry.Sound) (order : List Party) :
    let decoding := x.decoding registry item
    let r := (x.begin registry item).run x.encoder x.settings decoding order
    (r.deadline.Over → r.decode = .ended →
      x.Warns registry item (answer r) (Record.aboutItems r.log)) ∧
    ((∀ party, r.step x.encoder x.settings decoding party = r) →
      r.deadline.Over ∧ r.decode = .ended) ∧
    x.Warns registry item (x.extract registry item).result
      (Record.aboutItems (x.extract registry item).log) := by
  intro decoding r
  have headway (order : List Party) : Headway (fun next r => next.Faces (x.broken registry item) r)
      ((x.begin registry item).run x.encoder x.settings decoding order) :=
    (headway_faces_begin sound).run (carried_faces _) order
  have tells (order : List Party) : Tells x.encoder x.settings decoding (x.Notes registry item)
      (x.broken registry item) ((x.begin registry item).run x.encoder x.settings decoding order) :=
    tells_begin.run (headway_faces_begin sound) order
  refine ⟨fun stopped _ => warns_of_over (headway order) (tells order) stopped,
    fun fixed => ?_, ?_⟩
  · refine (headway order).ended_of_stuck ?_ (fun _ faces => faces.shuts)
      (stuck_of_step_decode (fixed .decode)) (stuck_of_step_deadline (fixed .deadline))
    intro hnone
    exact ended_run order (ended_of_no_session ((session_run order _).symm.trans hnone))
  · let start := x.begin registry item
    obtain ⟨stuck, apart, still, -⟩ := stopped_met x decoding start
    have headway_met : Headway _ (x.met decoding start) := headway _
    have stopped : (x.met decoding start).deadline.Over := by
      rcases headway_met.over_of_stuck stuck with stopped | ⟨next, note, releasing⟩
      · exact stopped
      · rw [releasing] at apart
        exact apart.elim
    -- The answer is read before a blocked decode path goes on, and stays the answer.
    have same : answer (x.ended decoding start) = answer (x.met decoding start) :=
      answer_run (headway_met.held_of_over stopped).2.1 _ still
    have warns := warns_of_over (headway_met.run (carried_faces _) _)
      ((tells _).run headway_met _) (still ▸ stopped)
    rw [show (x.extract registry item).result = answer (x.ended decoding start) from same.symm]
    exact warns

/-- The deadline passes while the metadata is read. That is warned about, and a log that is set up
for warnings has the line. -/
theorem failures_warned_iff_hanging :
    let r := (hanging.begin leased clip).run hanging.encoder hanging.settings
      (hanging.decoding leased clip) handover
    r.deadline.Over ∧ r.decode = .ended ∧
      ∃ result, answer r = .ok result ∧ result.outcome = .timeout ∧
        (∃ record ∈ Record.aboutItems r.log, Level.warning ≤ record.level) ∧
        ∃ s, LogSettings.setup {} (.int Level.info)
            (Level.resolve (.text "WARNING") (.int Level.info)) = .ok s ∧
          (Record.aboutItems r.log).flatMap s.write ≠ [] := by
  intro r
  have returned : r.deadline = .returned := by decide +kernel
  have ended : r.decode = .ended := DecodePoint.ended_of_left (by decide +kernel)
  have verdict : r.gate.verdict = some ⟨.timeout, none⟩ := by decide +kernel
  have stopped : r.deadline.Over := returned ▸ trivial
  have closes : hanging.closes leased clip =
      [⟨3, Registry.decodeKind, some (.file .denied "clip.mp4")⟩, ⟨1, "content", none⟩] := rfl
  have mild : ∀ h ∈ hanging.closes leased clip, h.Mild := by
    rw [closes]
    simp [Handle.Mild, Failure.isSystem]
  obtain ⟨result, answered, -, warned, written⟩ :=
    ((failures_warned_iff hanging leased clip sound_leased handover).1 stopped ended).whole mild
  have outcome : result.outcome = .timeout := by
    have given : answer r = .ok result := answered
    rw [answer, returned, verdict] at given
    exact congrArg ExtractionResult.outcome (Except.ok.inj given).symm
  obtain ⟨s, ready⟩ : ∃ s, LogSettings.setup {} (.int Level.info)
      (Level.resolve (.text "WARNING") (.int Level.info)) = .ok s := ⟨_, rfl⟩
  exact ⟨stopped, ended, result, answered, outcome, warned.2 (.inl outcome), s, ready,
    (written _ s _ ready).2 (.inl outcome)⟩

/-- An extractor whose sessions know the length, and have no frame to give. -/
def blind : Extractor where
  backend _ _ :=
    { metadata := { result := .ok (.int 12) }
      seek := fun _ => { result := .ok () }
      capture := fun _ => { result := .error (.raised .decode "no frame") } }
  settings := hanging.settings
  encoder := hanging.encoder

/-- A clip without a frame ends in an error that is not warned about. -/
theorem missing_frame_not_warned :
    ∃ result, (blind.extract leased clip).result = .ok result ∧ result.outcome = .error ∧
      ¬∃ record ∈ Record.aboutItems (blind.extract leased clip).log,
        Level.warning ≤ record.level := by
  have outcome : (blind.extract leased clip).result.toOption.map (·.outcome) = some .error := by
    decide +kernel
  have silent : ∀ record ∈ Record.aboutItems (blind.extract leased clip).log,
      ¬Level.warning ≤ record.level := by decide +kernel
  cases answered : (blind.extract leased clip).result with
  | error f =>
    rw [answered] at outcome
    cases outcome
  | ok result =>
    rw [answered] at outcome
    exact ⟨result, rfl, Option.some.inj outcome, fun ⟨record, mem, warning⟩ =>
      silent record mem warning⟩

end Extractor

end VideoCatalog
