import VideoCatalog.Enrichment.Decoding
import VideoCatalog.Enrichment.Gate
import VideoCatalog.Handles.Registry
import VideoCatalog.Number.Fixed

/-!
# The race between decoding and the deadline

An item is enriched on two paths. The decode path learns the duration and captures the
thumbnail; the deadline path waits for it and gives up after a while. Whichever gives the
first verdict releases the decode session and the content, and from then on nothing is
written to the item.

* `Outcome`, `Ruling`: how an enrichment ends.
* `Resort`: why the deadline path gives a verdict of its own.
* `DecodePoint`, `DeadlinePoint`: where the two paths are.
* `Race`: the state that both paths share.
* `Race.stepDecode`, `Race.stepDeadline`: one atomic step of a path; `none` if it has to wait
  or has ended.
* `Race.run`: the race under a given order of steps.
-/

namespace VideoCatalog

/-- How an enrichment ends. -/
inductive Outcome where
  | complete
  | timeout
  | error
deriving DecidableEq, Repr

/-- The name of an outcome. -/
def Outcome.text : Outcome → String
  | complete => "complete"
  | timeout => "timeout"
  | error => "error"

/-- An outcome, with the text of an error. -/
structure Ruling where
  outcome : Outcome
  error : Option String := none
deriving DecidableEq, Repr

/-- What the enrichment of an item may take and what its thumbnails are like. -/
structure ExtractionSettings where
  timeoutSeconds : Binary64
  maxWidth : Int
  quality : Int
deriving DecidableEq, Repr

/-- Why the deadline path gives a verdict of its own: the time is over, or no session could be
opened, or there was no content to open one for. -/
inductive Resort where
  | expired
  | notOpened (f : Failure)
  | contentReleased
deriving DecidableEq, Repr

/-- The verdict that the deadline path gives. -/
def Resort.ruling : Resort → Ruling
  | expired => ⟨.timeout, none⟩
  | notOpened f => ⟨.error, some f.report⟩
  | contentReleased => ⟨.error, some "content handle already released"⟩

/-- What remains to be done after the first verdict: closing the session, letting go of the
content, and finishing the gate, with the failure that ended it early. -/
inductive Release where
  | session
  | content
  | finish (failed : Option Failure)
deriving DecidableEq, Repr

/-- Where the decode path is. -/
inductive DecodePoint where
  | probing
  | noting (found : Value) (seconds : Binary64)
  | seeking (found : Value)
  | capturing (position : Binary64)
  | keeping (thumbnail : Thumbnail)
  | ruling (ruling : Ruling) (cause : Option Failure)
  | releasing (next : Release) (note : Record)
  | ended

/-- Where the deadline path is. -/
inductive DeadlinePoint where
  | waiting
  | resorting (why : Resort)
  | releasing (next : Release) (notes : List Record)
  | yielding
  | returned
  | failed (f : Failure)
deriving DecidableEq, Repr

/-- The state of a race. There is no session if none could be opened. -/
structure Race where
  registry : Registry
  item : Item
  session : Option Nat
  gate : Gate Ruling := {}
  decode : DecodePoint := .probing
  deadline : DeadlinePoint := .waiting
  log : List Record := []
  seeks : List Binary64 := []
  commands : List (List String) := []

namespace Race

/-- Whether the decode session has been closed. -/
def sessionClosed (r : Race) : Bool := r.session.any r.registry.isClosed

/-- The record of a completed item. -/
def enriched (item : Item) : Record :=
  let seconds := match item.duration with
    | some q => (q.toReal?).getD .zero
    | none => .zero
  ⟨.enrichment, Level.info,
    "Enriched " ++ item.relativePath ++ " (duration=" ++ seconds.fixed 2 ++ "s)"⟩

/-- The record of a failed item. Failures of the decoder itself are no news. -/
def decodeFailed (item : Item) (f : Failure) : Record :=
  ⟨.enrichment, if f.isDecode then Level.info else Level.warning,
    "Decode failed for " ++ item.relativePath ++ ": " ++ f.report⟩

/-- The record of an item that cannot be opened. -/
def notOpened (item : Item) (f : Failure) : Record :=
  ⟨.enrichment, Level.warning, "Could not open " ++ item.relativePath ++ ": " ++ f.report⟩

/-- The record of an item that took too long. -/
def timedOut (settings : ExtractionSettings) (item : Item) : Record :=
  ⟨.enrichment, Level.warning,
    "Timed out after " ++ settings.timeoutSeconds.fixed 1 ++ "s: " ++ item.relativePath ++
      " (duration=" ++ (Value.ofQuantity? item.duration).plain ++ " thumbnail=" ++
      (if item.thumbnail.isSome then "True" else "False") ++ ")"⟩

/-- Does the next part of the release. Gives what remains after it. -/
def releaseStep (r : Race) (next : Release) : Race × Option Release :=
  match next with
  | .session =>
    let step := r.registry.release? r.session
    let r := { r with registry := step.registry, log := r.log ++ step.log }
    match step.result with
    | .ok _ => (r, some .content)
    | .error f => (r, some (.finish (some f)))
  | .content =>
    let step := r.registry.release? r.item.content
    let r := { r with registry := step.registry, log := r.log ++ step.log }
    match step.result with
    | .ok _ => ({ r with item := { r.item with content := none } }, some (.finish none))
    | .error f => (r, some (.finish (some f)))
  | .finish _ => ({ r with gate := r.gate.finish }, none)

/-- Where the decode path goes after a failure. -/
def failing (f : Failure) : DecodePoint := .ruling ⟨.error, some f.report⟩ (some f)

/-- Where the decode path goes after a stage. -/
def after {α : Type} (result : Except Failure α) (next : α → DecodePoint) : DecodePoint :=
  match result with
  | .error f => failing f
  | .ok a => next a

/-- Where the decode path goes with found metadata: durations that are finite and positive are
noted. -/
def judge (found : Value) : DecodePoint :=
  match found with
  | .null => .seeking .null
  | v => after v.real fun x =>
    if x.isFinite && Binary64.zero.less x then .noting v x else .seeking v

/-- One step of the decode path. -/
def stepDecode (encoder : Encoder) (settings : ExtractionSettings) (decoding : Decoding)
    (r : Race) : Option Race :=
  match r.decode with
  | .probing =>
    if decoding.metadata.passes r.sessionClosed then
      some { r with
        commands := r.commands ++ decoding.metadata.command.toList
        decode := after decoding.metadata.result judge }
    else none
  | .noting found seconds =>
    let item := if r.gate.admits then (r.item.recordDuration seconds).2 else r.item
    some { r with item := item, decode := .seeking found }
  | .seeking found =>
    match seekTarget found with
    | .error f => some { r with decode := failing f }
    | .ok position =>
      let stage := decoding.seek position
      if stage.passes r.sessionClosed then
        some { r with
          seeks := r.seeks ++ [position]
          decode := after stage.result fun _ => .capturing position }
      else none
  | .capturing position =>
    let stage := decoding.capture position
    if stage.passes r.sessionClosed then
      some { r with
        commands := r.commands ++ stage.command.toList
        decode := after stage.result fun picture =>
          after (renderThumbnail encoder picture (.int settings.maxWidth) (.int settings.quality))
            .keeping }
    else none
  | .keeping thumbnail =>
    let item := if r.gate.admits then (r.item.recordThumbnail thumbnail).2 else r.item
    some { r with item := item, decode := .ruling ⟨.complete, none⟩ none }
  | .ruling ruling cause =>
    match r.gate.decide ruling with
    | (false, _) => some { r with decode := .ended }
    | (true, gate) =>
      let note := match cause with
        | some f => decodeFailed r.item f
        | none => enriched r.item
      some { r with gate := gate, decode := .releasing .session note }
  | .releasing next note =>
    match r.releaseStep next with
    | (r, some later) => some { r with decode := .releasing later note }
    | (r, none) =>
      match next with
      | .finish (some _) => some { r with decode := .ended }
      | _ => some { r with log := r.log ++ [note], decode := .ended }
  | .ended => none

/-- The records of a verdict that the deadline path gives. -/
def resorted (settings : ExtractionSettings) (item : Item) : Resort → List Record
  | .expired => [timedOut settings item]
  | .notOpened f => [notOpened item f]
  | .contentReleased => []

/-- One step of the deadline path. While it waits, its time may pass at any moment. -/
def stepDeadline (settings : ExtractionSettings) (r : Race) : Option Race :=
  match r.deadline with
  | .waiting =>
    some { r with deadline := if r.gate.finished then .returned else .resorting .expired }
  | .resorting why =>
    match r.gate.decide why.ruling with
    | (false, _) => some { r with deadline := .yielding }
    | (true, gate) =>
      some { r with gate := gate, deadline := .releasing .session (resorted settings r.item why) }
  | .releasing next notes =>
    match r.releaseStep next with
    | (r, some later) => some { r with deadline := .releasing later notes }
    | (r, none) =>
      match next with
      | .finish (some f) => some { r with deadline := .failed f }
      | _ => some { r with log := r.log ++ notes, deadline := .returned }
  | .yielding => if r.gate.finished then some { r with deadline := .returned } else none
  | .returned => none
  | .failed _ => none

/-- One step of a path; a path that has to wait or has ended changes nothing. -/
def step (encoder : Encoder) (settings : ExtractionSettings) (decoding : Decoding)
    (party : Party) (r : Race) : Race :=
  let next := match party with
    | .decode => r.stepDecode encoder settings decoding
    | .deadline => r.stepDeadline settings
  next.getD r

/-- The race under a given order of steps. -/
def run (encoder : Encoder) (settings : ExtractionSettings) (decoding : Decoding)
    (order : List Party) (r : Race) : Race :=
  order.foldl (fun r party => r.step encoder settings decoding party) r

@[simp] theorem run_nil (encoder : Encoder) (settings : ExtractionSettings)
    (decoding : Decoding) (r : Race) : r.run encoder settings decoding [] = r := rfl

@[simp] theorem run_cons (encoder : Encoder) (settings : ExtractionSettings)
    (decoding : Decoding) (party : Party) (order : List Party) (r : Race) :
    r.run encoder settings decoding (party :: order) =
      (r.step encoder settings decoding party).run encoder settings decoding order := rfl

end Race

end VideoCatalog
