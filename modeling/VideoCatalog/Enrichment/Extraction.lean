import VideoCatalog.Enrichment.Race
import VideoCatalog.Settings.Configuration

/-!
# Extraction

The enrichment of one item from its content: a decode session is opened, the race between
decoding and the deadline is run, and the result is what the item shows when the first verdict
has been carried out.

* `ExtractionSettings.ofConfiguration`: the settings of an extraction.
* `Backend`: what opening the content of a source does.
* `begin`, `conclude`: the race at its start, and what it leaves at its end.
* `openItem`, `finishItem`: the two halves of an extraction.
* `extract`: a whole extraction.
-/

namespace VideoCatalog

namespace ExtractionSettings

/-- A given setting, or the configured one, or the default. -/
def choose (config : Option Configuration) (given : Value) (name : String) (default : Int) :
    Value :=
  match given with
  | .null => settingOr config "enrichment" name (.int default)
  | v => v

/-- The settings of an extraction. The time is given in thousandths of a second. -/
def ofConfiguration (config : Option Configuration) (timeout maxWidth quality : Value) :
    Except Failure ExtractionSettings :=
  match (choose config timeout "timeout_ms" 4000).toReal with
  | .error f => .error f
  | .ok milliseconds =>
    match (choose config maxWidth "thumbnail_max_width" 640).toInt with
    | .error f => .error f
    | .ok width =>
      (choose config quality "thumbnail_quality" 70).toInt.map fun q =>
        ⟨milliseconds.div (Binary64.ofNat 1000), width, q⟩

end ExtractionSettings

/-- What opening the content of a source does, given whether the content was closed. -/
abbrev Backend := Path → Bool → Decoding

/-- What an extraction needs besides the item. -/
structure Extractor where
  backend : Backend
  settings : ExtractionSettings
  encoder : Encoder

/-- How the enrichment of an item ended. -/
structure ExtractionResult where
  relativePath : String
  outcome : Outcome
  duration : Option Quantity
  hasThumbnail : Bool
  error : Option String
deriving DecidableEq, Repr

/-- What an extraction leaves. -/
structure Extracted where
  registry : Registry
  item : Item
  result : Except Failure ExtractionResult
  log : List Record := []
  opened : List Path := []
  sessions : List Nat := []
  seeks : List Binary64 := []
  commands : List (List String) := []

namespace Extractor

/-- The result that an item shows under a ruling. -/
def resultOf (item : Item) (ruling : Ruling) : ExtractionResult where
  relativePath := item.relativePath
  outcome := ruling.outcome
  duration := item.duration
  hasThumbnail := item.thumbnail.isSome
  error := ruling.error

/-- What the extractor does with the content of an item. -/
def decoding (x : Extractor) (registry : Registry) (item : Item) : Decoding :=
  x.backend item.source ((item.content.map registry.isClosed).getD true)

/-- The race for an item at its start. The decode path only sets out if a session is opened. -/
def begin (x : Extractor) (registry : Registry) (item : Item) : Race :=
  let refused (why : Resort) : Race :=
    { registry := registry, item := item, session := none, decode := .ended,
      deadline := .resorting why }
  match item.content with
  | none => refused .contentReleased
  | some _ =>
    let decoding := x.decoding registry item
    match decoding.opening with
    | .error f => refused (.notOpened f)
    | .ok () =>
      let (handle, registry) := registry.acquire Registry.decodeKind decoding.closing
      { registry := registry, item := item, session := some handle.id }

/-- More steps than a path can take. -/
def pathSteps : Nat := 16

/-- What the ended deadline path answers. -/
def answer (r : Race) : Except Failure ExtractionResult :=
  match r.deadline with
  | .failed f => .error f
  | _ => .ok (resultOf r.item (r.gate.verdict.getD ⟨.error, none⟩))

/-- What a race leaves. After the first turns the decode path runs until it blocks or ends, the
deadline path then gives up or finds it ended, and a blocked decode path goes on. -/
def conclude (x : Extractor) (decoding : Decoding) (start : Race) : Extracted :=
  let runIn (order : List Party) (r : Race) : Race := r.run x.encoder x.settings decoding order
  let met := runIn (decoding.turns ++ List.replicate pathSteps .decode ++
    List.replicate pathSteps .deadline) start
  let ended := runIn (List.replicate pathSteps .decode) met
  { registry := ended.registry, item := ended.item, result := answer met, log := ended.log,
    opened := if start.item.content.isNone then [] else [start.item.source],
    sessions := start.session.toList, seeks := ended.seeks, commands := ended.commands }

/-- The first half of an extraction: the number of the decode session, or the end if there is
none to open. -/
def openItem (x : Extractor) (registry : Registry) (item : Item) :
    Extracted ⊕ (Nat × Registry) :=
  let start := x.begin registry item
  match start.session with
  | none => .inl (x.conclude (x.decoding registry item) start)
  | some session => .inr (session, start.registry)

/-- The second half of an extraction, with an open session. -/
def finishItem (x : Extractor) (decoding : Decoding) (registry : Registry) (item : Item)
    (session : Nat) : Extracted :=
  x.conclude decoding { registry := registry, item := item, session := some session }

/-- The enrichment of one item. -/
def extract (x : Extractor) (registry : Registry) (item : Item) : Extracted :=
  x.conclude (x.decoding registry item) (x.begin registry item)

end Extractor

end VideoCatalog
