import VideoCatalog.Catalog.Build
import VideoCatalog.Discovery.Selection
import VideoCatalog.Discovery.Walk
import VideoCatalog.Enrichment.Pass
import VideoCatalog.Enrichment.Program
import VideoCatalog.Log.Setup
import VideoCatalog.Monitoring.Progress
import VideoCatalog.Monitoring.Throttle

/-!
# Sessions

A session owns a catalog with its tags and handles. A new scan gives back every handle of the
one before, builds a new catalog and enriches it.

* `Session`, `SessionM`: the state, and operations that may fail and keep what they did.
* `Session.start`: a session under a configuration.
* `rebuild`, `enrich`: building and enriching a catalog.
* `scan`, `scanDirectory`: both in turn.
* `teardown`, `shutdown`: giving back all handles.
-/

namespace VideoCatalog

/-- The state of a session. -/
structure Session where
  config : Configuration
  around : Surroundings
  tree : FileTree
  now : Binary64
  registry : Registry := {}
  store : TagStore
  extractor : Extractor
  workers : Value
  reporter : ProgressReporter
  onProgress : Nat → Nat → Option Failure
  logs : LogSettings
  catalog : Option Catalog := none
  stats : Option PassStats := none
  reports : List (Nat × Nat) := []
  log : List Record := []
  commands : List (List String) := []

/-- Operations on a session. What was done before a failure stays done. -/
abbrev SessionM := ExceptT Failure (StateM Session)

namespace Session

/-- The record of tools that are missing. -/
def toolsMissing (tools : Tools) : Record :=
  .warning ("ffmpeg/ffprobe not found (" ++ tools.framer ++ ", " ++ tools.prober ++
    "): durations and thumbnails will be missing")

/-- How a session gets its frames: from the tools that the configuration names, which may be
missing, or from a decoder of its own. -/
inductive FrameSource where
  | tools (programs : List String) (probe frame : Path → ProgramRun)
  | decoder (backend : Backend)

/-- The backend of a source of frames, with a warning if its tools are missing. -/
def backendOf (config : Configuration) : FrameSource → Backend × List Record
  | .decoder backend => (backend, [])
  | .tools programs probe frame =>
    let tools := Tools.ofConfiguration (some config) .null .null
    (tools.backend probe frame, if tools.available programs then [] else [toolsMissing tools])

/-- What a session is started with. -/
structure Options where
  workers : Value := .null
  timeout : Value := .null
  now : Binary64 := .zero
  onProgress : Nat → Nat → Option Failure := fun _ _ => none
  encoder : Encoder := default

/-- The absolute path of a setting. -/
def settingPath (config : Configuration) (around : Surroundings) (tree : FileTree)
    (name default : String) : Except Failure Path :=
  config.resolvePath around tree [.text "paths", .text name] (.text default)

/-- Makes the directory of the logs and sets them up. -/
def startLogs (config : Configuration) (around : Surroundings) (tree : FileTree) :
    Except Failure (FileTree × LogSettings) :=
  match settingPath config around tree "logs" "logs" with
  | .error f => .error f
  | .ok directory =>
    let level := Level.resolve (config.setting "logging" "enrichment_level" .null)
      (.int Level.info)
    match tree.makeDirectories directory with
    | .error f => .error f
    | .ok tree => (LogSettings.setup {} (.int Level.info) level).map fun logs => (tree, logs)

/-- The parts of a session that come after the tags and the tools. -/
def finishStart (config : Configuration) (around : Surroundings) (tree : FileTree)
    (logs : LogSettings) (store : TagStore) (backend : Backend) (options : Options)
    (log : List Record) : Except Failure Session :=
  match ExtractionSettings.ofConfiguration (some config) options.timeout .null .null with
  | .error f => .error f
  | .ok settings =>
    match ThrottleLimits.ofConfiguration (some config) with
    | .error f => .error f
    | .ok _ =>
      match workersOf (some config) options.workers with
      | .error f => .error f
      | .ok workers =>
        (ProgressReporter.make (config.setting "progress" "interval_seconds" (.int 5))
            (config.setting "progress" "enabled" (.bool true)).truthy).map fun reporter =>
          { config := config, around := around, tree := tree, now := options.now, store := store,
            extractor := ⟨backend, settings, options.encoder⟩, workers := workers,
            reporter := reporter, onProgress := options.onProgress, logs := logs, log := log }

/-- Starts a session. The log is given also if that fails. -/
def start (config : Configuration) (around : Surroundings) (tree : FileTree)
    (source : FrameSource) (options : Options) : Except Failure Session × List Record :=
  match startLogs config around tree with
  | .error f => (.error f, [])
  | .ok (tree, logs) =>
    match settingPath config around tree "tag_store" "data/tags.json" with
    | .error f => (.error f, [])
    | .ok path =>
      match TagStore.load tree path with
      | .error f => (.error f, [])
      | .ok (store, storeLog) =>
        let (backend, toolLog) := backendOf config source
        let log := storeLog ++ toolLog
        (finishStart config around tree logs store backend options log, log)

end Session

namespace SessionM

/-- Adds records to the log. -/
def note (records : List Record) : SessionM Unit := modify fun s => { s with log := s.log ++ records }

/-- Goes on with a result. -/
def ofResult {α : Type} (result : Except Failure α) : SessionM α := liftExcept result
where
  /-- A result as an operation. -/
  liftExcept : Except Failure α → SessionM α
    | .ok a => pure a
    | .error f => throw f

/-- The items of the current catalog. -/
def items : SessionM (List Item) := do return ((← get).catalog.map (·.items)).getD []

/-- Gives back every handle. -/
def teardown : SessionM Unit := do
  let step := (← get).registry.releaseAll
  modify fun s => { s with registry := step.registry }
  note step.log
  let released ← ofResult step.result
  modify fun s => { s with
    catalog := s.catalog.map fun c => c.mapItems fun item => { item with content := none } }
  if released ≠ 0 then
    note [.info ("Released " ++ Quantity.intText released ++
      " handles before rebuilding the catalog")]

/-- Gives back every handle and forgets the catalog. -/
def shutdown : SessionM Unit := do
  teardown
  modify fun s => { s with catalog := none }

/-- Keeps the statistics of a pass that ended well. -/
def keepStats : Except Failure PassStats → SessionM Unit
  | .ok stats => modify fun s => { s with stats := some stats }
  | .error _ => pure ()

/-- Stops the reporter and logs its summary. -/
def stopReporter : SessionM Unit := do
  let (reporter, summary) := (← get).reporter.stop .zero
  modify fun s => { s with reporter := reporter }
  note (← ofResult summary)

/-- Enriches the current catalog. `order` is the order of the workers' steps. -/
def enrich (order : Nat → Nat → List Nat := Pass.inTurn) : SessionM Unit := do
  let s ← get
  let current ← items
  let done := runPass s.extractor s.workers s.onProgress .zero s.registry current order
  let last := done.reports.getLast?.getD (0, 0)
  modify fun s => { s with
    registry := done.registry
    catalog := some ⟨done.items⟩
    reporter := s.reporter.start.report (.int last.1) (.int last.2)
    reports := s.reports ++ done.reports
    commands := s.commands ++ done.commands }
  note done.log
  keepStats done.result
  stopReporter
  let _ ← ofResult done.result

/-- Builds a catalog of what an enumeration finds, in the place of the one before. A failing
enumeration leaves the session as it is. -/
def rebuild (enumerate : FileTree → Enumeration) : SessionM Unit := do
  let found := enumerate (← get).tree
  note found.log
  let descriptors ← ofResult found.result
  teardown
  let s ← get
  let (built, catalog) := Catalog.build s.registry (some s.store) descriptors
  modify fun s => { s with registry := built.registry, catalog := some catalog }
  note built.log
  note [.info ("Catalog built with " ++ Quantity.intText catalog.items.length ++ " items")]

/-- Builds and enriches a catalog of what an enumeration finds. -/
def scan (enumerate : FileTree → Enumeration) (order : Nat → Nat → List Nat := Pass.inTurn) :
    SessionM Unit := do
  rebuild enumerate
  enrich order

/-- What a directory holds, under the rules of the session. -/
def directory (config : Configuration) (root : Path) (tree : FileTree) : Enumeration :=
  match DirectoryScan.ofConfiguration root (some config) with
  | .error f => ⟨.error f, []⟩
  | .ok rules => rules.run tree

/-- The files of a selection below a root. -/
def selection (config : Configuration) (root : Path) (files : List Path) (tree : FileTree) :
    Enumeration :=
  match SelectionEntry.fromBase tree root files with
  | .error f => ⟨.error f, []⟩
  | .ok entries =>
    match configuredExtensions (some config) with
    | .error f => ⟨.error f, []⟩
    | .ok extensions => runSelection extensions tree entries

/-- Scans a directory, or a selection of files if the directory cannot be enumerated. -/
def scanDirectory (root : Path) (fallback : Option (List Path))
    (order fallbackOrder : Nat → Nat → List Nat := Pass.inTurn) : SessionM Unit := do
  let config := (← get).config
  try scan (directory config root) order
  catch f =>
    match fallback with
    | some files =>
      if f.isRoot then
        note [.warning ("Directory scan failed (" ++ f.report ++
          "); using file selection instead.")]
        scan (selection config root files) fallbackOrder
      else throw f
    | none => throw f

end SessionM

end VideoCatalog
