import VideoCatalog.CommandLine.Request
import VideoCatalog.Session.Library
import VideoCatalog.Settings.Load

/-!
# Runs of the program

* `Run`: what a run prints, logs and leaves behind.
* `runScan`: scans a folder, lists what a query holds of, and writes thumbnails.
* `runTags`: lists or edits stored tags.
* `run`: the whole program.
-/

namespace VideoCatalog.CommandLine

/-- Why a run gives no code of its own: its arguments do not fit, or something is refused. -/
inductive Stop where
  | exit (e : Exit)
  | failure (f : Failure)
deriving DecidableEq, Repr

/-- What a run prints, logs and leaves behind. -/
structure Run where
  tree : FileTree
  code : Except Stop Nat
  out : List String := []
  err : List String := []
  log : List Record := []

/-- What a run finds around it. -/
structure World where
  around : Surroundings
  source : Session.FrameSource
  now : Binary64 := .zero
  encoder : Encoder := default

/-- The query that a value asks for. -/
def queryText (v : Value) : String := (textOf? v).getD ""

/-- The lines of the items that a scan found, and how many of all they are. -/
def summary (request : ScanRequest) : SessionM (List String) := do
  let found ← SessionM.query (queryText request.query) (.ofValue request.sort)
  let lines ← SessionM.ofResult (listing (found.map Item.row))
  let all ← SessionM.items
  return lines ++
    [Quantity.intText found.length ++ " of " ++ Quantity.intText all.length ++ " items"]

/-- Exports something to the path that a value names, if it names one. -/
def exportTo (v : Value) (what member : String) (work : Path → SessionM Nat) :
    SessionM Unit :=
  match v with
  | .null => pure ()
  | .text s => do
    let count ← work (.ofText s)
    SessionM.note [.info ("Wrote " ++ Quantity.intText count ++ " " ++ what ++ " to " ++ s)]
  | v => throw (.noMember v.kind member)

/-- Writes the thumbnails that a scan asks for. -/
def exports (request : ScanRequest) : SessionM Unit := do
  exportTo request.thumbnailsDirectory "thumbnails" "mkdir" SessionM.exportThumbnails
  exportTo request.thumbnailsManifest "thumbnail entries" "parent" SessionM.exportManifest

/-- Ends a session and tells what its run came to. -/
def finish (s : Session) (code : Except Failure Nat) (out : List String) : Run :=
  let (closed, s) := SessionM.shutdown.run s
  let code := match closed with
    | .ok () => code
    | .error f => .error f
  { tree := s.tree, code := code.mapError .failure, out := out,
    log := Record.visible s.logs.threshold s.log }

/-- The code of a run whose folder cannot be scanned. -/
def scanFailed : Nat := 2

/-- The record of a folder that cannot be scanned. -/
def scanFailure (f : Failure) : Record := ⟨.main, Level.error, "Scan failed: " ++ f.report⟩

/-- Scans a folder in a session, lists what a query holds of, and writes thumbnails. -/
def scanIn (request : ScanRequest) (s : Session) : Run :=
  let (scanned, s) := (SessionM.scanDirectory request.root request.files).run s
  match scanned with
  | .error f =>
    if f.isRoot then finish { s with log := s.log ++ [scanFailure f] } (.ok scanFailed) []
    else finish s (.error f) []
  | .ok () =>
    let (lines, s) := (summary request).run s
    match lines with
    | .error f => finish s (.error f) []
    | .ok lines =>
      let (exported, s) := (exports request).run s
      finish s (exported.map fun () => 0) lines

/-- Scans a folder in a session of its own. -/
def runScan (world : World) (config : Configuration) (tree : FileTree)
    (request : ScanRequest) : Run :=
  let options : Session.Options :=
    { workers := request.workers, timeout := request.timeout, now := world.now,
      encoder := world.encoder }
  match Session.start config world.around tree world.source options with
  | (.error f, log) => { tree := tree, code := .error (.failure f), log := log }
  | (.ok s, _) => scanIn request s

/-- A path with its tags. -/
def tagLine (path : String) (tags : List String) : String :=
  path ++ ": " ++ String.intercalate ", " tags

/-- The code of a run whose path or tag is missing. -/
def tagMissing : Nat := 2

/-- A path and a tag, if both are given and not empty. -/
def TagsRequest.target? (request : TagsRequest) : Option (String × String) :=
  match request.path, request.tag with
  | some path, some tag => if path.isEmpty || tag.isEmpty then none else some (path, tag)
  | _, _ => none

/-- The paths whose tags are listed: one that is given and not empty, or all. -/
def TagsRequest.listedPaths (request : TagsRequest) (store : TagStore) : List String :=
  match request.path with
  | some path => if path.isEmpty then store.paths else [path]
  | none => store.paths

/-- The tags of a path after an edit. -/
def TagsAction.edit (action : TagsAction) (current : List String) (tag : String) :
    List String :=
  match action with
  | remove => current.filter (· != tag)
  | _ => current ++ [tag]

/-- Lists or edits the tags in a store. -/
def tagsIn (now : Binary64) (tree : FileTree) (store : TagStore) (request : TagsRequest) :
    Run :=
  match request.action with
  | .list =>
    { tree := tree, code := .ok 0,
      out := (request.listedPaths store).map fun p => tagLine p (store.tagsFor p) }
  | action =>
    match request.target? with
    | none =>
      { tree := tree, code := .ok tagMissing,
        err := ["tags " ++ action.name ++ " requires RELATIVE_PATH and TAG"] }
    | some (path, tag) =>
      let step := store.setTags (fun _ => none) now tree path
        (action.edit (store.tagsFor path) (Text.trim tag))
      match step.result with
      | .error f => { tree := step.tree, code := .error (.failure f) }
      | .ok tags => { tree := step.tree, code := .ok 0, out := [tagLine path tags] }

/-- Lists or edits stored tags. -/
def runTags (world : World) (config : Configuration) (tree : FileTree)
    (request : TagsRequest) : Run :=
  let loaded := do
    let path ← Session.settingPath config world.around tree "tag_store" "data/tags.json"
    TagStore.load tree path
  match loaded with
  | .error f => { tree := tree, code := .error (.failure f) }
  | .ok (store, log) =>
    { tagsIn world.now tree store request with
      log := Record.visible ({} : LogSettings).threshold log }

/-- The settings file that a value names, if it names one. -/
def configPath? (v : Value) : Option Path :=
  match v with
  | .text s => if s.isEmpty then none else some (.ofText s)
  | _ => none

/-- The whole program. -/
def run (world : World) (tree : FileTree) (args : List String) : Run :=
  match Request.parse args with
  | .error e => { tree := tree, code := .error (.exit e) }
  | .ok request =>
    match Configuration.load world.around tree (configPath? request.config) with
    | .error f => { tree := tree, code := .error (.failure f) }
    | .ok config =>
      match request.command with
      | .scan request => runScan world config tree request
      | .tags request => runTags world config tree request

end VideoCatalog.CommandLine
