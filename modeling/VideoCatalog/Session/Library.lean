import VideoCatalog.Catalog.DataUrl
import VideoCatalog.Catalog.Listing
import VideoCatalog.Playback.Stream
import VideoCatalog.Query.Evaluate
import VideoCatalog.Session.Basic
import VideoCatalog.Tags.Edit

/-!
# Using the catalog of a session

* `query`, `listed`: the items that a query holds of, and their lines.
* `addTag`, `removeTag`: editing the tags of an item.
* `openPlayback`: a stream over the file of an item.
* `exportThumbnails`, `exportManifest`: writing the thumbnails to files.
-/

namespace VideoCatalog

/-- Makes some directories and the missing ones above them. -/
def ensureDirectories : FileTree → List Path → FileTree × Except Failure Unit
  | tree, [] => (tree, .ok ())
  | tree, p :: rest =>
    match tree.makeDirectories p with
    | .error f => (tree.madeDirectories p, .error f)
    | .ok tree => ensureDirectories tree rest

namespace SessionM

/-- The items that a query holds of. Names order them if nothing else is asked for. -/
def query (text : String) (order : Query.Order) : SessionM (List Item) := do
  match (← get).catalog with
  | none => return []
  | some catalog =>
    ofResult (Query.evaluate (some {}) Item.row catalog.items text order)

/-- The lines of the items that a query holds of. -/
def listed (text : String) (order : Query.Order) : SessionM (List String) := do
  ofResult (listing ((← query text order).map Item.row))

/-- The item with a path, which has to be in the current catalog. -/
def requireItem (path : String) : SessionM Item := do
  match (← get).catalog with
  | none => throw (.noCatalog path)
  | some catalog => ofResult (catalog.require path)

/-- Takes over what editing the tags of an item leaves. -/
def absorbEdit (edit : TagEdit) : SessionM Item := do
  modify fun s => { s with
    tree := edit.tree, store := edit.store, catalog := s.catalog.map (·.update edit.item) }
  let _ ← ofResult edit.result
  return edit.item

/-- Edits the tags of the item with a path. -/
def editTags
    (edit : (SaveStep → Option Failure) → Binary64 → FileTree → TagStore → Item → String →
      TagEdit)
    (path tag : String) : SessionM Item := do
  let item ← requireItem path
  let s ← get
  absorbEdit (edit (fun _ => none) s.now s.tree s.store item tag)

/-- Adds a tag to the item with a path. -/
def addTag (path tag : String) : SessionM Item := editTags VideoCatalog.addTag path tag

/-- Removes a tag from the item with a path. -/
def removeTag (path tag : String) : SessionM Item := editTags VideoCatalog.removeTag path tag

/-- Opens a stream over the file of the item with a path. -/
def openPlayback (path : String) : SessionM PlaybackStream := do
  let item ← requireItem path
  let s ← get
  let (stream, registry) ← ofResult (PlaybackStream.start s.tree s.registry item)
  set { s with registry := registry }
  return stream

/-- Gives a stream back. -/
def closeStream (stream : PlaybackStream) : SessionM PlaybackStream := do
  let step := stream.close (← get).registry
  modify fun s => { s with registry := step.registry }
  note step.log
  ofResult step.result

/-- Makes directories. -/
def makeDirectories (paths : List Path) : SessionM Unit := do
  let (tree, result) := ensureDirectories (← get).tree paths
  modify fun s => { s with tree := tree }
  ofResult result

/-- Writes a file. -/
def writeFile (path : Path) (content : List UInt8) : SessionM Unit := do
  let s ← get
  let tree ← ofResult (s.tree.write path content s.now)
  set { s with tree := tree }

/-- The file name of the thumbnail of a relative path. -/
def thumbnailName (path : String) : String := Text.replaceAll "/" "__" path ++ ".jpg"

/-- Writes some thumbnails into a directory and counts them. -/
def writeThumbnails (directory : Path) : List Item → SessionM Nat
  | [] => pure 0
  | item :: rest =>
    match item.thumbnail with
    | none => writeThumbnails directory rest
    | some thumbnail => do
      writeFile (directory.join (.ofText (thumbnailName item.relativePath))) thumbnail.data
      return (← writeThumbnails directory rest) + 1

/-- Writes every thumbnail of the catalog into a directory and counts them. -/
def exportThumbnails (directory : Path) : SessionM Nat := do
  match (← get).catalog with
  | none => return 0
  | some catalog =>
    makeDirectories [directory]
    writeThumbnails directory catalog.items

/-- The thumbnails of some items as data URLs, by relative path. -/
def manifestEntries (items : List Item) : List (String × String) :=
  items.filterMap fun item => item.thumbnail.map fun t => (item.relativePath, t.dataUrl)

/-- The document of a manifest. -/
def manifestText (items : List Item) : String :=
  let entries := (manifestEntries items).mergeSort fun a b => decide (a.1 ≤ b.1)
  Json.document .ascii (.record (entries.map fun e => (e.1, .text e.2)))

/-- Writes a document with the thumbnails of the catalog and counts them. -/
def exportManifest (path : Path) : SessionM Nat := do
  let current ← items
  makeDirectories [path.parent]
  writeFile path (Text.encode (manifestText current))
  return (manifestEntries current).length

end SessionM

end VideoCatalog
