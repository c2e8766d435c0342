import VideoCatalog.Files.Tree
import VideoCatalog.Json.Reader
import VideoCatalog.Json.Writer
import VideoCatalog.Log.Record
import VideoCatalog.Query.Row
import VideoCatalog.Tags.Normal
import VideoCatalog.Text.Utf8

/-!
# The tag store

Tags are kept by relative path, in the order in which paths were first tagged. The whole store
is one document, which is written next to its place and then moved there, so that a reader
finds the old document or the new one.

* `TagStore`, `TagStore.load`: the store and how it is read.
* `TagStore.document`: the text of a store.
* `SaveStep`, `SaveStep.apply`, `runSave`: the steps of saving and their effect on the files.
* `TagStore.setTags`: replaces the tags of a path and saves.
-/

namespace VideoCatalog

/-- The tags of relative paths, and the file that holds them. -/
structure TagStore where
  path : Path
  entries : List (String × List String) := []
deriving DecidableEq, Repr, Inhabited

/-- The version that documents of the store carry. -/
def storeVersion : Int := 1

namespace TagStore

/-- The entry of a member of the document, if it holds a list of tags. Members of any kind
may stand in the list. -/
def entry? (member : Value × Value) : Option (String × List String) :=
  match member.2.member? "tags" with
  | some (.list tags) => some (member.1.plain, normalizeTags (tags.map Value.plain))
  | _ => none

/-- The entries of a document; `none` if it has no mapping of items. -/
def entriesOf? (document : Value) : Option (List (String × List String)) :=
  match document.member? "items" with
  | some (.map members) => some (members.filterMap entry?)
  | _ => none

/-- Why a file cannot be read as a text. -/
def refusal (tree : FileTree) (path : Path) (f : Failure) : String :=
  match f, tree.read path with
  | .notText, .ok bytes =>
    ((Text.flaw? bytes.length 0 bytes).map Text.Flaw.message).getD f.report
  | f, _ => f.report

/-- The warning about a file that cannot be read as a document. -/
def unreadable (path : Path) (reason : String) : Record :=
  .warning ("Tag store unreadable, starting empty: " ++ path.text ++ " (" ++ reason ++ ")")

/-- The warning about a document without items. -/
def itemless (path : Path) : Record :=
  .warning ("Tag store has no item mapping, starting empty: " ++ path.text)

/-- Reads the store of a file. A missing file is an empty store, and so is one that cannot be
read, with a warning. -/
def load (tree : FileTree) (path : Path) : Except Failure (TagStore × List Record) :=
  match tree.exists? path with
  | .error f => .error f
  | .ok false => .ok (⟨path, []⟩, [])
  | .ok true =>
    match tree.readText path with
    | .error f =>
      if f.isSystem || f == .notText then
        .ok (⟨path, []⟩, [unreadable path (refusal tree path f)])
      else .error f
    | .ok text =>
      match Json.parse text with
      | .error .tooDeep => .error .nestedTooDeeply
      | .error fault => .ok (⟨path, []⟩, [unreadable path (fault.message text.toList)])
      | .ok document =>
        match entriesOf? document with
        | some entries => .ok (⟨path, entries⟩, [])
        | none => .ok (⟨path, []⟩, [itemless path])

/-- The tags of a path. -/
def tagsFor (store : TagStore) (path : String) : List String :=
  (store.entries.lookup path).getD []

/-- Whether a path has an entry. -/
def contains (store : TagStore) (path : String) : Bool := store.entries.any (·.1 == path)

/-- The paths that have entries, sorted. -/
def paths (store : TagStore) : List String :=
  (store.entries.map (·.1)).mergeSort (fun a b => decide (a ≤ b))

/-- Puts the tags of a path. A path that has an entry keeps its place. -/
def put (store : TagStore) (path : String) (tags : List String) : TagStore :=
  if store.contains path then
    { store with
      entries := store.entries.map fun e => if e.1 == path then (path, tags) else e }
  else { store with entries := store.entries ++ [(path, tags)] }

/-- The document of a store. -/
def value (store : TagStore) : Value :=
  .record [("version", .int storeVersion),
    ("items", .record (store.entries.map fun e =>
      (e.1, .record [("tags", .list (e.2.map .text))])))]

/-- The text of a store. -/
def document (store : TagStore) : String := Json.document .unicode store.value

end TagStore

/-- The steps of saving a document: making the directories above it, making a temporary file,
writing a number of bytes to it, and moving it to its place. -/
inductive SaveStep where
  | makeParents
  | makeTemporary
  | writeBytes (count : Nat)
  | moveOver
deriving DecidableEq, Repr

namespace SaveStep

/-- The temporary files that are tried in a directory. -/
def temporaryName (n : Nat) : String := ".tags-" ++ Quantity.intText n ++ ".json"

/-- The first temporary file in a directory that is not there yet. -/
def temporary (tree : FileTree) (directory : Path) : Path :=
  let free (n : Nat) : Bool :=
    match tree.find false (directory.child (temporaryName n)) with
    | .ok (.present ..) => false
    | _ => true
  directory.child (temporaryName
    (((List.range (tree.nodes.length + 1)).find? free).getD 0))

/-- What a step does to the files, and how it ends. -/
def apply (now : Binary64) (target temporary : Path) (payload : List UInt8) (step : SaveStep)
    (tree : FileTree) : FileTree × Except Failure Unit :=
  match step with
  | makeParents =>
    (tree.madeDirectories target.parent, (tree.makeDirectories target.parent).map fun _ => ())
  | makeTemporary => tree.settle (tree.create temporary [] now)
  | writeBytes count => tree.settle (tree.write temporary (payload.take count) now)
  | moveOver => tree.settle (tree.replace temporary target)

/-- Whether the temporary file has been made before a step. -/
def hasTemporary : SaveStep → Bool
  | makeParents | makeTemporary => false
  | writeBytes _ | moveOver => true

/-- The steps of saving a document that is written in one go. -/
def plan (payload : List UInt8) : List SaveStep :=
  [makeParents, makeTemporary, writeBytes payload.length, moveOver]

end SaveStep

/-- What saving does to the files: the trees after each step, and how it ends. -/
structure Saving where
  states : List FileTree
  tree : FileTree
  result : Except Failure Unit

/-- Runs the steps of saving. A step may be refused from outside; after a refusal of the
operating system the temporary file is taken away again. -/
def runSave (refuse : SaveStep → Option Failure) (now : Binary64) (target temporary : Path)
    (payload : List UInt8) : List SaveStep → FileTree → Saving
  | [], tree => ⟨[], tree, .ok ()⟩
  | step :: rest, tree =>
    let (left, outcome) : FileTree × Except Failure Unit := match refuse step with
      | some f => (tree, .error f)
      | none => step.apply now target temporary payload tree
    match outcome with
    | .error f =>
      let cleaned :=
        if step.hasTemporary && f.isSystem then (left.settle (left.remove temporary)).1
        else left
      ⟨[cleaned], cleaned, .error f⟩
    | .ok () =>
      let later := runSave refuse now target temporary payload rest left
      ⟨left :: later.states, later.tree, later.result⟩

/-- What an operation on the store leaves: the files, the store and a result. -/
structure TagStore.Step (α : Type) where
  tree : FileTree
  store : TagStore
  result : Except Failure α

namespace TagStore

/-- Saves a store. The temporary file is chosen when the directories above it are there. -/
def save (refuse : SaveStep → Option Failure) (now : Binary64) (store : TagStore)
    (tree : FileTree) : Saving :=
  let payload := Text.encode store.document
  let made := match tree.makeDirectories store.path.parent with
    | .ok made => made
    | .error _ => tree
  runSave refuse now store.path (SaveStep.temporary made store.path.parent) payload
    (SaveStep.plan payload) tree

/-- Replaces the tags of a path and saves. The store keeps the new tags also if saving
fails. -/
def setTags (refuse : SaveStep → Option Failure) (now : Binary64) (store : TagStore)
    (tree : FileTree) (path : String) (tags : List String) : Step (List String) :=
  let normal := normalizeTags tags
  let store := store.put path normal
  let saving := store.save refuse now tree
  ⟨saving.tree, store, saving.result.map fun _ => normal⟩

end TagStore

end VideoCatalog
