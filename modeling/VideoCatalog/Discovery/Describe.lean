import VideoCatalog.Catalog.Item
import VideoCatalog.Discovery.Mime
import VideoCatalog.Files.Tree
import VideoCatalog.Log.Record
import VideoCatalog.Query.Row
import VideoCatalog.Settings.Configuration

/-!
# Describing video files

* `videoExtensions`, `isVideoName`: which names are those of videos.
* `configuredExtensions`: the extensions that a configuration asks for.
* `describe`: the descriptor of a file.
* `Enumeration`: what looking for files leaves.
-/

namespace VideoCatalog

/-- The extensions of videos if nothing is said. -/
def videoExtensions : List String := [".mp4", ".mkv", ".mov", ".webm", ".avi", ".m4v"]

/-- Whether a text ends with one of some values, which have to be texts as far as they are
looked at. -/
def endsWithAny (text : String) : List Value → Except Failure Bool
  | [] => .ok false
  | .text ending :: rest => if Text.endsWith ending text then .ok true else endsWithAny text rest
  | v :: _ => .error (.unsuitable v.kind "an ending")

/-- Whether a name, in small letters, ends with one of some extensions. -/
def isVideoName (name : String) (extensions : List Value) : Except Failure Bool :=
  endsWithAny (Text.lower name) extensions

/-- An extension in small letters, with its dot. -/
def normalExtension (extension : String) : String :=
  if Text.startsWith "." extension then Text.lower extension else "." ++ Text.lower extension

/-- Extensions that have to be texts, in normal form. -/
def normalExtensions : List Value → Except Failure (List String)
  | [] => .ok []
  | v :: rest =>
    match v.asText "startswith" with
    | .error f => .error f
    | .ok s => (normalExtensions rest).map (normalExtension s :: ·)

/-- The extensions that a configuration asks for. -/
def configuredExtensions (config : Option Configuration) : Except Failure (List String) :=
  match (settingOr config "scan" "video_extensions"
      (.list (videoExtensions.map .text))).elements with
  | .error f => .error f
  | .ok extensions => normalExtensions extensions

/-- Whether a name ends with one of the extensions. -/
def isVideo (extensions : List String) (name : String) : Bool :=
  let plain := Text.lower name
  extensions.any (Text.endsWith · plain)

/-- The descriptor of a file. Directories have neither size nor time. -/
def describe (tree : FileTree) (path : Path) (relative : String) : Except Failure Descriptor :=
  match tree.state path with
  | .error f => .error f
  | .ok node =>
    let (size, modified) : Option Quantity × Option Quantity := match node with
      | .file content modified => (some (.whole content.length), some (.real modified))
      | _ => (none, none)
    .ok { name := path.name, relativePath := relative, size := size, modified := modified,
          mime := guessMime path.name, source := path }

/-- What looking for files leaves: the files found, or a failure, and a log. -/
structure Enumeration where
  result : Except Failure (List Descriptor)
  log : List Record := []

namespace Enumeration

/-- Nothing found. -/
def nothing : Enumeration := ⟨.ok [], []⟩

/-- One enumeration after another; a failure ends both. -/
def andThen (a : Enumeration) (b : Unit → Enumeration) : Enumeration :=
  match a.result with
  | .error _ => a
  | .ok found =>
    let later := b ()
    ⟨later.result.map (found ++ ·), a.log ++ later.log⟩

/-- An enumeration with earlier log records. -/
def after (log : List Record) (a : Enumeration) : Enumeration := ⟨a.result, log ++ a.log⟩

end Enumeration

/-- The file of a path, with a warning instead if the operating system refuses it. -/
def describeOrWarn (tree : FileTree) (path : Path) (relative : String) : Enumeration :=
  match describe tree path relative with
  | .ok d => ⟨.ok [d], []⟩
  | .error f =>
    if f.isSystem then
      ⟨.ok [], [.warning ("Skipping unreadable file " ++ path.text ++ ": " ++ f.report)]⟩
    else ⟨.error f, []⟩

end VideoCatalog
