import VideoCatalog.CommandLine.Arguments
import VideoCatalog.Failure
import VideoCatalog.Files.Path
import VideoCatalog.Query.Sort

/-!
# Requests

The program scans a folder and lists its videos, or edits stored tags.

* `Request`: what is asked for, with all its arguments.
* `programGrammar`, `scanGrammar`, `tagsGrammar`: the arguments of the program and its commands.
* `Request.parse`: the request of some words.
-/

namespace VideoCatalog.CommandLine

/-- The arguments of a scan. Those without a fixed form may be missing; an option with nothing
but a separator attached to it has an empty list. -/
structure ScanRequest where
  root : Path
  files : Option (List Path)
  query : Value
  sort : Value
  workers : Value
  timeout : Value
  thumbnailsDirectory : Value
  thumbnailsManifest : Value

/-- What is done with tags. -/
inductive TagsAction where
  | list
  | add
  | remove
deriving DecidableEq, Repr

/-- The name of an action. -/
def TagsAction.name : TagsAction → String
  | list => "list"
  | add => "add"
  | remove => "remove"

/-- All actions. -/
def TagsAction.all : List TagsAction := [list, add, remove]

/-- The action of a name. -/
def TagsAction.named? (s : String) : Option TagsAction := all.find? (·.name == s)

/-- The arguments of editing tags. -/
structure TagsRequest where
  action : TagsAction
  path : Option String
  tag : Option String
deriving DecidableEq, Repr

/-- What the program is asked to do. -/
inductive Command where
  | scan (request : ScanRequest)
  | tags (request : TagsRequest)

/-- A command with the settings file that it is to be done under. -/
structure Request where
  config : Value
  command : Command

/-- Any text. -/
def readText (s : String) : Option Value := some (.text s)

/-- A path. -/
def readPath (s : String) : Option Value := some (.text (Path.ofText s).text)

/-- A whole number. -/
def readInt (s : String) : Option Value :=
  match Numeral.int s with
  | .ok n => some (.int n)
  | .error _ => none

/-- A number. -/
def readReal (s : String) : Option Value :=
  match Numeral.real s with
  | .ok x => some (.number (.real x))
  | .error _ => none

/-- One of some texts. -/
def readChoice (choices : List String) (s : String) : Option Value :=
  if choices.contains s then some (.text s) else none

/-- The selectors that a scan can be sorted by. -/
def sortChoices : List String :=
  SortKey.all.flatMap fun key => [key.text ++ "-asc", key.text ++ "-desc"]

/-- The options that ask for help. -/
def helpOptions : List (String × Argument) :=
  let help : Argument := ⟨"help", .help, fun _ => none, .null⟩
  [("-h", help), ("--help", help)]

/-- The names of the commands. -/
def commandNames : List String := ["scan", "tags"]

/-- The arguments before a command. -/
def programGrammar : Grammar where
  options := helpOptions ++ [("--config", ⟨"config", .one, readText, .null⟩)]
  positions := [⟨"command", .command, readChoice commandNames, .null⟩]

/-- The arguments of a scan. -/
def scanGrammar : Grammar where
  options := helpOptions ++ [
    ("--files", ⟨"files", .many, readPath, .null⟩),
    ("--query", ⟨"query", .one, readText, .text ""⟩),
    ("--sort", ⟨"sort", .one, readChoice sortChoices, .text "name-asc"⟩),
    ("--workers", ⟨"workers", .one, readInt, .null⟩),
    ("--timeout-ms", ⟨"timeout", .one, readReal, .null⟩),
    ("--thumbnails-dir", ⟨"thumbnailsDirectory", .one, readPath, .null⟩),
    ("--thumbnails-manifest", ⟨"thumbnailsManifest", .one, readPath, .null⟩)]
  positions := [⟨"root", .one, readPath, .null⟩]

/-- The arguments of editing tags. -/
def tagsGrammar : Grammar where
  options := helpOptions
  positions := [
    ⟨"action", .one, readChoice (TagsAction.all.map (·.name)), .null⟩,
    ⟨"path", .optional, readText, .null⟩,
    ⟨"tag", .optional, readText, .null⟩]

/-- The text that a value is. -/
def textOf? : Value → Option String
  | .text s => some s
  | _ => none

/-- The texts in a list. -/
def textsOf? : Value → Option (List String)
  | .list items => some (items.filterMap textOf?)
  | _ => none

/-- The path that a value names; the current directory if it names none. -/
def pathOr (v : Value) : Path := .ofText ((textOf? v).getD ".")

/-- The request for a scan. -/
def ScanRequest.ofParsed (s : Parsed) : ScanRequest :=
  let value := scanGrammar.value s
  { root := pathOr (value "root"),
    files := (textsOf? (value "files")).map (·.map .ofText),
    query := value "query", sort := value "sort", workers := value "workers",
    timeout := value "timeout", thumbnailsDirectory := value "thumbnailsDirectory",
    thumbnailsManifest := value "thumbnailsManifest" }

/-- The request to edit tags. -/
def TagsRequest.ofParsed? (s : Parsed) : Option TagsRequest :=
  let value (dest : String) : Option String := textOf? (tagsGrammar.value s dest)
  ((value "action").bind TagsAction.named?).map fun action =>
    ⟨action, value "path", value "tag"⟩

/-- The command of some words, and the words that fit nowhere. -/
def Command.parse : List String → Except Exit (Command × List String)
  | "scan" :: args =>
    (scanGrammar.parse args).map fun s => (.scan (.ofParsed s), s.extras)
  | _ :: args =>
    match tagsGrammar.parse args with
    | .error e => .error e
    | .ok s =>
      match TagsRequest.ofParsed? s with
      | some request => .ok (.tags request, s.extras)
      | none => .error .misuse
  | [] => .error .misuse

/-- The request of some words. Words that fit nowhere are refused. -/
def Request.parse (args : List String) : Except Exit Request :=
  match programGrammar.parse args with
  | .error e => .error e
  | .ok s =>
    match Command.parse ((textsOf? (programGrammar.value s "command")).getD []) with
    | .error e => .error e
    | .ok (command, extras) =>
      if s.extras.isEmpty && extras.isEmpty then
        .ok ⟨programGrammar.value s "config", command⟩
      else .error .misuse

@[simp] theorem TagsAction.named?_name (a : TagsAction) : named? a.name = some a := by
  cases a <;> decide

end VideoCatalog.CommandLine
