import VideoCatalog.Files.Path
import VideoCatalog.Text.Utf8

/-!
# File trees

A file tree holds directories, files and symbolic links under their full names. A path is
followed name by name: links are replaced by their targets, and two dots lead to the directory
that holds the current one.

* `FileTree`, `FileTree.node?`: the tree and what stands at a place.
* `FileTree.find`: the place that a path leads to.
* `FileTree.state`, `FileTree.exists?`, `FileTree.list`: questions about a path.
* `FileTree.makeDirectories`, `FileTree.create`, `FileTree.write`, `FileTree.replace`,
  `FileTree.remove`: changes.
* `FileTree.settle`, `FileTree.madeDirectories`: what a change leaves, also if it fails.
* `FileTree.realPath`: a path without links, as far as it exists.
-/

namespace VideoCatalog

/-- Names from the top of a tree. -/
abbrev Place := List String

/-- What stands at a place. -/
inductive FileNode where
  | file (content : List UInt8) (modified : Binary64)
  | directory
  | link (target : String)
deriving DecidableEq, Repr, Inhabited

/-- A tree of files. Relative paths start at `start`. Directories whose listing is refused are
named as they are asked for. -/
structure FileTree where
  nodes : List (Place × FileNode)
  start : Place := []
  refused : List String := []
deriving Repr, Inhabited

/-- Where a path leads. -/
inductive Lookup where
  | present (place : Place) (node : FileNode)
  | absent (place : Place)
deriving DecidableEq, Repr

namespace FileTree

/-- The tree without any files. -/
def empty : FileTree := ⟨[], [], []⟩

/-- How many links are followed on the way to a place. -/
def linkLimit : Nat := 40

/-- How many bytes a name may have. -/
def nameLimit : Nat := 255

/-- What stands at a place. The top is a directory. -/
def node? (t : FileTree) (place : Place) : Option FileNode :=
  if place.isEmpty then some .directory else t.nodes.lookup place

/-- Puts a node at a place. -/
def put (t : FileTree) (place : Place) (node : FileNode) : FileTree :=
  if t.nodes.any (·.1 == place) then
    { t with nodes := t.nodes.map fun e => if e.1 == place then (place, node) else e }
  else { t with nodes := t.nodes ++ [(place, node)] }

/-- Takes away the node at a place. -/
def erase (t : FileTree) (place : Place) : FileTree :=
  { t with nodes := t.nodes.filter fun e => e.1 != place }

/-- The names in the directory at a place. -/
def childNames (t : FileTree) (place : Place) : List String :=
  t.nodes.filterMap fun e =>
    if e.1.dropLast == place ∧ e.1 ≠ [] then e.1.getLast? else none

/-- Follows names from a directory up to the next link, whose target and the names after it are
left to `jump`. A link at the end is followed only if `follow` is set. -/
def walkPlain (t : FileTree) (follow : Bool)
    (jump : Place → List String → Except FileFault Lookup) (here : Place) (names : List String) :
    Except FileFault Lookup :=
  match names with
  | [] => .ok (.present here .directory)
  | name :: rest =>
    if name = ".." then t.walkPlain follow jump here.dropLast rest
    else if nameLimit < name.utf8ByteSize then .error .nameTooLong
    else
      let place := here ++ [name]
      match t.node? place with
      | none => if rest.isEmpty then .ok (.absent place) else .error .missing
      | some .directory => t.walkPlain follow jump place rest
      | some (.file content modified) =>
        if rest.isEmpty then .ok (.present place (.file content modified))
        else .error .notDirectory
      | some (.link target) =>
        if rest.isEmpty && !follow then .ok (.present place (.link target))
        else
          jump (if (Path.anchorOf target).isEmpty then here else []) (Path.namesOf target ++ rest)

/-- Follows names from a directory, over a number of links at most. -/
def walk (t : FileTree) (follow : Bool) (links : Nat) (here : Place) (names : List String) :
    Except FileFault Lookup :=
  match links with
  | 0 => t.walkPlain follow (fun _ _ => .error .linkLoop) here names
  | links + 1 => t.walkPlain follow (t.walk follow links) here names

/-- Where a path starts. -/
def startOf (t : FileTree) (p : Path) : Place := if p.isAbsolute then [] else t.start

/-- The place that a path leads to. -/
def find (t : FileTree) (follow : Bool) (p : Path) : Except Failure Lookup :=
  if p.text.toList.contains (Char.ofNat 0) then .error .zeroCharacter
  else match t.walk follow linkLimit (t.startOf p) p.names with
    | .ok found => .ok found
    | .error fault => .error (.file fault p.text)

/-- The node that a path leads to, with its place. -/
def located (t : FileTree) (follow : Bool) (p : Path) : Except Failure (Place × FileNode) :=
  match t.find follow p with
  | .error f => .error f
  | .ok (.absent _) => .error (.file .missing p.text)
  | .ok (.present place node) => .ok (place, node)

/-- The node that a path leads to. -/
def state (t : FileTree) (p : Path) : Except Failure FileNode :=
  (t.located true p).map (·.2)

/-- Whether a refusal only says that nothing stands at a path. -/
def isAbsence : Failure → Bool
  | .file .missing _ | .file .notDirectory _ | .file .linkLoop _ | .zeroCharacter => true
  | _ => false

/-- Whether the node that a path leads to passes a test. That nothing stands there counts as
no; other refusals are passed on. -/
def ask (t : FileTree) (follow : Bool) (test : FileNode → Bool) (p : Path) : Except Failure Bool :=
  match t.located follow p with
  | .ok (_, node) => .ok (test node)
  | .error f => if isAbsence f then .ok false else .error f

/-- Whether a path leads to anything. -/
def exists? (t : FileTree) (p : Path) : Except Failure Bool := t.ask true (fun _ => true) p

/-- Whether a path leads to a directory. -/
def isDirectory? (t : FileTree) (p : Path) : Except Failure Bool :=
  t.ask true (· == .directory) p

/-- Whether a node is a link. -/
def isLinkNode : FileNode → Bool
  | .link _ => true
  | _ => false

/-- Whether a path names a link. -/
def isLink? (t : FileTree) (p : Path) : Except Failure Bool := t.ask false isLinkNode p

/-- The names in a directory, in no particular order. -/
def list (t : FileTree) (p : Path) : Except Failure (List String) :=
  match t.located true p with
  | .error f => .error f
  | .ok (place, .directory) =>
    if t.refused.contains p.text then .error (.file .denied p.text)
    else .ok (t.childNames place)
  | .ok _ => .error (.file .notDirectory p.text)

/-- The content of a file. -/
def read (t : FileTree) (p : Path) : Except Failure (List UInt8) :=
  match t.state p with
  | .error f => .error f
  | .ok (.file content _) => .ok content
  | .ok _ => .error (.file .isDirectory p.text)

/-- The text of a file. -/
def readText (t : FileTree) (p : Path) : Except Failure String :=
  match t.read p with
  | .error f => .error f
  | .ok bytes =>
    match Text.decode? bytes with
    | some text => .ok text
    | none => .error .notText

/-- Makes one directory. -/
def makeDirectory (t : FileTree) (p : Path) : Except Failure FileTree :=
  match t.find false p with
  | .error f => .error f
  | .ok (.present ..) => .error (.file .alreadyThere p.text)
  | .ok (.absent place) => .ok (t.put place .directory)

/-- Makes one directory unless it is there already. -/
def ensureDirectory (t : FileTree) (p : Path) : Except Failure FileTree :=
  match t.makeDirectory p with
  | .ok t' => .ok t'
  | .error f =>
    if f == .file .missing p.text then .error f
    else match t.isDirectory? p with
      | .ok true => .ok t
      | .ok false => .error f
      | .error other => .error other

/-- Makes the directories named by a path, given in reverse, as far as they are missing. -/
def makeNames (t : FileTree) (anchor : String) : List String → Except Failure FileTree
  | [] => t.ensureDirectory ⟨anchor, []⟩
  | name :: above =>
    let p : Path := ⟨anchor, (name :: above).reverse⟩
    match t.ensureDirectory p with
    | .ok t' => .ok t'
    | .error f =>
      if f == .file .missing p.text then
        match t.makeNames anchor above with
        | .error f => .error f
        | .ok t' => t'.ensureDirectory p
      else .error f

/-- Makes a directory and the missing ones above it. -/
def makeDirectories (t : FileTree) (p : Path) : Except Failure FileTree :=
  t.makeNames p.anchor p.names.reverse

/-- The tree that a change leaves, and how it ended. A change that fails leaves the tree alone. -/
def settle (t : FileTree) : Except Failure FileTree → FileTree × Except Failure Unit
  | .ok t' => (t', .ok ())
  | .error f => (t, .error f)

/-- What making the directories named by a path, given in reverse, leaves. The ones that were
made stay if a later one cannot be made. -/
def madeNames (t : FileTree) (anchor : String) : List String → FileTree
  | [] => (t.settle (t.ensureDirectory ⟨anchor, []⟩)).1
  | name :: above =>
    let p : Path := ⟨anchor, (name :: above).reverse⟩
    match t.ensureDirectory p with
    | .ok t' => t'
    | .error f =>
      if f == .file .missing p.text then
        match t.makeNames anchor above with
        | .error _ => t.madeNames anchor above
        | .ok t' => (t'.settle (t'.ensureDirectory p)).1
      else t

/-- What making a directory and the missing ones above it leaves. -/
def madeDirectories (t : FileTree) (p : Path) : FileTree :=
  t.madeNames p.anchor p.names.reverse

/-- Writes a file, which is made if it is missing. -/
def write (t : FileTree) (p : Path) (content : List UInt8) (modified : Binary64) :
    Except Failure FileTree :=
  match t.find true p with
  | .error f => .error f
  | .ok (.absent place) => .ok (t.put place (.file content modified))
  | .ok (.present place (.file ..)) => .ok (t.put place (.file content modified))
  | .ok (.present ..) => .error (.file .isDirectory p.text)

/-- Makes a file that is not there yet. -/
def create (t : FileTree) (p : Path) (content : List UInt8) (modified : Binary64) :
    Except Failure FileTree :=
  match t.find false p with
  | .error f => .error f
  | .ok (.present ..) => .error (.file .alreadyThere p.text)
  | .ok (.absent place) => .ok (t.put place (.file content modified))

/-- Makes a link. -/
def link (t : FileTree) (p : Path) (target : String) : Except Failure FileTree :=
  match t.find false p with
  | .error f => .error f
  | .ok (.absent place) => .ok (t.put place (.link target))
  | .ok (.present ..) => .error (.file .alreadyThere p.text)

/-- Moves the file at a place over whatever file or link a path names. -/
def replace (t : FileTree) (source : Path) (target : Path) : Except Failure FileTree :=
  match t.located false source with
  | .error f => .error f
  | .ok (origin, node) =>
    match t.find false target with
    | .error f => .error f
    | .ok (.absent place) => .ok ((t.erase origin).put place node)
    | .ok (.present _ .directory) => .error (.file .isDirectory target.text)
    | .ok (.present place _) => .ok ((t.erase origin).put place node)

/-- Takes away the file or link that a path names. -/
def remove (t : FileTree) (p : Path) : Except Failure FileTree :=
  match t.located false p with
  | .error f => .error f
  | .ok (_, .directory) => .error (.file .isDirectory p.text)
  | .ok (place, _) => .ok (t.erase place)

/-- The target of a link. -/
def target? (t : FileTree) (p : Path) : Option String :=
  match t.located false p with
  | .ok (_, .link target) => some target
  | _ => none

/-- What is known of a link while a path is cleared of links. -/
abbrev Cleared := List (List String × Option (List String))

/-- Clears names of links from a place on. The flag says whether all links could be followed;
after a link that leads back to itself the names stay as they are. -/
def clear (t : FileTree) (fuel : Nat) (seen : Cleared) (here : List String)
    (names : List String) : List String × Bool × Cleared :=
  match fuel with
  | 0 => (here ++ names, false, seen)
  | fuel + 1 =>
    match names with
    | [] => (here, true, seen)
    | name :: rest =>
      if name = ".." then t.clear fuel seen here.dropLast rest
      else
        let place := here ++ [name]
        match t.target? ⟨"/", place⟩ with
        | none => t.clear fuel seen place rest
        | some target =>
          match seen.lookup place with
          | some (some cleared) => t.clear fuel seen cleared rest
          | some none => (place ++ rest, false, seen)
          | none =>
            let start := if (Path.anchorOf target).isEmpty then here else []
            let (cleared, ok, seen) :=
              t.clear fuel ((place, none) :: seen) start (Path.namesOf target)
            if ok then t.clear fuel ((place, some cleared) :: seen) cleared rest
            else (cleared ++ rest, false, seen)

/-- Drops pairs of a name and two dots. -/
def collapse (names : List String) : List String :=
  (names.foldl (fun done n => if n = ".." then done.drop 1 else n :: done) []).reverse

/-- Bounds the names met while a path is cleared: every link is followed at most once. -/
def clearingFuel (t : FileTree) (names : List String) : Nat :=
  t.nodes.foldl (fun n e => match e.2 with
    | .link target => n + (Path.namesOf target).length + 2
    | _ => n) (names.length + 1) * (t.nodes.length + 2)

/-- A path without links as far as it exists; a link that leads back to itself is refused. -/
def realPath (t : FileTree) (p : Path) : Except Failure Path :=
  if p.text.toList.contains (Char.ofNat 0) then .error .zeroCharacter
  else
    let (names, _, _) := t.clear (t.clearingFuel p.names) [] (t.startOf p) p.names
    let real : Path := ⟨"/", collapse names⟩
    match t.located true real with
    | .error (.file .linkLoop _) => .error (.linkLoop real.text)
    | _ => .ok real

end FileTree

/-- What a program finds around it: the directory it is started in, the home directories of
users by name (the empty name is its own user), and the settings file named for it. -/
structure Surroundings where
  directory : Path
  homes : List (String × String)
  settings : Option String := none
deriving Repr, Inhabited

namespace Surroundings

/-- A path with a leading tilde replaced by a home directory. -/
def expandHome (s : Surroundings) (p : Path) : Except Failure Path :=
  match p.isAbsolute, p.names with
  | false, first :: rest =>
    match first.toList with
    | '~' :: user =>
      match s.homes.lookup (String.ofList user) with
      | some home => .ok (Path.join (.ofText home) ⟨"", rest⟩)
      | none => .error (.noHome (String.ofList user))
    | _ => .ok p
  | _, _ => .ok p

/-- A path from the start directory on. -/
def absolute (s : Surroundings) (p : Path) : Path := s.directory.join p

end Surroundings

end VideoCatalog
