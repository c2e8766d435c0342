import VideoCatalog.Discovery.Describe
import VideoCatalog.Discovery.Wildcard

/-!
# Walking a directory

All videos below a root are found, directory by directory: first the files of a directory in
the order of their names, then its subdirectories. Hidden names and names that match an
exclusion are passed over, and so are links unless they are followed.

* `DirectoryScan`: a root with the rules of a scan.
* `DirectoryScan.excluded`: whether a path matches an exclusion.
* `DirectoryScan.checkRoot`: whether a root can be scanned.
* `DirectoryScan.walk`, `DirectoryScan.run`: the walk.
-/

namespace VideoCatalog

/-- A root with the rules of a scan. -/
structure DirectoryScan where
  root : Path
  extensions : List String := videoExtensions
  skipHidden : Bool := true
  followLinks : Bool := false
  exclusions : List Value := []

/-- Sorts names by code points. -/
def sortNames (names : List String) : List String := names.mergeSort fun a b => decide (a ≤ b)

namespace DirectoryScan

/-- The scan of a root under a configuration. -/
def ofConfiguration (root : Path) (config : Option Configuration) :
    Except Failure DirectoryScan :=
  match configuredExtensions config with
  | .error f => .error f
  | .ok extensions =>
    let patterns := settingOr config "exclusions" "file_patterns" (.list [])
    let exclusions := if patterns.truthy then patterns.elements else .ok []
    exclusions.map fun exclusions =>
      { root := root, extensions := extensions,
        skipHidden := (settingOr config "scan" "skip_hidden" (.bool true)).truthy,
        followLinks := (settingOr config "scan" "follow_symlinks" (.bool false)).truthy,
        exclusions := exclusions }

/-- Whether a name is passed over because it is hidden. -/
def hidden (scan : DirectoryScan) (name : String) : Bool :=
  scan.skipHidden && Text.startsWith "." name

/-- Whether a name or a relative path matches one of some patterns, which have to be texts as
far as they are looked at. -/
def matchesAny (name relative : String) : List Value → Except Failure Bool
  | [] => .ok false
  | .text pattern :: rest =>
    if Wildcard.matchesText pattern name || Wildcard.matchesText pattern relative then .ok true
    else matchesAny name relative rest
  | v :: _ => .error (.unsuitable v.kind "a pattern")

/-- The text of a path relative to the root. -/
def relativeText (scan : DirectoryScan) (p : Path) : Except Failure String :=
  match p.relativeTo? scan.root with
  | some relative => .ok relative.text
  | none => .error (.outsideRoot p.text scan.root.text)

/-- Whether a path matches an exclusion, by its name or relative to the root. -/
def excluded (scan : DirectoryScan) (p : Path) : Except Failure Bool :=
  match scan.relativeText p with
  | .error f => .error f
  | .ok relative => matchesAny p.name relative scan.exclusions

/-- Refuses a root that is missing, no directory, or cannot be listed. -/
def checkRoot (scan : DirectoryScan) (tree : FileTree) : Except Failure Unit :=
  match tree.exists? scan.root with
  | .error f => .error f
  | .ok false => .error (.rootMissing scan.root.text)
  | .ok true =>
    match tree.isDirectory? scan.root with
    | .error f => .error f
    | .ok false => .error (.rootNotDirectory scan.root.text)
    | .ok true =>
      match tree.list scan.root with
      | .ok _ => .ok ()
      | .error f =>
        if f.isSystem then .error (.rootUnreadable scan.root.text f.report) else .error f

/-- The subdirectories of a directory that are not passed over. -/
def keptDirectories (scan : DirectoryScan) (directory : Path) :
    List String → Except Failure (List String)
  | [] => .ok []
  | name :: rest =>
    if scan.hidden name then keptDirectories scan directory rest
    else match scan.excluded (directory.child name) with
      | .error f => .error f
      | .ok true => keptDirectories scan directory rest
      | .ok false => (keptDirectories scan directory rest).map (name :: ·)

/-- A file of a directory, unless it is passed over. -/
def visitFile (scan : DirectoryScan) (tree : FileTree) (directory : Path) (name : String) :
    Enumeration :=
  let path := directory.child name
  if !isVideo scan.extensions name then .nothing
  else
    let link := if scan.followLinks then .ok false else tree.isLink? path
    match link with
    | .error f => ⟨.error f, []⟩
    | .ok true => .nothing
    | .ok false =>
      if scan.hidden name then .nothing
      else match scan.excluded path with
        | .error f => ⟨.error f, []⟩
        | .ok true => .nothing
        | .ok false =>
          match scan.relativeText path with
          | .error f => ⟨.error f, []⟩
          | .ok relative => describeOrWarn tree path relative

/-- The files of a directory. -/
def visitFiles (scan : DirectoryScan) (tree : FileTree) (directory : Path) :
    List String → Enumeration
  | [] => .nothing
  | name :: rest =>
    (visitFile scan tree directory name).andThen fun _ => visitFiles scan tree directory rest

/-- Whether the entry of a directory leads to a directory. -/
def leadsToDirectory (tree : FileTree) (directory : Path) (name : String) : Bool :=
  match tree.state (directory.child name) with
  | .ok .directory => true
  | _ => false

/-- Whether a subdirectory is entered. -/
def enters (scan : DirectoryScan) (tree : FileTree) (directory : Path) (name : String) : Bool :=
  scan.followLinks ||
    match tree.isLink? (directory.child name) with
    | .ok link => !link
    | .error _ => true

mutual

/-- The videos of a directory and of what is below it, with the number of levels that may be
entered. -/
def walk (scan : DirectoryScan) (tree : FileTree) (levels : Nat) (directory : Path) :
    Enumeration :=
  match levels with
  | 0 => .nothing
  | levels + 1 =>
    match tree.list directory with
    | .error f =>
      if f.isSystem then
        ⟨.ok [], [.warning ("Cannot read " ++ directory.text ++ ": " ++ f.report)]⟩
      else ⟨.error f, []⟩
    | .ok names =>
      let inside := leadsToDirectory tree directory
      match keptDirectories scan directory (names.filter inside) with
      | .error f => ⟨.error f, []⟩
      | .ok directories =>
        let files := sortNames (names.filter fun n => !inside n)
        (visitFiles scan tree directory files).andThen fun _ =>
          walkEach scan tree levels directory (sortNames directories)
termination_by (levels, 0)

/-- The videos of some subdirectories. -/
def walkEach (scan : DirectoryScan) (tree : FileTree) (levels : Nat) (directory : Path)
    (names : List String) : Enumeration :=
  match names with
  | [] => .nothing
  | name :: rest =>
    if scan.enters tree directory name then
      (walk scan tree levels (directory.child name)).andThen fun _ =>
        walkEach scan tree levels directory rest
    else walkEach scan tree levels directory rest
termination_by (levels, names.length + 1)

end

/-- More levels than a path can have: without links no more than there are nodes, and as many
after every link that is followed. -/
def depthBound (tree : FileTree) : Nat := (tree.nodes.length + 2) * (FileTree.linkLimit + 2)

/-- All videos below the root. -/
def run (scan : DirectoryScan) (tree : FileTree) : Enumeration :=
  match scan.checkRoot tree with
  | .error f => ⟨.error f, []⟩
  | .ok () => scan.walk tree (depthBound tree) scan.root

end DirectoryScan

end VideoCatalog
