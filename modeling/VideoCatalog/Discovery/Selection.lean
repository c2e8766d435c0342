import VideoCatalog.Discovery.Describe

/-!
# Selections

A selection is a list of files, each with the relative path that it is to have, if one is
given. Files that are no videos are left out.

* `SelectionEntry`, `SelectionEntry.ofValue`: the entries.
* `SelectionEntry.fromBase`: files with their paths relative to a base.
* `runSelection`: the descriptors of a selection.
-/

namespace VideoCatalog

/-- A file of a selection with the relative path that it is to have. -/
structure SelectionEntry where
  path : Path
  relative : Value := .null

namespace SelectionEntry

/-- The entry of a value: a path, or a pair of a path and a relative path. -/
def ofValue : Value → Except Failure SelectionEntry
  | .list [path, relative] => (Configuration.pathOf path).map fun p => ⟨p, relative⟩
  | .list values => .error (.wrongCount 2 values.length)
  | v => (Configuration.pathOf v).map fun p => ⟨p, .null⟩

/-- The entries of values. -/
def ofValues : List Value → Except Failure (List SelectionEntry)
  | [] => .ok []
  | v :: rest =>
    match ofValue v with
    | .error f => .error f
    | .ok e => (ofValues rest).map (e :: ·)

/-- Files cleared of links, with their paths relative to a base that is cleared already. A
file outside of the base has no relative path. -/
def below (tree : FileTree) (base : Path) : List Path → Except Failure (List SelectionEntry)
  | [] => .ok []
  | file :: rest =>
    match tree.realPath file with
    | .error f => .error f
    | .ok path =>
      let relative : Value := match path.relativeTo? base with
        | some r => .text r.text
        | none => .null
      (below tree base rest).map (⟨path, relative⟩ :: ·)

/-- Files with their paths relative to a base. -/
def fromBase (tree : FileTree) (base : Path) (files : List Path) :
    Except Failure (List SelectionEntry) :=
  match tree.realPath base with
  | .error f => .error f
  | .ok base => below tree base files

/-- The relative path of an entry: the given one, or the name of the file. -/
def relativeText (e : SelectionEntry) : Except Failure String :=
  if e.relative.truthy then (Configuration.pathOf e.relative).map Path.text
  else .ok e.path.name

end SelectionEntry

/-- The descriptors of a selection. -/
def runSelection (extensions : List String) (tree : FileTree) :
    List SelectionEntry → Enumeration
  | [] => .nothing
  | e :: rest =>
    if isVideo extensions e.path.name then
      match e.relativeText with
      | .error f => ⟨.error f, []⟩
      | .ok relative =>
        (describeOrWarn tree e.path relative).andThen fun _ => runSelection extensions tree rest
    else runSelection extensions tree rest

end VideoCatalog
