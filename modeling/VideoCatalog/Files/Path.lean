import VideoCatalog.Failure

/-!
# Paths

A path is an anchor and the names after it. Repeated slashes and single dots are dropped when
a path is read; two dots stay, since what they lead to depends on links.

* `Path.ofText`, `Path.text`: reading and showing.
* `Path.join`, `Path.child`, `Path.parent`, `Path.name`: the usual parts.
* `Path.relativeTo?`: the rest of a path below another one.
-/

namespace VideoCatalog

/-- An anchor (empty, one slash or two) and the names after it. -/
structure Path where
  anchor : String
  names : List String
deriving DecidableEq, Repr, Inhabited

namespace Path

/-- The pieces of a text between slashes. -/
def pieces (text : List Char) : List (List Char) :=
  match text with
  | [] => [[]]
  | c :: rest =>
    if c = '/' then [] :: pieces rest
    else match pieces rest with
      | [] => [[c]]
      | p :: ps => (c :: p) :: ps

/-- Whether a piece is a name: neither empty nor a single dot. -/
def isName (piece : List Char) : Bool := !piece.isEmpty && piece != ['.']

/-- The names in a text. -/
def namesOf (text : String) : List String :=
  ((pieces text.toList).filter isName).map String.ofList

/-- The anchor of a text: exactly two slashes at the start stay two, any other number of
slashes counts as one. -/
def anchorOf (text : String) : String :=
  match (text.toList.takeWhile (· == '/')).length with
  | 0 => ""
  | 2 => "//"
  | _ => "/"

/-- Reads a path. -/
def ofText (text : String) : Path := ⟨anchorOf text, namesOf text⟩

/-- The text of a path; a path without names and anchor is a single dot. -/
def text (p : Path) : String :=
  if p.anchor.isEmpty && p.names.isEmpty then "."
  else p.anchor ++ String.intercalate "/" p.names

/-- Whether a path has an anchor. -/
def isAbsolute (p : Path) : Bool := !p.anchor.isEmpty

/-- The last name of a path; empty if there is none. -/
def name (p : Path) : String := p.names.getLast?.getD ""

/-- A path without its last name. -/
def parent (p : Path) : Path := ⟨p.anchor, p.names.dropLast⟩

/-- A path followed by another one, which counts alone if it is absolute. -/
def join (p q : Path) : Path := if q.isAbsolute then q else ⟨p.anchor, p.names ++ q.names⟩

/-- A path followed by one more name. -/
def child (p : Path) (name : String) : Path := ⟨p.anchor, p.names ++ [name]⟩

/-- What follows `base` in a path. -/
def relativeTo? (p base : Path) : Option Path :=
  if p.anchor = base.anchor ∧ base.names <+: p.names then
    some ⟨"", p.names.drop base.names.length⟩
  else none

@[simp] theorem name_child (p : Path) (n : String) : (p.child n).name = n := by
  simp [child, name]

@[simp] theorem parent_child (p : Path) (n : String) : (p.child n).parent = p := by
  simp [child, parent]

/-- A path below `base` is found again relative to it. -/
theorem relativeTo?_append (a : String) (base rest : List String) :
    relativeTo? ⟨a, base ++ rest⟩ ⟨a, base⟩ = some ⟨"", rest⟩ := by
  simp [relativeTo?]

end Path

end VideoCatalog
