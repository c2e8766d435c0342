import VideoCatalog.Proofs.Discovery.Yields
import VideoCatalog.Proofs.Files.Linkless
import VideoCatalog.Session.Basic

/-!
# What a selection yields

* `selectFiles`: the files of a selection below a base, as a session selects them.
* `SelectionEntry.yield`: the descriptors of one entry; `result_runSelection` says that a selection
  yields those of its entries one after another.
* `selectedKey`: the relative path that a selection below a base gives to a file.
* `SelectionEntry.ofFile`: the entry of a file in a tree without links; `yield_ofFile` says that it
  is described under its key, and `result_selectFiles` what a selection of files comes to.
-/

namespace VideoCatalog

/-- The files of a selection below a base, under a configuration if there is one. -/
def selectFiles (config : Option Configuration) (base : Path) (files : List Path)
    (tree : FileTree) : Enumeration :=
  match SelectionEntry.fromBase tree base files with
  | .error f => ⟨.error f, []⟩
  | .ok entries =>
    match configuredExtensions config with
    | .error f => ⟨.error f, []⟩
    | .ok extensions => runSelection extensions tree entries

/-- A session selects files under its configuration. -/
theorem selection_eq (config : Configuration) :
    SessionM.selection config = selectFiles (some config) := rfl

/-- The relative path that a selection below the place of a base gives to the file at a place:
what follows the base, or the name of a file outside of it. -/
def selectedKey (base place : Place) : String :=
  if base <+: place then Path.text ⟨"", place.drop base.length⟩ else (Path.mk "/" place).name

variable {config : Option Configuration} {tree : FileTree} {base p : Path} {b place : Place}
  {node : FileNode} {files : List Path} {extensions : List String}

namespace SelectionEntry

/-! ### Entries one after another -/

/-- The descriptors of one entry: one, or none if the file is no video or cannot be read. -/
def yield (extensions : List String) (tree : FileTree) (e : SelectionEntry) : List Descriptor :=
  if isVideo extensions e.path.name then
    (e.relativeText.bind (describe tree e.path)).toOption.toList
  else []

/-- An entry has a relative path, and the system refuses it if it cannot be described. -/
def Answered (tree : FileTree) (e : SelectionEntry) : Prop :=
  ∃ relative, e.relativeText = .ok relative ∧ ((∃ d, describe tree e.path relative = .ok d) ∨
    ∃ f, describe tree e.path relative = .error f ∧ f.isSystem = true)

theorem result_runSelection {entries : List SelectionEntry}
    (answered : ∀ e ∈ entries, e.Answered tree) :
    (runSelection extensions tree entries).result =
      .ok (entries.flatMap (yield extensions tree)) := by
  induction entries with
  | nil => rfl
  | cons e rest ih =>
    have later := ih fun other mem => answered other (List.mem_cons_of_mem _ mem)
    obtain ⟨relative, told, outcome⟩ := answered e List.mem_cons_self
    rw [runSelection, List.flatMap_cons, yield]
    split
    · rw [told]
      dsimp only
      rcases outcome with ⟨d, described⟩ | ⟨f, refused, system⟩
      · rw [Enumeration.andThen, describeOrWarn, described]
        dsimp only
        rw [later]
        simp only [Except.bind, described]
        rfl
      · rw [Enumeration.andThen, describeOrWarn, refused]
        dsimp only
        rw [if_pos system]
        dsimp only
        rw [later]
        simp only [Except.bind, refused]
        rfl
    · exact later

/-! ### Files of a tree without links -/

/-- The value of a relative path, if there is one. -/
def relativeValue : Option Path → Value
  | some relative => .text relative.text
  | none => .null

/-- The entry of a file in a selection below the place of a base. -/
def ofFile (tree : FileTree) (b : Place) (p : Path) : SelectionEntry :=
  let real : Path := ⟨"/", FileTree.climb (tree.startOf p) p.names⟩
  ⟨real, relativeValue (real.relativeTo? ⟨"/", b⟩)⟩

theorem below_eq (linkless : tree.Linkless) (zeros : ∀ p ∈ files, Char.ofNat 0 ∉ p.text.toList) :
    below tree ⟨"/", b⟩ files = .ok (files.map (ofFile tree b)) := by
  induction files with
  | nil => rfl
  | cons p rest ih =>
    rw [below, linkless.realPath_eq (zeros p List.mem_cons_self)]
    dsimp only
    rw [ih fun q mem => zeros q (List.mem_cons_of_mem _ mem)]
    rfl

theorem exists_relativeText (path : Path) (relative : Option Path) :
    ∃ text, (SelectionEntry.mk path (relativeValue relative)).relativeText = .ok text := by
  unfold relativeText
  cases relative with
  | none => exact ⟨_, rfl⟩
  | some relative =>
    split
    · exact ⟨_, rfl⟩
    · exact ⟨_, rfl⟩

theorem answered_ofFile (linkless : tree.Linkless) (zero : Char.ofNat 0 ∉ p.text.toList) :
    (ofFile tree b p).Answered tree := by
  obtain ⟨relative, told⟩ : ∃ text, (ofFile tree b p).relativeText = .ok text :=
    exists_relativeText ..
  exact ⟨relative, told, FileTree.describe_outcome (linkless.zero_climb zero) relative⟩

/-- The key is the relative path of a file that is there. -/
theorem relativeText_ofFile (linkless : tree.Linkless)
    (found : tree.find true p = .ok (.present place node)) :
    (ofFile tree b p).relativeText = .ok (selectedKey b place) := by
  have real : FileTree.climb (tree.startOf p) p.names = place := linkless.climb_of_find found
  have named : ∀ name ∈ place, IsFileName name :=
    fun name => linkless.proper.isFileName (linkless.stands_of_find found)
  unfold relativeText ofFile selectedKey Path.relativeTo?
  rw [real]
  by_cases inside : b <+: place
  · have kept : ∀ name ∈ place.drop b.length, IsFileName name :=
      fun name mem => named name (List.mem_of_mem_drop mem)
    have read := Path.ofText_text fun name mem =>
      ⟨(kept name mem).filled, (kept name mem).here, (kept name mem).whole⟩
    have filled : (Path.text ⟨"", place.drop b.length⟩).isEmpty = false := by
      refine Bool.eq_false_iff.2 fun empty => ?_
      rw [String.isEmpty_iff.1 empty] at read
      have none : place.drop b.length = [] := (congrArg Path.names read).symm
      rw [none] at empty
      exact absurd empty (by decide)
    simp [inside, relativeValue, Value.truthy, filled, Configuration.pathOf, Except.map, read]
  · simp [inside, relativeValue, Value.truthy]

/-- A file that is there is described under its key, if it is a video. -/
theorem yield_ofFile (extensions : List String) (b : Place) (linkless : tree.Linkless)
    (found : tree.find true p = .ok (.present place node)) :
    ∃ d, describe tree ⟨"/", place⟩ (selectedKey b place) = .ok d ∧
      (ofFile tree b p).yield extensions tree =
        if isVideo extensions (Path.mk "/" place).name then [d] else [] := by
  have real : (ofFile tree b p).path = ⟨"/", place⟩ :=
    congrArg (Path.mk "/") (linkless.climb_of_find found)
  have state := linkless.state_place (linkless.stands_of_find found)
  obtain ⟨d, described⟩ : ∃ d, describe tree ⟨"/", place⟩ (selectedKey b place) = .ok d := by
    rw [describe, state]
    exact ⟨_, rfl⟩
  refine ⟨d, described, ?_⟩
  rw [yield, relativeText_ofFile linkless found, real]
  simp only [Except.bind, described]
  rfl

end SelectionEntry

open SelectionEntry

/-- A selection of files in a tree without links yields the videos among them, each under its key. -/
theorem result_selectFiles (linkless : tree.Linkless)
    (based : tree.find true base = .ok (.present b node))
    (known : configuredExtensions config = .ok extensions)
    (zeros : ∀ p ∈ files, Char.ofNat 0 ∉ p.text.toList) :
    (selectFiles config base files tree).result =
      .ok (files.flatMap fun p => (ofFile tree b p).yield extensions tree) := by
  have answered : ∀ e ∈ files.map (ofFile tree b), e.Answered tree := by
    intro e mem
    obtain ⟨p, listed, rfl⟩ := List.mem_map.1 mem
    exact answered_ofFile linkless (zeros p listed)
  rw [selectFiles, fromBase, linkless.realPath_of_find based]
  dsimp only
  rw [below_eq linkless zeros, known]
  dsimp only
  rw [result_runSelection answered, List.flatMap_map]

end VideoCatalog
