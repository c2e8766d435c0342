import VideoCatalog.Proofs.Discovery.Order
import VideoCatalog.Proofs.Discovery.Rules
import VideoCatalog.Proofs.Files.Filling

/-!
# What any scan yields

Nothing is assumed of the rules of a scan here, nor that its directories can be read.

* `Enumeration.All`: every file that was found has a property.
* `DirectoryScan.Yields`: the descriptor of a video below the root, under its path from there.
* `DirectoryScan.all_run`: a scan yields such descriptors alone.
-/

namespace VideoCatalog

/-! ### All files of an enumeration -/

namespace Enumeration

variable {P : Descriptor → Prop} {f : Failure} {log : List Record}

/-- Every file that was found has a property. -/
def All (P : Descriptor → Prop) (e : Enumeration) : Prop :=
  ∀ found, e.result = .ok found → ∀ d ∈ found, P d

theorem All.none : All P ⟨.ok [], log⟩ := by
  intro found same d mem
  obtain rfl := Except.ok.inj same
  cases mem

theorem All.failed : All P ⟨.error f, log⟩ := fun _ same => by cases same

theorem All.andThen {a : Enumeration} {b : Unit → Enumeration} (first : a.All P)
    (second : (b ()).All P) : (a.andThen b).All P := by
  intro found same d mem
  rw [Enumeration.andThen] at same
  cases begun : a.result with
  | error f =>
    simp only [begun] at same
    cases same
  | ok front =>
    simp only [begun] at same
    cases ended : (b ()).result with
    | error f =>
      rw [ended] at same
      cases same
    | ok rest =>
      rw [ended] at same
      obtain rfl := Except.ok.inj same
      rcases List.mem_append.1 mem with early | late
      · exact first front begun d early
      · exact second rest ended d late

theorem All.describeOrWarn {tree : FileTree} {path : Path} {relative : String}
    (described : ∀ d, describe tree path relative = .ok d → P d) :
    (VideoCatalog.describeOrWarn tree path relative).All P := by
  unfold VideoCatalog.describeOrWarn
  split
  · next d found =>
    intro listed same e mem
    obtain rfl := Except.ok.inj same
    obtain rfl := List.mem_singleton.1 mem
    exact described _ found
  · split
    · exact .none
    · exact .failed

end Enumeration

/-! ### Scans -/

namespace DirectoryScan

variable {scan : DirectoryScan} {tree : FileTree} {names entries : List String} {name : String}
  {levels : Nat}

/-- A descriptor is that of a video below the root, under its path from there. -/
def Yields (scan : DirectoryScan) (tree : FileTree) (d : Descriptor) : Prop :=
  ∃ front last, (∀ name ∈ front ++ [last], IsFileName name) ∧
    isVideo scan.extensions last = true ∧
    describe tree (scan.root.below (front ++ [last])) (Path.text ⟨"", front ++ [last]⟩) = .ok d

theorem all_visitFile (named : ∀ n ∈ names ++ [name], IsFileName n) :
    (scan.visitFile tree (scan.root.below names) name).All (scan.Yields tree) := by
  unfold visitFile
  rw [Path.child_below]
  dsimp only
  split
  · exact .none
  · next video =>
    split
    · exact .failed
    · exact .none
    · split
      · exact .none
      · split
        · exact .failed
        · exact .none
        · rw [relativeText_below]
          refine .describeOrWarn fun d described => ⟨names, name, named, ?_, described⟩
          simpa using video

theorem all_visitFiles (named : ∀ n ∈ names, IsFileName n)
    (listed : ∀ n ∈ entries, IsFileName n) :
    (scan.visitFiles tree (scan.root.below names) entries).All (scan.Yields tree) := by
  induction entries with
  | nil => exact .none
  | cons name rest ih =>
    refine .andThen (all_visitFile fun n mem => ?_) (ih fun n mem => listed n (by simp [mem]))
    rcases List.mem_append.1 mem with early | last
    · exact named n early
    · exact listed n (by simp [List.mem_singleton.1 last])

/-- Directories are only left out. -/
theorem mem_of_keptDirectories {directory : Path} {kept : List String}
    (found : scan.keptDirectories directory entries = .ok kept) (mem : name ∈ kept) :
    name ∈ entries := by
  induction entries generalizing kept with
  | nil =>
    obtain rfl := Except.ok.inj found
    exact mem
  | cons first rest ih =>
    rw [keptDirectories] at found
    split at found
    · exact List.mem_cons_of_mem _ (ih found mem)
    · split at found
      · cases found
      · exact List.mem_cons_of_mem _ (ih found mem)
      · cases later : scan.keptDirectories directory rest with
        | error f =>
          rw [later] at found
          cases found
        | ok others =>
          rw [later] at found
          obtain rfl := Except.ok.inj found
          rcases List.mem_cons.1 mem with rfl | mem
          · exact List.mem_cons_self
          · exact List.mem_cons_of_mem _ (ih later mem)

theorem all_walkEach (listed : ∀ n ∈ entries, IsFileName n)
    (inner : ∀ n, IsFileName n →
      (scan.walk tree levels (scan.root.below (names ++ [n]))).All (scan.Yields tree)) :
    (scan.walkEach tree levels (scan.root.below names) entries).All (scan.Yields tree) := by
  induction entries with
  | nil =>
    rw [walkEach]
    exact .none
  | cons name rest ih =>
    have later := ih fun n mem => listed n (List.mem_cons_of_mem _ mem)
    rw [walkEach]
    split
    · rw [Path.child_below]
      exact .andThen (inner name (listed name List.mem_cons_self)) later
    · exact later

/-- A directory lists names of files. -/
theorem isFileName_of_list (proper : tree.Proper) {directory : Path}
    (listed : tree.list directory = .ok entries) (mem : name ∈ entries) : IsFileName name := by
  obtain ⟨place, -, -, rfl⟩ := FileTree.opens_of_list listed
  obtain ⟨node, stands⟩ := proper.mem_childNames.1 mem
  exact proper.isFileName stands (by simp)

theorem all_walk (proper : tree.Proper) (named : ∀ n ∈ names, IsFileName n) :
    (scan.walk tree levels (scan.root.below names)).All (scan.Yields tree) := by
  induction levels generalizing names with
  | zero =>
    rw [walk]
    exact .none
  | succ levels ih =>
    rw [walk]
    split
    · split
      · exact .none
      · exact .failed
    · next entries listed =>
      have known : ∀ n ∈ entries, IsFileName n := fun n => isFileName_of_list proper listed
      dsimp only
      split
      · exact .failed
      · next kept found =>
        refine .andThen (all_visitFiles named fun n mem => ?_)
          (all_walkEach (fun n mem => ?_) fun n isName => ?_)
        · exact known n (List.mem_of_mem_filter (mem_sortNames.1 mem))
        · have mem := mem_of_keptDirectories found (mem_sortNames.1 mem)
          exact known n (List.mem_of_mem_filter mem)
        · refine ih fun m mem => ?_
          rcases List.mem_append.1 mem with early | last
          · exact named m early
          · exact List.mem_singleton.1 last ▸ isName

/-- A scan yields descriptors of videos below its root alone. -/
theorem all_run (proper : tree.Proper) : (scan.run tree).All (scan.Yields tree) := by
  unfold run
  split
  · exact .failed
  · have walked : (scan.walk tree (depthBound tree) (scan.root.below [])).All (scan.Yields tree) :=
      all_walk proper (by simp)
    simpa using walked

end DirectoryScan

end VideoCatalog
