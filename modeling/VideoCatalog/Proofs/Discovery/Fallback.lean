import VideoCatalog.Proofs.Catalog.Firsts
import VideoCatalog.Proofs.Discovery.Selecting
import VideoCatalog.Proofs.Discovery.Walk

/-!
# A selection in the place of a scan

A scan joins names to its root as it is given; a selection clears both the root and the files, and
tells the paths anew. Without links the two come to the same.

* `opens_of_run`: a root that was scanned leads to a directory.
* `key_of_yields`: the place of a scanned file lies below that of the root, under its path.
* `selection_repeats_scan`: files that a scan has found are described alike by a selection.
-/

namespace VideoCatalog

open SelectionEntry

variable {config : Option Configuration} {tree : FileTree} {root : Path} {b : Place}
  {scan : DirectoryScan} {found : List Descriptor} {d : Descriptor}

/-- A root that was scanned leads to a directory. -/
theorem opens_of_run (scanned : (scan.run tree).result = .ok found) :
    ∃ b, tree.find true scan.root = .ok (.present b .directory) := by
  unfold DirectoryScan.run DirectoryScan.checkRoot at scanned
  cases listed : tree.list scan.root with
  | ok names =>
    obtain ⟨b, opens, -, -⟩ := FileTree.opens_of_list listed
    exact ⟨b, FileTree.find_of_walk (by simpa using opens.zero) opens.leads.walk⟩
  | error f =>
    simp only [listed] at scanned
    split at scanned
    · cases scanned
    · next passed =>
      split at passed
      · cases passed
      · cases passed
      · split at passed
        · cases passed
        · cases passed
        · split at passed <;> cases passed

theorem root_of_ofConfiguration
    (ruled : DirectoryScan.ofConfiguration root config = .ok scan) :
    scan.root = root ∧ configuredExtensions config = .ok scan.extensions := by
  unfold DirectoryScan.ofConfiguration at ruled
  cases known : configuredExtensions config with
  | error f =>
    rw [known] at ruled
    cases ruled
  | ok extensions =>
    simp only [known] at ruled
    cases excluded : (if (settingOr config "exclusions" "file_patterns" (.list [])).truthy then
        (settingOr config "exclusions" "file_patterns" (.list [])).elements else .ok []) with
    | error f =>
      rw [excluded] at ruled
      cases ruled
    | ok exclusions =>
      rw [excluded] at ruled
      obtain rfl := Except.ok.inj ruled
      exact ⟨rfl, rfl⟩

/-- A described file is there. -/
theorem find_of_describe {path : Path} {relative : String}
    (described : describe tree path relative = .ok d) :
    d.name = path.name ∧ d.relativePath = relative ∧ d.source = path ∧
      ∃ place node, tree.find true path = .ok (.present place node) := by
  unfold describe at described
  cases read : tree.state path with
  | error f =>
    rw [read] at described
    cases described
  | ok node =>
    rw [read] at described
    obtain rfl := Except.ok.inj described
    refine ⟨rfl, rfl, rfl, ?_⟩
    unfold FileTree.state FileTree.located at read
    cases looked : tree.find true path with
    | error f =>
      rw [looked] at read
      cases read
    | ok there =>
      rw [looked] at read
      cases there with
      | absent place => cases read
      | present place node => exact ⟨place, node, rfl⟩

/-- The place of a scanned file lies below that of the root, under its path from there. -/
theorem key_of_yields (linkless : tree.Linkless)
    (based : tree.find true scan.root = .ok (.present b .directory))
    (yielded : scan.Yields tree d) :
    ∃ place node, tree.find true d.source = .ok (.present place node) ∧
      (Path.mk "/" place).name = d.name ∧ selectedKey b place = d.relativePath ∧
      isVideo scan.extensions d.name = true ∧
      describe tree ⟨"/", place⟩ d.relativePath = .ok { d with source := ⟨"/", place⟩ } := by
  obtain ⟨front, last, named, video, described⟩ := yielded
  obtain ⟨name, relative, source, place, node, looked⟩ := find_of_describe described
  have lastName : (scan.root.below (front ++ [last])).name = last := by
    simp [Path.below, Path.name]
  have down : ∀ n ∈ front ++ [last], n ≠ ".." := fun n mem => (named n mem).above
  obtain rfl : b ++ (front ++ [last]) = place := by
    rw [← linkless.climb_of_find looked, ← linkless.climb_of_find based]
    exact (FileTree.climb_down down).symm.trans FileTree.climb_append.symm
  have same : (Path.mk "/" (b ++ (front ++ [last]))).name = last := by
    simp [Path.name]
  refine ⟨_, node, source ▸ looked, ?_, ?_, ?_, ?_⟩
  · rw [same, name, lastName]
  · rw [selectedKey, if_pos (List.prefix_append ..), List.drop_left, relative]
  · rw [name, lastName]
    exact video
  · exact (congrArg (describe tree _) relative).trans
      (linkless.describe_of_find looked (same.trans lastName.symm) described)

/-- In a tree without links, take any scan under any configuration and a file that it has found.
Select any files below the same root, and that file among them, under any path that leads to it.
The selection then yields exactly one descriptor for it, between those of the other files, with the
same name, relative path, size, time and type. A catalog of the selection and one of the scan have
items under that relative path, with the tags that are stored for it. -/
theorem selection_repeats_scan (linkless : tree.Linkless)
    (ruled : DirectoryScan.ofConfiguration root config = .ok scan)
    (scanned : (scan.run tree).result = .ok found) (listed : d ∈ found)
    {before after : List Path} {file : Path}
    (same : tree.find true file = tree.find true d.source)
    (zeros : ∀ p ∈ before ++ after, Char.ofNat 0 ∉ p.text.toList) :
    ∃ first e last,
      (selectFiles config root before tree).result = .ok first ∧
      (selectFiles config root after tree).result = .ok last ∧
      (selectFiles config root (before ++ file :: after) tree).result = .ok (first ++ e :: last) ∧
      (e.name = d.name ∧ e.relativePath = d.relativePath ∧ e.size = d.size ∧
        e.modified = d.modified ∧ e.mime = d.mime) ∧
      ∀ (store : Option TagStore) (registry registry' : Registry), ∃ item item',
        (Catalog.build registry store found).2.get? d.relativePath = some item ∧
        (Catalog.build registry' store (first ++ e :: last)).2.get? d.relativePath = some item' ∧
        item.tags = (store.map (·.tagsFor d.relativePath)).getD [] ∧ item'.tags = item.tags := by
  obtain ⟨rfl, known⟩ := root_of_ofConfiguration ruled
  obtain ⟨b, based⟩ := opens_of_run scanned
  have yielded := DirectoryScan.all_run linkless.proper found scanned d listed
  obtain ⟨place, node, looked, name, key, video, described⟩ := key_of_yields linkless based yielded
  rw [looked] at same
  -- The file has an entry of its own, whatever stands before and after it.
  obtain ⟨e, once, yields⟩ := yield_ofFile scan.extensions b linkless same
  rw [key, described] at once
  obtain rfl := Except.ok.inj once
  rw [name, if_pos video] at yields
  have zero : Char.ofNat 0 ∉ file.text.toList := by
    simpa using (FileTree.walk_of_find same).1
  have all : ∀ p ∈ before ++ file :: after, Char.ofNat 0 ∉ p.text.toList := by
    intro p mem
    rcases List.mem_append.1 mem with early | late
    · exact zeros p (List.mem_append_left _ early)
    · rcases List.mem_cons.1 late with rfl | late
      · exact zero
      · exact zeros p (List.mem_append_right _ late)
  refine ⟨_, { d with source := ⟨"/", place⟩ }, _,
    result_selectFiles linkless based known fun p mem => zeros p (by simp [mem]),
    result_selectFiles linkless based known fun p mem => zeros p (by simp [mem]), ?_,
    ⟨rfl, rfl, rfl, rfl, rfl⟩, fun store registry registry' => ?_⟩
  · rw [result_selectFiles linkless based known all, List.flatMap_append, List.flatMap_cons, yields]
    rfl
  · obtain ⟨item, has, tags⟩ := Catalog.exists_get?_build registry store listed
    obtain ⟨item', has', tags'⟩ := Catalog.exists_get?_build registry' store
      (List.mem_append_right _ List.mem_cons_self)
    exact ⟨item, item', has, has', tags, tags'.trans tags.symm⟩

/-- Videos in a library with one subdirectory, and one beside it. Relative paths start in the
library. -/
def album : FileTree where
  nodes := [(["lib"], .directory), (["lib", "clip.mp4"], .file [1, 2] .zero),
    (["lib", "trip"], .directory), (["lib", "trip", "day1.MP4"], .file [3] .zero),
    (["clip.mp4"], .file [4] .zero)]
  start := ["lib"]

theorem album_linkless : album.Linkless := by
  refine ⟨⟨?_, ?_⟩, ?_, ?_, ?_⟩ <;> decide

/-- The library, seen from within. -/
def albumRoot : Path := ⟨"", ["..", "lib"]⟩

/-- One of the videos, over a detour. -/
def albumFile : Path := ⟨"/", ["lib", "trip", "..", "trip", "day1.MP4"]⟩

/-- A file that is not there, and a video. -/
def albumBefore : List Path := [⟨"/", ["gone.mp4"]⟩, ⟨"", ["clip.mp4"]⟩]

/-- The video beside the library. -/
def albumAfter : List Path := [⟨"", ["..", "clip.mp4"]⟩]

/-- The root is told from where the scan starts, and the file over a detour; the selection has it
under the path of the scan, with the stored tag. -/
theorem selection_repeats_album :
    ∃ scan found d first e last,
      DirectoryScan.ofConfiguration albumRoot none = .ok scan ∧
      (scan.run album).result = .ok found ∧ d ∈ found ∧
      d.source = ⟨"", ["..", "lib", "trip", "day1.MP4"]⟩ ∧
      album.find true albumFile = album.find true d.source ∧
      (selectFiles none albumRoot (albumBefore ++ albumFile :: albumAfter) album).result =
        .ok (first ++ e :: last) ∧
      e.relativePath = "trip/day1.MP4" ∧
      ∃ item, (Catalog.build {} (some ⟨⟨"/", ["tags.json"]⟩, [("trip/day1.MP4", ["sea"])]⟩)
        (first ++ e :: last)).2.get? d.relativePath = some item ∧ item.tags = ["sea"] := by
  let rules : ScanRules := ⟨videoExtensions, true, []⟩
  have ground : album.Ground albumRoot ["lib"] :=
    ⟨album_linkless.proper, rfl, fun _ _ => List.not_mem_nil⟩
  have said : rules.SaidBy none := ⟨rfl, rfl, rfl, rfl⟩
  obtain ⟨found, paths, ran, swept⟩ : ∃ found paths, (rules.scan albumRoot).run album =
      ⟨.ok found, []⟩ ∧ rules.Sweeps album albumRoot ["lib"] found paths :=
    ScanRules.run_sweeps ground
  have scanned : ((rules.scan albumRoot).run album).result = .ok found := by rw [ran]
  have accepted : rules.Accepts album ["lib"] ["trip"] "day1.MP4" := by
    refine ScanRules.accepts_iff.2 ⟨fun above name start => ?_, by decide +kernel⟩
    rcases List.eq_nil_or_concat' above with rfl | ⟨front, last, rfl⟩
    · have only : name = "trip" := by simpa using start
      subst only
      decide +kernel
    · exact absurd start.length_le (by simp)
  have met : ["trip", "day1.MP4"] ∈ paths := (swept.exact _).2 ⟨["trip"], _, rfl, accepted⟩
  obtain ⟨d, listed, described⟩ : ∃ d ∈ found, Except.ok d =
      describe album (albumRoot.below ["trip", "day1.MP4"]) "trip/day1.MP4" := by
    have mem := List.mem_map_of_mem (f := fun path =>
      describe album (albumRoot.below path) (Path.text ⟨"", path⟩)) met
    rw [swept.described] at mem
    obtain ⟨d, listed, same⟩ := List.mem_map.1 mem
    exact ⟨d, listed, same⟩
  obtain ⟨-, relative, source, -⟩ := find_of_describe described.symm
  have same : album.find true albumFile = album.find true d.source := by
    rw [source]
    rfl
  have zeros : ∀ p ∈ albumBefore ++ albumAfter, Char.ofNat 0 ∉ p.text.toList := by decide
  obtain ⟨first, e, last, -, -, selected, ⟨-, path, -⟩, tagged⟩ :=
    selection_repeats_scan album_linkless said.scan scanned listed same zeros
  obtain ⟨scannedItem, item, -, has, tags, kept⟩ := tagged
    (some ⟨⟨"/", ["tags.json"]⟩, [("trip/day1.MP4", ["sea"])]⟩) {} {}
  refine ⟨_, found, d, first, e, last, said.scan, scanned, listed, source, same, selected,
    path.trans relative, item, has, ?_⟩
  rw [kept, tags, relative]
  rfl

end VideoCatalog
