import VideoCatalog.Proofs.Discovery.Order
import VideoCatalog.Proofs.Discovery.Rules

/-!
# What a walk finds

* `ScanRules.videos`: the paths below a directory that a walk comes to.
* `ScanRules.Finds`: an enumeration finds the files of some paths; `finds_walk` says that a walk
  finds those of `videos`.
* `mem_videos`, `pairwise_videos`: which paths these are, and in which order they come.
* `ScanRules.Sweeps`: the accepted files have been found, each once and in order; `scan_exact` says
  this of every scan of a directory that can be read.
-/

namespace VideoCatalog.ScanRules

variable {rules : ScanRules} {config : Option Configuration} {tree : FileTree} {root : Path}
  {here : Place} {names : List String} {name : String} {levels : Nat}

/-! ### The walk -/

/-- The paths below a directory that a walk comes to, over some levels at most: first the files
of the directory, then what is in its subdirectories. -/
def videos (rules : ScanRules) (tree : FileTree) (here : Place) :
    Nat → List String → List (List String)
  | 0, _ => []
  | levels + 1, names =>
    let entries := sortNames (tree.childNames (here ++ names))
    (entries.filter (rules.takes tree here names)).map ([·]) ++
      (entries.filter (rules.enters tree here names)).flatMap fun name =>
        (rules.videos tree here levels (names ++ [name])).map (name :: ·)

/-- The file of every path below a directory has been found, and nothing was reported. -/
def Finds (tree : FileTree) (root : Path) (names : List String) (e : Enumeration)
    (paths : List (List String)) : Prop :=
  ∃ found, e = ⟨.ok found, []⟩ ∧ paths.map (fun path =>
    describe tree (root.below (names ++ path)) (Path.text ⟨"", names ++ path⟩)) = found.map .ok

theorem finds_nothing : Finds tree root names .nothing [] := ⟨[], rfl, rfl⟩

theorem Finds.andThen {a : Enumeration} {b : Unit → Enumeration} {paths more : List (List String)}
    (first : Finds tree root names a paths) (second : Finds tree root names (b ()) more) :
    Finds tree root names (a.andThen b) (paths ++ more) := by
  obtain ⟨found, rfl, described⟩ := first
  obtain ⟨later, same, described'⟩ := second
  refine ⟨found ++ later, ?_, by rw [List.map_append, described, described', List.map_append]⟩
  rw [Enumeration.andThen, same]
  rfl

/-- What is found below a subdirectory is found below the directory, under the longer path. -/
theorem Finds.below {e : Enumeration} {paths : List (List String)}
    (inner : Finds tree root (names ++ [name]) e paths) :
    Finds tree root names e (paths.map (name :: ·)) := by
  obtain ⟨found, rfl, described⟩ := inner
  refine ⟨found, rfl, ?_⟩
  simpa only [List.map_map, Function.comp_def, List.append_assoc, List.singleton_append]
    using described

theorem describe_of_state {path : Path} {node : FileNode} (read : tree.state path = .ok node)
    (relative : String) : ∃ d, describe tree path relative = .ok d := by
  rw [describe, read]
  exact ⟨_, rfl⟩

theorem finds_visitFile (ground : tree.Ground root here) (through : tree.Through here names)
    {node : FileNode} (stands : tree.node? (here ++ names ++ [name]) = some node)
    (outside : node ≠ .directory) :
    Finds tree root names ((rules.scan root).visitFile tree (root.below names) name)
      (if rules.takes tree here names name then [[name]] else []) := by
  have unfollowed : (rules.scan root).followLinks = false := rfl
  have extensions : (rules.scan root).extensions = rules.extensions.map normalExtension := rfl
  unfold DirectoryScan.visitFile
  simp only [Path.child_below, unfollowed, extensions, Bool.false_eq_true, if_false,
    ground.isLink?_node through stands, excluded_below, relativeText_below]
  cases video : isVideo (rules.extensions.map normalExtension) name with
  | false => simpa [takes, video] using finds_nothing
  | true =>
    cases node with
    | directory => exact absurd rfl outside
    | link target =>
      simp only [takes, stands, Bool.and_false, FileTree.isLinkNode]
      exact finds_nothing
    | file content modified =>
      obtain ⟨d, described⟩ := describe_of_state (ground.state_file through stands)
        (Path.text ⟨"", names ++ [name]⟩)
      cases hidden : (rules.scan root).hidden name with
      | true =>
        simpa [takes, keeps_eq root, hidden, FileTree.isLinkNode] using finds_nothing
      | false =>
        cases excluded : rules.excludes names name with
        | true => simpa [takes, keeps_eq root, excluded, FileTree.isLinkNode] using finds_nothing
        | false =>
          simp only [takes, video, keeps_eq root, hidden, excluded, stands, FileTree.isLinkNode,
            describeOrWarn, described]
          exact ⟨[d], rfl, congrArg ([·]) described⟩

theorem finds_visitFiles (ground : tree.Ground root here) (through : tree.Through here names)
    {entries : List String} (stand : ∀ name ∈ entries, ∃ node,
      tree.node? (here ++ names ++ [name]) = some node ∧ node ≠ .directory) :
    Finds tree root names ((rules.scan root).visitFiles tree (root.below names) entries)
      ((entries.filter (rules.takes tree here names)).map ([·])) := by
  induction entries with
  | nil => exact finds_nothing
  | cons name rest ih =>
    obtain ⟨node, stands, outside⟩ := stand name (by simp)
    have first : Finds tree root names
        ((rules.scan root).visitFile tree (root.below names) name) _ :=
      finds_visitFile ground through stands outside
    have later := ih fun other mem => stand other (List.mem_cons_of_mem _ mem)
    have both : Finds tree root names
        ((rules.scan root).visitFiles tree (root.below names) (name :: rest)) _ :=
      first.andThen later
    rw [List.filter_cons]
    split at both <;> simpa [*] using both

/-! ### Directories -/

theorem leadsToDirectory_directory (ground : tree.Ground root here)
    (through : tree.Through here (names ++ [name])) :
    DirectoryScan.leadsToDirectory tree (root.below names) name = true := by
  rw [DirectoryScan.leadsToDirectory, Path.child_below, ground.state_directory through]

theorem leadsToDirectory_file (ground : tree.Ground root here) (through : tree.Through here names)
    {content : List UInt8} {modified : Binary64}
    (stands : tree.node? (here ++ names ++ [name]) = some (.file content modified)) :
    DirectoryScan.leadsToDirectory tree (root.below names) name = false := by
  rw [DirectoryScan.leadsToDirectory, Path.child_below, ground.state_file through stands]

/-- A directory is entered, and a link is not. -/
theorem scan_enters (ground : tree.Ground root here) (through : tree.Through here names)
    {node : FileNode} (stands : tree.node? (here ++ names ++ [name]) = some node) :
    (rules.scan root).enters tree (root.below names) name = !FileTree.isLinkNode node := by
  rw [DirectoryScan.enters, Path.child_below, ground.isLink?_node through stands]
  rfl

theorem finds_walkEach (ground : tree.Ground root here) (through : tree.Through here names)
    {entries : List String} (stand : ∀ name ∈ entries, ∃ node,
      tree.node? (here ++ names ++ [name]) = some node ∧ ∀ c m, node ≠ .file c m)
    (inner : ∀ name, tree.Through here (names ++ [name]) →
      Finds tree root (names ++ [name])
        ((rules.scan root).walk tree levels (root.below (names ++ [name])))
        (rules.videos tree here levels (names ++ [name]))) :
    Finds tree root names ((rules.scan root).walkEach tree levels (root.below names) entries)
      ((entries.filter fun name => tree.node? (here ++ names ++ [name]) == some .directory).flatMap
        fun name => (rules.videos tree here levels (names ++ [name])).map (name :: ·)) := by
  induction entries with
  | nil =>
    rw [DirectoryScan.walkEach]
    exact finds_nothing
  | cons name rest ih =>
    have later := ih fun other mem => stand other (List.mem_cons_of_mem _ mem)
    obtain ⟨node, stands, other⟩ := stand name (by simp)
    rw [DirectoryScan.walkEach, scan_enters ground through stands, List.filter_cons, stands]
    cases node with
    | file content modified => exact absurd rfl (other content modified)
    | link target => exact later
    | directory =>
      have first := (inner name (FileTree.through_concat.2 ⟨through, stands⟩)).below
      simp only [FileTree.isLinkNode, Bool.not_false, if_true, beq_self_eq_true,
        List.flatMap_cons, Path.child_below]
      exact first.andThen later

/-- What is no directory is looked at as a file, and so the files are found in their order. -/
theorem filter_takes (ground : tree.Ground root here) (through : tree.Through here names) :
    (sortNames ((tree.childNames (here ++ names)).filter fun name =>
      !DirectoryScan.leadsToDirectory tree (root.below names) name)).filter
        (rules.takes tree here names) =
      (sortNames (tree.childNames (here ++ names))).filter (rules.takes tree here names) := by
  rw [← filter_sortNames, List.filter_filter]
  refine List.filter_congr fun name _ => ?_
  cases taken : rules.takes tree here names name with
  | false => rfl
  | true =>
    obtain ⟨-, content, modified, stands⟩ := takes_iff.1 taken
    rw [leadsToDirectory_file ground through stands]
    rfl

/-- The subdirectories that are entered stand among the entries that lead to directories. -/
theorem filter_enters (ground : tree.Ground root here) (through : tree.Through here names) :
    (sortNames (((tree.childNames (here ++ names)).filter
      (DirectoryScan.leadsToDirectory tree (root.below names))).filter (rules.keeps names))).filter
        (fun name => tree.node? (here ++ names ++ [name]) == some .directory) =
      (sortNames (tree.childNames (here ++ names))).filter (rules.enters tree here names) := by
  rw [← filter_sortNames, ← filter_sortNames, List.filter_filter, List.filter_filter]
  refine List.filter_congr fun name _ => ?_
  by_cases stands : tree.node? (here ++ names ++ [name]) = some .directory
  · have inner := FileTree.through_concat.2 ⟨through, stands⟩
    simp only [enters, stands, leadsToDirectory_directory ground inner, beq_self_eq_true,
      Bool.true_and, Bool.and_true]
  · simp only [enters, beq_eq_false_iff_ne.2 stands, Bool.false_and, Bool.and_false]

theorem finds_files (ground : tree.Ground root here) (through : tree.Through here names) :
    Finds tree root names ((rules.scan root).visitFiles tree (root.below names)
      (sortNames ((tree.childNames (here ++ names)).filter fun name =>
        !DirectoryScan.leadsToDirectory tree (root.below names) name)))
      (((sortNames (tree.childNames (here ++ names))).filter
        (rules.takes tree here names)).map ([·])) := by
  rw [← filter_takes ground through]
  refine finds_visitFiles ground through fun name mem => ?_
  obtain ⟨mem, outside⟩ := List.mem_filter.1 (mem_sortNames.1 mem)
  obtain ⟨node, stands⟩ := ground.proper.mem_childNames.1 mem
  refine ⟨node, stands, fun same => ?_⟩
  subst same
  rw [leadsToDirectory_directory ground (FileTree.through_concat.2 ⟨through, stands⟩)] at outside
  cases outside

theorem finds_directories (ground : tree.Ground root here) (through : tree.Through here names)
    (inner : ∀ name, tree.Through here (names ++ [name]) →
      Finds tree root (names ++ [name])
        ((rules.scan root).walk tree levels (root.below (names ++ [name])))
        (rules.videos tree here levels (names ++ [name]))) :
    Finds tree root names ((rules.scan root).walkEach tree levels (root.below names)
      (sortNames (((tree.childNames (here ++ names)).filter
        (DirectoryScan.leadsToDirectory tree (root.below names))).filter (rules.keeps names))))
      (((sortNames (tree.childNames (here ++ names))).filter
        (rules.enters tree here names)).flatMap fun name =>
          (rules.videos tree here levels (names ++ [name])).map (name :: ·)) := by
  rw [← filter_enters ground through]
  refine finds_walkEach ground through (fun name mem => ?_) inner
  obtain ⟨mem, inside⟩ := List.mem_filter.1 (List.mem_of_mem_filter (mem_sortNames.1 mem))
  obtain ⟨node, stands⟩ := ground.proper.mem_childNames.1 mem
  refine ⟨node, stands, fun content modified same => ?_⟩
  subst same
  rw [leadsToDirectory_file ground through stands] at inside
  cases inside

/-- A walk finds the files of the paths that it comes to. -/
theorem finds_walk (ground : tree.Ground root here) (through : tree.Through here names) :
    Finds tree root names ((rules.scan root).walk tree levels (root.below names))
      (rules.videos tree here levels names) := by
  induction levels generalizing names with
  | zero =>
    rw [DirectoryScan.walk]
    exact finds_nothing
  | succ levels ih =>
    rw [DirectoryScan.walk, ground.list_directory through]
    dsimp only
    rw [keptDirectories_eq]
    exact (finds_files ground through).andThen (finds_directories ground through fun _ => ih)

/-! ### Which paths a walk comes to, and in which order -/

theorem mem_videos_succ {path : List String} :
    path ∈ rules.videos tree here (levels + 1) names ↔
      (∃ name ∈ tree.childNames (here ++ names), rules.takes tree here names name = true ∧
        path = [name]) ∨
      ∃ name ∈ tree.childNames (here ++ names), rules.enters tree here names name = true ∧
        ∃ rest ∈ rules.videos tree here levels (names ++ [name]), path = name :: rest := by
  simp only [videos, List.mem_append, List.mem_map, List.mem_flatMap, List.mem_filter,
    mem_sortNames, and_assoc, eq_comm]

theorem ne_nil_of_mem_videos {path : List String} (mem : path ∈ rules.videos tree here levels names) :
    path ≠ [] := by
  cases levels with
  | zero => cases mem
  | succ levels =>
    rcases mem_videos_succ.1 mem with ⟨name, -, -, rfl⟩ | ⟨name, -, -, rest, -, rfl⟩ <;> simp

/-- The paths come in the order of a walk. -/
theorem pairwise_videos (proper : tree.Proper) :
    (rules.videos tree here levels names).Pairwise ComesBefore := by
  induction levels generalizing names with
  | zero => exact .nil
  | succ levels ih =>
    have distinct : (tree.childNames (here ++ names)).Nodup := proper.nodup_childNames
    have sorted := pairwise_sortNames distinct
    -- Files by their names, then the subdirectories by theirs, and the files before them.
    refine List.pairwise_append.2 ⟨?_, ?_, ?_⟩
    · exact List.pairwise_map.2 ((sorted.filter _).imp ComesBefore.file_iff.2)
    · refine List.pairwise_flatMap.2 ⟨fun name _ => ?_, ?_⟩
      · refine List.pairwise_map.2 (ih.imp_of_mem fun ha hb before => ?_)
        exact (ComesBefore.inner_iff (ne_nil_of_mem_videos ha) (ne_nil_of_mem_videos hb)).2
          (.inr ⟨rfl, before⟩)
      · refine (sorted.filter _).imp fun less x hx y hy => ?_
        obtain ⟨x, fromX, rfl⟩ := List.mem_map.1 hx
        obtain ⟨y, fromY, rfl⟩ := List.mem_map.1 hy
        exact (ComesBefore.inner_iff (ne_nil_of_mem_videos fromX)
          (ne_nil_of_mem_videos fromY)).2 (.inl less)
    · intro x hx y hy
      obtain ⟨a, -, rfl⟩ := List.mem_map.1 hx
      obtain ⟨b, -, mapped⟩ := List.mem_flatMap.1 hy
      obtain ⟨y, fromY, rfl⟩ := List.mem_map.1 mapped
      exact ComesBefore.file_inner (ne_nil_of_mem_videos fromY)

theorem forall_prefix_cons {P : List String → String → Prop} {front : List String} :
    (∀ above other, above ++ [other] <+: name :: front → P above other) ↔
      P [] name ∧ ∀ above other, above ++ [other] <+: front → P (name :: above) other := by
  constructor
  · intro all
    exact ⟨all [] name (by simp), fun above other start =>
      all (name :: above) other ((List.prefix_cons_inj name).2 start)⟩
  · rintro ⟨first, later⟩ above other start
    cases above with
    | nil =>
      obtain rfl : other = name := by simpa using start
      exact first
    | cons a above =>
      obtain ⟨rfl, inner⟩ := List.cons_prefix_cons.1 start
      exact later above other inner

/-- A path is come to if every name before the last one is that of a directory to be entered, and
the last one that of a file to be found. -/
theorem mem_videos (proper : tree.Proper) {front : List String} {last : String} :
    front ++ [last] ∈ rules.videos tree here levels names ↔ front.length < levels ∧
      (∀ above name, above ++ [name] <+: front →
        rules.enters tree here (names ++ above) name = true) ∧
      rules.takes tree here (names ++ front) last = true := by
  -- The first name is that of an entry of this directory, and the others are looked up below it.
  induction levels generalizing names front with
  | zero => simp [videos]
  | succ levels ih =>
    rw [mem_videos_succ]
    cases front with
    | nil =>
      constructor
      · rintro (⟨name, -, taken, same⟩ | ⟨name, -, -, rest, inner, same⟩)
        · obtain rfl : last = name := by simpa using same
          exact ⟨by simp, by simp, by simpa using taken⟩
        · obtain rfl : rest = [] := by simpa using congrArg List.tail same.symm
          exact absurd rfl (ne_nil_of_mem_videos inner)
      · rintro ⟨-, -, taken⟩
        rw [List.append_nil] at taken
        obtain ⟨-, content, modified, stands⟩ := takes_iff.1 taken
        exact .inl ⟨last, proper.mem_childNames.2 ⟨_, stands⟩, taken, rfl⟩
    | cons first front =>
      rw [forall_prefix_cons, List.append_nil, List.length_cons, Nat.succ_lt_succ_iff]
      have onward : front ++ [last] ∈ rules.videos tree here levels (names ++ [first]) ↔ _ := ih
      simp only [List.append_assoc, List.singleton_append] at onward
      constructor
      · rintro (⟨name, -, -, same⟩ | ⟨name, -, entered, rest, inner, same⟩)
        · simp at same
        · obtain ⟨rfl, rfl⟩ := List.cons.inj same
          obtain ⟨bounded, above, taken⟩ := onward.1 inner
          exact ⟨bounded, ⟨entered, above⟩, taken⟩
      · rintro ⟨bounded, ⟨entered, above⟩, taken⟩
        have stands := (enters_iff.1 entered).2
        exact .inr ⟨first, proper.mem_childNames.2 ⟨_, stands⟩, entered, front ++ [last],
          onward.2 ⟨bounded, above, taken⟩, rfl⟩

/-! ### Whole scans -/

/-- The files that the rules accept have been found under their paths below the root: each of
them once, in the order of a walk, and nothing else. -/
structure Sweeps (rules : ScanRules) (tree : FileTree) (root : Path) (here : Place)
    (found : List Descriptor) (paths : List (List String)) : Prop where
  /-- What was found are the files of the paths. -/
  described : paths.map (fun path => describe tree (root.below path) (Path.text ⟨"", path⟩)) =
    found.map .ok
  relative : found.map (·.relativePath) = paths.map fun path => Path.text ⟨"", path⟩
  /-- The paths are those that the rules accept. -/
  exact : ∀ path, path ∈ paths ↔
    ∃ front last, path = front ++ [last] ∧ rules.Accepts tree here front last
  distinct : (found.map (·.relativePath)).Nodup
  ordered : paths.Pairwise ComesBefore

theorem checkRoot_ok (ground : tree.Ground root here) :
    (rules.scan root).checkRoot tree = .ok () := by
  have same : (rules.scan root).root = root := rfl
  have listed := ground.list_directory FileTree.through_nil
  rw [Path.below_nil] at listed
  rw [DirectoryScan.checkRoot, same, FileTree.exists?, FileTree.isDirectory?, FileTree.ask,
    FileTree.ask, FileTree.located, ground.rooted]
  simp [listed]

theorem relativePath_of_describe {path : Path} {relative : String} {d : Descriptor}
    (described : describe tree path relative = .ok d) : d.relativePath = relative := by
  unfold describe at described
  split at described
  · cases described
  · cases described
    rfl

theorem Accepts.named (proper : tree.Proper) {front : List String} {last : String}
    (accepted : rules.Accepts tree here front last) : ∀ n ∈ front ++ [last], IsFileName n := by
  obtain ⟨content, modified, stands⟩ := accepted.file
  exact proper.named_below stands

/-- No accepted path is longer than a walk may go. -/
theorem mem_videos_iff (proper : tree.Proper) {path : List String} :
    path ∈ rules.videos tree here (DirectoryScan.depthBound tree) [] ↔
      ∃ front last, path = front ++ [last] ∧ rules.Accepts tree here front last := by
  constructor
  · intro mem
    rcases List.eq_nil_or_concat' path with rfl | ⟨front, last, rfl⟩
    · exact absurd rfl (ne_nil_of_mem_videos mem)
    · exact ⟨front, last, rfl, accepts_iff.2 ((mem_videos proper).1 mem).2⟩
  · rintro ⟨front, last, rfl, accepted⟩
    refine (mem_videos proper).2 ⟨?_, accepts_iff.1 accepted⟩
    have bounded := accepted.through.length_le
    simp only [DirectoryScan.depthBound, FileTree.linkLimit]
    omega

/-- The relative paths of what was found are those that were come to. -/
theorem map_relativePath {found : List Descriptor} {paths : List (List String)}
    (described : paths.map (fun path =>
      describe tree (root.below path) (Path.text ⟨"", path⟩)) = found.map .ok) :
    found.map (·.relativePath) = paths.map fun path => Path.text ⟨"", path⟩ := by
  induction paths generalizing found with
  | nil =>
    obtain rfl : found = [] := by simpa using described.symm
    rfl
  | cons path paths ih =>
    obtain ⟨d, rest, rfl, first, later⟩ := List.map_eq_cons_iff.1 described.symm
    rw [List.map_cons, List.map_cons, ih later.symm, relativePath_of_describe first.symm]

theorem run_sweeps (ground : tree.Ground root here) : ∃ found paths,
    (rules.scan root).run tree = ⟨.ok found, []⟩ ∧ rules.Sweeps tree root here found paths := by
  let paths := rules.videos tree here (DirectoryScan.depthBound tree) []
  have exact (path : List String) : path ∈ paths ↔ _ := mem_videos_iff ground.proper
  have ordered : paths.Pairwise ComesBefore := pairwise_videos ground.proper
  obtain ⟨found, same, described⟩ : Finds tree root [] ((rules.scan root).walk tree
      (DirectoryScan.depthBound tree) (root.below [])) paths :=
    finds_walk ground FileTree.through_nil
  rw [Path.below_nil] at same
  have relative := map_relativePath described
  refine ⟨found, paths, ?_, described, relative, exact, ?_, ordered⟩
  · rw [DirectoryScan.run, checkRoot_ok ground]
    exact same
  · rw [relative]
    refine (nodup_of_pairwise ordered).map_on fun a ha b hb same => ?_
    obtain ⟨front, last, rfl, one⟩ := (exact a).1 ha
    obtain ⟨front', last', rfl, other⟩ := (exact b).1 hb
    exact Path.text_inj (by simp) (by simp) (fun n mem => (one.named ground.proper n mem).whole)
      (fun n mem => (other.named ground.proper n mem).whole) same

theorem Accepts.congr {other : FileTree} {front : List String} {last : String}
    (accepted : rules.Accepts other here front last)
    (same : ∀ place, other.node? place = tree.node? place) :
    rules.Accepts tree here front last where
  through above filled start := by rw [← same, accepted.through above filled start]
  file := by simpa only [← same] using accepted.file
  video := accepted.video
  shown := accepted.shown
  kept := accepted.kept

theorem Sweeps.congr {other : FileTree} {found : List Descriptor} {paths : List (List String)}
    (swept : rules.Sweeps other root here found paths)
    (same : ∀ place, other.node? place = tree.node? place) (start : other.start = tree.start) :
    rules.Sweeps tree root here found paths where
  described := by
    rw [← swept.described]
    refine List.map_congr_left fun path _ => ?_
    rw [describe, describe, FileTree.state_congr same start]
  exact path := by
    rw [swept.exact]
    constructor <;> rintro ⟨front, last, rfl, accepted⟩
    · exact ⟨front, last, rfl, accepted.congr same⟩
    · exact ⟨front, last, rfl, accepted.congr fun place => (same place).symm⟩
  relative := swept.relative
  distinct := swept.distinct
  ordered := swept.ordered

/-- What is found is told by the tree. -/
theorem Sweeps.unique {found found' : List Descriptor} {paths paths' : List (List String)}
    (swept : rules.Sweeps tree root here found paths)
    (swept' : rules.Sweeps tree root here found' paths') : found = found' := by
  obtain rfl : paths = paths' := eq_of_mem_iff swept.ordered swept'.ordered fun path => by
    rw [swept.exact, swept'.exact]
  have ok (d d' : Descriptor) (same : (Except.ok d : Except Failure Descriptor) = .ok d') :
      d = d' := Except.ok.inj same
  exact List.map_injective_iff.2 (fun d d' => ok d d')
    (swept.described.symm.trans swept'.described)

/-- The order in which a directory lists its entries makes no difference. -/
theorem run_perm (ground : tree.Ground root here) {other : FileTree}
    (same : other.nodes.Perm tree.nodes) (start : other.start = tree.start)
    (refused : other.refused = tree.refused) :
    (rules.scan root).run other = (rules.scan root).run tree := by
  -- The walks are not compared: both sweep the same files, and these come in one order only.
  have ground' := ground.perm same start refused
  obtain ⟨found, paths, ran, swept⟩ : ∃ found paths, _ ∧ rules.Sweeps tree root here found paths :=
    run_sweeps ground
  obtain ⟨found', paths', ran', swept'⟩ :
      ∃ found paths, _ ∧ rules.Sweeps other root here found paths := run_sweeps ground'
  have unmoved (place : Place) : other.node? place = tree.node? place :=
    ground.proper.node?_perm same
  rw [ran, ran', (swept'.congr unmoved start).unique swept]

/-- A scan of a directory that can be read, which follows no links, yields exactly the files that
its rules accept, each once and in the order of a walk, in whatever order entries are listed. -/
theorem scan_exact (ground : tree.Ground root here) (said : rules.SaidBy config) :
    ∃ scan found paths, DirectoryScan.ofConfiguration root config = .ok scan ∧
      scan.run tree = ⟨.ok found, []⟩ ∧ rules.Sweeps tree root here found paths ∧
      ∀ other : FileTree, other.nodes.Perm tree.nodes → other.start = tree.start →
        other.refused = tree.refused → scan.run other = scan.run tree := by
  obtain ⟨found, paths, ran, swept⟩ := run_sweeps ground
  exact ⟨rules.scan root, found, paths, said.scan, ran, swept, fun _ => run_perm ground⟩

/-- Files, one of them in a directory that a pattern leaves out and one in a hidden directory,
and links to a file and to a directory. -/
def shelf : FileTree where
  nodes := [(["media"], .directory), (["media", "clips"], .directory),
    (["media", "z.MP4"], .file [1] .zero), (["media", "a.mp4"], .link "z.MP4"),
    (["media", ".cache"], .directory), (["media", ".cache", "c.mp4"], .file [2] .zero),
    (["media", "clips", "b.webm"], .file [3] .zero), (["media", "clips", "up"], .link ".."),
    (["media", "clips", "old"], .directory),
    (["media", "clips", "old", "d.mp4"], .file [4] .zero)]

def shelfRules : ScanRules := ⟨["mp4", ".WebM"], true, ["clips/old*"]⟩

def shelfConfiguration : Configuration where
  root := ⟨"/", []⟩
  raw := .map [
    (.text "scan", .map [(.text "video_extensions", .list [.text "mp4", .text ".WebM"])]),
    (.text "exclusions", .map [(.text "file_patterns", .list [.text "clips/old*"])])]

/-- The shelf is scanned so, and just as well if its entries are listed the other way round. -/
theorem scan_shelf : shelf.Ground ⟨"/", ["media"]⟩ ["media"] ∧
    shelfRules.SaidBy (some shelfConfiguration) ∧ ∃ scan found paths,
      DirectoryScan.ofConfiguration ⟨"/", ["media"]⟩ (some shelfConfiguration) = .ok scan ∧
      scan.run shelf = ⟨.ok found, []⟩ ∧
      shelfRules.Sweeps shelf ⟨"/", ["media"]⟩ ["media"] found paths ∧
      scan.run { shelf with nodes := shelf.nodes.reverse } = scan.run shelf := by
  have ground : shelf.Ground ⟨"/", ["media"]⟩ ["media"] :=
    ⟨⟨by decide, by decide⟩, rfl, fun _ _ => List.not_mem_nil⟩
  have said : shelfRules.SaidBy (some shelfConfiguration) := ⟨rfl, rfl, rfl, rfl⟩
  obtain ⟨scan, found, paths, read, ran, swept, reordered⟩ := scan_exact ground said
  exact ⟨ground, said, scan, found, paths, read, ran, swept,
    reordered _ shelf.nodes.reverse_perm rfl rfl⟩

end VideoCatalog.ScanRules
