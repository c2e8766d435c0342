import VideoCatalog.Discovery.Walk
import VideoCatalog.Proofs.Files.Below

/-!
# The rules of a scan

* `ScanRules`: the rules of a scan that follows no links; `ScanRules.SaidBy` reads them from a
  configuration.
* `ScanRules.Accepts`: which files they accept, told by the names on the way.
* `ScanRules.excludes`, `ScanRules.keeps`, `ScanRules.takes`, `ScanRules.enters`: which entries of a
  directory match a pattern, are not passed over, are files that are found, and are directories that
  are entered.
* `accepts_iff`: a file is accepted if every directory on the way is entered and it is found in the
  last one.
-/

namespace VideoCatalog

/-- A path below the root is told from there. -/
theorem DirectoryScan.relativeText_below {scan : DirectoryScan} {names : List String} :
    scan.relativeText (scan.root.below names) = .ok (Path.text ⟨"", names⟩) := by
  rw [relativeText, Path.relativeTo?_below]

/-- The rules of a scan that follows no links. -/
structure ScanRules where
  extensions : List String
  skipHidden : Bool
  patterns : List String

namespace ScanRules

/-- The scan of a root under these rules. -/
def scan (rules : ScanRules) (root : Path) : DirectoryScan where
  root := root
  extensions := rules.extensions.map normalExtension
  skipHidden := rules.skipHidden
  followLinks := false
  exclusions := rules.patterns.map .text

/-- A configuration says the rules. -/
structure SaidBy (rules : ScanRules) (config : Option Configuration) : Prop where
  extensions : (settingOr config "scan" "video_extensions"
    (.list (videoExtensions.map .text))).elements = .ok (rules.extensions.map .text)
  hidden : (settingOr config "scan" "skip_hidden" (.bool true)).truthy = rules.skipHidden
  unfollowed : (settingOr config "scan" "follow_symlinks" (.bool false)).truthy = false
  patterns : settingOr config "exclusions" "file_patterns" (.list []) =
    .list (rules.patterns.map .text)

/-- The rules accept the file that the last name names below a place: it is reached through
directories and has the ending of a video, no name on the way is hidden, and no pattern matches
a name on the way or the path up to it. -/
structure Accepts (rules : ScanRules) (tree : FileTree) (here : Place) (front : List String)
    (last : String) : Prop where
  through : tree.Through here front
  file : ∃ content modified, tree.node? (here ++ front ++ [last]) = some (.file content modified)
  video : ∃ extension ∈ rules.extensions,
    (normalExtension extension).toList <:+ (Text.lower last).toList
  shown : rules.skipHidden = true → ∀ name ∈ front ++ [last], name.toList.head? ≠ some '.'
  kept : ∀ above name, above ++ [name] <+: front ++ [last] → ∀ pattern ∈ rules.patterns,
    Wildcard.matchesText pattern name = false ∧
      Wildcard.matchesText pattern (Path.text ⟨"", above ++ [name]⟩) = false

variable {rules : ScanRules} {config : Option Configuration} {tree : FileTree} {root : Path}
  {here : Place} {names : List String} {name : String} {levels : Nat}

/-! ### The rules of a configuration -/

theorem normalExtensions_texts (extensions : List String) :
    normalExtensions (extensions.map .text) = .ok (extensions.map normalExtension) := by
  induction extensions with
  | nil => rfl
  | cons e rest ih =>
    rw [List.map_cons, normalExtensions, ih]
    rfl

theorem SaidBy.scan (said : rules.SaidBy config) :
    DirectoryScan.ofConfiguration root config = .ok (rules.scan root) := by
  have exclusions : (if (Value.list (rules.patterns.map .text)).truthy then
      (Value.list (rules.patterns.map .text)).elements else .ok []) =
      .ok (rules.patterns.map .text) := by
    cases rules.patterns <;> rfl
  unfold DirectoryScan.ofConfiguration configuredExtensions
  simp only [said.extensions, normalExtensions_texts, said.patterns, exclusions, said.hidden,
    said.unfollowed]
  rfl

/-! ### Single entries -/

/-- Whether a pattern matches the name of an entry or its path. -/
def excludes (rules : ScanRules) (names : List String) (name : String) : Bool :=
  rules.patterns.any fun pattern => Wildcard.matchesText pattern name ||
    Wildcard.matchesText pattern (Path.text ⟨"", names ++ [name]⟩)

/-- Whether an entry of a directory is not passed over. -/
def keeps (rules : ScanRules) (names : List String) (name : String) : Bool :=
  !(rules.skipHidden && Text.startsWith "." name) && !rules.excludes names name

/-- Whether an entry of a directory is a file that is found. -/
def takes (rules : ScanRules) (tree : FileTree) (here : Place) (names : List String)
    (name : String) : Bool :=
  isVideo (rules.extensions.map normalExtension) name && rules.keeps names name &&
    match tree.node? (here ++ names ++ [name]) with
    | some (.file ..) => true
    | _ => false

/-- Whether an entry of a directory is a directory that is entered. -/
def enters (rules : ScanRules) (tree : FileTree) (here : Place) (names : List String)
    (name : String) : Bool :=
  rules.keeps names name && tree.node? (here ++ names ++ [name]) == some .directory

theorem keeps_eq (root : Path) : rules.keeps names name =
    (!(rules.scan root).hidden name && !rules.excludes names name) := rfl

theorem takes_iff : rules.takes tree here names name = true ↔
    (isVideo (rules.extensions.map normalExtension) name = true ∧ rules.keeps names name = true) ∧
      ∃ content modified, tree.node? (here ++ names ++ [name]) = some (.file content modified) := by
  simp only [takes, Bool.and_eq_true]
  refine and_congr_right fun _ => ?_
  split
  · next content modified stands => exact ⟨fun _ => ⟨content, modified, stands⟩, fun _ => rfl⟩
  · next other =>
    exact ⟨fun h => absurd h Bool.false_ne_true, fun ⟨content, modified, stands⟩ =>
      absurd stands (other content modified)⟩

theorem enters_iff : rules.enters tree here names name = true ↔
    rules.keeps names name = true ∧ tree.node? (here ++ names ++ [name]) = some .directory := by
  simp [enters]

theorem matchesAny_texts (name relative : String) (patterns : List String) :
    DirectoryScan.matchesAny name relative (patterns.map .text) =
      .ok (patterns.any fun pattern => Wildcard.matchesText pattern name ||
        Wildcard.matchesText pattern relative) := by
  induction patterns with
  | nil => rfl
  | cons pattern rest ih =>
    rw [List.map_cons, DirectoryScan.matchesAny, ih, List.any_cons]
    split <;> simp [*]

theorem relativeText_below : (rules.scan root).relativeText (root.below names) =
    .ok (Path.text ⟨"", names⟩) := DirectoryScan.relativeText_below

theorem excluded_below : (rules.scan root).excluded (root.below (names ++ [name])) =
    .ok (rules.excludes names name) := by
  have last : (root.below (names ++ [name])).name = name := by simp [Path.below, Path.name]
  rw [DirectoryScan.excluded, relativeText_below, last]
  exact matchesAny_texts _ _ _

theorem keptDirectories_eq (entries : List String) :
    (rules.scan root).keptDirectories (root.below names) entries =
      .ok (entries.filter (rules.keeps names)) := by
  induction entries with
  | nil => rfl
  | cons name rest ih =>
    rw [DirectoryScan.keptDirectories, Path.child_below, excluded_below, ih, List.filter_cons]
    rw [keeps_eq root]
    cases (rules.scan root).hidden name with
    | true => rfl
    | false => cases rules.excludes names name <;> rfl

/-! ### What the rules accept -/

theorem isVideo_iff : isVideo (rules.extensions.map normalExtension) name = true ↔
    ∃ extension ∈ rules.extensions,
      (normalExtension extension).toList <:+ (Text.lower name).toList := by
  simp [isVideo, Text.endsWith]

theorem startsWith_dot : Text.startsWith "." name = true ↔ name.toList.head? = some '.' := by
  have dot : ".".toList = ['.'] := rfl
  rw [Text.startsWith, dot]
  cases name.toList with
  | nil => simp
  | cons c rest => simpa using eq_comm

theorem keeps_iff : rules.keeps names name = true ↔
    (rules.skipHidden = true → name.toList.head? ≠ some '.') ∧ ∀ pattern ∈ rules.patterns,
      Wildcard.matchesText pattern name = false ∧
        Wildcard.matchesText pattern (Path.text ⟨"", names ++ [name]⟩) = false := by
  simp only [keeps, excludes, Bool.and_eq_true, Bool.not_eq_true', Bool.and_eq_false_imp,
    List.any_eq_false, Bool.not_eq_true, Bool.or_eq_false_iff, ← startsWith_dot, ne_eq]

/-- Looking at the directories on the way one by one accepts what the rules accept. -/
theorem accepts_iff {front : List String} {last : String} :
    rules.Accepts tree here front last ↔
      (∀ above name, above ++ [name] <+: front → rules.enters tree here above name = true) ∧
        rules.takes tree here front last = true := by
  constructor
  · intro accepted
    refine ⟨fun above name start => enters_iff.2 ⟨keeps_iff.2 ⟨fun skip => ?_, ?_⟩, ?_⟩,
      takes_iff.2 ⟨⟨isVideo_iff.2 accepted.video, keeps_iff.2 ⟨fun skip => ?_, ?_⟩⟩,
        accepted.file⟩⟩
    · exact accepted.shown skip name (List.mem_append_left _ (start.subset (by simp)))
    · exact accepted.kept above name (start.trans (List.prefix_append ..))
    · rw [List.append_assoc]
      exact accepted.through _ (by simp) start
    · exact accepted.shown skip last (by simp)
    · exact accepted.kept front last List.prefix_rfl
  · rintro ⟨entered, taken⟩
    obtain ⟨⟨video, last_kept⟩, file⟩ := takes_iff.1 taken
    -- Every name on the way has been looked at where it stands, the last one among the files.
    have kept (above : List String) (name : String) (start : above ++ [name] <+: front ++ [last]) :
        rules.keeps above name = true := by
      rcases List.prefix_concat_iff.1 start with same | start
      · obtain ⟨rfl, rfl⟩ := List.append_singleton_inj.1 same
        exact last_kept
      · exact (enters_iff.1 (entered above name start)).1
    refine ⟨fun front' filled start => ?_, file, isVideo_iff.1 video, fun skip name mem => ?_,
      fun above name start => (keeps_iff.1 (kept above name start)).2⟩
    · rcases List.eq_nil_or_concat' front' with rfl | ⟨above, name, rfl⟩
      · exact absurd rfl filled
      · rw [← List.append_assoc]
        exact (enters_iff.1 (entered above name start)).2
    · obtain ⟨above, rest, split⟩ := List.append_of_mem mem
      exact (keeps_iff.1 (kept above name ⟨rest, by simp [split]⟩)).1 skip

end ScanRules

end VideoCatalog
