import Mathlib.Data.List.Chain
import Mathlib.Tactic.Common
import VideoCatalog.Proofs.Files.Filling
import VideoCatalog.Proofs.Session.Steps

/-!
# What an export of thumbnails leaves

The file of a thumbnail is named for the relative path of its item, with two underscores for every
slash. Two paths may have one name.

* `SessionM.flattened`, `SessionM.Separable`: what becomes of a path, and the paths that can be told
  from it.
* `SessionM.pictures`: the files that are written for some items.
* `SessionM.run_writeThumbnails`: writing them fills the directory, or fails at a name that no file
  can have.
* `Exported`, `thumbnails_exported`: what an export into an empty directory leaves.
-/

namespace VideoCatalog

namespace SessionM

/-! ### Names -/

/-- A text with two underscores for every slash. -/
def flattened (text : List Char) : List Char :=
  text.flatMap fun c => if c = '/' then ['_', '_'] else [c]

/-- A text with a slash for every two underscores, from the left. -/
def unflattened : List Char → List Char
  | '_' :: '_' :: rest => '/' :: unflattened rest
  | c :: rest => c :: unflattened rest
  | [] => []

/-- In a path, no underscore stands before another one or before a slash. -/
def Separable (path : String) : Prop :=
  path.toList.IsChain fun a b => a = '_' → b ≠ '_' ∧ b ≠ '/'

instance (path : String) : Decidable (Separable path) :=
  inferInstanceAs (Decidable (List.IsChain _ _))

theorem toList_thumbnailName (path : String) :
    (thumbnailName path).toList = flattened path.toList ++ ".jpg".toList := by
  have enough : path.toList.length ≤ path.length := by rw [String.length_toList]
  simp only [thumbnailName, Text.replaceAll, String.toList_append, String.toList_ofList]
  exact congrArg (· ++ ".jpg".toList) (Text.replacePiece_singleton '/' ['_', '_'] enough)

theorem slash_not_mem_flattened (text : List Char) : '/' ∉ flattened text := by
  intro mem
  obtain ⟨c, -, mem⟩ := List.mem_flatMap.1 mem
  split at mem
  · simp at mem
  · next other => exact other (List.mem_singleton.1 mem).symm

theorem flattened_cons {c : Char} (other : c ≠ '/') (rest : List Char) :
    flattened (c :: rest) = c :: flattened rest := by
  simp [flattened, other]

theorem unflattened_cons {c : Char} {rest : List Char}
    (single : c = '_' → ∀ more, rest ≠ '_' :: more) :
    unflattened (c :: rest) = c :: unflattened rest := by
  rw [unflattened]
  exact fun more same => single same more

/-- Paths without such underscores can be read back from what becomes of them. -/
theorem unflattened_flattened {text : List Char}
    (separable : text.IsChain fun a b => a = '_' → b ≠ '_' ∧ b ≠ '/') :
    unflattened (flattened text) = text := by
  induction text with
  | nil => rfl
  | cons c rest ih =>
    have ih := ih separable.tail
    by_cases slash : c = '/'
    · subst slash
      exact congrArg ('/' :: ·) ih
    · rw [flattened_cons slash, unflattened_cons, ih]
      rintro rfl more same
      -- What follows the underscore is neither an underscore nor becomes one.
      cases rest with
      | nil => cases same
      | cons b rest =>
        obtain ⟨notUnderscore, notSlash⟩ := (List.isChain_cons_cons.1 separable).1 rfl
        rw [flattened_cons notSlash] at same
        exact notUnderscore (List.cons.inj same).1

/-- Two such paths with the same name are the same. -/
theorem thumbnailName_inj {a b : String} (ha : Separable a) (hb : Separable b)
    (same : thumbnailName a = thumbnailName b) : a = b := by
  have flat : flattened a.toList = flattened b.toList := by
    have texts := congrArg String.toList same
    rw [toList_thumbnailName, toList_thumbnailName] at texts
    exact List.append_cancel_right texts
  refine String.toList_inj.1 ?_
  calc
    a.toList = unflattened (flattened a.toList) := (unflattened_flattened ha).symm
    _ = unflattened (flattened b.toList) := congrArg _ flat
    _ = b.toList := unflattened_flattened hb

/-- The name of a thumbnail is one name, and none of the special ones. -/
theorem thumbnailName_single (path : String) : thumbnailName path ≠ "" ∧ thumbnailName path ≠ "." ∧
    thumbnailName path ≠ ".." ∧ '/' ∉ (thumbnailName path).toList := by
  have ends : 'g' ∈ (thumbnailName path).toList := by simp [toList_thumbnailName]
  have other {name : String} (free : 'g' ∉ name.toList) : thumbnailName path ≠ name :=
    fun same => free (same ▸ ends)
  refine ⟨other (by decide), other (by decide), other (by decide), ?_⟩
  simp [toList_thumbnailName, slash_not_mem_flattened]

/-- A file can have it unless it has a zero character or too many bytes. -/
theorem isFileName_thumbnailName (path : String) : IsFileName (thumbnailName path) ↔
    ¬(Char.ofNat 0 ∈ (thumbnailName path).toList ∨
      FileTree.nameLimit < (thumbnailName path).utf8ByteSize) := by
  obtain ⟨filled, here, above, whole⟩ := thumbnailName_single path
  constructor
  · rintro named (zero | long)
    · exact named.zero zero
    · exact absurd named.short (Nat.not_le.2 long)
  · intro good
    exact ⟨filled, here, above, whole, fun mem => good (.inl mem),
      Nat.not_lt.1 fun long => good (.inr long)⟩

/-! ### Writing -/

/-- The files that are written for some items: the names and the data of all thumbnails. -/
def pictures (items : List Item) : List (String × List UInt8) :=
  items.filterMap fun item => item.thumbnail.map fun t => (thumbnailName item.relativePath, t.data)

variable {s : Session} {directory : Path} {d : Place} {items : List Item} {name : String}
  {content : List UInt8}

theorem mem_pictures : (name, content) ∈ pictures items ↔ ∃ item ∈ items, ∃ thumbnail,
    item.thumbnail = some thumbnail ∧ thumbnailName item.relativePath = name ∧
      thumbnail.data = content := by
  simp [pictures, List.mem_filterMap]

theorem pictures_of_none {item : Item} (missed : item.thumbnail = none) :
    pictures (item :: items) = pictures items := by
  simp [pictures, missed]

theorem pictures_of_some {item : Item} {thumbnail : Thumbnail}
    (captured : item.thumbnail = some thumbnail) : pictures (item :: items) =
      (thumbnailName item.relativePath, thumbnail.data) :: pictures items := by
  simp [pictures, captured]

theorem run_writeFile (path : Path) (content : List UInt8) (s : Session) :
    (writeFile path content).run s = match s.tree.write path content s.now with
      | .ok tree => (.ok (), { s with tree := tree })
      | .error f => (.error f, s) := by
  unfold writeFile
  rw [run_bind_of_ok (run_get s)]
  cases written : s.tree.write path content s.now with
  | error f => exact run_bind_of_error (run_ofResult _ _)
  | ok tree => exact run_bind_of_ok (run_ofResult _ _)

theorem run_makeDirectories {made : FileTree}
    (prepared : s.tree.makeDirectories directory = .ok made) :
    (makeDirectories [directory]).run s = (.ok (), { s with tree := made }) := by
  have ensured : ensureDirectories s.tree [directory] = (made, .ok ()) := by
    simp [ensureDirectories, prepared]
  unfold makeDirectories
  rw [run_bind_of_ok (run_get s), ensured, run_bind_of_ok (run_modify _ s), run_ofResult]

/-- One thumbnail is put under its name. -/
theorem run_writeThumbnail {path : String} (opens : s.tree.Opens directory d)
    (only : s.tree.OnlyFiles d) (named : IsFileName (thumbnailName path)) :
    (writeFile (directory.join (.ofText (thumbnailName path))) content).run s =
      (.ok (), { s with tree := s.tree.put (d ++ [thumbnailName path]) (.file content s.now) }) := by
  rw [Path.join_ofText directory named.filled named.here named.whole, run_writeFile,
    opens.write only named]

theorem run_writeThumbnail_refused {path : String} (content : List UInt8)
    (opens : s.tree.Opens directory d) (bad : ¬IsFileName (thumbnailName path)) : ∃ f,
      (writeFile (directory.join (.ofText (thumbnailName path))) content).run s = (.error f, s) := by
  obtain ⟨filled, here, above, whole⟩ := thumbnailName_single path
  obtain ⟨f, refused⟩ := opens.write_refused above
    (not_not.1 (mt (isFileName_thumbnailName path).2 bad)) content s.now
  exact ⟨f, by rw [Path.join_ofText directory filled here whole, run_writeFile, refused]⟩

/-- Writing thumbnails fills the directory. -/
theorem run_writeThumbnails (opens : s.tree.Opens directory d) (only : s.tree.OnlyFiles d)
    (named : ∀ e ∈ pictures items, IsFileName e.1) : (writeThumbnails directory items).run s =
      (.ok (pictures items).length, { s with tree := s.tree.fill d s.now (pictures items) }) := by
  induction items generalizing s with
  | nil => rfl
  | cons item rest ih =>
    cases captured : item.thumbnail with
    | none =>
      simp only [writeThumbnails, captured, pictures_of_none captured] at named ⊢
      exact ih opens only named
    | some thumbnail =>
      rw [pictures_of_some captured] at named ⊢
      obtain ⟨first, named⟩ := List.forall_mem_cons.1 named
      simp only [writeThumbnails, captured]
      rw [run_bind_of_ok (run_writeThumbnail opens only first),
        run_bind_of_ok (ih (opens.put only _ _ _) (only.put _ _ _) named)]
      rfl

/-- A name that no file can have ends it. -/
theorem run_writeThumbnails_refused (opens : s.tree.Opens directory d) (only : s.tree.OnlyFiles d)
    (bad : ∃ e ∈ pictures items, ¬IsFileName e.1) :
    ∃ f s', (writeThumbnails directory items).run s = (.error f, s') := by
  induction items generalizing s with
  | nil =>
    obtain ⟨e, mem, -⟩ := bad
    cases mem
  | cons item rest ih =>
    cases captured : item.thumbnail with
    | none =>
      simp only [writeThumbnails, captured, pictures_of_none captured] at bad ⊢
      exact ih opens only bad
    | some thumbnail =>
      rw [pictures_of_some captured, List.exists_mem_cons_iff] at bad
      simp only [writeThumbnails, captured]
      by_cases first : IsFileName (thumbnailName item.relativePath)
      · rw [run_bind_of_ok (run_writeThumbnail opens only first)]
        let s₁ : Session := { s with
          tree := s.tree.put (d ++ [thumbnailName item.relativePath]) (.file thumbnail.data s.now) }
        have opens₁ : s₁.tree.Opens directory d := opens.put only _ _ _
        have only₁ : s₁.tree.OnlyFiles d := only.put _ _ _
        obtain ⟨f, s', failed⟩ := ih opens₁ only₁ (bad.resolve_left (not_not.2 first))
        exact ⟨f, s', run_bind_of_error failed⟩
      · obtain ⟨f, failed⟩ := run_writeThumbnail_refused thumbnail.data opens first
        exact ⟨f, s, run_bind_of_error failed⟩

/-- If no name is used twice, every name is given to its own picture. -/
theorem lookup_of_distinct (distinct : ((pictures items).map Prod.fst).Nodup)
    (mem : (name, content) ∈ pictures items) :
    (pictures items).reverse.lookup name = some content := by
  have distinct : ((pictures items).reverse.map Prod.fst).Nodup := by
    rw [List.map_reverse]
    exact List.nodup_reverse.2 distinct
  exact (lookup_eq_some_iff_mem distinct).2 (List.mem_reverse.2 mem)

/-- Pictures of items with different paths that can be told apart have different names. -/
theorem distinct_pictures (apart : (items.map (·.relativePath)).Nodup)
    (separable : ∀ item ∈ items, item.thumbnail ≠ none → Separable item.relativePath) :
    ((pictures items).map Prod.fst).Nodup := by
  induction items with
  | nil => exact List.nodup_nil
  | cons item rest ih =>
    rw [List.map_cons, List.nodup_cons] at apart
    have ih := ih apart.2 fun other mem => separable other (List.mem_cons_of_mem _ mem)
    cases captured : item.thumbnail with
    | none => rwa [pictures_of_none captured]
    | some thumbnail =>
      rw [pictures_of_some captured, List.map_cons, List.nodup_cons]
      refine ⟨fun used => ?_, ih⟩
      obtain ⟨⟨_, content⟩, mem, rfl⟩ := List.mem_map.1 used
      obtain ⟨other, listed, found, captured', same, -⟩ := mem_pictures.1 mem
      have mine := separable item List.mem_cons_self (by simp [captured])
      have its := separable other (List.mem_cons_of_mem _ listed) (by simp [captured'])
      have paths := thumbnailName_inj its mine same
      exact apart.1 (paths ▸ List.mem_map_of_mem listed)

end SessionM

open SessionM

/-- What an export of the thumbnails of some items into an empty directory leaves. -/
structure Exported (items : List Item) (directory : Path) (ran : Except Failure Nat × Session) :
    Prop where
  /-- It ends well if every name can be that of a file. -/
  ends : (∃ n, ran.1 = .ok n) ↔ ∀ e ∈ pictures items, IsFileName e.1
  /-- It then gives the count of the thumbnails. -/
  counted : ∀ n, ran.1 = .ok n → n = (pictures items).length
  /-- The directory holds one file for every name. These are as many as were counted exactly if no
  name was used twice. -/
  listed : ∀ n, ran.1 = .ok n → ∃ files, ran.2.tree.list directory = .ok files ∧ files.Nodup ∧
    (∀ name, name ∈ files ↔ name ∈ (pictures items).map Prod.fst) ∧
    (files.length = n ↔ ((pictures items).map Prod.fst).Nodup)
  /-- Every file holds the last thumbnail with its name. -/
  last : ∀ n, ran.1 = .ok n → ∀ name content, (pictures items).reverse.lookup name = some content →
    ran.2.tree.read (directory.child name) = .ok content
  /-- If no name is used twice, every item with a thumbnail has a file of its own. -/
  own : ∀ n, ran.1 = .ok n → ((pictures items).map Prod.fst).Nodup → ∀ item ∈ items,
    ∀ thumbnail : Thumbnail, item.thumbnail = some thumbnail →
      ran.2.tree.read (directory.child (thumbnailName item.relativePath)) = .ok thumbnail.data

/-- What an export leaves that writes into a directory at a place. -/
theorem exported_of_opens {s : Session} {directory : Path} {d : Place} {items : List Item}
    (opens : s.tree.Opens directory d) (allowed : s.tree.refused.contains directory.text = false)
    (empty : s.tree.childNames d = []) :
    Exported items directory ((writeThumbnails directory items).run s) := by
  have only : s.tree.OnlyFiles d := .of_empty empty
  by_cases named : ∀ e ∈ pictures items, IsFileName e.1
  · have filled := run_writeThumbnails opens only named
    rw [filled]
    have last (name : String) (content : List UInt8)
        (found : (pictures items).reverse.lookup name = some content) :
        (s.tree.fill d s.now (pictures items)).read (directory.child name) = .ok content := by
      obtain ⟨before, after, split, -⟩ := List.lookup_eq_some_iff.1 found
      have mem : (name, content) ∈ pictures items :=
        List.mem_reverse.1 (split ▸ List.mem_append_right _ List.mem_cons_self)
      refine (opens.fill only _ _).read (only.fill _ _) (named _ mem) (m := s.now) ?_
      rw [FileTree.node?_fill, found]
    exact {
      ends := ⟨fun _ => named, fun _ => ⟨_, rfl⟩⟩
      counted := fun n ended => (Except.ok.inj ended).symm
      listed := fun n ended => by
        obtain rfl := Except.ok.inj ended
        refine ⟨_, (opens.fill only _ _).list (by rwa [FileTree.refused_fill]),
          FileTree.nodup_childNames_fill (by simp [empty]), fun name => ?_,
          FileTree.length_childNames_fill empty⟩
        simp [FileTree.mem_childNames_fill, empty]
      last := fun _ _ => last
      own := fun _ _ distinct item listed thumbnail captured =>
        last _ _ (lookup_of_distinct distinct
          (mem_pictures.2 ⟨item, listed, thumbnail, captured, rfl, rfl⟩)) }
  · have bad : ∃ e ∈ pictures items, ¬IsFileName e.1 := by simpa using named
    obtain ⟨f, s', failed⟩ := run_writeThumbnails_refused opens only bad
    rw [failed]
    exact ⟨by simpa using bad, nofun, nofun, nofun, nofun⟩

/-- Export the thumbnails of a catalog into an empty directory. This ends well if the names can be
those of files, and gives the count of the thumbnails; but under a name that two items share, only the
last one stays, and there are fewer files than were counted. Different paths have different names if
no underscore in them stands before another one or before a slash. -/
theorem thumbnails_exported {s : Session} {catalog : Catalog} {directory : Path} {made : FileTree}
    (held : s.catalog = some catalog) (prepared : s.tree.makeDirectories directory = .ok made)
    (empty : made.list directory = .ok []) :
    Exported catalog.items directory ((exportThumbnails directory).run s) ∧
      ((catalog.items.map (·.relativePath)).Nodup →
        (∀ item ∈ catalog.items, item.thumbnail ≠ none → Separable item.relativePath) →
        ((pictures catalog.items).map Prod.fst).Nodup) := by
  refine ⟨?_, distinct_pictures⟩
  obtain ⟨d, opens, allowed, empty⟩ := FileTree.opens_of_list empty
  have ran : (exportThumbnails directory).run s =
      (writeThumbnails directory catalog.items).run { s with tree := made } := by
    unfold exportThumbnails
    rw [run_bind_of_ok (run_get s)]
    simp only [held]
    rw [run_bind_of_ok (run_makeDirectories prepared), held]
  rw [ran]
  exact exported_of_opens opens allowed empty

/-- A video with a relative path in the top directory. -/
def videoAt (path : String) : Descriptor :=
  { name := (Path.ofText path).name, relativePath := path, size := none, modified := none,
    mime := "video/mp4", source := Path.join ⟨"/", []⟩ (.ofText path) }

/-- A decoder whose frames are as wide as the paths are deep. -/
def deepFrames : Session.FrameSource :=
  .decoder fun path _ => {
    metadata := { result := .ok .null }
    seek := fun _ => { result := .ok () }
    capture := fun _ => { result := .ok (Frame.mk path.names.length 1) } }

/-- A session among videos. Its thumbnails are encoded as their sizes. -/
def startedOver (paths : List String) : Except Failure Session × List Record :=
  Session.start ⟨⟨"/", []⟩, .map []⟩ ⟨⟨"/", []⟩, [], none⟩
    ⟨(["a"], .directory) :: paths.map fun p => (Path.namesOf p, .file [] .zero), [], []⟩ deepFrames
    { workers := .int 1, encoder := { bytes := fun _ w h _ => [w.toUInt8, h.toUInt8] } }

/-- What a session is once it has scanned some videos. -/
def Session.scanned (paths : List String) (s : Session) : Session :=
  ((SessionM.scan fun _ => ⟨.ok (paths.map videoAt), []⟩).run s).2

/-- The top directory `t`. -/
def exportDirectory : Path := ⟨"/", ["t"]⟩

/-- Two videos have thumbnails and different paths. Exporting the thumbnails into a directory that is
not there yet counts two files and leaves one, with the data of the second. -/
theorem export_loses_thumbnail : ∃ s log, startedOver ["a__b.mp4", "a/b.mp4"] = (.ok s, log) ∧
    let scanned := s.scanned ["a__b.mp4", "a/b.mp4"]
    let ran : Except Failure Nat × Session := (exportThumbnails exportDirectory).run scanned
    scanned.current.map (fun item => (item.relativePath, item.thumbnail.map (·.data))) =
      [("a__b.mp4", some [1, 1]), ("a/b.mp4", some [2, 1])] ∧
    scanned.tree.exists? exportDirectory = .ok false ∧ ran.1 = .ok 2 ∧
    ran.2.tree.list exportDirectory = .ok ["a__b.mp4.jpg"] ∧
    ran.2.tree.read (exportDirectory.child "a__b.mp4.jpg") = .ok [2, 1] := by
  exact Session.exists_of_checked (by decide +kernel)

/-- Two videos whose paths can be told apart get a file each. -/
theorem thumbnails_exported_apart : ∃ s log,
    startedOver ["c_d.mp4", "a/b.mp4"] = (.ok s, log) ∧ ∃ catalog made,
      let scanned := s.scanned ["c_d.mp4", "a/b.mp4"]
      scanned.catalog = some catalog ∧ scanned.tree.makeDirectories exportDirectory = .ok made ∧
      made.list exportDirectory = .ok [] ∧ (pictures catalog.items).length = 2 ∧
      Exported catalog.items exportDirectory ((exportThumbnails exportDirectory).run scanned) ∧
      ((pictures catalog.items).map Prod.fst).Nodup := by
  have checked : ∃ s log, startedOver ["c_d.mp4", "a/b.mp4"] = (.ok s, log) ∧
      let scanned := s.scanned ["c_d.mp4", "a/b.mp4"]
      scanned.catalog.isSome = true ∧
      scanned.current.map (·.relativePath) = ["c_d.mp4", "a/b.mp4"] ∧
      (pictures scanned.current).length = 2 ∧
      (scanned.tree.makeDirectories exportDirectory).toOption.map (·.list exportDirectory) =
        some (.ok []) := Session.exists_of_checked (by decide +kernel)
  obtain ⟨s, log, started, present, paths, count, made⟩ := checked
  obtain ⟨catalog, held⟩ := Option.isSome_iff_exists.1 present
  cases prepared : (s.scanned ["c_d.mp4", "a/b.mp4"]).tree.makeDirectories exportDirectory with
  | error f =>
    rw [prepared] at made
    cases made
  | ok tree =>
    rw [prepared] at made
    have empty : tree.list exportDirectory = .ok [] := Option.some.inj made
    have current : (s.scanned ["c_d.mp4", "a/b.mp4"]).current = catalog.items := by
      simp [Session.current, held]
    rw [current] at paths count
    obtain ⟨exported, distinct⟩ := thumbnails_exported held prepared empty
    refine ⟨s, log, started, catalog, tree, held, prepared, empty, count, exported,
      distinct (by rw [paths]; decide) fun item listed _ => ?_⟩
    have known : item.relativePath ∈ ["c_d.mp4", "a/b.mp4"] := paths ▸ List.mem_map_of_mem listed
    have separable : ∀ path ∈ ["c_d.mp4", "a/b.mp4"], Separable path := by decide
    exact separable _ known

end VideoCatalog
