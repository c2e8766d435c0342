import Mathlib.Data.String.Basic
import VideoCatalog.Proofs.Catalog.DataUrl
import VideoCatalog.Proofs.Files.Settled
import VideoCatalog.Proofs.Json.RoundTrip
import VideoCatalog.Proofs.Session.Calls
import VideoCatalog.Proofs.Session.Thumbnails

/-!
# The manifest of the thumbnails

A manifest maps the relative path of every item with a thumbnail to a data URL. It is written in
ASCII alone.

* `mem_manifestEntries`, `distinct_manifestEntries`: its entries, one for each thumbnail.
* `sortedEntries`: the order in which they are written.
* `parse_manifestText`: the document is read as a mapping of just these entries.
* `IsManifest`: what a manifest is.
* `manifest_reads_back`: the main statement.
-/

namespace VideoCatalog

open Session SessionM

namespace SessionM

variable {items : List Item}

/-! ### Entries -/

theorem mem_manifestEntries {e : String × String} : e ∈ manifestEntries items ↔
    ∃ item ∈ items, ∃ t : Thumbnail, item.thumbnail = some t ∧
      e = (item.relativePath, t.dataUrl) := by
  simp only [manifestEntries, List.mem_filterMap, Option.map_eq_some_iff, eq_comm (a := e)]

theorem manifestEntries_of_none {item : Item} (missed : item.thumbnail = none) :
    manifestEntries (item :: items) = manifestEntries items := by
  simp [manifestEntries, missed]

theorem manifestEntries_of_some {item : Item} {t : Thumbnail} (captured : item.thumbnail = some t) :
    manifestEntries (item :: items) = (item.relativePath, t.dataUrl) :: manifestEntries items := by
  simp [manifestEntries, captured]

/-- The paths of the entries are some of those of the items. -/
theorem distinct_manifestEntries (apart : (items.map (·.relativePath)).Nodup) :
    ((manifestEntries items).map (·.1)).Nodup := by
  refine apart.sublist ?_
  induction items with
  | nil => exact List.Sublist.refl _
  | cons item rest ih =>
    have ih := ih (List.nodup_cons.1 apart).2
    cases captured : item.thumbnail with
    | none =>
      rw [manifestEntries_of_none captured]
      exact ih.cons _
    | some t =>
      rw [manifestEntries_of_some captured]
      exact ih.cons_cons _

theorem length_manifestEntries (items : List Item) :
    (manifestEntries items).length = (items.filter (·.thumbnail.isSome)).length := by
  induction items with
  | nil => rfl
  | cons item rest ih =>
    cases captured : item.thumbnail with
    | none =>
      rw [manifestEntries_of_none captured, List.filter_cons_of_neg (by simp [captured])]
      exact ih
    | some t =>
      rw [manifestEntries_of_some captured, List.filter_cons_of_pos (by simp [captured])]
      exact congrArg Nat.succ ih

/-- The entries in the order in which they are written. -/
def sortedEntries (items : List Item) : List (String × String) :=
  (manifestEntries items).mergeSort fun a b => decide (a.1 ≤ b.1)

theorem perm_sortedEntries (items : List Item) :
    (sortedEntries items).Perm (manifestEntries items) :=
  List.mergeSort_perm _ _

theorem distinct_sortedEntries (apart : (items.map (·.relativePath)).Nodup) :
    ((sortedEntries items).map (·.1)).Nodup :=
  ((perm_sortedEntries items).map _).nodup_iff.2 (distinct_manifestEntries apart)

/-- If no two items share a path, each path comes before those after it. -/
theorem pairwise_sortedEntries (apart : (items.map (·.relativePath)).Nodup) :
    (sortedEntries items).Pairwise fun a b => a.1 < b.1 := by
  have sorted : (sortedEntries items).Pairwise fun a b => decide (a.1 ≤ b.1) = true :=
    List.pairwise_mergeSort (fun a b c => by simpa using le_trans)
      (fun a b => by simpa using le_total a.1 b.1) _
  refine (sorted.and (List.pairwise_map.1 (distinct_sortedEntries apart))).imp ?_
  intro a b ⟨least, other⟩
  exact lt_of_le_of_ne (of_decide_eq_true least) other

/-! ### The document -/

/-- The document is read as the mapping that it was written for. -/
theorem parse_manifestText (apart : (items.map (·.relativePath)).Nodup) :
    Json.parse (manifestText items) =
      .ok (.record ((sortedEntries items).map fun e => (e.1, .text e.2))) := by
  refine Json.parse_document (.record ?_ ?_)
  · rw [List.map_map]
    exact distinct_sortedEntries apart
  · intro e mem
    obtain ⟨entry, -, rfl⟩ := List.mem_map.1 mem
    exact .text entry.2

end SessionM

/-- A text is a manifest of some items: it is read as a mapping, whose keys are the paths of the
items with a thumbnail, in ascending order, and which maps each to a data URL with the data of its
thumbnail in base sixty-four. -/
structure IsManifest (items : List Item) (text : String) (entries : List (String × String)) :
    Prop where
  parsed : Json.parse text = .ok (.record (entries.map fun e => (e.1, .text e.2)))
  sorted : entries.Pairwise fun a b => a.1 < b.1
  keys : ∀ path, path ∈ entries.map (·.1) ↔
    ∃ item ∈ items, item.thumbnail ≠ none ∧ item.relativePath = path
  values : ∀ item ∈ items, ∀ t : Thumbnail, item.thumbnail = some t → ∃ body,
    (item.relativePath, "data:" ++ t.mime ++ ";base64," ++ body) ∈ entries ∧
      base64Decode? body.toList = some t.data

/-- The text that is written for items with different paths is a manifest of them. -/
theorem isManifest_manifestText {items : List Item}
    (apart : (items.map (·.relativePath)).Nodup) :
    IsManifest items (manifestText items) (sortedEntries items) where
  parsed := parse_manifestText apart
  sorted := pairwise_sortedEntries apart
  keys path := by
    rw [((perm_sortedEntries items).map _).mem_iff, List.mem_map]
    constructor
    · rintro ⟨e, mem, rfl⟩
      obtain ⟨item, listed, t, captured, rfl⟩ := mem_manifestEntries.1 mem
      exact ⟨item, listed, by simp [captured], rfl⟩
    · rintro ⟨item, listed, captured, rfl⟩
      obtain ⟨t, captured⟩ := Option.ne_none_iff_exists'.1 captured
      exact ⟨_, mem_manifestEntries.2 ⟨item, listed, t, captured, rfl⟩, rfl⟩
  values item listed t captured := by
    refine ⟨String.ofList (base64 t.data), ?_, by
      rw [String.toList_ofList, base64Decode?_base64]⟩
    exact (perm_sortedEntries items).mem_iff.2
      (mem_manifestEntries.2 ⟨item, listed, t, captured, rfl⟩)

/-- Export the manifest of a catalog, in which no two items share a path, to a file that can be
written. This ends well and gives the count of the thumbnails, and nothing but the files changes.
The text of the file is a manifest of the items, with as many entries. -/
theorem manifest_reads_back {s : Session} {path : Path} {made left : FileTree}
    (apart : (s.current.map (·.relativePath)).Nodup)
    (prepared : s.tree.makeDirectories path.parent = .ok made)
    (written : made.write path (Text.encode (manifestText s.current)) s.now = .ok left) :
    ∃ text entries, left.readText path = .ok text ∧ IsManifest s.current text entries ∧
      (exportManifest path).run s = (.ok entries.length, { s with tree := left }) ∧
      entries.length = (s.current.filter (·.thumbnail.isSome)).length := by
  have length : (sortedEntries s.current).length = (manifestEntries s.current).length :=
    (perm_sortedEntries s.current).length_eq
  refine ⟨manifestText s.current, sortedEntries s.current, ?_, isManifest_manifestText apart, ?_,
    length.trans (length_manifestEntries s.current)⟩
  · exact FileTree.readText_of_read (FileTree.read_of_write written)
  · rw [exportManifest, run_bind_of_ok (run_items s), run_bind_of_ok (run_makeDirectories prepared),
      run_bind, run_writeFile]
    dsimp only
    rw [written, length]
    rfl

/-- A video with a thumbnail of some bytes, or with none. -/
def pictured (path : String) (data : Option (List UInt8)) : Item :=
  { (default : Item) with
    relativePath := path, thumbnail := data.map fun bytes => ⟨bytes, 1, 1, "image/jpeg"⟩ }

/-- A directory for a manifest. -/
def manifestShelf : FileTree := ⟨[(["out"], .directory)], [], []⟩

/-- A session that shows two videos with thumbnails and one without. -/
def picturedSession : Session :=
  .showing manifestShelf ⟨⟨"/", ["tags.json"]⟩, []⟩
    [pictured "𝄞 \"b\".mp4" (some [255]), pictured "c.mp4" none,
      pictured "a\\é\n.mp4" (some [0, 16])]

/-- Where the manifest is written. -/
def manifestPath : Path := ⟨"/", ["out", "manifest.json"]⟩

/-- Two entries are counted. The paths are read back with their quotes, backslashes and control
characters, and the one beyond the first 65536 characters comes last. -/
theorem manifest_reads_back_unusual : ∃ left text entries, left.readText manifestPath = .ok text ∧
    IsManifest picturedSession.current text entries ∧
    (exportManifest manifestPath).run picturedSession =
      (.ok 2, { picturedSession with tree := left }) ∧
    entries.map (·.1) = ["a\\é\n.mp4", "𝄞 \"b\".mp4"] := by
  have prepared : picturedSession.tree.makeDirectories manifestPath.parent = .ok manifestShelf :=
    rfl
  have vacant : manifestShelf.find true manifestPath = .ok (.absent ["out", "manifest.json"]) := rfl
  have written : manifestShelf.write manifestPath
      (Text.encode (manifestText picturedSession.current)) picturedSession.now =
        .ok (manifestShelf.put ["out", "manifest.json"]
          (.file (Text.encode (manifestText picturedSession.current)) picturedSession.now)) := by
    rw [FileTree.write, vacant]
  obtain ⟨text, entries, read, manifest, ran, count⟩ :=
    manifest_reads_back (by decide) prepared written
  have two : entries.length = 2 := count
  rw [two] at ran
  refine ⟨_, text, entries, read, manifest, ran, ?_⟩
  obtain ⟨first, second, rfl⟩ := List.length_eq_two.1 two
  have ascending : first.1 < second.1 := by simpa using manifest.sorted
  have here : "a\\é\n.mp4" ∈ [first.1, second.1] :=
    (manifest.keys _).2 ⟨pictured "a\\é\n.mp4" (some [0, 16]), by decide, by decide, rfl⟩
  have there : "𝄞 \"b\".mp4" ∈ [first.1, second.1] :=
    (manifest.keys _).2 ⟨pictured "𝄞 \"b\".mp4" (some [255]), by decide, by decide, rfl⟩
  have above : ¬"𝄞 \"b\".mp4" < "a\\é\n.mp4" := by decide
  simp only [List.mem_cons, List.not_mem_nil, or_false] at here there
  rcases here with here | here
  · rcases there with there | there
    · exact absurd (here.trans there.symm) (by decide)
    · simp [← here, ← there]
  · rcases there with there | there
    · rw [← here, ← there] at ascending
      exact absurd ascending above
    · exact absurd (here.trans there.symm) (by decide)

end VideoCatalog
