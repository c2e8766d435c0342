import VideoCatalog.Proofs.Files.Steady
import VideoCatalog.Proofs.Tags.Saving

/-!
# A saving is made as a whole or not at all

Whenever a saving is interrupted, between any two of its steps, the path of the store leads to what
it led to before or to the whole document.

* `SaveStage.kept`: a file that is there stays, or the document replaces it.
* `SaveStage.whole`: what is read at any stage is a file of before, or the document.
* `SetApart`: the path of a store does not lead to its temporary file.
* `saving_is_all_or_nothing`: the main statement.
-/

namespace VideoCatalog

variable {now : Binary64} {target temporary : Path} {payload : List UInt8} {tree t : FileTree}
  {content : List UInt8}

/-- What is read of a file stands where its path leads. -/
theorem stands_of_read (read : t.read target = .ok content) : ∃ place modified,
    t.find true target = .ok (.present place (.file content modified)) ∧
      t.node? place = some (.file content modified) := by
  obtain ⟨place, modified, found⟩ := FileTree.find_of_read read
  have walks := FileTree.walks_of_walk (FileTree.walk_of_find found).2
  exact ⟨place, modified, found, FileTree.stands_of_walks walks rfl (by simp)⟩

/-- A file that the target leads to is there at every stage until the document takes its place. -/
theorem SaveStage.kept (stage : SaveStage now target temporary payload tree t)
    (read : tree.read target = .ok content) :
    t.read target = .ok content ∨ t.read target = .ok payload := by
  cases stage with
  | before grown => exact .inl (grown.within.read read)
  | beside parents _ extra =>
    exact .inl (extra.within.read ((FileTree.grown_makeDirectories parents).within.read read))
  | after parents moved =>
    obtain ⟨place, modified, found⟩ := FileTree.find_of_read read
    have steady := FileTree.steady_of_find found (by simp)
    exact .inr (moved.settled (FileTree.named_of_makeDirectories parents)
      (steady _ parents)).read

/-- The target does not lead to the very place where the temporary file is made. -/
def SetApart (tree : FileTree) (target temporary : Path) : Prop :=
  ∀ made place, tree.makeDirectories target.parent = .ok made →
    made.find false temporary = .ok (.absent place) → made.find true target ≠ .ok (.absent place)

/-- What is read at any stage is the document, or it stood before where the target leads now. -/
theorem SaveStage.whole (stage : SaveStage now target temporary payload tree t)
    (apart : SetApart tree target temporary) (read : t.read target = .ok content) :
    content = payload ∨ ∃ place modified,
      t.find true target = .ok (.present place (.file content modified)) ∧
        tree.node? place = some (.file content modified) := by
  obtain ⟨place, modified, found, stands⟩ := stands_of_read read
  cases stage with
  | before grown => exact .inr ⟨place, modified, found, grown.stood stands (by simp)⟩
  | beside parents chosen extra =>
    rcases extra.find_back found with old | new
    · have walks := FileTree.walks_of_walk (FileTree.walk_of_find old).2
      have stood := FileTree.stands_of_walks walks rfl (by simp)
      exact .inr ⟨place, modified, found,
        (FileTree.grown_makeDirectories parents).stood stood (by simp)⟩
    · exact absurd new (apart _ _ parents chosen)
  | after parents moved =>
    have above := FileTree.named_of_makeDirectories parents
    have settled := moved.settled above fun _ _ => moved.steady_of_find above found
    exact .inl (Except.ok.inj (read.symm.trans settled.read))

/-- Save a store, in whatever pieces, with a temporary file of whatever name, and whatever step is
refused. At the beginning and after every step, a file that the path of the store led to before can
still be read as it was, or as the whole document; and, unless the path leads to the temporary file,
nothing is read there but the whole document or a file of before. If the system refuses a step,
there is nothing new but directories in the end, and nothing else has changed. If no step is
refused, the path leads to the document. -/
theorem saving_is_all_or_nothing (refuse : SaveStep → Option Failure) (now : Binary64)
    (name : String) (cuts : List Nat) (store : TagStore) (tree : FileTree) :
    let payload := Text.encode store.document
    let saving := store.saveInPieces refuse now name cuts tree
    (∀ t ∈ tree :: saving.states,
      (∀ content, tree.read store.path = .ok content →
        t.read store.path = .ok content ∨ t.read store.path = .ok payload) ∧
      (SetApart tree store.path (store.path.parent.child name) →
        ∀ content, t.read store.path = .ok content → content = payload ∨
          ∃ place modified, t.find true store.path = .ok (.present place (.file content modified)) ∧
            tree.node? place = some (.file content modified))) ∧
    (∀ f, saving.result = .error f → f.isSystem = true → tree.Grown saving.tree) ∧
    (saving.result = .ok () → tree.Steady store.path →
      saving.tree.read store.path = .ok payload) := by
  intro payload saving
  have course := TagStore.course_saveInPieces refuse now name cuts store tree
  refine ⟨?_, course.refused, fun saved steady => ?_⟩
  · have stages : ∀ t ∈ tree :: saving.states,
        SaveStage now store.path (store.path.parent.child name) payload tree t :=
      List.forall_mem_cons.2 ⟨.before (.refl tree), course.stages⟩
    exact fun t mem => ⟨fun _ => (stages t mem).kept, fun apart _ => (stages t mem).whole apart⟩
  · obtain ⟨made, t₂, c, d, names, last, parents, moved⟩ := course.done saved
    exact (moved.settled (FileTree.named_of_makeDirectories parents) (steady made parents)).read

/-- A directory for a store that is not there yet. -/
def emptyShelf : FileTree := ⟨[(["data"], .directory)], [], []⟩

/-- A store that belongs there. -/
def shelvedStore : TagStore := ⟨⟨"/", ["data", "tags.json"]⟩, [("a.mp4", ["x"])]⟩

/-- Three bytes of the document are written before the others. All that can be read in the place of
the store, then and later, is the whole document. -/
theorem saving_is_all_or_nothing_shelved :
    let payload := Text.encode shelvedStore.document
    let saving := shelvedStore.saveInPieces (fun _ => none) .zero ".tags-0.json" [3] emptyShelf
    saving.states.length = 5 ∧
      (saving.states.map fun t => t.read ⟨"/", ["data", ".tags-0.json"]⟩)[2]? =
        some (.ok (payload.take 3)) ∧
      (∀ t ∈ saving.states, ∀ content, t.read shelvedStore.path = .ok content → content = payload) ∧
      saving.tree.read shelvedStore.path = .ok payload := by
  intro payload saving
  obtain ⟨stages, -, done⟩ :=
    saving_is_all_or_nothing (fun _ => none) .zero ".tags-0.json" [3] shelvedStore emptyShelf
  have vacant : emptyShelf.find true shelvedStore.path = .ok (.absent ["data", "tags.json"]) := rfl
  have steady : emptyShelf.Steady shelvedStore.path := FileTree.steady_of_find vacant (by simp)
  have apart : SetApart emptyShelf shelvedStore.path
      (shelvedStore.path.parent.child ".tags-0.json") := by
    intro made place parents chosen
    obtain rfl : emptyShelf = made := Except.ok.inj parents
    obtain rfl : ["data", ".tags-0.json"] = place := by
      injection Except.ok.inj chosen
    rw [vacant]
    simp
  refine ⟨by decide +kernel, by decide +kernel, fun t mem content read => ?_,
    done (by decide +kernel) steady⟩
  rcases (stages t (List.mem_cons_of_mem _ mem)).2 apart content read with
    same | ⟨place, modified, -, stood⟩
  · exact same
  · -- No file stands anywhere.
    unfold FileTree.node? at stood
    split at stood
    · cases stood
    · have only := (lookup_eq_some_iff_mem (by decide)).1 stood
      simp [emptyShelf] at only

end VideoCatalog
