import VideoCatalog.Proofs.Files.Growth
import VideoCatalog.Tags.Store

/-!
# Saving the tag store

A saving makes directories, then a temporary file in them, which it fills piece by piece, and then
moves that file to its place.

* `SaveStep.inPieces`, `TagStore.saveInPieces`: a saving that writes its document in pieces.
* `runSave_cases`: the first step of a saving, and what follows it.
* `SaveStage`: what there may be after a step.
* `SaveCourse`: how a saving goes; `course_saveInPieces` says that all go so.
* `settled_of_save`, `steady_iff_read_of_save`: the path of a store leads to its document after a
  saving that succeeds, if it is steady and not otherwise.
* `grown_of_save`: a saving that the system refuses leaves no more than new directories.
-/

namespace VideoCatalog

variable {refuse : SaveStep → Option Failure} {now : Binary64} {target temporary : Path}
  {payload : List UInt8} {tree made t : FileTree} {place : Place}

/-- The steps of saving a document when its first bytes are written earlier than all of them: first
as many as one number says, then as many as the next one, and so on. -/
def SaveStep.inPieces (cuts : List Nat) (payload : List UInt8) : List SaveStep :=
  makeParents :: makeTemporary :: (cuts.map writeBytes ++ [writeBytes payload.length, moveOver])

/-- A saving in pieces, with a temporary file of any name. -/
def TagStore.saveInPieces (refuse : SaveStep → Option Failure) (now : Binary64) (name : String)
    (cuts : List Nat) (store : TagStore) (tree : FileTree) : Saving :=
  let payload := Text.encode store.document
  runSave refuse now store.path (store.path.parent.child name) payload
    (SaveStep.inPieces cuts payload) tree

/-- A store is saved in one piece. -/
theorem TagStore.save_eq (refuse : SaveStep → Option Failure) (now : Binary64) (store : TagStore)
    (tree : FileTree) :
    ∃ name, store.save refuse now tree = store.saveInPieces refuse now name [] tree :=
  ⟨_, rfl⟩

/-! ### Steps -/

/-- A first step that fails leaves what was there before, or what it has made so far, and is cleaned
up. One that succeeds is followed by the others. -/
theorem runSave_cases (step : SaveStep) (rest : List SaveStep) (tree : FileTree) :
    (∃ left f, (left = tree ∨ step.apply now target temporary payload tree = (left, .error f)) ∧
      let cleaned := if step.hasTemporary && f.isSystem then (left.settle (left.remove temporary)).1
        else left
      runSave refuse now target temporary payload (step :: rest) tree =
        ⟨[cleaned], cleaned, .error f⟩) ∨
    ∃ next, step.apply now target temporary payload tree = (next, .ok ()) ∧
      let later := runSave refuse now target temporary payload rest next
      runSave refuse now target temporary payload (step :: rest) tree =
        ⟨next :: later.states, later.tree, later.result⟩ := by
  cases refused : refuse step with
  | some f => exact .inl ⟨tree, f, .inl rfl, by simp [runSave, refused]⟩
  | none =>
    rcases applied : step.apply now target temporary payload tree with ⟨next, outcome⟩
    cases outcome with
    | error f => exact .inl ⟨next, f, .inr rfl, by simp [runSave, refused, applied]⟩
    | ok _ => exact .inr ⟨next, rfl, by simp [runSave, refused, applied]⟩

/-- Only making directories leaves something when it fails. -/
theorem left_of_apply_error {step : SaveStep} {left : FileTree} {f : Failure}
    (later : step ≠ .makeParents)
    (failed : step.apply now target temporary payload tree = (left, .error f)) : left = tree := by
  have settled {changed : Except Failure FileTree}
      (same : tree.settle changed = (left, .error f)) : left = tree := by
    cases changed with
    | error g => exact (Prod.ext_iff.1 same).1.symm
    | ok t => cases (Prod.ext_iff.1 same).2
  cases step with
  | makeParents => exact absurd rfl later
  | makeTemporary | writeBytes _ | moveOver => exact settled failed

/-- The first step leaves the directories that it makes. -/
theorem made_of_parents
    (parents : SaveStep.makeParents.apply now target temporary payload tree = (made, .ok ())) :
    tree.makeDirectories target.parent = .ok made := by
  obtain ⟨left, ended⟩ := Prod.ext_iff.1 parents
  dsimp only [SaveStep.apply] at left ended
  cases result : tree.makeDirectories target.parent with
  | error f => simp [result, Except.map] at ended
  | ok made' => rw [← left, FileTree.madeDirectories_of_ok result]

/-! ### Stages -/

/-- What there is between two steps: new directories alone, or a temporary file beside them, or that
file with the whole document in the place of the target. -/
inductive SaveStage (now : Binary64) (target temporary : Path) (payload : List UInt8)
    (tree : FileTree) : FileTree → Prop
  | before {t : FileTree} (grown : tree.Grown t) : SaveStage now target temporary payload tree t
  | beside {made t : FileTree} {place : Place} {content : List UInt8} {modified : Binary64}
      (parents : tree.makeDirectories target.parent = .ok made)
      (chosen : made.find false temporary = .ok (.absent place))
      (extra : made.Extra t temporary place content modified) :
      SaveStage now target temporary payload tree t
  | after {made t₂ t : FileTree} {c d : Place} {names : List String} {last : String}
      (parents : tree.makeDirectories target.parent = .ok made)
      (moved : FileTree.Moved made t₂ t target payload now c d names last) :
      SaveStage now target temporary payload tree t

/-- How a saving goes. If the system refuses it, only directories may be new. If it succeeds, the
document stands in its place. -/
structure SaveCourse (now : Binary64) (target temporary : Path) (payload : List UInt8)
    (tree : FileTree) (saving : Saving) : Prop where
  stages : ∀ t ∈ saving.states, SaveStage now target temporary payload tree t
  refused : ∀ f, saving.result = .error f → f.isSystem = true → tree.Grown saving.tree
  done : saving.result = .ok () → ∃ made t₂ c d names last,
    tree.makeDirectories target.parent = .ok made ∧
    FileTree.Moved made t₂ saving.tree target payload now c d names last

/-- A step goes before a saving. -/
theorem SaveCourse.cons {saving : Saving}
    (course : SaveCourse now target temporary payload tree saving)
    (stage : SaveStage now target temporary payload tree t) :
    SaveCourse now target temporary payload tree
      ⟨t :: saving.states, saving.tree, saving.result⟩ :=
  ⟨List.forall_mem_cons.2 ⟨stage, course.stages⟩, course.refused, course.done⟩

/-- A saving ends when there is no temporary file yet. -/
theorem course_of_grown (grown : tree.Grown t) (f : Failure) :
    SaveCourse now target temporary payload tree ⟨[t], t, .error f⟩ :=
  ⟨List.forall_mem_singleton.2 (.before grown), fun _ _ _ => grown, nofun⟩

section

variable {content : List UInt8} {modified : Binary64}
  (parents : tree.makeDirectories target.parent = .ok made)
  (chosen : made.find false temporary = .ok (.absent place))
  (extra : made.Extra t temporary place content modified)

include parents chosen extra

/-- A saving ends when there is a temporary file. A refusal of the system has it removed. -/
theorem course_of_extra (f : Failure) :
    let cleaned := if f.isSystem then (t.settle (t.remove temporary)).1 else t
    SaveCourse now target temporary payload tree ⟨[cleaned], cleaned, .error f⟩ := by
  have grown := FileTree.grown_makeDirectories parents
  intro cleaned
  cases system : f.isSystem with
  | true =>
    have removed : cleaned = (t.settle (t.remove temporary)).1 := if_pos system
    rw [removed]
    exact course_of_grown (grown.trans extra.grown_remove) f
  | false =>
    have kept : cleaned = t := if_neg (by simp [system])
    rw [kept]
    refine ⟨List.forall_mem_singleton.2 (.beside parents chosen extra), fun g same system' => ?_,
      nofun⟩
    rw [← Except.error.inj same, system] at system'
    cases system'

/-- The temporary file is filled piece by piece and moved to its place. -/
theorem course_of_writes (cuts : List Nat) :
    SaveCourse now target temporary payload tree (runSave refuse now target temporary payload
      (cuts.map .writeBytes ++ [.writeBytes payload.length, .moveOver]) t) := by
  induction cuts generalizing t content modified with
  | nil =>
    rw [List.map_nil, List.nil_append]
    rcases runSave_cases (.writeBytes payload.length) [.moveOver] t with
      ⟨left, f, there, ran⟩ | ⟨t₂, written, ran⟩
    · obtain rfl : left = t := there.elim id (left_of_apply_error (by simp))
      rw [ran]
      exact course_of_extra parents chosen extra f
    rw [ran]
    have filled := extra.write (FileTree.settle_eq_ok written)
    rw [List.take_length] at filled
    refine SaveCourse.cons ?_ (.beside parents chosen filled)
    rcases runSave_cases .moveOver [] t₂ with ⟨left, f, there, ran⟩ | ⟨t₃, moved, ran⟩
    · obtain rfl : left = t₂ := there.elim id (left_of_apply_error (by simp))
      rw [ran]
      exact course_of_extra parents chosen filled f
    obtain ⟨d, names, last, moved⟩ := FileTree.moved_of_replace filled (FileTree.settle_eq_ok moved)
    rw [ran]
    exact ⟨List.forall_mem_singleton.2 (.after parents moved), nofun,
      fun _ => ⟨_, _, _, _, _, _, parents, moved⟩⟩
  | cons count cuts ih =>
    rw [List.map_cons, List.cons_append]
    rcases runSave_cases (.writeBytes count) _ t with ⟨left, f, there, ran⟩ | ⟨t₂, written, ran⟩
    · obtain rfl : left = t := there.elim id (left_of_apply_error (by simp))
      rw [ran]
      exact course_of_extra parents chosen extra f
    · rw [ran]
      have filled := extra.write (FileTree.settle_eq_ok written)
      exact (ih filled).cons (.beside parents chosen filled)

end

namespace TagStore

variable {store : TagStore}

/-- So go all savings, whatever is refused and whatever pieces are written. -/
theorem course_saveInPieces (refuse : SaveStep → Option Failure) (now : Binary64) (name : String)
    (cuts : List Nat) (store : TagStore) (tree : FileTree) :
    SaveCourse now store.path (store.path.parent.child name) (Text.encode store.document) tree
      (store.saveInPieces refuse now name cuts tree) := by
  unfold saveInPieces SaveStep.inPieces
  dsimp only
  rcases runSave_cases .makeParents _ tree with ⟨left, f, there, ran⟩ | ⟨made, parents, ran⟩
  · rw [ran]
    have grown : tree.Grown left := by
      rcases there with rfl | there
      · exact .refl _
      · obtain rfl : tree.madeDirectories store.path.parent = left := (Prod.ext_iff.1 there).1
        exact FileTree.grown_madeDirectories tree _
    exact course_of_grown grown f
  have parents := made_of_parents parents
  have grown := FileTree.grown_makeDirectories parents
  rw [ran]
  refine SaveCourse.cons ?_ (.before grown)
  rcases runSave_cases .makeTemporary _ made with ⟨left, f, there, ran⟩ | ⟨t, created, ran⟩
  · obtain rfl : left = made := there.elim id (left_of_apply_error (by simp))
    rw [ran]
    exact course_of_grown grown f
  · obtain ⟨place, chosen, extra⟩ := FileTree.extra_of_create (FileTree.settle_eq_ok created)
    rw [ran]
    exact (course_of_writes parents chosen extra cuts).cons (.beside parents chosen extra)

theorem course_save (refuse : SaveStep → Option Failure) (now : Binary64) (store : TagStore)
    (tree : FileTree) : ∃ temporary, SaveCourse now store.path temporary
      (Text.encode store.document) tree (store.save refuse now tree) := by
  obtain ⟨name, same⟩ := store.save_eq refuse now tree
  exact ⟨_, same ▸ course_saveInPieces refuse now name [] store tree⟩

/-- A saving that succeeds leaves the document of the store where its path leads. -/
theorem settled_of_save (steady : tree.Steady store.path)
    (saved : (store.save refuse now tree).result = .ok ()) :
    (store.save refuse now tree).tree.Settled store.path (Text.encode store.document) := by
  obtain ⟨temporary, course⟩ := course_save refuse now store tree
  obtain ⟨made, t₂, c, d, names, last, parents, moved⟩ := course.done saved
  exact moved.settled (FileTree.named_of_makeDirectories parents) (steady made parents)

/-- There is a file where the path leads only if the path was steady before. -/
theorem steady_iff_read_of_save (saved : (store.save refuse now tree).result = .ok ()) :
    tree.Steady store.path ↔
      ∃ content, (store.save refuse now tree).tree.read store.path = .ok content := by
  refine ⟨fun steady => ⟨_, (settled_of_save steady saved).read⟩, ?_⟩
  rintro ⟨content, read⟩ again same place target link
  obtain ⟨temporary, course⟩ := course_save refuse now store tree
  obtain ⟨made, t₂, c, d, names, last, parents, moved⟩ := course.done saved
  obtain rfl : made = again := Except.ok.inj (parents.symm.trans same)
  obtain ⟨_, _, found⟩ := FileTree.find_of_read read
  exact moved.steady_of_find (FileTree.named_of_makeDirectories parents) found link

/-- A saving that the operating system refuses leaves all files as they were, and no temporary
one. Directories above the store may have been made. -/
theorem grown_of_save {f : Failure} (system : f.isSystem = true)
    (failed : (store.save refuse now tree).result = .error f) :
    tree.Grown (store.save refuse now tree).tree := by
  obtain ⟨temporary, course⟩ := course_save refuse now store tree
  exact course.refused f failed system

end TagStore

end VideoCatalog
