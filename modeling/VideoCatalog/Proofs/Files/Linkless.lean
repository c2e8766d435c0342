import VideoCatalog.Discovery.Describe
import VideoCatalog.Proofs.Files.Filling

/-!
# Trees without links

* `FileTree.Linkless`: a tree of directories and files alone.
* `FileTree.climb`: the place that names lead to if no link is on the way.
* `Linkless.climb_of_find`, `Linkless.stands_of_find`: whatever is found lies at that place.
* `Linkless.find_place`: what stands at a place is found under its full name.
* `Linkless.realPath_eq`: clearing a path of links gives the full name of that place.
* `Linkless.describe_of_find`: a file is described alike under every path to it.
* `describe_outcome`: a path that cannot be described is refused by the system.
-/

namespace VideoCatalog

/-- A character of a name of a path occurs in its text. -/
theorem Path.mem_text {c : Char} {name : String} {p : Path} (listed : name ∈ p.names)
    (mem : c ∈ name.toList) : c ∈ p.text.toList := by
  rw [text_of_names (List.ne_nil_of_mem listed), String.toList_append, String.toList_intercalate]
  exact List.mem_append_right _ (mem_intercalate_of_mem (List.mem_map_of_mem listed) mem)

/-- A full name has a zero character only if one of its names has. -/
theorem Path.zero_of_names {place : List String}
    (named : ∀ name ∈ place, Char.ofNat 0 ∉ name.toList) :
    Char.ofNat 0 ∉ (Path.text ⟨"/", place⟩).toList := by
  have slash : Char.ofNat 0 ∉ (Path.text ⟨"/", []⟩).toList := by decide
  simpa [below] using zero_below slash named

namespace FileTree

variable {t : FileTree} {p q : Path} {here place : Place} {name : String} {names more : List String}
  {node : FileNode} {links : Nat} {follow : Bool}

/-! ### Climbing -/

/-- The place that names lead to if no link is on the way. -/
def climb (here : Place) : List String → Place
  | [] => here
  | name :: rest => if name = ".." then climb here.dropLast rest else climb (here ++ [name]) rest

theorem climb_append : climb here (names ++ more) = climb (climb here names) more := by
  induction names generalizing here with
  | nil => rfl
  | cons name rest ih =>
    rw [List.cons_append, climb, climb]
    split <;> exact ih

/-- Names without two dots lead down. -/
theorem climb_down (down : ∀ name ∈ names, name ≠ "..") : climb here names = here ++ names := by
  induction names generalizing here with
  | nil => simp [climb]
  | cons name rest ih =>
    rw [climb, if_neg (down name (by simp)), ih fun other mem => down other (by simp [mem])]
    simp

/-- Every name on the way to a place was there at the start or has been met. -/
theorem mem_climb (mem : name ∈ climb here names) :
    name ∈ here ∨ name ∈ names ∧ name ≠ ".." := by
  induction names generalizing here with
  | nil => exact .inl mem
  | cons first rest ih =>
    rw [climb] at mem
    split at mem
    · rcases ih mem with old | ⟨listed, other⟩
      · exact .inl (List.dropLast_subset _ old)
      · exact .inr ⟨List.mem_cons_of_mem _ listed, other⟩
    · next other =>
      rcases ih mem with old | ⟨listed, other⟩
      · rcases List.mem_append.1 old with old | new
        · exact .inl old
        · obtain rfl := List.mem_singleton.1 new
          exact .inr ⟨List.mem_cons_self, other⟩
      · exact .inr ⟨List.mem_cons_of_mem _ listed, other⟩

/-- Nothing is dropped from names without two dots. -/
theorem collapse_down (down : ∀ name ∈ names, name ≠ "..") : collapse names = names := by
  have pushed (done : List String) :
      names.foldl (fun done n => if n = ".." then done.drop 1 else n :: done) done =
        names.reverse ++ done := by
    induction names generalizing done with
    | nil => rfl
    | cons name rest ih =>
      rw [List.foldl_cons, if_neg (down name (by simp)),
        ih (fun other mem => down other (by simp [mem])) (name :: done)]
      simp
  rw [collapse, pushed, List.append_nil, List.reverse_reverse]

/-- What only grows over a list is at least what it was before. -/
theorem le_foldl {α : Type} {f : ℕ → α → ℕ} (grows : ∀ n a, n ≤ f n a) (l : List α) (n : ℕ) :
    n ≤ l.foldl f n := by
  induction l generalizing n with
  | nil => exact Nat.le_refl n
  | cons a rest ih => exact Nat.le_trans (grows n a) (ih (f n a))

/-- There are steps enough for every name. -/
theorem length_lt_clearingFuel : names.length < t.clearingFuel names := by
  unfold clearingFuel
  refine Nat.lt_of_lt_of_le (le_foldl (fun n entry => ?_) t.nodes (names.length + 1))
    (Nat.le_mul_of_pos_right _ (Nat.succ_pos _))
  split
  · exact Nat.le_add_right_of_le (Nat.le_add_right ..)
  · exact Nat.le_refl n

/-! ### Trees without links -/

/-- A tree of directories and files alone. Whatever stands somewhere stands in a directory, and
relative paths start at one. -/
structure Linkless (t : FileTree) : Prop where
  proper : t.Proper
  plain : ∀ entry ∈ t.nodes, isLinkNode entry.2 = false
  held : ∀ entry ∈ t.nodes, t.node? entry.1.dropLast = some .directory
  begun : t.node? t.start = some .directory

namespace Linkless

variable (linkless : t.Linkless)
include linkless

theorem no_link (target : String) : t.node? place ≠ some (.link target) := by
  intro stands
  by_cases top : place = []
  · simp [node?, top] at stands
  · have known := linkless.plain _ ((linkless.proper.mem_iff top).1 stands)
    cases known

theorem directory_above (stands : t.node? place = some node) :
    t.node? place.dropLast = some .directory := by
  by_cases top : place = []
  · simp [node?, top]
  · exact linkless.held _ ((linkless.proper.mem_iff top).1 stands)

theorem start_names (mem : name ∈ t.startOf p) : IsFileName name := by
  unfold startOf at mem
  split at mem
  · cases mem
  · exact linkless.proper.isFileName linkless.begun mem

theorem start_directory : t.node? (t.startOf p) = some .directory := by
  unfold startOf
  split
  · rfl
  · exact linkless.begun

/-- Two dots are followed on the way, and so none are left. -/
theorem climb_names (mem : name ∈ climb (t.startOf p) p.names) : name ≠ ".." := by
  rcases mem_climb mem with old | ⟨-, other⟩
  · exact (linkless.start_names old).above
  · exact other

/-- A path without zero characters leads to a place without them. -/
theorem zero_climb (zero : Char.ofNat 0 ∉ p.text.toList) :
    Char.ofNat 0 ∉ (Path.text ⟨"/", climb (t.startOf p) p.names⟩).toList := by
  refine Path.zero_of_names fun name mem => ?_
  rcases mem_climb mem with old | ⟨listed, -⟩
  · exact (linkless.start_names old).zero
  · exact fun inside => zero (Path.mem_text listed inside)

/-! ### What is found -/

/-- What is found lies at the place that the names lead to, and stands there. -/
theorem found_of_walks {found : Lookup} (walks : Walks t follow links here names found)
    (inside : t.node? here = some .directory) (present : found = .present place node) :
    place = climb here names ∧ t.node? place = some node := by
  induction walks with
  | stop =>
    cases present
    exact ⟨rfl, inside⟩
  | up _ ih =>
    rw [climb, if_pos rfl]
    exact ih (linkless.directory_above inside) present
  | free => cases present
  | down named _ stands _ ih =>
    rw [climb, if_neg named]
    exact ih stands present
  | file named _ stands =>
    cases present
    rw [climb, if_neg named, climb]
    exact ⟨rfl, stands⟩
  | link _ _ _ stands => exact absurd stands (linkless.no_link _)
  | across _ _ stands => exact absurd stands (linkless.no_link _)

theorem climb_of_find (found : t.find follow p = .ok (.present place node)) :
    climb (t.startOf p) p.names = place := by
  have walks := walks_of_walk (walk_of_find found).2
  exact (linkless.found_of_walks walks linkless.start_directory rfl).1.symm

theorem stands_of_find (found : t.find follow p = .ok (.present place node)) :
    t.node? place = some node := by
  have walks := walks_of_walk (walk_of_find found).2
  exact (linkless.found_of_walks walks linkless.start_directory rfl).2

/-- The directories on the way to a directory are those above it. -/
theorem through (stands : t.node? names = some .directory) : t.Through [] names := by
  induction names using List.reverseRecOn with
  | nil => exact through_nil
  | append_singleton names name ih =>
    have above := linkless.directory_above stands
    rw [List.dropLast_concat] at above
    exact through_concat.2 ⟨ih above, stands⟩

theorem leads (stands : t.node? place = some .directory) : Leads t links [] place place :=
  (linkless.through stands).leads linkless.proper

/-- What stands at a place is found under its full name. -/
theorem find_place (stands : t.node? place = some node) :
    t.find true ⟨"/", place⟩ = .ok (.present place node) := by
  have zero := Path.zero_of_names fun name mem => (linkless.proper.isFileName stands mem).zero
  have begins : t.startOf ⟨"/", place⟩ = [] := rfl
  refine find_of_walk (by simpa using zero) ?_
  rw [begins]
  cases node with
  | directory => exact (linkless.leads stands).walk
  | link target => exact absurd stands (linkless.no_link target)
  | file content modified =>
    rcases List.eq_nil_or_concat' place with rfl | ⟨front, last, rfl⟩
    · simp [node?] at stands
    · have above := linkless.directory_above stands
      rw [List.dropLast_concat] at above
      have named : IsFileName last := linkless.proper.isFileName stands (by simp)
      exact (linkless.leads above).walk_file named.above (Nat.not_lt.2 named.short) stands

theorem state_place (stands : t.node? place = some node) : t.state ⟨"/", place⟩ = .ok node := by
  rw [state, located, linkless.find_place stands]
  rfl

/-- No walk comes to an end because of links. -/
theorem walk_ne_linkLoop : t.walk follow links here names ≠ .error .linkLoop := by
  induction links, here, names using walk_induction with
  | stop links here => simp [walk_nil]
  | go links here name rest onward _ =>
    rw [walk_cons]
    split
    · exact onward _
    · split
      · simp
      · split
        · split <;> simp
        · exact onward _
        · split <;> simp
        · next target stands => exact absurd stands (linkless.no_link target)

/-! ### Clearing a path -/

theorem target?_none : t.target? p = none := by
  unfold target?
  split
  · next place target found =>
    unfold located at found
    split at found
    · cases found
    · cases found
    · next looked =>
      cases found
      exact absurd (linkless.stands_of_find looked) (linkless.no_link target)
  · rfl

/-- There is nothing to clear but two dots. -/
theorem clear_eq (fuel : Nat) (enough : names.length < fuel) (seen : Cleared) :
    t.clear fuel seen here names = (climb here names, true, seen) := by
  induction names generalizing fuel here with
  | nil =>
    obtain ⟨fuel, rfl⟩ := Nat.exists_eq_succ_of_ne_zero (Nat.ne_zero_of_lt enough)
    rfl
  | cons name rest ih =>
    obtain ⟨fuel, rfl⟩ := Nat.exists_eq_succ_of_ne_zero (Nat.ne_zero_of_lt enough)
    have enough : rest.length < fuel := Nat.lt_of_succ_lt_succ enough
    rw [clear, climb]
    split
    · exact ih fuel enough
    · simp only [linkless.target?_none]
      exact ih fuel enough

/-- Clearing a path gives the full name of the place that its names lead to. -/
theorem realPath_eq (zero : Char.ofNat 0 ∉ p.text.toList) :
    t.realPath p = .ok ⟨"/", climb (t.startOf p) p.names⟩ := by
  have down : ∀ name ∈ climb (t.startOf p) p.names, name ≠ ".." := fun _ => linkless.climb_names
  have unlooped (real : Path) (text : String) :
      t.located true real ≠ .error (.file .linkLoop text) := by
    intro looped
    unfold located FileTree.find at looped
    split at looped
    · next failed =>
      split at failed
      · cases failed
        cases looped
      · split at failed
        · cases failed
        · next walked =>
          cases failed
          cases looped
          exact linkless.walk_ne_linkLoop walked
    · cases looped
    · cases looped
  rw [realPath, if_neg (by simpa using zero), linkless.clear_eq _ length_lt_clearingFuel]
  dsimp only
  rw [collapse_down down]
  split
  · next looped => exact absurd looped (unlooped _ _)
  · rfl

theorem realPath_of_find (found : t.find follow p = .ok (.present place node)) :
    t.realPath p = .ok ⟨"/", place⟩ := by
  have zero := (walk_of_find found).1
  rw [linkless.realPath_eq (by simpa using zero), linkless.climb_of_find found]

/-- A file is described under its full name as under any other path with its last name, but for
the source. -/
theorem describe_of_find {relative : String} {d : Descriptor}
    (found : t.find true p = .ok (.present place node)) (last : (Path.mk "/" place).name = p.name)
    (described : describe t p relative = .ok d) :
    describe t ⟨"/", place⟩ relative = .ok { d with source := ⟨"/", place⟩ } := by
  have read : t.state p = .ok node := by
    rw [state, located, found]
    rfl
  rw [describe, read] at described
  obtain rfl := Except.ok.inj described
  rw [describe, linkless.state_place (linkless.stands_of_find found), last]

end Linkless

/-- A path without zero characters is described, or the system refuses it. -/
theorem describe_outcome (zero : Char.ofNat 0 ∉ p.text.toList) (relative : String) :
    (∃ d, describe t p relative = .ok d) ∨
      ∃ f, describe t p relative = .error f ∧ f.isSystem = true := by
  unfold describe
  cases read : t.state p with
  | ok node => exact .inl ⟨_, rfl⟩
  | error f =>
    refine .inr ⟨f, rfl, ?_⟩
    unfold state located FileTree.find at read
    rw [if_neg (by simpa using zero)] at read
    cases walked : t.walk true linkLimit (t.startOf p) p.names with
    | error fault =>
      rw [walked] at read
      obtain rfl := Except.error.inj read
      rfl
    | ok found =>
      rw [walked] at read
      cases found with
      | absent place =>
        obtain rfl := Except.error.inj read
        rfl
      | present place node => cases read

end FileTree

end VideoCatalog
