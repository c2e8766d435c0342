import Mathlib.Data.List.Induction
import Mathlib.Data.List.Nodup
import VideoCatalog.Proofs.Files.Steady

/-!
# What stands below a directory

* `FileTree.Proper`: every place holds one node, and names are such as files can have.
* `Path.below`: a path with more names; `text_inj` tells relative paths by their texts.
* `FileTree.Through`: names that lead down through directories, and across no link.
* `FileTree.Ground`: a path leads to a directory below which everything can be read;
  `Ground.find_directory` and `Ground.find_node` say what is found there.
* `FileTree.find_congr`: what a path leads to depends on what stands where alone.
-/

namespace VideoCatalog

/-- A name that a file can have. -/
structure IsFileName (name : String) : Prop where
  filled : name ≠ ""
  here : name ≠ "."
  above : name ≠ ".."
  whole : '/' ∉ name.toList
  zero : Char.ofNat 0 ∉ name.toList
  short : name.utf8ByteSize ≤ FileTree.nameLimit

instance (name : String) : Decidable (IsFileName name) :=
  decidable_of_iff (name ≠ "" ∧ name ≠ "." ∧ name ≠ ".." ∧ '/' ∉ name.toList ∧
      Char.ofNat 0 ∉ name.toList ∧ name.utf8ByteSize ≤ FileTree.nameLimit)
    ⟨fun ⟨filled, here, above, whole, zero, short⟩ => ⟨filled, here, above, whole, zero, short⟩,
      fun ⟨filled, here, above, whole, zero, short⟩ => ⟨filled, here, above, whole, zero, short⟩⟩

namespace Path

/-- A path with more names. -/
def below (p : Path) (names : List String) : Path := ⟨p.anchor, p.names ++ names⟩

variable {p : Path} {names more : List String} {name : String}

@[simp] theorem below_nil : p.below [] = p := by simp [below]

@[simp] theorem child_below : (p.below names).child name = p.below (names ++ [name]) := by
  simp [below, child]

theorem relativeTo?_below : (p.below names).relativeTo? p = some ⟨"", names⟩ :=
  relativeTo?_append ..

theorem mem_intercalate {c : Char} {sep : List Char} {parts : List (List Char)}
    (mem : c ∈ sep.intercalate parts) : c ∈ sep ∨ ∃ part ∈ parts, c ∈ part := by
  induction parts with
  | nil => simp at mem
  | cons part rest ih =>
    cases rest with
    | nil => exact .inr ⟨part, by simp, by simpa using mem⟩
    | cons next rest =>
      rw [List.intercalate_cons_cons, List.mem_append, List.mem_append] at mem
      rcases mem with (mem | mem) | mem
      · exact .inr ⟨part, by simp, mem⟩
      · exact .inl mem
      · rcases ih mem with mem | ⟨other, listed, mem⟩
        · exact .inl mem
        · exact .inr ⟨other, List.mem_cons_of_mem _ listed, mem⟩

theorem text_of_names (filled : p.names ≠ []) :
    p.text = p.anchor ++ String.intercalate "/" p.names := by
  rw [text, if_neg (by simp [filled])]

/-- A path with more names has no zero character if neither the path nor the names have one. -/
theorem zero_below (zero : Char.ofNat 0 ∉ p.text.toList)
    (named : ∀ name ∈ names, Char.ofNat 0 ∉ name.toList) :
    Char.ofNat 0 ∉ (p.below names).text.toList := by
  have slash : Char.ofNat 0 ∉ "/".toList := by decide
  have added : Char.ofNat 0 ∉ (String.intercalate "/" names).toList := by
    intro mem
    rw [String.toList_intercalate] at mem
    rcases mem_intercalate mem with mem | ⟨part, listed, mem⟩
    · exact slash mem
    · obtain ⟨name, known, rfl⟩ := List.mem_map.1 listed
      exact named name known mem
  by_cases none : names = []
  · rwa [none, below_nil]
  rw [text_of_names (by simp [below, none])]
  by_cases bare : p.names = []
  · have anchored : Char.ofNat 0 ∉ p.anchor.toList := by
      by_cases empty : p.anchor = ""
      · simp [empty]
      · simpa [text, bare, empty] using zero
    simpa [below, bare, anchored] using added
  · rw [text_of_names bare] at zero
    simp only [below, String.intercalate_append_of_ne_nil bare none, String.toList_append,
      List.mem_append, not_or] at zero ⊢
    exact ⟨zero.1, ⟨zero.2, slash⟩, added⟩

/-- Relative paths with the same text are equal. -/
theorem text_inj {a b : List String} (ha : a ≠ []) (hb : b ≠ [])
    (wa : ∀ name ∈ a, '/' ∉ name.toList) (wb : ∀ name ∈ b, '/' ∉ name.toList)
    (same : text ⟨"", a⟩ = text ⟨"", b⟩) : a = b := by
  have shown (l : List String) (h : l ≠ []) :
      (text ⟨"", l⟩).toList = ['/'].intercalate (l.map String.toList) := by
    simp [text, h]
  have cut (l : List String) (h : l ≠ []) (w : ∀ name ∈ l, '/' ∉ name.toList) :
      (text ⟨"", l⟩).toList.splitOn '/' = l.map String.toList := by
    rw [shown l h, List.splitOn_intercalate '/' (by simpa using w) (by simpa using h)]
  have both := cut a ha wa
  rw [same, cut b hb wb] at both
  exact (List.map_injective_iff.2 (fun _ _ h => String.toList_injective h) both).symm

end Path

namespace FileTree

variable {t t' : FileTree} {root : Path} {here d e place : Place} {name : String}
  {names more : List String} {node : FileNode} {links : Nat}

/-! ### Proper trees -/

/-- Every place holds one node, and its names are such as files can have. -/
structure Proper (t : FileTree) : Prop where
  single : (t.nodes.map (·.1)).Nodup
  named : ∀ entry ∈ t.nodes, ∀ name ∈ entry.1, IsFileName name

theorem Proper.mem_iff (proper : t.Proper) (inside : place ≠ []) :
    t.node? place = some node ↔ (place, node) ∈ t.nodes := by
  rw [node?, if_neg (by simpa using inside), lookup_eq_some_iff_mem proper.single]

theorem Proper.isFileName (proper : t.Proper) (stands : t.node? place = some node)
    (mem : name ∈ place) : IsFileName name :=
  proper.named _ ((proper.mem_iff (List.ne_nil_of_mem mem)).1 stands) name mem

theorem Proper.named_below (proper : t.Proper)
    (stands : t.node? (here ++ names ++ [name]) = some node) :
    ∀ n ∈ names ++ [name], IsFileName n := by
  intro n mem
  refine proper.isFileName stands ?_
  rw [List.append_assoc]
  exact List.mem_append_right here mem

/-- The names in a directory are the last ones of the places right below it. -/
theorem childNames_eq : t.childNames here = (t.nodes.map (·.1)).filterMap fun place =>
    if place.dropLast == here ∧ place ≠ [] then place.getLast? else none := by
  rw [List.filterMap_map]
  rfl

theorem last_below_iff : (if place.dropLast == here ∧ place ≠ [] then place.getLast? else none) =
    some name ↔ place = here ++ [name] := by
  rcases List.eq_nil_or_concat' place with rfl | ⟨front, last, rfl⟩
  · simp
  · simp only [List.dropLast_concat, List.getLast?_concat, beq_iff_eq, ne_eq,
      List.append_ne_nil_of_right_ne_nil _ (List.cons_ne_nil last []), not_false_iff, and_true,
      List.append_singleton_inj]
    split <;> simp [*]

/-- A directory lists the names under which something stands in it. -/
theorem Proper.mem_childNames (proper : t.Proper) :
    name ∈ t.childNames here ↔ ∃ node, t.node? (here ++ [name]) = some node := by
  have inside : here ++ [name] ≠ [] := by simp
  simp only [childNames_eq, List.mem_filterMap, last_below_iff, proper.mem_iff inside,
    List.mem_map, Prod.exists, exists_eq_right]
  constructor
  · rintro ⟨place, node, listed, rfl⟩
    exact ⟨node, listed⟩
  · rintro ⟨node, listed⟩
    exact ⟨_, node, listed, rfl⟩

theorem Proper.nodup_childNames (proper : t.Proper) : (t.childNames here).Nodup := by
  rw [childNames_eq]
  refine proper.single.filterMap fun a b name one other => ?_
  rw [last_below_iff.1 one, last_below_iff.1 other]

/-! ### Going down -/

/-- The names lead down through directories, and across no link. -/
def Through (t : FileTree) (here : Place) (names : List String) : Prop :=
  ∀ front, front ≠ [] → front <+: names → t.node? (here ++ front) = some .directory

theorem through_nil : t.Through here [] := fun _ filled start =>
  absurd (List.prefix_nil.1 start) filled

theorem through_concat : t.Through here (names ++ [name]) ↔
    t.Through here names ∧ t.node? (here ++ names ++ [name]) = some .directory := by
  constructor
  · intro through
    refine ⟨fun front filled start => through front filled (start.trans (List.prefix_append ..)), ?_⟩
    rw [List.append_assoc]
    exact through _ (by simp) List.prefix_rfl
  · rintro ⟨through, last⟩ front filled start
    rcases List.prefix_concat_iff.1 start with rfl | start
    · rw [← List.append_assoc, last]
    · exact through front filled start

/-- Names lead down no further than there are nodes: every step comes to a node of its own. -/
theorem Through.length_le (through : t.Through here names) : names.length ≤ t.nodes.length := by
  let visited : List Place := (List.range names.length).map fun i => here ++ names.take (i + 1)
  have distinct : visited.Nodup := by
    refine List.nodup_range.map_on fun i hi j hj same => ?_
    have lengths := congrArg List.length same
    simp only [List.mem_range, List.length_append, List.length_take] at hi hj lengths
    omega
  have known : visited ⊆ t.nodes.map (·.1) := by
    intro place mem
    obtain ⟨i, hi, rfl⟩ := List.mem_map.1 mem
    have filled : names.take (i + 1) ≠ [] := by
      rw [List.mem_range] at hi
      exact List.ne_nil_of_length_pos (by rw [List.length_take]; omega)
    have stands := through _ filled (List.take_prefix ..)
    rw [node?, if_neg (by simpa using fun _ => filled)] at stands
    obtain ⟨before, after, listed, -⟩ := List.lookup_eq_some_iff.1 stands
    simp [listed]
  simpa [visited] using distinct.length_le_of_subset known

/-- Names that are followed by others lead where these go on. -/
theorem Leads.append (first : Leads t links here names d)
    (second : ∀ links, Leads t links d more e) : Leads t links here (names ++ more) e := by
  induction first with
  | stay => exact second _
  | up _ ih => exact .up (ih second)
  | down named short stands _ ih => exact .down named short stands (ih second)
  | across named short stands _ ih =>
    exact .across named short stands (by simpa using ih second)

theorem Through.leads (proper : t.Proper) (through : t.Through here names) :
    Leads t links here names (here ++ names) := by
  induction names using List.reverseRecOn with
  | nil => simpa using Leads.stay
  | append_singleton names name ih =>
    obtain ⟨through, stands⟩ := through_concat.1 through
    have named := proper.named_below stands name (by simp)
    refine (ih through).append fun links => ?_
    rw [← List.append_assoc]
    exact .down named.above (Nat.not_lt.2 named.short) stands .stay

/-! ### Paths below a directory -/

/-- A path leads to a directory of a proper tree, and all directories below it can be listed. -/
structure Ground (t : FileTree) (root : Path) (here : Place) : Prop where
  proper : t.Proper
  rooted : t.find true root = .ok (.present here .directory)
  readable : ∀ names, t.Through here names → (root.below names).text ∉ t.refused

namespace Ground

theorem leads (ground : t.Ground root here) (through : t.Through here names) :
    Leads t linkLimit (t.startOf root) (root.names ++ names) (here ++ names) :=
  (leads_of_walk (walk_of_find ground.rooted).2).append fun _ => through.leads ground.proper

theorem isFileName (ground : t.Ground root here) (through : t.Through here names)
    (mem : name ∈ names) : IsFileName name := by
  have stands := through names (List.ne_nil_of_mem mem) List.prefix_rfl
  exact ground.proper.isFileName stands (List.mem_append_right _ mem)

theorem zero (ground : t.Ground root here) (named : ∀ name ∈ names, IsFileName name) :
    (root.below names).text.toList.contains (Char.ofNat 0) = false := by
  have above := (walk_of_find ground.rooted).1
  have free := Path.zero_below (by simpa using above) fun name mem => (named name mem).zero
  simpa using free

theorem find_directory (ground : t.Ground root here) (through : t.Through here names) :
    t.find true (root.below names) = .ok (.present (here ++ names) .directory) :=
  find_of_walk (ground.zero fun _ => ground.isFileName through) (ground.leads through).walk

/-- What stands in a directory is found under its name, and a link is not followed there. -/
theorem find_node (ground : t.Ground root here) (through : t.Through here names)
    (stands : t.node? (here ++ names ++ [name]) = some node) :
    t.find false (root.below (names ++ [name])) = .ok (.present (here ++ names ++ [name]) node) := by
  have named := ground.proper.named_below stands
  have last := named name (by simp)
  refine find_of_walk (ground.zero named) ?_
  have walked := (ground.leads through).walk_last last.above (Nat.not_lt.2 last.short) stands
  rwa [List.append_assoc] at walked

theorem list_directory (ground : t.Ground root here) (through : t.Through here names) :
    t.list (root.below names) = .ok (t.childNames (here ++ names)) := by
  rw [list, located, ground.find_directory through]
  simp [ground.readable names through]

theorem isLink?_node (ground : t.Ground root here) (through : t.Through here names)
    (stands : t.node? (here ++ names ++ [name]) = some node) :
    t.isLink? (root.below (names ++ [name])) = .ok (isLinkNode node) := by
  rw [isLink?, ask, located, ground.find_node through stands]

theorem state_directory (ground : t.Ground root here) (through : t.Through here names) :
    t.state (root.below names) = .ok .directory := by
  rw [state, located, ground.find_directory through]
  rfl

theorem state_file {content : List UInt8} {modified : Binary64} (ground : t.Ground root here)
    (through : t.Through here names)
    (stands : t.node? (here ++ names ++ [name]) = some (.file content modified)) :
    t.state (root.below (names ++ [name])) = .ok (.file content modified) := by
  have named := ground.proper.named_below stands
  have last := named name (by simp)
  have found : t.find true (root.below (names ++ [name])) =
      .ok (.present (here ++ names ++ [name]) (.file content modified)) := by
    refine find_of_walk (ground.zero named) ?_
    have walked : t.walk true linkLimit (t.startOf root) (root.names ++ names ++ [name]) = _ :=
      (ground.leads through).walk_file last.above (Nat.not_lt.2 last.short) stands
    rwa [List.append_assoc] at walked
  rw [state, located, found]
  rfl

end Ground

/-! ### Trees with the same nodes -/

theorem Proper.perm (proper : t.Proper) (same : t'.nodes.Perm t.nodes) : t'.Proper where
  single := (same.map _).nodup_iff.2 proper.single
  named e mem := proper.named e (same.mem_iff.1 mem)

/-- What stands where does not depend on the order of the nodes. -/
theorem Proper.node?_perm (proper : t.Proper) (same : t'.nodes.Perm t.nodes) :
    t'.node? place = t.node? place := by
  by_cases top : place = []
  · simp [node?, top]
  · refine Option.ext fun node => ?_
    rw [proper.mem_iff top, (proper.perm same).mem_iff top, same.mem_iff]

theorem walk_congr (same : ∀ place, t'.node? place = t.node? place) (follow : Bool) :
    t'.walk follow links here names = t.walk follow links here names := by
  induction links, here, names using walk_induction with
  | stop links here => rw [walk_nil, walk_nil]
  | go links here name rest onward across =>
    rw [walk_cons, walk_cons, same, onward, onward]
    cases links with
    | zero => rfl
    | succ links => simp only [across links rfl]

/-- Where a path leads depends on what stands where alone. -/
theorem find_congr (same : ∀ place, t'.node? place = t.node? place) (start : t'.start = t.start)
    (follow : Bool) (p : Path) : t'.find follow p = t.find follow p := by
  rw [find, find, walk_congr same, startOf, startOf, start]

theorem state_congr (same : ∀ place, t'.node? place = t.node? place) (start : t'.start = t.start)
    (p : Path) : t'.state p = t.state p := by
  rw [state, state, located, located, find_congr same start]

/-- A directory stays one when the nodes are listed in another order. -/
theorem Ground.perm (ground : t.Ground root here) (same : t'.nodes.Perm t.nodes)
    (start : t'.start = t.start) (refused : t'.refused = t.refused) : t'.Ground root here where
  proper := ground.proper.perm same
  rooted := by
    rw [find_congr (fun _ => ground.proper.node?_perm same) start, ground.rooted]
  readable names through := by
    rw [refused]
    refine ground.readable names fun front filled begun => ?_
    rw [← ground.proper.node?_perm same, through front filled begun]

end FileTree

end VideoCatalog
