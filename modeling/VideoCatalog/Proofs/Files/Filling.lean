import Mathlib.Data.List.Perm.Subperm
import VideoCatalog.Proofs.Files.Below

/-!
# Files written into one directory

* `Path.join_ofText`: a name as a path below another one.
* `FileTree.Opens`: a path leads to a directory.
* `FileTree.OnlyFiles`: a directory holds nothing but files.
* `Opens.write`, `Opens.write_refused`: a file is written there unless its name cannot be one.
* `FileTree.fill`: files written there one after another; `node?_fill`, `mem_childNames_fill` and
  `nodup_childNames_fill` say what stands there then.
-/

namespace VideoCatalog

namespace Path

theorem pieces_of_whole {text : List Char} (whole : '/' ∉ text) : pieces text = [text] := by
  induction text with
  | nil => rfl
  | cons c rest ih =>
    have other : c ≠ '/' := fun same => whole (same ▸ List.mem_cons_self)
    rw [pieces, if_neg other, ih fun mem => whole (List.mem_cons_of_mem _ mem)]

theorem pieces_append_slash {text rest : List Char} (whole : '/' ∉ text) :
    pieces (text ++ '/' :: rest) = text :: pieces rest := by
  induction text with
  | nil => rfl
  | cons c text ih =>
    have other : c ≠ '/' := fun same => whole (same ▸ List.mem_cons_self)
    rw [List.cons_append, pieces, if_neg other, ih fun mem => whole (List.mem_cons_of_mem _ mem)]

/-- Texts with slashes between them are taken apart again. -/
theorem pieces_intercalate {parts : List (List Char)} (filled : parts ≠ [])
    (whole : ∀ part ∈ parts, '/' ∉ part) : pieces (['/'].intercalate parts) = parts := by
  induction parts with
  | nil => exact absurd rfl filled
  | cons part rest ih =>
    cases rest with
    | nil => simpa using pieces_of_whole (whole part (by simp))
    | cons next rest =>
      rw [List.intercalate_cons_cons, List.append_assoc, List.singleton_append,
        pieces_append_slash (whole part (by simp)), ih (by simp) fun other mem =>
          whole other (List.mem_cons_of_mem _ mem)]

/-- A relative path is read back from its text if its names are such as paths are read with. -/
theorem ofText_text {names : List String}
    (named : ∀ name ∈ names, name ≠ "" ∧ name ≠ "." ∧ '/' ∉ name.toList) :
    ofText (text ⟨"", names⟩) = ⟨"", names⟩ := by
  cases names with
  | nil => decide
  | cons first rest =>
    have shown : (text ⟨"", first :: rest⟩).toList =
        ['/'].intercalate ((first :: rest).map String.toList) := by
      simp [text_of_names]
    have whole : ∀ part ∈ (first :: rest).map String.toList, '/' ∉ part := by
      intro part mem
      obtain ⟨name, listed, rfl⟩ := List.mem_map.1 mem
      exact (named name listed).2.2
    have isName : ∀ part ∈ (first :: rest).map String.toList, isName part = true := by
      intro part mem
      obtain ⟨name, listed, rfl⟩ := List.mem_map.1 mem
      have notDot : name.toList ≠ ['.'] := fun same =>
        (named name listed).2.1 (String.toList_inj.1 same)
      simp [Path.isName, (named name listed).1, notDot]
    have unanchored : anchorOf (text ⟨"", first :: rest⟩) = "" := by
      have start : (text ⟨"", first :: rest⟩).toList.takeWhile (· == '/') = [] := by
        obtain ⟨filled, -, noSlash⟩ := named first (by simp)
        obtain ⟨c, more, split⟩ : ∃ c more, first.toList = c :: more :=
          List.exists_cons_of_ne_nil (by simpa using filled)
        have other : c ≠ '/' := fun same => noSlash (by simp [split, same])
        have begins : ∃ after, (text ⟨"", first :: rest⟩).toList = c :: after := by
          rw [shown, List.map_cons, split]
          cases rest with
          | nil => exact ⟨more, by simp⟩
          | cons next rest =>
            rw [List.map_cons, List.intercalate_cons_cons]
            exact ⟨_, rfl⟩
        obtain ⟨after, begins⟩ := begins
        rw [begins, List.takeWhile_cons_of_neg (by simpa using other)]
      simp [anchorOf, start]
    rw [ofText, unanchored, namesOf, shown, pieces_intercalate (by simp) whole,
      List.filter_eq_self.2 isName]
    simp [Function.comp_def]

theorem ofText_of_whole {name : String} (filled : name ≠ "") (here : name ≠ ".")
    (whole : '/' ∉ name.toList) : ofText name = ⟨"", [name]⟩ := by
  have alone : text ⟨"", [name]⟩ = name := by simp [text_of_names]
  refine (congrArg ofText alone.symm).trans (ofText_text fun other mem => ?_)
  rw [List.mem_singleton.1 mem]
  exact ⟨filled, here, whole⟩

/-- A name that is read as a path is one more name. -/
theorem join_ofText {name : String} (p : Path) (filled : name ≠ "") (here : name ≠ ".")
    (whole : '/' ∉ name.toList) : p.join (ofText name) = p.child name := by
  rw [ofText_of_whole filled here whole]
  rfl

theorem mem_intercalate_of_mem {c : Char} {sep : List Char} {part : List Char}
    {parts : List (List Char)} (listed : part ∈ parts) (mem : c ∈ part) :
    c ∈ sep.intercalate parts := by
  induction parts with
  | nil => cases listed
  | cons first rest ih =>
    cases rest with
    | nil =>
      obtain rfl := List.mem_singleton.1 listed
      simpa using mem
    | cons next rest =>
      rw [List.intercalate_cons_cons]
      rcases List.mem_cons.1 listed with rfl | listed
      · exact List.mem_append_left _ (List.mem_append_left _ mem)
      · exact List.mem_append_right _ (ih listed)

/-- The last name of a path is part of its text. -/
theorem mem_text_child {c : Char} {name : String} (p : Path) (mem : c ∈ name.toList) :
    c ∈ (p.child name).text.toList := by
  rw [text_of_names (by simp [child]), String.toList_append, String.toList_intercalate]
  exact List.mem_append_right _ (mem_intercalate_of_mem
    (List.mem_map_of_mem (show name ∈ (p.child name).names by simp [child])) mem)

end Path

namespace FileTree

variable {t : FileTree} {directory : Path} {d : Place} {name : String} {content : List UInt8}
  {now : Binary64}

/-! ### One file -/

/-- A path leads to the directory at a place. -/
structure Opens (t : FileTree) (directory : Path) (d : Place) : Prop where
  zero : Char.ofNat 0 ∉ directory.text.toList
  leads : Leads t linkLimit (t.startOf directory) directory.names d

/-- A directory holds nothing but files. -/
def OnlyFiles (t : FileTree) (d : Place) : Prop :=
  ∀ name node, t.node? (d ++ [name]) = some node → ∃ c m, node = .file c m

/-- What can be listed is a directory. -/
theorem opens_of_list {names : List String} (listed : t.list directory = .ok names) :
    ∃ d, t.Opens directory d ∧ t.refused.contains directory.text = false ∧
      t.childNames d = names := by
  unfold list located at listed
  split at listed
  · cases listed
  · next place found =>
    split at found
    · cases found
    · cases found
    · next looked =>
      cases found
      obtain ⟨zero, walked⟩ := walk_of_find looked
      split at listed
      · cases listed
      · next allowed =>
        exact ⟨place, ⟨by simpa using zero, leads_of_walk walked⟩, by simpa using allowed,
          Except.ok.inj listed⟩
  · cases listed

theorem Opens.list (opens : t.Opens directory d)
    (allowed : t.refused.contains directory.text = false) :
    t.list directory = .ok (t.childNames d) := by
  have found : t.find true directory = .ok (.present d .directory) :=
    find_of_walk (by simpa using opens.zero) opens.leads.walk
  rw [FileTree.list, located, found]
  dsimp only
  rw [if_neg (by simpa using allowed)]

/-- Where a name in the directory leads. -/
theorem Opens.find (opens : t.Opens directory d) (only : t.OnlyFiles d) (named : IsFileName name) :
    t.find true (directory.child name) = .ok (match t.node? (d ++ [name]) with
      | some node => .present (d ++ [name]) node
      | none => .absent (d ++ [name])) := by
  have zero : Char.ofNat 0 ∉ (directory.below [name]).text.toList :=
    Path.zero_below opens.zero (by simpa using named.zero)
  obtain ⟨k, same⟩ := opens.leads.walk_append true (List.cons_ne_nil name [])
  refine find_of_walk (by simpa [Path.below, Path.child] using zero) (same.trans ?_)
  rw [walk_cons, if_neg named.above, if_neg (Nat.not_lt.2 named.short)]
  cases stands : t.node? (d ++ [name]) with
  | none => rfl
  | some node =>
    obtain ⟨c, m, rfl⟩ := only name node stands
    rfl

/-- A file is written under its name, whether it is new or not. -/
theorem Opens.write (opens : t.Opens directory d) (only : t.OnlyFiles d) (named : IsFileName name)
    (content : List UInt8) (now : Binary64) :
    t.write (directory.child name) content now = .ok (t.put (d ++ [name]) (.file content now)) := by
  rw [FileTree.write, opens.find only named]
  cases stands : t.node? (d ++ [name]) with
  | none => rfl
  | some node =>
    obtain ⟨c, m, rfl⟩ := only name node stands
    rfl

theorem Opens.read {m : Binary64} (opens : t.Opens directory d) (only : t.OnlyFiles d)
    (named : IsFileName name) (stands : t.node? (d ++ [name]) = some (.file content m)) :
    t.read (directory.child name) = .ok content := by
  simp [FileTree.read, state, located, opens.find only named, stands, Except.map]

/-- A name with a zero character, or with too many bytes, is refused. -/
theorem Opens.write_refused (opens : t.Opens directory d) (above : name ≠ "..")
    (bad : Char.ofNat 0 ∈ name.toList ∨ nameLimit < name.utf8ByteSize) (content : List UInt8)
    (now : Binary64) : ∃ f, t.write (directory.child name) content now = .error f := by
  suffices refused : ∃ f, t.find true (directory.child name) = .error f by
    obtain ⟨f, refused⟩ := refused
    exact ⟨f, by rw [FileTree.write, refused]⟩
  unfold FileTree.find
  split
  · exact ⟨_, rfl⟩
  · next zero =>
    have long : nameLimit < name.utf8ByteSize :=
      bad.resolve_left fun mem => zero (by simpa using Path.mem_text_child directory mem)
    obtain ⟨k, same⟩ := opens.leads.walk_append true (List.cons_ne_nil name [])
    have walked : t.walk true linkLimit (t.startOf (directory.child name))
        (directory.child name).names = .error .nameTooLong := by
      refine same.trans ?_
      rw [walk_cons, if_neg above, if_pos long]
    rw [walked]
    exact ⟨_, rfl⟩

/-! ### What stands in the directory -/

/-- A directory lists the names of the places right below it. -/
theorem mem_childNames_iff : name ∈ t.childNames d ↔ t.nodes.any (·.1 == d ++ [name]) = true := by
  rw [childNames_eq, List.mem_filterMap, List.any_eq_true]
  simp only [last_below_iff]
  constructor
  · rintro ⟨place, known, rfl⟩
    obtain ⟨entry, listed, same⟩ := List.mem_map.1 known
    exact ⟨entry, listed, beq_iff_eq.2 same⟩
  · rintro ⟨entry, listed, same⟩
    exact ⟨_, List.mem_map_of_mem listed, beq_iff_eq.1 same⟩

/-- A name that is not listed is free. -/
theorem node?_of_unlisted (unlisted : name ∉ t.childNames d) : t.node? (d ++ [name]) = none := by
  rw [node?, if_neg (by simp), List.lookup_eq_none_iff]
  intro entry listed
  refine bne_iff_ne.2 fun same => unlisted (mem_childNames_iff.2 ?_)
  exact List.any_eq_true.2 ⟨entry, listed, beq_iff_eq.2 same.symm⟩

theorem OnlyFiles.of_empty (empty : t.childNames d = []) : t.OnlyFiles d := by
  intro name node stands
  rw [node?_of_unlisted (by simp [empty])] at stands
  cases stands

/-- A node under a new name is listed last. -/
theorem childNames_put (t : FileTree) (d : Place) (name : String) (node : FileNode) :
    (t.put (d ++ [name]) node).childNames d =
      if name ∈ t.childNames d then t.childNames d else t.childNames d ++ [name] := by
  simp only [mem_childNames_iff]
  unfold put
  split
  · have places : (t.nodes.map fun e => if e.1 == d ++ [name] then (d ++ [name], node) else e).map
        Prod.fst = t.nodes.map Prod.fst := by
      rw [List.map_map]
      refine List.map_congr_left fun e _ => ?_
      by_cases same : e.1 = d ++ [name] <;> simp [same]
    simp only [childNames_eq]
    rw [places]
  · simp [childNames]

theorem OnlyFiles.put (only : t.OnlyFiles d) (name : String) (content : List UInt8)
    (now : Binary64) : (t.put (d ++ [name]) (.file content now)).OnlyFiles d := by
  intro other node stands
  rw [node?_put (by simp)] at stands
  split at stands
  · exact ⟨content, now, (Option.some.inj stands).symm⟩
  · exact only other node stands

theorem Opens.put (opens : t.Opens directory d) (only : t.OnlyFiles d) (name : String)
    (content : List UInt8) (now : Binary64) :
    (t.put (d ++ [name]) (.file content now)).Opens directory d where
  zero := opens.zero
  leads := by
    rw [startOf_put]
    exact opens.leads.put_file content now (by simp) fun node stands => only name node stands

theorem refused_put (t : FileTree) (place : Place) (node : FileNode) :
    (t.put place node).refused = t.refused := by
  unfold put
  split <;> rfl

/-! ### Files one after another -/

/-- Files written into the directory at a place, one after another. -/
def fill (t : FileTree) (d : Place) (now : Binary64) : List (String × List UInt8) → FileTree
  | [] => t
  | (name, content) :: rest => (t.put (d ++ [name]) (.file content now)).fill d now rest

variable {files : List (String × List UInt8)}

theorem OnlyFiles.fill (only : t.OnlyFiles d) (now : Binary64)
    (files : List (String × List UInt8)) : (t.fill d now files).OnlyFiles d := by
  induction files generalizing t with
  | nil => exact only
  | cons e rest ih => exact ih (only.put e.1 e.2 now)

theorem Opens.fill (opens : t.Opens directory d) (only : t.OnlyFiles d) (now : Binary64)
    (files : List (String × List UInt8)) : (t.fill d now files).Opens directory d := by
  induction files generalizing t with
  | nil => exact opens
  | cons e rest ih => exact ih (opens.put only e.1 e.2 now) (only.put e.1 e.2 now)

theorem refused_fill (t : FileTree) (d : Place) (now : Binary64)
    (files : List (String × List UInt8)) : (t.fill d now files).refused = t.refused := by
  induction files generalizing t with
  | nil => rfl
  | cons e rest ih => exact (ih _).trans (refused_put ..)

/-- Under every name stands the file that was written last. -/
theorem node?_fill (t : FileTree) (d : Place) (now : Binary64)
    (files : List (String × List UInt8)) (name : String) :
    (t.fill d now files).node? (d ++ [name]) = match files.reverse.lookup name with
      | some content => some (.file content now)
      | none => t.node? (d ++ [name]) := by
  induction files generalizing t with
  | nil => rfl
  | cons e rest ih =>
    obtain ⟨first, content⟩ := e
    rw [fill, ih, List.reverse_cons, List.lookup_append]
    cases later : rest.reverse.lookup name with
    | some other => rfl
    | none =>
      rw [node?_put (by simp)]
      by_cases same : name = first
      · simp [same]
      · have apart : (name == first) = false := beq_false_of_ne same
        simp [same, List.lookup_cons, apart]

/-- The directory lists the names that were written, and the ones before. -/
theorem mem_childNames_fill : name ∈ (t.fill d now files).childNames d ↔
    name ∈ t.childNames d ∨ name ∈ files.map Prod.fst := by
  induction files generalizing t with
  | nil => simp [fill]
  | cons e rest ih =>
    have first : name ∈ (t.put (d ++ [e.1]) (.file e.2 now)).childNames d ↔
        name ∈ t.childNames d ∨ name = e.1 := by
      rw [childNames_put]
      split
      · next listed =>
        exact ⟨.inl, fun known => known.elim id fun same => same ▸ listed⟩
      · simp
    rw [fill, ih, first, List.map_cons, List.mem_cons, or_assoc]

/-- No name is listed twice. -/
theorem nodup_childNames_fill (once : (t.childNames d).Nodup) :
    ((t.fill d now files).childNames d).Nodup := by
  induction files generalizing t with
  | nil => exact once
  | cons e rest ih =>
    refine ih ?_
    rw [childNames_put]
    split
    · exact once
    · next unlisted => exact List.nodup_append_comm.1 (List.nodup_cons.2 ⟨unlisted, once⟩)

/-- There are as many files as were written exactly if no name was used twice. -/
theorem length_childNames_fill (empty : t.childNames d = []) :
    ((t.fill d now files).childNames d).length = files.length ↔ (files.map Prod.fst).Nodup := by
  have once : ((t.fill d now files).childNames d).Nodup :=
    nodup_childNames_fill (by simp [empty])
  have same (name : String) : name ∈ (t.fill d now files).childNames d ↔
      name ∈ files.map Prod.fst := by
    simp [mem_childNames_fill, empty]
  constructor
  · intro lengths
    have listed := List.subperm_of_subset once fun name => (same name).1
    exact (listed.perm_of_length_le (by simp [lengths])).nodup_iff.1 once
  · intro distinct
    simpa using ((List.perm_ext_iff_of_nodup once distinct).2 same).length_eq

end FileTree

end VideoCatalog
