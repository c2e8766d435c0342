import VideoCatalog.Proofs.Discovery.Fallback

/-!
# Files of a selection with the same name

A selection tells a file below its base by the path from there, and any other file by its name
alone. So files of one name can come to share a relative path, under which a catalog keeps only the
first of them.

* `Clash`: when two files share a relative path; `selectedKey_eq_iff` says that it is never else.
* `SelectedAs`: the descriptors of selected videos.
* `Gathers`: what a catalog of them holds; `selection_keeps_first_namesakes` says that it does.
-/

namespace VideoCatalog

open SelectionEntry

variable {config : Option Configuration} {tree : FileTree} {base : Path} {b f g place : Place}
  {files : List Path} {places : List Place} {descriptors : List Descriptor}
  {extensions : List String}

/-! ### Keys -/

/-- Two files have the same name, and one of them lies outside of the base; the other one may lie
in the base itself, but not further below. -/
def Clash (b f g : Place) : Prop :=
  f.getLast? = g.getLast? ∧ (¬b <+: f ∨ ¬b <+: g) ∧
    (b <+: f → f.dropLast = b) ∧ (b <+: g → g.dropLast = b)

/-- A file has a name, and all names on the way to it are such as files can have. -/
def Named (place : Place) : Prop := place ≠ [] ∧ ∀ name ∈ place, IsFileName name

theorem selectedKey_below (names : List String) :
    selectedKey b (b ++ names) = Path.text ⟨"", names⟩ := by
  rw [selectedKey, if_pos (List.prefix_append ..), List.drop_left]

theorem selectedKey_outside {front : List String} {last : String}
    (outside : ¬b <+: front ++ [last]) :
    selectedKey b (front ++ [last]) = Path.text ⟨"", [last]⟩ := by
  rw [selectedKey, if_neg outside]
  simp [Path.name, Path.text_of_names]

theorem text_eq_iff {names names' : List String} (filled : names ≠ []) (filled' : names' ≠ [])
    (named : ∀ n ∈ names, IsFileName n) (named' : ∀ n ∈ names', IsFileName n) :
    Path.text ⟨"", names⟩ = Path.text ⟨"", names'⟩ ↔ names = names' :=
  ⟨Path.text_inj filled filled' (fun n mem => (named n mem).whole) fun n mem => (named' n mem).whole,
    fun same => same ▸ rfl⟩

/-- A file below the base has the key of a file outside exactly if it lies in the base itself,
under the same name. -/
theorem selectedKey_eq_iff_of_outside {names front : List String} {last : String}
    (filled : names ≠ []) (outside : ¬b <+: front ++ [last])
    (named : ∀ n ∈ names, IsFileName n) (isName : IsFileName last) :
    selectedKey b (b ++ names) = selectedKey b (front ++ [last]) ↔ names = [last] := by
  rw [selectedKey_below, selectedKey_outside outside]
  exact text_eq_iff filled (by simp) named (by simpa using isName)

theorem clash_below_iff {names front : List String} {last : String} (filled : names ≠ [])
    (outside : ¬b <+: front ++ [last]) : Clash b (b ++ names) (front ++ [last]) ↔ names = [last] := by
  constructor
  · rintro ⟨same, -, direct, -⟩
    obtain ⟨above, name, rfl⟩ := (List.eq_nil_or_concat' names).resolve_left filled
    have inside := direct (List.prefix_append ..)
    rw [← List.append_assoc, List.dropLast_concat] at inside
    obtain rfl := List.append_right_eq_self.1 inside
    simpa using same
  · rintro rfl
    exact ⟨by simp, .inr outside, fun _ => by simp, fun inside => absurd inside outside⟩

theorem Clash.comm : Clash b f g ↔ Clash b g f := by
  constructor <;> rintro ⟨same, outside, one, other⟩ <;> exact ⟨same.symm, outside.symm, other, one⟩

theorem exists_names_below (inside : b <+: f) (other : f ≠ b) : ∃ names ≠ [], b ++ names = f := by
  obtain ⟨names, rfl⟩ := inside
  refine ⟨names, ?_, rfl⟩
  rintro rfl
  exact other (List.append_nil b)

/-- Different files share a relative path exactly if they clash. -/
theorem selectedKey_eq_iff (nf : Named f) (ng : Named g) (hf : f ≠ b) (hg : g ≠ b) (apart : f ≠ g) :
    selectedKey b f = selectedKey b g ↔ Clash b f g := by
  obtain ⟨ff, lf, rfl⟩ := (List.eq_nil_or_concat' f).resolve_left nf.1
  obtain ⟨gg, lg, rfl⟩ := (List.eq_nil_or_concat' g).resolve_left ng.1
  by_cases insideF : b <+: ff ++ [lf]
  · obtain ⟨x, filled, ex⟩ := exists_names_below insideF hf
    rw [← ex] at nf apart ⊢
    have namedX : ∀ n ∈ x, IsFileName n := fun n mem => nf.2 n (List.mem_append_right b mem)
    by_cases insideG : b <+: gg ++ [lg]
    · -- Below the base every file has a path of its own.
      obtain ⟨y, filled', ey⟩ := exists_names_below insideG hg
      rw [← ey] at ng apart ⊢
      rw [selectedKey_below, selectedKey_below, text_eq_iff filled filled' namedX fun n mem =>
        ng.2 n (List.mem_append_right b mem)]
      refine iff_of_false (fun same => apart (by rw [same])) ?_
      rintro ⟨-, outside, -⟩
      exact outside.elim (· (List.prefix_append ..)) (· (List.prefix_append ..))
    · rw [selectedKey_eq_iff_of_outside filled insideG namedX (ng.2 lg (by simp)),
        clash_below_iff filled insideG]
  · by_cases insideG : b <+: gg ++ [lg]
    · obtain ⟨y, filled', ey⟩ := exists_names_below insideG hg
      rw [← ey] at ng ⊢
      rw [eq_comm, selectedKey_eq_iff_of_outside filled' insideF
        (fun n mem => ng.2 n (List.mem_append_right b mem)) (nf.2 lf (by simp)), Clash.comm,
        clash_below_iff filled' insideF]
    · rw [selectedKey_outside insideF, selectedKey_outside insideG, text_eq_iff (by simp) (by simp)
        (by simpa using nf.2 lf (by simp)) (by simpa using ng.2 lg (by simp))]
      constructor
      · intro same
        exact ⟨by simpa using same, .inl insideF, fun inside => absurd inside insideF,
          fun inside => absurd inside insideG⟩
      · rintro ⟨same, -⟩
        simpa using same

/-! ### Descriptors -/

/-- The files are at some places, one after another. -/
def StandAt (tree : FileTree) (files : List Path) (places : List Place) : Prop :=
  List.Forall₂ (fun p place => ∃ content modified,
    tree.find true p = .ok (.present place (.file content modified))) files places

/-- The files at some places are described, each under its key. -/
def SelectedAs (tree : FileTree) (b : Place) (places : List Place)
    (descriptors : List Descriptor) : Prop :=
  List.Forall₂ (fun place d => describe tree ⟨"/", place⟩ (selectedKey b place) = .ok d)
    places descriptors

theorem yields_videos (linkless : tree.Linkless) (stand : StandAt tree files places)
    (videos : ∀ place ∈ places, isVideo extensions (Path.mk "/" place).name = true) :
    SelectedAs tree b places (files.flatMap fun p => (ofFile tree b p).yield extensions tree) := by
  induction stand with
  | nil => exact .nil
  | @cons p place files places here rest ih =>
    obtain ⟨content, modified, found⟩ := here
    obtain ⟨d, described, yields⟩ := yield_ofFile extensions b linkless found
    rw [List.flatMap_cons, yields, if_pos (videos place List.mem_cons_self)]
    exact .cons described (ih fun other mem => videos other (List.mem_cons_of_mem _ mem))

theorem StandAt.zeros (stand : StandAt tree files places) :
    ∀ p ∈ files, Char.ofNat 0 ∉ p.text.toList := by
  induction stand with
  | nil => simp
  | cons here _ ih =>
    obtain ⟨content, modified, found⟩ := here
    have zero := (FileTree.walk_of_find found).1
    exact List.forall_mem_cons.2 ⟨by simpa using zero, ih⟩

theorem StandAt.nodes (linkless : tree.Linkless) (stand : StandAt tree files places) :
    ∀ place ∈ places, ∃ content modified, tree.node? place = some (.file content modified) := by
  induction stand with
  | nil => simp
  | cons here _ ih =>
    obtain ⟨content, modified, found⟩ := here
    exact List.forall_mem_cons.2 ⟨⟨content, modified, linkless.stands_of_find found⟩, ih⟩

theorem named_of_file {content : List UInt8} {modified : Binary64} (linkless : tree.Linkless)
    (stands : tree.node? place = some (.file content modified)) : Named place := by
  refine ⟨?_, fun name => linkless.proper.isFileName stands⟩
  rintro rfl
  simp [FileTree.node?] at stands

/-- Files of a selection share a relative path exactly if they clash. -/
theorem StandAt.key_eq_iff (linkless : tree.Linkless) (stand : StandAt tree files places)
    (directory : tree.node? b = some .directory) (mf : f ∈ places) (mg : g ∈ places)
    (apart : f ≠ g) : selectedKey b f = selectedKey b g ↔ Clash b f g := by
  obtain ⟨cf, tf, hf⟩ := stand.nodes linkless f mf
  obtain ⟨cg, tg, hg⟩ := stand.nodes linkless g mg
  refine selectedKey_eq_iff (named_of_file linkless hf) (named_of_file linkless hg) ?_ ?_ apart
  · rintro rfl
    simp [directory] at hf
  · rintro rfl
    simp [directory] at hg

/-! ### Catalogs -/

/-- What a descriptor tells of its file: the source and the relative path. -/
theorem SelectedAs.map_eq (selected : SelectedAs tree b places descriptors) :
    descriptors.map (fun d => (d.source, d.relativePath)) =
      places.map fun place => (⟨"/", place⟩, selectedKey b place) := by
  induction selected with
  | nil => rfl
  | cons here _ ih =>
    obtain ⟨-, relative, source, -⟩ := find_of_describe here
    rw [List.map_cons, List.map_cons, ih, relative, source]

theorem SelectedAs.getElem? (selected : SelectedAs tree b places descriptors) {k : Nat}
    {d : Descriptor} : descriptors[k]? = some d → ∃ place, places[k]? = some place ∧
      d.source = ⟨"/", place⟩ ∧ d.relativePath = selectedKey b place := by
  intro at_k
  have same := congrArg (·[k]?) selected.map_eq
  simp only [List.getElem?_map, at_k, Option.map_some] at same
  obtain ⟨place, here, told⟩ := Option.map_eq_some_iff.1 same.symm
  obtain ⟨source, relative⟩ := Prod.mk.inj told
  exact ⟨place, here, source.symm, relative.symm⟩

theorem SelectedAs.exists_getElem? (selected : SelectedAs tree b places descriptors) {k : Nat}
    (here : places[k]? = some place) : ∃ d, descriptors[k]? = some d ∧
      d.source = ⟨"/", place⟩ ∧ d.relativePath = selectedKey b place := by
  have same := congrArg (·[k]?) selected.map_eq
  simp only [List.getElem?_map, here, Option.map_some] at same
  obtain ⟨d, at_k, told⟩ := Option.map_eq_some_iff.1 same
  obtain ⟨source, relative⟩ := Prod.mk.inj told
  exact ⟨d, at_k, source, relative⟩

/-- What a catalog of selected files holds. -/
structure Gathers (b : Place) (places : List Place) (built : Catalog.Built)
    (catalog : Catalog) : Prop where
  /-- No two items share a path. -/
  distinct : (catalog.items.map (·.relativePath)).Nodup
  /-- Every item is that of one of the files, under its key. -/
  known : ∀ item ∈ catalog.items, ∃ place ∈ places,
    item.source = ⟨"/", place⟩ ∧ item.relativePath = selectedKey b place
  /-- A file is there, and once, unless it clashes with an earlier one. -/
  kept : ∀ (k : Nat) (place : Place), places[k]? = some place →
    (∀ j f, j < k → places[j]? = some f → ¬Clash b f place) →
      ∃! item, item ∈ catalog.items ∧ item.source = ⟨"/", place⟩
  /-- A file that clashes with an earlier one is not there, and a warning tells so. -/
  dropped : ∀ (j k : Nat) (f place : Place), j < k → places[j]? = some f → places[k]? = some place →
    Clash b f place → (∀ item ∈ catalog.items, item.source ≠ ⟨"/", place⟩) ∧
      .warning ("Duplicate relative path skipped: " ++ selectedKey b place) ∈ built.log

/-- A descriptor repeats a path exactly if its file clashes with an earlier one. -/
theorem repeatedAt_selected (linkless : tree.Linkless) (stand : StandAt tree files places)
    (directory : tree.node? b = some .directory) (apart : places.Nodup)
    (selected : SelectedAs tree b places descriptors) {k : Nat} {d : Descriptor}
    (at_k : descriptors[k]? = some d) (here : places[k]? = some place) :
    Catalog.repeatedAt descriptors k d = true ↔
      ∃ j f, j < k ∧ places[j]? = some f ∧ Clash b f place := by
  obtain ⟨other, same, -, relative⟩ := selected.getElem? at_k
  obtain rfl : place = other := Option.some.inj (here.symm.trans same)
  have distinct {j : Nat} {f : Place} (before : j < k) (at_j : places[j]? = some f) :
      f ≠ place := by
    rintro rfl
    have within := (List.getElem?_eq_some_iff.1 here).1
    have twice : places[j]? = places[k]? := at_j.trans here.symm
    exact List.nodup_iff_getElem?_ne_getElem?.1 apart j k before within twice
  rw [Catalog.repeatedAt_iff]
  constructor
  · rintro ⟨j, e, before, at_j, shared⟩
    obtain ⟨f, there, -, relative'⟩ := selected.getElem? at_j
    refine ⟨j, f, before, there, ?_⟩
    rw [← stand.key_eq_iff linkless directory (List.mem_of_getElem? there)
      (List.mem_of_getElem? here) (distinct before there), ← relative, ← relative', shared]
  · rintro ⟨j, f, before, there, clash⟩
    obtain ⟨e, at_j, -, relative'⟩ := selected.exists_getElem? there
    refine ⟨j, e, before, at_j, ?_⟩
    rw [relative, relative', stand.key_eq_iff linkless directory (List.mem_of_getElem? there)
      (List.mem_of_getElem? here) (distinct before there)]
    exact clash

/-- Files at different places have different sources, also after the repeated ones are gone. -/
theorem SelectedAs.nodup_sources (selected : SelectedAs tree b places descriptors)
    (apart : places.Nodup) : ((Catalog.firsts descriptors).map (·.source)).Nodup := by
  have all : descriptors.map (·.source) = places.map (Path.mk "/") := by
    simpa [Function.comp_def] using congrArg (List.map Prod.fst) selected.map_eq
  refine ((Catalog.firsts_sublist descriptors).map _).nodup ?_
  rw [all]
  exact apart.map fun _ _ same => (Path.mk.inj same).2

theorem sources_build (registry : Registry) (store : Option TagStore)
    (descriptors : List Descriptor) :
    (Catalog.build registry store descriptors).2.items.map (·.source) =
      (Catalog.firsts descriptors).map (·.source) :=
  Catalog.map_items_build _ _ (fun _ _ _ => rfl) registry store descriptors

/-- Every item is that of one of the files. -/
theorem SelectedAs.known_build (selected : SelectedAs tree b places descriptors)
    (registry : Registry) (store : Option TagStore) :
    ∀ item ∈ (Catalog.build registry store descriptors).2.items, ∃ place ∈ places,
      item.source = ⟨"/", place⟩ ∧ item.relativePath = selectedKey b place := by
  intro item among
  have told : (Catalog.build registry store descriptors).2.items.map
      (fun item => (item.source, item.relativePath)) =
        (Catalog.firsts descriptors).map fun d => (d.source, d.relativePath) :=
    Catalog.map_items_build _ _ (fun _ _ _ => rfl) registry store descriptors
  have mem : (item.source, item.relativePath) ∈ (Catalog.firsts descriptors).map
      fun d => (d.source, d.relativePath) :=
    told ▸ List.mem_map_of_mem (f := fun item : Item => (item.source, item.relativePath)) among
  obtain ⟨d, first, same⟩ := List.mem_map.1 mem
  obtain ⟨source', relative'⟩ := Prod.mk.inj same
  obtain ⟨k, at_k, -⟩ := Catalog.mem_splitOff.1 first
  obtain ⟨place, here, source, relative⟩ := selected.getElem? at_k
  exact ⟨place, List.mem_of_getElem? here, source'.symm.trans source,
    relative'.symm.trans relative⟩

/-- The file of a descriptor that is kept is in the catalog, and once. -/
theorem SelectedAs.existsUnique_build (selected : SelectedAs tree b places descriptors)
    (apart : places.Nodup) (registry : Registry) (store : Option TagStore) {d : Descriptor}
    (first : d ∈ Catalog.firsts descriptors) :
    ∃! item, item ∈ (Catalog.build registry store descriptors).2.items ∧
      item.source = d.source := by
  have sources := sources_build registry store descriptors
  have once : ((Catalog.build registry store descriptors).2.items.map (·.source)).Nodup := by
    rw [sources]
    exact selected.nodup_sources apart
  have mem : d.source ∈ (Catalog.build registry store descriptors).2.items.map (·.source) := by
    rw [sources]
    exact List.mem_map_of_mem first
  obtain ⟨item, among, same⟩ := List.mem_map.1 mem
  refine ⟨item, ⟨among, same⟩, fun other ⟨among', same'⟩ => ?_⟩
  exact List.inj_on_of_nodup_map once among' among (same'.trans same.symm)

/-- The file of a descriptor that repeats a path is not in the catalog. -/
theorem SelectedAs.ne_source_build (selected : SelectedAs tree b places descriptors)
    (apart : places.Nodup) (registry : Registry) (store : Option TagStore) {k : Nat}
    {d : Descriptor} (at_k : descriptors[k]? = some d) (here : places[k]? = some place)
    (seen : Catalog.repeatedAt descriptors k d = true) :
    ∀ item ∈ (Catalog.build registry store descriptors).2.items, item.source ≠ ⟨"/", place⟩ := by
  intro item among same
  have mem : item.source ∈ (Catalog.firsts descriptors).map (·.source) :=
    sources_build registry store descriptors ▸ List.mem_map_of_mem (f := Item.source) among
  -- It would be the item of a descriptor at the same place of the list, which is kept.
  obtain ⟨e, first, same'⟩ := List.mem_map.1 mem
  obtain ⟨i, at_i, fresh⟩ := Catalog.mem_splitOff.1 first
  obtain ⟨other, here', source', -⟩ := selected.getElem? at_i
  obtain rfl : other = place := (Path.mk.inj (source'.symm.trans (same'.trans same))).2
  obtain rfl : i = k := (List.getElem?_inj (List.getElem?_eq_some_iff.1 here').1 apart).1
    (here'.trans here.symm)
  rw [Option.some.inj (at_i.symm.trans at_k), seen] at fresh
  cases fresh

theorem gathers_build (linkless : tree.Linkless) (stand : StandAt tree files places)
    (directory : tree.node? b = some .directory) (apart : places.Nodup)
    (selected : SelectedAs tree b places descriptors) (registry : Registry)
    (store : Option TagStore) :
    Gathers b places (Catalog.build registry store descriptors).1
      (Catalog.build registry store descriptors).2 where
  distinct := Catalog.nodup_buildItems
  known := selected.known_build registry store
  kept := by
    intro k place here free
    obtain ⟨d, at_k, source, -⟩ := selected.exists_getElem? here
    rw [← source]
    refine selected.existsUnique_build apart registry store
      (Catalog.mem_splitOff.2 ⟨k, at_k, Bool.eq_false_iff.2 fun seen => ?_⟩)
    obtain ⟨j, f, before, there, clash⟩ :=
      (repeatedAt_selected linkless stand directory apart selected at_k here).1 seen
    exact free j f before there clash
  dropped := by
    intro j k f place before there here clash
    obtain ⟨d, at_k, -, relative⟩ := selected.exists_getElem? here
    have seen : Catalog.repeatedAt descriptors k d = true :=
      (repeatedAt_selected linkless stand directory apart selected at_k here).2
        ⟨j, f, before, there, clash⟩
    refine ⟨selected.ne_source_build apart registry store at_k here seen, ?_⟩
    have log : (Catalog.build registry store descriptors).1.log =
        (Catalog.others descriptors).map Catalog.skipped := by
      rw [Catalog.build, Catalog.buildItems_eq]
    rw [log, ← relative]
    exact List.mem_map_of_mem (f := Catalog.skipped)
      (Catalog.mem_splitOff.2 ⟨k, at_k, seen⟩)

/-- In a tree without links, select different videos that are there, in a base and beside it. Each
has exactly one descriptor, in their order: with its path from the base if it lies below it, and else
with its name. Two of them share a relative path exactly if they clash. A catalog holds each of them
once unless it clashes with an earlier one, and then it is left out with a warning. -/
theorem selection_keeps_first_namesakes (linkless : tree.Linkless)
    (based : tree.find true base = .ok (.present b .directory))
    (known : configuredExtensions config = .ok extensions)
    (stand : StandAt tree files places) (apart : places.Nodup)
    (videos : ∀ place ∈ places, isVideo extensions (Path.mk "/" place).name = true) :
    (∀ f ∈ places, ∀ g ∈ places, f ≠ g →
      (selectedKey b f = selectedKey b g ↔ Clash b f g)) ∧
    ∃ descriptors, (selectFiles config base files tree).result = .ok descriptors ∧
      SelectedAs tree b places descriptors ∧
      ∀ (registry : Registry) (store : Option TagStore),
        Gathers b places (Catalog.build registry store descriptors).1
          (Catalog.build registry store descriptors).2 := by
  have directory := linkless.stands_of_find based
  have selected : SelectedAs tree b places _ := yields_videos linkless stand videos
  exact ⟨fun f mf g mg => stand.key_eq_iff linkless directory mf mg, _,
    result_selectFiles linkless based known stand.zeros, selected,
    gathers_build linkless stand directory apart selected⟩

/-- The two videos of one name, and one in the subdirectory. -/
def namesakes : List Path := [⟨"", ["clip.mp4"]⟩, ⟨"/", ["lib", "trip", "day1.MP4"]⟩,
  ⟨"", ["..", "clip.mp4"]⟩]

def namesakePlaces : List Place := [["lib", "clip.mp4"], ["lib", "trip", "day1.MP4"], ["clip.mp4"]]

theorem namesakes_stand : StandAt album namesakes namesakePlaces :=
  .cons ⟨_, _, rfl⟩ (.cons ⟨_, _, rfl⟩ (.cons ⟨_, _, rfl⟩ .nil))

/-- The video beside the library is dropped, since one of its name lies in the library. -/
theorem selection_keeps_first_in_album :
    StandAt album namesakes namesakePlaces ∧ namesakePlaces.Nodup ∧
    selectedKey ["lib"] ["lib", "clip.mp4"] = selectedKey ["lib"] ["clip.mp4"] ∧
    ∃ descriptors, (selectFiles none albumRoot namesakes album).result = .ok descriptors ∧
      Gathers ["lib"] namesakePlaces (Catalog.build {} none descriptors).1
        (Catalog.build {} none descriptors).2 := by
  have distinct : namesakePlaces.Nodup := by decide
  have based : album.find true albumRoot = .ok (.present ["lib"] .directory) := rfl
  have known : configuredExtensions none = .ok videoExtensions := rfl
  obtain ⟨keys, descriptors, selected, -, gathered⟩ :=
    selection_keeps_first_namesakes album_linkless based known namesakes_stand distinct
      (by decide +kernel)
  have clash : Clash ["lib"] ["lib", "clip.mp4"] ["clip.mp4"] := by
    refine ⟨rfl, ?_, ?_, ?_⟩ <;> decide
  have shared := (keys ["lib", "clip.mp4"] (by decide) ["clip.mp4"] (by decide) (by decide)).2 clash
  exact ⟨namesakes_stand, distinct, shared, descriptors, selected, gathered {} none⟩

/-- Two different videos, one in the library and one beside it, are selected under one relative
path, and the catalog has the first of them alone. -/
theorem namesakes_share_path :
    album.find true ⟨"/", ["lib", "clip.mp4"]⟩ =
      .ok (.present ["lib", "clip.mp4"] (.file [1, 2] .zero)) ∧
    album.find true ⟨"/", ["clip.mp4"]⟩ = .ok (.present ["clip.mp4"] (.file [4] .zero)) ∧
    ∃ d e, (selectFiles none ⟨"/", ["lib"]⟩ [⟨"/", ["lib", "clip.mp4"]⟩, ⟨"/", ["clip.mp4"]⟩]
        album).result = .ok [d, e] ∧
      d.source = ⟨"/", ["lib", "clip.mp4"]⟩ ∧ e.source = ⟨"/", ["clip.mp4"]⟩ ∧
      d.relativePath = "clip.mp4" ∧ e.relativePath = "clip.mp4" ∧
      (Catalog.build {} none [d, e]).2.items.map (·.source) = [d.source] := by
  refine ⟨rfl, rfl, _, _, rfl, rfl, rfl, rfl, rfl, by decide +kernel⟩

end VideoCatalog
