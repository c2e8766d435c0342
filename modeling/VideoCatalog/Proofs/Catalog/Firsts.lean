import Mathlib.Data.List.Induction
import VideoCatalog.Proofs.Catalog.Building
import VideoCatalog.Proofs.Handles.History
import VideoCatalog.Proofs.Lookup

/-!
# The first descriptor of each path

A catalog keeps a descriptor unless one before it has the same path.

* `repeatedAt`, `splitOff`, `firsts`, `others`: the descriptors that are kept, and the other ones.
* `firsts_concat`, `others_concat`: what one more descriptor adds to them.
* `furnished`, `leaseOf`, `skipped`: the item of a kept descriptor, its handle, and the warning
  about another one.
* `buildItems_eq`: all that building a catalog leaves.
* `make_eq_ok_iff`, `make_eq_error_iff`: which items make a catalog.
* `get?_eq_some_iff`, `get?_eq_none_iff`: what is found under a path; `exists_get?_build` says that
  there is an item with the stored tags for every path that occurs.
* `Stocked`, `builds_firsts`: the main statement.
-/

namespace VideoCatalog.Catalog

variable {registry : Registry} {descriptors : List Descriptor} {d : Descriptor}

/-! ### First descriptors -/

/-- Whether a descriptor before a place has the path of the one at that place. -/
def repeatedAt (descriptors : List Descriptor) (place : Nat) (d : Descriptor) : Bool :=
  (descriptors.take place).any (·.relativePath == d.relativePath)

/-- The descriptors whose path has occurred before them, or those whose path has not, in their
order. -/
def splitOff (seen : Bool) (descriptors : List Descriptor) : List Descriptor :=
  (descriptors.zipIdx.filter fun e => repeatedAt descriptors e.2 e.1 == seen).map (·.1)

/-- The first descriptor of each path. -/
def firsts (descriptors : List Descriptor) : List Descriptor := splitOff false descriptors

/-- The descriptors that are not the first of their path. -/
def others (descriptors : List Descriptor) : List Descriptor := splitOff true descriptors

/-- What comes later makes no difference. -/
theorem repeatedAt_concat {e : Descriptor × Nat} (mem : e ∈ descriptors.zipIdx) :
    repeatedAt (descriptors ++ [d]) e.2 e.1 = repeatedAt descriptors e.2 e.1 := by
  have within : e.2 < descriptors.length := List.snd_lt_of_mem_zipIdx mem
  rw [repeatedAt, repeatedAt, List.take_append_of_le_length (Nat.le_of_lt within)]

theorem splitOff_concat (seen : Bool) (descriptors : List Descriptor) (d : Descriptor) :
    splitOff seen (descriptors ++ [d]) = splitOff seen descriptors ++
      if descriptors.any (·.relativePath == d.relativePath) = seen then [d] else [] := by
  rw [splitOff, List.zipIdx_append, List.filter_append, List.map_append]
  congr 1
  · refine congrArg _ (List.filter_congr fun e mem => ?_)
    rw [repeatedAt_concat mem]
  · have last : repeatedAt (descriptors ++ [d]) descriptors.length d =
        descriptors.any (·.relativePath == d.relativePath) := by
      rw [repeatedAt, List.take_left]
    rw [List.zipIdx_singleton, List.filter_singleton, Nat.zero_add, last]
    cases descriptors.any (·.relativePath == d.relativePath) <;> cases seen <;> rfl

theorem firsts_concat (descriptors : List Descriptor) (d : Descriptor) :
    firsts (descriptors ++ [d]) = firsts descriptors ++
      if descriptors.any (·.relativePath == d.relativePath) then [] else [d] := by
  rw [firsts, splitOff_concat, ← firsts]
  cases descriptors.any (·.relativePath == d.relativePath) <;> rfl

theorem others_concat (descriptors : List Descriptor) (d : Descriptor) :
    others (descriptors ++ [d]) = others descriptors ++
      if descriptors.any (·.relativePath == d.relativePath) then [d] else [] :=
  splitOff_concat true descriptors d

theorem mem_splitOff {seen : Bool} : d ∈ splitOff seen descriptors ↔
    ∃ k, descriptors[k]? = some d ∧ repeatedAt descriptors k d = seen := by
  simp only [splitOff, List.mem_map, List.mem_filter, Prod.exists, List.mem_zipIdx_iff_getElem?,
    beq_iff_eq]
  constructor
  · rintro ⟨e, k, ⟨at_k, seen⟩, rfl⟩
    exact ⟨k, at_k, seen⟩
  · rintro ⟨k, at_k, seen⟩
    exact ⟨d, k, ⟨at_k, seen⟩, rfl⟩

/-- A path is repeated if a descriptor before has it. -/
theorem repeatedAt_iff {k : Nat} : repeatedAt descriptors k d = true ↔
    ∃ j e, j < k ∧ descriptors[j]? = some e ∧ e.relativePath = d.relativePath := by
  simp only [repeatedAt, List.any_eq_true, beq_iff_eq, List.mem_take_iff_getElem]
  constructor
  · rintro ⟨e, ⟨j, bound, rfl⟩, same⟩
    exact ⟨j, _, Nat.lt_of_lt_of_le bound (Nat.min_le_left ..), List.getElem?_eq_getElem _, same⟩
  · rintro ⟨j, e, before, at_j, same⟩
    obtain ⟨within, rfl⟩ := List.getElem?_eq_some_iff.1 at_j
    exact ⟨_, ⟨j, Nat.lt_min.2 ⟨before, within⟩, rfl⟩, same⟩

theorem firsts_sublist (descriptors : List Descriptor) :
    (firsts descriptors).Sublist descriptors := by
  have kept : (firsts descriptors).Sublist (descriptors.zipIdx.map (·.1)) :=
    List.filter_sublist.map _
  rwa [List.zipIdx_map_fst] at kept

/-- Every path that occurs has a first descriptor. -/
theorem mem_paths_firsts (descriptors : List Descriptor) (path : String) :
    path ∈ (firsts descriptors).map (·.relativePath) ↔
      path ∈ descriptors.map (·.relativePath) := by
  induction descriptors using List.reverseRecOn with
  | nil => rfl
  | append_singleton descriptors d ih =>
    rw [firsts_concat, List.map_append, List.map_append, List.mem_append, List.mem_append, ih]
    split
    · next seen =>
      obtain ⟨e, mem, same⟩ := List.any_eq_true.1 seen
      have known : d.relativePath ∈ descriptors.map (·.relativePath) :=
        List.mem_map.2 ⟨e, mem, eq_of_beq same⟩
      simp only [List.map_nil, List.not_mem_nil, or_false, List.map_cons, List.mem_singleton]
      exact ⟨.inl, fun either => either.elim id fun same => same ▸ known⟩
    · rfl

/-- A path is seen before exactly if it has a first descriptor. -/
theorem any_firsts (descriptors : List Descriptor) (path : String) :
    (firsts descriptors).any (·.relativePath == path) =
      descriptors.any (·.relativePath == path) := by
  have known := mem_paths_firsts descriptors path
  rw [Bool.eq_iff_iff]
  simpa [List.any_eq_true] using known

/-! ### What is built -/

/-- The item of a descriptor, with the number of its handle and its tags, and nothing learned. -/
def furnished (tagsOf : String → List String) (id : Nat) (d : Descriptor) : Item where
  name := d.name
  relativePath := d.relativePath
  size := d.size
  modified := d.modified
  mime := d.mime
  source := d.source
  content := some id
  duration := none
  thumbnail := none
  tags := tagsOf d.relativePath

/-- The handle on the content of an item. -/
def leaseOf (id : Nat) : Handle := ⟨id, Registry.contentKind, none⟩

/-- The warning about a descriptor that is not the first of its path. -/
def skipped (d : Descriptor) : Record :=
  .warning ("Duplicate relative path skipped: " ++ d.relativePath)

/-- All that building a catalog leaves. The handles have the numbers that come next. -/
theorem buildItems_eq (registry : Registry) (tagsOf : String → List String)
    (descriptors : List Descriptor) :
    buildItems registry tagsOf descriptors =
      { registry := { registry with
          issued := registry.issued + (firsts descriptors).length
          registered := registry.registered ++
            (firsts descriptors).mapIdx fun k _ => leaseOf (registry.issued + k + 1) }
        items := (firsts descriptors).mapIdx fun k d => furnished tagsOf (registry.issued + k + 1) d
        leases := (firsts descriptors).mapIdx fun k d =>
          (registry.issued + k + 1, ⟨d.source, false⟩)
        log := (others descriptors).map skipped } := by
  induction descriptors using List.reverseRecOn with
  | nil => simp [buildItems, firsts, others, splitOff]
  | append_singleton descriptors d ih =>
    have seen : ((firsts descriptors).mapIdx fun k d =>
        furnished tagsOf (registry.issued + k + 1) d).any (·.relativePath == d.relativePath) =
          descriptors.any (·.relativePath == d.relativePath) := by
      rw [← any_firsts, Bool.eq_iff_iff, List.any_eq_true, List.any_eq_true]
      simp [furnished, List.mem_iff_getElem]
    have next : buildItems registry tagsOf (descriptors ++ [d]) =
        addDescriptor tagsOf (buildItems registry tagsOf descriptors) d := by
      rw [buildItems, List.foldl_append]
      rfl
    rw [next, ih, addDescriptor, firsts_concat, others_concat]
    dsimp only
    rw [seen]
    cases descriptors.any (·.relativePath == d.relativePath) with
    | true => simp [skipped]
    | false =>
      simp [Registry.acquire, leaseOf, furnished, Item.ofDescriptor, List.mapIdx_append,
        Nat.add_assoc]

/-- What a new handle leases is open, unless its number was given out and closed before. -/
theorem content?_buildItems (sound : registry.Sound) (tagsOf : String → List String) {k : Nat}
    (first : (firsts descriptors)[k]? = some d) :
    (buildItems registry tagsOf descriptors).content? (registry.issued + k + 1) =
      some ⟨d.source, false⟩ := by
  let leases : List (Nat × Content) := (firsts descriptors).mapIdx fun k d =>
    (registry.issued + k + 1, ⟨d.source, false⟩)
  have distinct : (leases.map (·.1)).Nodup := by
    refine List.nodup_iff_getElem?_ne_getElem?.2 fun i j less within => ?_
    have within : j < (firsts descriptors).length := by simpa [leases] using within
    have within' : i < (firsts descriptors).length := Nat.lt_trans less within
    have apart : i ≠ j := Nat.ne_of_lt less
    simp [leases, within, within', apart]
  have listed : (registry.issued + k + 1, ⟨d.source, false⟩) ∈ leases := by
    refine List.mem_of_getElem? (i := k) ?_
    simp [leases, first]
  have unclosed : registry.isClosed (registry.issued + k + 1) = false := by
    refine Bool.eq_false_iff.2 fun closed => ?_
    have := sound.closed_le _ (List.contains_iff_mem.1 closed)
    omega
  have found : leases.lookup (registry.issued + k + 1) = some ⟨d.source, false⟩ :=
    (lookup_eq_some_iff_mem distinct).2 listed
  rw [buildItems_eq, Built.content?, show List.lookup _ leases = _ from found]
  exact congrArg some (if_neg (Bool.eq_false_iff.1 unclosed))

/-! ### Catalogs of given items -/

/-- Two of some items have the same path. -/
def SharePath (items : List Item) : Prop :=
  ∃ (j k : Nat) (a b : Item), j < k ∧ items[j]? = some a ∧ items[k]? = some b ∧
    a.relativePath = b.relativePath

theorem repeats_iff (paths : List String) : repeats paths = true ↔ ¬paths.Nodup := by
  induction paths with
  | nil => simp [repeats]
  | cons p rest ih =>
    rw [repeats, Bool.or_eq_true, List.contains_iff_mem, ih, List.nodup_cons]
    tauto

theorem sharePath_iff (items : List Item) :
    SharePath items ↔ ¬(items.map (·.relativePath)).Nodup := by
  rw [List.nodup_iff_getElem?_ne_getElem?]
  push Not
  constructor
  · rintro ⟨j, k, a, b, less, hj, hk, same⟩
    obtain ⟨within, -⟩ := List.getElem?_eq_some_iff.1 hk
    exact ⟨j, k, less, by simpa using within, by simp [hj, hk, same]⟩
  · rintro ⟨j, k, less, within, same⟩
    have within : k < items.length := by simpa using within
    have within' : j < items.length := Nat.lt_trans less within
    refine ⟨j, k, items[j], items[k], less, by simp, by simp, ?_⟩
    simpa [within, within'] using same

theorem make_eq_error_iff (items : List Item) :
    make items = .error .duplicatePaths ↔ SharePath items := by
  rw [sharePath_iff, ← repeats_iff, make]
  split
  · next shared => exact iff_of_true rfl shared
  · next apart => exact iff_of_false (by simp) apart

theorem make_eq_ok_iff (items : List Item) : make items = .ok ⟨items⟩ ↔ ¬SharePath items := by
  rw [sharePath_iff, ← repeats_iff, make]
  split
  · next shared => exact iff_of_false (by simp) (not_not.2 shared)
  · next apart => exact iff_of_true rfl apart

/-! ### Items by path -/

section Lookup

variable {catalog : Catalog} {path : String} {item : Item}

theorem get?_eq_some_iff (distinct : (catalog.items.map (·.relativePath)).Nodup) :
    catalog.get? path = some item ↔ item ∈ catalog.items ∧ item.relativePath = path := by
  constructor
  · intro found
    exact ⟨List.mem_of_find?_eq_some found, by simpa using List.find?_some found⟩
  · rintro ⟨among, rfl⟩
    cases found : catalog.get? item.relativePath with
    | none => exact absurd (beq_self_eq_true _) (List.find?_eq_none.1 found item among)
    | some other =>
      have same : other.relativePath = item.relativePath := by simpa using List.find?_some found
      rw [List.inj_on_of_nodup_map distinct (List.mem_of_find?_eq_some found) among same]

theorem get?_eq_none_iff : catalog.get? path = none ↔ path ∉ catalog.paths := by
  rw [get?, List.find?_eq_none, paths, List.mem_map]
  simp

theorem require_eq_ok_iff : catalog.require path = .ok item ↔ catalog.get? path = some item := by
  unfold require
  split
  · next found => rw [found, Except.ok.injEq, Option.some.injEq]
  · next missing => simp [missing]

theorem require_of_missing (missing : catalog.get? path = none) :
    catalog.require path = .error (.unknownItem path) := by
  rw [require, missing]

end Lookup

/-- What items keep of their descriptors, a catalog keeps of the first ones. -/
theorem map_items_build {β : Type} (f : Item → β) (g : Descriptor → β)
    (same : ∀ tagsOf id d, f (furnished tagsOf id d) = g d) (registry : Registry)
    (store : Option TagStore) (descriptors : List Descriptor) :
    (build registry store descriptors).2.items.map f = (firsts descriptors).map g := by
  rw [build, buildItems_eq]
  exact List.ext_getElem? fun k => by simp [same, Function.comp_def]

/-- For every path that occurs there is an item, with the stored tags. -/
theorem exists_get?_build (registry : Registry) (store : Option TagStore)
    (listed : d ∈ descriptors) :
    ∃ item, (build registry store descriptors).2.get? d.relativePath = some item ∧
      item.tags = (store.map (·.tagsFor d.relativePath)).getD [] := by
  have known : d.relativePath ∈ (build registry store descriptors).2.paths := by
    rw [paths, map_items_build _ (·.relativePath) fun _ _ _ => rfl]
    exact (mem_paths_firsts descriptors _).2 (List.mem_map_of_mem listed)
  obtain ⟨item, among, same⟩ := List.mem_map.1 known
  refine ⟨item, (get?_eq_some_iff nodup_buildItems).2 ⟨among, same⟩, ?_⟩
  rw [← same]
  exact tags_buildItems item among

/-! ### The main statement -/

/-- What building a catalog of descriptors leaves. -/
structure Stocked (registry : Registry) (tagsOf : String → List String)
    (descriptors : List Descriptor) (built : Built) (catalog : Catalog) : Prop where
  /-- The items that were built make a catalog. -/
  made : make built.items = .ok catalog
  /-- There is one item to each first descriptor, in their order. -/
  items : catalog.items = (firsts descriptors).mapIdx fun k d =>
    furnished tagsOf (registry.issued + k + 1) d
  /-- No handle is lost, and each item has a new one. -/
  registered : built.registry.registered = registry.registered ++
    (firsts descriptors).mapIdx fun k _ => leaseOf (registry.issued + k + 1)
  /-- The numbers of the handles that were there are lower. -/
  earlier : ∀ h ∈ registry.registered, h.id ≤ registry.issued
  /-- No other numbers have been given out. -/
  issued : built.registry.issued = registry.issued + (firsts descriptors).length
  /-- Nothing has been closed. -/
  closings : built.registry.closings = registry.closings
  /-- The handle of an item is on the content of its descriptor, which is open. -/
  leased : ∀ k d, (firsts descriptors)[k]? = some d →
    built.content? (registry.issued + k + 1) = some ⟨d.source, false⟩
  /-- There is one warning for each other descriptor, in their order. -/
  warned : built.log = (others descriptors).map skipped
  /-- Each path that occurs has one item. -/
  one : ∀ path ∈ descriptors.map (·.relativePath),
    ∃! item, item ∈ catalog.items ∧ item.relativePath = path
  /-- That item is found under the path. -/
  found : ∀ path item, item ∈ catalog.items ∧ item.relativePath = path ↔
    catalog.get? path = some item
  /-- It is the answer when it has to be there. -/
  required : ∀ path item, item ∈ catalog.items ∧ item.relativePath = path ↔
    catalog.require path = .ok item
  /-- Nothing is found under another path. -/
  missing : ∀ path, path ∉ descriptors.map (·.relativePath) →
    catalog.get? path = none ∧ catalog.require path = .error (.unknownItem path)

/-- Whatever has happened to the registry and whatever the store holds: the catalog of any
descriptors has the first one of each path, each with an open handle of its own. Items that are
given make a catalog unless two of them share a path. -/
theorem builds_firsts (calls : List Registry.Call) (store : Option TagStore)
    (descriptors : List Descriptor) :
    (let registry := Registry.after {} calls;
      Stocked registry (fun path => (store.map (·.tagsFor path)).getD []) descriptors
        (build registry store descriptors).1 (build registry store descriptors).2) ∧
    ∀ items, (make items = .error .duplicatePaths ↔ SharePath items) ∧
      (make items = .ok ⟨items⟩ ↔ ¬SharePath items) := by
  refine ⟨?_, fun items => ⟨make_eq_error_iff items, make_eq_ok_iff items⟩⟩
  intro registry
  let tagsOf (path : String) : List String := (store.map (·.tagsFor path)).getD []
  have sound : registry.Sound := Registry.Sound.after Registry.Reached.fresh.sound calls
  have built := buildItems_eq registry tagsOf descriptors
  have distinct : ((build registry store descriptors).2.items.map (·.relativePath)).Nodup :=
    @nodup_buildItems registry tagsOf descriptors
  have items : (build registry store descriptors).2.items = (firsts descriptors).mapIdx fun k d =>
      furnished tagsOf (registry.issued + k + 1) d := congrArg Built.items built
  have paths : (build registry store descriptors).2.paths =
      (firsts descriptors).map (·.relativePath) := by
    rw [Catalog.paths, items]
    exact List.ext_getElem? fun k => by simp [furnished, Function.comp_def]
  have known (path : String) : path ∈ (build registry store descriptors).2.paths ↔
      path ∈ descriptors.map (·.relativePath) := paths ▸ mem_paths_firsts descriptors path
  exact {
    made := (make_eq_ok_iff _).2 fun shared => (sharePath_iff _).1 shared distinct
    items := items
    registered := congrArg (·.registry.registered) built
    earlier := sound.registered_le
    issued := congrArg (·.registry.issued) built
    closings := congrArg (·.registry.closings) built
    leased := fun k d first => content?_buildItems sound tagsOf first
    warned := congrArg Built.log built
    one := fun path mem => by
      obtain ⟨item, among, same⟩ := List.mem_map.1 ((known path).2 mem)
      exact ⟨item, ⟨among, same⟩, fun other ⟨among', same'⟩ =>
        List.inj_on_of_nodup_map distinct among' among (same'.trans same.symm)⟩
    found := fun path item => (get?_eq_some_iff distinct).symm
    required := fun path item => (require_eq_ok_iff.trans (get?_eq_some_iff distinct)).symm
    missing := fun path absent => by
      have missing := get?_eq_none_iff.2 fun mem => absent ((known path).1 mem)
      exact ⟨missing, require_of_missing missing⟩ }

end VideoCatalog.Catalog
