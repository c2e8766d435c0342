import VideoCatalog.Catalog.Build
import VideoCatalog.Proofs.Handles.Ownership

/-!
# What a catalog is built of

* `nodup_buildItems`: no two items share a path.
* `tags_buildItems`: every item has the tags of its path.
* `fresh_buildItems`: the handles that are new are leases on content, and none has been closed.
* `getElem?_update`, `map_update`: an item that is edited stands in its place, and the others stay.
-/

namespace VideoCatalog.Catalog

variable {registry : Registry} {tagsOf : String → List String} {descriptors : List Descriptor}

/-- What adding descriptors one by one keeps. -/
theorem buildItems_induction {P : Built → Prop}
    (add : ∀ built d, P built → P (addDescriptor tagsOf built d))
    (start : P ⟨registry, [], [], []⟩) : P (buildItems registry tagsOf descriptors) := by
  have adding (built : Built) (kept : P built) :
      P (descriptors.foldl (addDescriptor tagsOf) built) := by
    induction descriptors generalizing built with
    | nil => exact kept
    | cons d rest ih => exact ih _ (add built d kept)
  exact adding _ start

theorem nodup_buildItems :
    ((buildItems registry tagsOf descriptors).items.map (·.relativePath)).Nodup := by
  refine buildItems_induction (P := fun built => (built.items.map (·.relativePath)).Nodup)
    (fun built d distinct => ?_) List.nodup_nil
  unfold addDescriptor
  split
  · exact distinct
  · next new =>
    rw [List.map_append]
    refine List.Nodup.append distinct (List.nodup_singleton _) fun path old same => ?_
    obtain ⟨item, among, rfl⟩ := List.mem_map.1 old
    have path : item.relativePath = d.relativePath := List.mem_singleton.1 same
    exact new (List.any_eq_true.2 ⟨item, among, beq_iff_eq.2 path⟩)

theorem tags_buildItems :
    ∀ item ∈ (buildItems registry tagsOf descriptors).items,
      item.tags = tagsOf item.relativePath := by
  refine buildItems_induction
    (P := fun built => ∀ item ∈ built.items, item.tags = tagsOf item.relativePath)
    (fun built d tagged => ?_) (by simp)
  unfold addDescriptor
  split
  · exact tagged
  · intro item among
    rcases List.mem_append.1 among with old | new
    · exact tagged item old
    · obtain rfl := List.mem_singleton.1 new
      rfl

theorem fresh_buildItems :
    (∀ h ∈ (buildItems registry tagsOf descriptors).registry.registered,
      h ∈ registry.registered ∨ h.kind = Registry.contentKind ∧ h.Mild) ∧
    (buildItems registry tagsOf descriptors).registry.closings = registry.closings := by
  refine buildItems_induction
    (P := fun built => (∀ h ∈ built.registry.registered,
      h ∈ registry.registered ∨ h.kind = Registry.contentKind ∧ h.Mild) ∧
      built.registry.closings = registry.closings)
    (fun built d fresh => ?_) ⟨fun h mem => .inl mem, rfl⟩
  unfold addDescriptor
  split
  · exact fresh
  · refine ⟨fun h mem => ?_, fresh.2⟩
    rcases List.mem_append.1 mem with old | new
    · exact fresh.1 h old
    · obtain rfl := List.mem_singleton.1 new
      exact .inr ⟨rfl, fun f raised => by cases raised⟩

/-- What is edited stands in the place of the item with its path, and the others stay. -/
theorem getElem?_update {catalog : Catalog} {path : String} {item : Item} (edited : Item)
    (distinct : (catalog.items.map (·.relativePath)).Nodup) (found : catalog.get? path = some item)
    (same : edited.relativePath = item.relativePath) (k : Nat) :
    (catalog.update edited).items[k]? =
      if catalog.items[k]? = some item then some edited else catalog.items[k]? := by
  simp only [update, mapItems, List.getElem?_map]
  cases hat : catalog.items[k]? with
  | none => rfl
  | some old =>
    rw [Option.map_some]
    have among : item ∈ catalog.items := List.mem_of_find?_eq_some found
    by_cases here : old.relativePath = item.relativePath
    · -- Only one item has the path.
      obtain rfl : old = item :=
        List.inj_on_of_nodup_map distinct (List.mem_of_getElem? hat) among here
      rw [if_pos rfl, if_pos (by simp [same])]
    · have other : old ≠ item := by
        rintro rfl
        exact here rfl
      rw [if_neg (by simpa [same] using here), if_neg (by simpa using other)]

/-- What an edited item keeps, the catalog keeps at every place. -/
theorem map_update {β : Type} {catalog : Catalog} {path : String} {item : Item} (edited : Item)
    (distinct : (catalog.items.map (·.relativePath)).Nodup) (found : catalog.get? path = some item)
    (same : edited.relativePath = item.relativePath) (f : Item → β) (kept : f edited = f item) :
    (catalog.update edited).items.map f = catalog.items.map f := by
  refine List.ext_getElem? fun k => ?_
  rw [List.getElem?_map, List.getElem?_map, getElem?_update edited distinct found same]
  split
  · next here => rw [here, Option.map_some, Option.map_some, kept]
  · rfl

end VideoCatalog.Catalog
