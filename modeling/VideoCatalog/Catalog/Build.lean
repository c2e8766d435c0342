import VideoCatalog.Handles.Registry
import VideoCatalog.Tags.Store

/-!
# Catalogs

A catalog is the list of the items of one scan. Their relative paths are pairwise distinct.

* `Catalog.make`: a catalog of given items.
* `Catalog.build`: the catalog of descriptors, with one handle on content to each item;
  `Catalog.Built.content?` is what such a handle leases.
* `Catalog.get?`, `Catalog.require`, `Catalog.itemAt`, `Catalog.slice`: the items by path and place.
-/

namespace VideoCatalog

/-- The items of one scan. -/
structure Catalog where
  items : List Item := []
deriving DecidableEq, Repr, Inhabited

/-- What building a catalog leaves: the registry, the items, the content that each new handle
leases, and the log. -/
structure Catalog.Built where
  registry : Registry
  items : List Item
  leases : List (Nat × Content)
  log : List Record

namespace Catalog

/-- The relative paths of a catalog. -/
def paths (catalog : Catalog) : List String := catalog.items.map (·.relativePath)

/-- Whether two elements of a list are equal. -/
def repeats : List String → Bool
  | [] => false
  | p :: rest => rest.contains p || repeats rest

/-- The catalog of some items, refused if two of them share a path. -/
def make (items : List Item) : Except Failure Catalog :=
  if repeats (items.map (·.relativePath)) then .error .duplicatePaths else .ok ⟨items⟩

/-- Adds the item of a descriptor, with a handle on its content and the stored tags, unless
its path was seen before. -/
def addDescriptor (tagsOf : String → List String) (built : Built) (d : Descriptor) : Built :=
  if built.items.any (·.relativePath == d.relativePath) then
    { built with
      log := built.log ++ [.warning ("Duplicate relative path skipped: " ++ d.relativePath)] }
  else
    let (handle, registry) := built.registry.acquire Registry.contentKind none
    let item : Item :=
      { Item.ofDescriptor d with content := some handle.id, tags := tagsOf d.relativePath }
    { built with
      registry := registry
      items := built.items ++ [item]
      leases := built.leases ++ [(handle.id, ⟨d.source, false⟩)] }

/-- The items of descriptors, the first of each path. -/
def buildItems (registry : Registry) (tagsOf : String → List String)
    (descriptors : List Descriptor) : Built :=
  descriptors.foldl (addDescriptor tagsOf) ⟨registry, [], [], []⟩

/-- The content that a new handle leases, as it stands now. -/
def Built.content? (built : Built) (id : Nat) : Option Content :=
  (built.leases.lookup id).map fun content =>
    if built.registry.isClosed id then content.close else content

/-- The catalog of descriptors. -/
def build (registry : Registry) (store : Option TagStore) (descriptors : List Descriptor) :
    Built × Catalog :=
  let tagsOf (path : String) : List String := (store.map (·.tagsFor path)).getD []
  let built := buildItems registry tagsOf descriptors
  (built, ⟨built.items⟩)

/-- The item with a path. -/
def get? (catalog : Catalog) (path : String) : Option Item :=
  catalog.items.find? (·.relativePath == path)

/-- The item with a path, which has to be there. -/
def require (catalog : Catalog) (path : String) : Except Failure Item :=
  match catalog.get? path with
  | some item => .ok item
  | none => .error (.unknownItem path)

/-- The place that a number stands for; negative ones count from the end. -/
def place? (size : Nat) (i : Int) : Option Nat :=
  let j := if i < 0 then i + size else i
  if 0 ≤ j ∧ j < size then some j.toNat else none

/-- The item at a place. -/
def itemAt (catalog : Catalog) (i : Int) : Except Failure Item :=
  match (place? catalog.items.length i).bind (catalog.items[·]?) with
  | some item => .ok item
  | none => .error .indexOutOfRange

/-- An end of a slice, moved into the range from `low` to `high`. -/
def clampEnd (size : Nat) (low high : Int) (given : Option Int) (default : Int) : Int :=
  match given with
  | none => default
  | some i =>
    let j := if i < 0 then i + size else i
    max low (min high j)

/-- The places from one end of a slice to the other. -/
def slicePlaces (size : Nat) (start stop : Option Int) (step : Int) : List Nat :=
  let n : Int := size
  let (first, last) :=
    if 0 < step then (clampEnd size 0 n start 0, clampEnd size 0 n stop n)
    else (clampEnd size (-1) (n - 1) start (n - 1), clampEnd size (-1) (n - 1) stop (-1))
  let count := if 0 < step then (last - first + step - 1) / step
    else (first - last + -step - 1) / -step
  (List.range count.toNat).map fun (k : Nat) => (first + step * (k : Int)).toNat

/-- Every `step`-th item between two ends. Without a step there is no next item. -/
def slice (catalog : Catalog) (start stop : Option Int) (step : Int) :
    Except Failure (List Item) :=
  if step = 0 then .error .zeroStep
  else .ok ((slicePlaces catalog.items.length start stop step).filterMap (catalog.items[·]?))

/-- Changes the items of a catalog one by one. -/
def mapItems (catalog : Catalog) (f : Item → Item) : Catalog := ⟨catalog.items.map f⟩

/-- Puts an item in the place of the one with its path. -/
def update (catalog : Catalog) (item : Item) : Catalog :=
  catalog.mapItems fun old => if old.relativePath == item.relativePath then item else old

end Catalog

end VideoCatalog
