import VideoCatalog.Catalog.Build
import VideoCatalog.Enrichment.Pass
import VideoCatalog.Proofs.Enrichment.Extraction

/-!
# The handles of a pass

* `Leased`: every item holds a handle of its own on its content; `leased_buildItems` says that
  catalogs are built so.
* `Furnished`: what a pass starts with: every item holds such a handle or none.
* `Holds`: what the registry holds in the midst of a pass; `Holds.acquire` and `Holds.without`
  say how opening and ending an extraction change it.
* `Extractor.MildFor`: what the sessions of a pass may raise when they are closed.
* `Extractor.openItem_spec`, `Extractor.finishItem_spec`: the two halves of an extraction.
-/

namespace VideoCatalog

/-- Every item holds a handle of its own on its content. No other handles on contents and no
decode sessions are out. -/
structure Leased (registry : Registry) (items : List Item) : Prop where
  sound : registry.Sound
  apart : (items.map (·.content)).Nodup
  lease : ∀ item ∈ items, ∃ h ∈ registry.registered,
    item.content = some h.id ∧ h.kind = Registry.contentKind ∧ h.Mild
  owned : ∀ h ∈ registry.registered, h.kind = Registry.contentKind →
    ∃ item ∈ items, item.content = some h.id
  quiet : ∀ h ∈ registry.registered, h.kind ≠ Registry.decodeKind

/-- Every item holds a handle of its own on its content, or none. No other handles on contents and
no decode sessions are out. -/
structure Furnished (registry : Registry) (items : List Item) : Prop where
  sound : registry.Sound
  apart : (items.filterMap (·.content)).Nodup
  lease : ∀ item ∈ items, ∀ id, item.content = some id → ∃ h ∈ registry.registered,
    h.id = id ∧ h.kind = Registry.contentKind ∧ h.Mild
  owned : ∀ h ∈ registry.registered, h.kind = Registry.contentKind →
    ∃ item ∈ items, item.content = some h.id
  quiet : ∀ h ∈ registry.registered, h.kind ≠ Registry.decodeKind

/-- What the registry holds when the items at some places have been extracted and some sessions
are open. -/
structure Holds (items : List Item) (done sessions : List Nat) (r : Registry) : Prop where
  sound : r.Sound
  lease : ∀ (k : Nat) item id, items[k]? = some item → k ∉ done → item.content = some id →
    ∃ h ∈ r.registered, h.id = id ∧ h.kind = Registry.contentKind ∧ h.Mild
  owned : ∀ h ∈ r.registered, h.kind = Registry.contentKind →
    ∃ k item, items[k]? = some item ∧ k ∉ done ∧ item.content = some h.id
  session : ∀ id ∈ sessions, ∃ h ∈ r.registered,
    h.id = id ∧ h.kind = Registry.decodeKind ∧ h.Mild
  opened : ∀ h ∈ r.registered, h.kind = Registry.decodeKind → h.id ∈ sessions
  distinct : sessions.Nodup

theorem kinds_ne : Registry.contentKind ≠ Registry.decodeKind := by decide

variable {registry r : Registry} {items : List Item} {done sessions : List Nat}

theorem Furnished.holds (furnished : Furnished registry items) : Holds items [] [] registry where
  sound := furnished.sound
  lease k item id hat _ held := furnished.lease item (List.mem_of_getElem? hat) id held
  owned h mem kind := by
    obtain ⟨item, among, held⟩ := furnished.owned h mem kind
    obtain ⟨k, hat⟩ := List.mem_iff_getElem?.1 among
    exact ⟨k, item, hat, by simp, held⟩
  session := by simp
  opened h mem kind := absurd kind (furnished.quiet h mem)
  distinct := List.nodup_nil

/-- No content is held at two places. -/
theorem Furnished.place_eq (furnished : Furnished registry items) {j k id : Nat} {a b : Item}
    (hj : items[j]? = some a) (hk : items[k]? = some b) (held : a.content = some id)
    (held' : b.content = some id) : j = k := by
  have apart := List.pairwise_filterMap.1 furnished.apart
  obtain ⟨bound, rfl⟩ := List.getElem?_eq_some_iff.1 hj
  obtain ⟨bound', rfl⟩ := List.getElem?_eq_some_iff.1 hk
  rw [List.pairwise_iff_getElem] at apart
  rcases Nat.lt_trichotomy j k with lt | rfl | lt
  · exact absurd rfl (apart j k bound bound' lt id held id held')
  · rfl
  · exact absurd rfl (apart k j bound' bound lt id held' id held)

theorem Leased.furnished (leased : Leased registry items) : Furnished registry items where
  sound := leased.sound
  apart := by
    have apart : ((items.map (·.content)).filterMap id).Nodup := by
      refine leased.apart.filterMap fun a b content ha hb => ?_
      exact (Option.mem_def.1 ha).trans (Option.mem_def.1 hb).symm
    rwa [List.filterMap_map] at apart
  lease item among id held := by
    obtain ⟨h, registered, held', kind, mild⟩ := leased.lease item among
    exact ⟨h, registered, Option.some.inj (held'.symm.trans held), kind, mild⟩
  owned := leased.owned
  quiet := leased.quiet

/-- An item that is added to a catalog holds a handle of its own. -/
theorem Leased.addDescriptor {tagsOf : String → List String} {built : Catalog.Built}
    (leased : Leased built.registry built.items) (d : Descriptor) :
    Leased (Catalog.addDescriptor tagsOf built d).registry
      (Catalog.addDescriptor tagsOf built d).items := by
  unfold Catalog.addDescriptor
  split
  · exact leased
  · refine ⟨leased.sound.acquire _ _, ?_, fun item among => ?_, fun h mem kind => ?_,
      fun h mem => ?_⟩
    · rw [List.map_append]
      refine List.Nodup.append leased.apart (List.nodup_singleton _) fun content old new => ?_
      obtain ⟨item, among, rfl⟩ := List.mem_map.1 old
      obtain ⟨h, registered, held, -⟩ := leased.lease item among
      have same : some h.id = some (built.registry.issued + 1) :=
        held.symm.trans (by simpa [Registry.acquire] using new)
      have := leased.sound.registered_le h registered
      have := Option.some.inj same
      omega
    · rcases List.mem_append.1 among with among | among
      · obtain ⟨h, registered, held⟩ := leased.lease item among
        exact ⟨h, List.mem_append_left _ registered, held⟩
      · obtain rfl := List.mem_singleton.1 among
        exact ⟨_, List.mem_append_right _ (List.mem_singleton.2 rfl), rfl, rfl, by
          simp [Handle.Mild]⟩
    · rcases List.mem_append.1 mem with mem | mem
      · obtain ⟨item, among, held⟩ := leased.owned h mem kind
        exact ⟨item, List.mem_append_left _ among, held⟩
      · obtain rfl := List.mem_singleton.1 mem
        exact ⟨_, List.mem_append_right _ (List.mem_singleton.2 rfl), rfl⟩
    · rcases List.mem_append.1 mem with mem | mem
      · exact leased.quiet h mem
      · obtain rfl := List.mem_singleton.1 mem
        exact kinds_ne

/-- A catalog that is built when no contents and no sessions are open is ready for a pass. -/
theorem leased_buildItems (sound : registry.Sound)
    (clear : ∀ h ∈ registry.registered, h.kind ≠ Registry.contentKind ∧
      h.kind ≠ Registry.decodeKind) (tagsOf : String → List String)
    (descriptors : List Descriptor) :
    Leased (Catalog.buildItems registry tagsOf descriptors).registry
      (Catalog.buildItems registry tagsOf descriptors).items := by
  have empty : Leased registry [] :=
    ⟨sound, List.nodup_nil, by simp, fun h mem kind => absurd kind (clear h mem).1,
      fun h mem => (clear h mem).2⟩
  have adding (built : Catalog.Built) (leased : Leased built.registry built.items) :
      Leased (descriptors.foldl (Catalog.addDescriptor tagsOf) built).registry
        (descriptors.foldl (Catalog.addDescriptor tagsOf) built).items := by
    induction descriptors generalizing built with
    | nil => exact leased
    | cons d rest ih => exact ih _ (leased.addDescriptor d)
  exact adding ⟨registry, [], [], []⟩ empty

theorem Holds.perm {done' sessions' : List Nat} (holds : Holds items done sessions r)
    (same : done.Perm done') (alike : sessions.Perm sessions') : Holds items done' sessions' r where
  sound := holds.sound
  lease k item id hat left := holds.lease k item id hat fun mem => left (same.mem_iff.1 mem)
  owned h mem kind := by
    obtain ⟨k, item, hat, left, held⟩ := holds.owned h mem kind
    exact ⟨k, item, hat, fun mem => left (same.mem_iff.2 mem), held⟩
  session id mem := holds.session id (alike.mem_iff.2 mem)
  opened h mem kind := alike.mem_iff.1 (holds.opened h mem kind)
  distinct := alike.nodup_iff.1 holds.distinct

/-- A session that is opened gets a number that no other has. -/
theorem Holds.acquire {closing : Option Failure} (holds : Holds items done sessions r)
    (mild : ∀ f, closing = some f → f.isSystem = true) :
    Holds items done ((r.issued + 1) :: sessions)
      (r.acquire Registry.decodeKind closing).2 where
  sound := holds.sound.acquire _ _
  lease k item id hat left held := by
    obtain ⟨h, mem, named⟩ := holds.lease k item id hat left held
    exact ⟨h, List.mem_append_left _ mem, named⟩
  owned h mem kind := by
    rcases List.mem_append.1 mem with mem | mem
    · exact holds.owned h mem kind
    · obtain rfl := List.mem_singleton.1 mem
      exact absurd kind.symm kinds_ne
  session id mem := by
    rcases List.mem_cons.1 mem with rfl | mem
    · exact ⟨_, List.mem_append_right _ (List.mem_singleton.2 rfl), rfl, rfl, mild⟩
    · obtain ⟨h, registered, held⟩ := holds.session id mem
      exact ⟨h, List.mem_append_left _ registered, held⟩
  opened h mem kind := by
    rcases List.mem_append.1 mem with mem | mem
    · exact List.mem_cons_of_mem _ (holds.opened h mem kind)
    · obtain rfl := List.mem_singleton.1 mem
      exact List.mem_cons_self
  distinct := by
    refine List.nodup_cons.2 ⟨fun mem => ?_, holds.distinct⟩
    obtain ⟨h, registered, same, -⟩ := holds.session _ mem
    have := holds.sound.registered_le h registered
    omega

/-- The content of an item and the session that is open for it, if there is one. -/
theorem Holds.stake {k id : Nat} {item : Item} (session : Option Nat)
    (holds : Holds items done (session.toList ++ sessions) r) (hat : items[k]? = some item)
    (left : k ∉ done) (held : item.content = some id) : Race.Stake r session id where
  sound := holds.sound
  content := by
    obtain ⟨h, mem, same, -, mild⟩ := holds.lease k item id hat left held
    exact ⟨h, mem, same, mild⟩
  decoding s mem := by
    obtain ⟨h, registered, rfl, kind, mild⟩ :=
      holds.session s (List.mem_append_left _ (Option.mem_toList.2 mem))
    refine ⟨fun same => ?_, h, registered, rfl, mild⟩
    obtain ⟨g, mem', held', kind', -⟩ := holds.lease k item id hat left held
    have same' : g.id = h.id := held'.trans same.symm
    rw [holds.sound.eq_of_id mem' registered same'] at kind'
    exact kinds_ne (kind'.symm.trans kind)

/-- A handle on content that is not that of one more item is still that of another one. -/
theorem Holds.owned_concat {k : Nat} {item : Item} (holds : Holds items done sessions r)
    (hat : items[k]? = some item) {h : Handle} (mem : h ∈ r.registered)
    (kind : h.kind = Registry.contentKind) (other : item.content ≠ some h.id) :
    ∃ j owner, items[j]? = some owner ∧ j ∉ done ++ [k] ∧ owner.content = some h.id := by
  obtain ⟨j, owner, at_j, left, held⟩ := holds.owned h mem kind
  refine ⟨j, owner, at_j, fun hin => ?_, held⟩
  rcases List.mem_append.1 hin with hin | hin
  · exact left hin
  · rw [List.mem_singleton.1 hin, hat] at at_j
    obtain rfl : item = owner := Option.some.inj at_j
    exact other held

/-- An extraction that ends takes out the handle of its item and its session. -/
theorem Holds.without (furnished : Furnished registry items) (session : Option Nat) {k id : Nat}
    {item : Item} (holds : Holds items done (session.toList ++ sessions) r)
    (hat : items[k]? = some item) (left : k ∉ done) (held : item.content = some id) :
    Holds items (done ++ [k]) sessions (r.without (session.toList ++ [id])) := by
  have stake := holds.stake session hat left held
  obtain ⟨lease, registered, rfl, kind, -⟩ : ∃ h ∈ r.registered, h.id = id ∧
      h.kind = Registry.contentKind ∧ h.Mild := holds.lease k item id hat left held
  -- Contents and sessions are told apart by their kinds, so no other content and no other session
  -- goes with the two that are taken out.
  have differ : ∀ h ∈ r.registered, h.kind ≠ Registry.decodeKind → h.id ∉ session.toList := by
    intro h mem other out
    obtain ⟨g, mem', same, kind', -⟩ := holds.session h.id (List.mem_append_left _ out)
    rw [holds.sound.eq_of_id mem' mem same] at kind'
    exact other kind'
  refine ⟨stake.sound_without, fun j other id at_j left_j held_j => ?_, fun h mem kind_h => ?_,
    fun s mem => ?_, fun h mem kind_h => ?_, (List.nodup_append.1 holds.distinct).2.1⟩
  · have ne : j ≠ k := fun same => left_j (by simp [same])
    obtain ⟨h, mem, rfl, kind_h, mild⟩ :=
      holds.lease j other id at_j (fun mem => left_j (List.mem_append_left _ mem)) held_j
    refine ⟨h, Registry.mem_without.2 ⟨mem, fun out => ?_⟩, rfl, kind_h, mild⟩
    rcases List.mem_append.1 out with out | out
    · exact differ h mem (kind_h ▸ kinds_ne) out
    · rw [List.mem_singleton.1 out] at held_j
      exact ne (furnished.place_eq at_j hat held_j held)
  · obtain ⟨mem, out⟩ := Registry.mem_without.1 mem
    refine holds.owned_concat hat mem kind_h fun own => ?_
    refine out (List.mem_append_right _ (List.mem_singleton.2 ?_))
    exact Option.some.inj (own.symm.trans held)
  · obtain ⟨h, registered_h, rfl, kind_h, mild⟩ := holds.session s (List.mem_append_right _ mem)
    refine ⟨h, Registry.mem_without.2 ⟨registered_h, fun out => ?_⟩, rfl, kind_h, mild⟩
    rcases List.mem_append.1 out with out | out
    · exact (List.nodup_append.1 holds.distinct).2.2 _ out _ mem rfl
    · rw [holds.sound.eq_of_id registered_h registered (List.mem_singleton.1 out), kind] at kind_h
      exact kinds_ne kind_h
  · obtain ⟨mem, out⟩ := Registry.mem_without.1 mem
    rcases List.mem_append.1 (holds.opened h mem kind_h) with hin | hin
    · exact absurd (List.mem_append_left _ hin) out
    · exact hin

/-- An item without a handle may be passed over. -/
theorem Holds.skip {k : Nat} {item : Item} (holds : Holds items done sessions r)
    (hat : items[k]? = some item) (empty : item.content = none) :
    Holds items (done ++ [k]) sessions r where
  sound := holds.sound
  lease j other id at_j left_j := holds.lease j other id at_j fun mem =>
    left_j (List.mem_append_left _ mem)
  owned h mem kind := holds.owned_concat hat mem kind (by simp [empty])
  session := holds.session
  opened := holds.opened
  distinct := holds.distinct

/-- There are no more decode sessions out than are open. -/
theorem Holds.outstanding_le (holds : Holds items done sessions r) :
    r.outstanding (some Registry.decodeKind) ≤ sessions.length := by
  have distinct : ((r.registered.filter (·.kind == Registry.decodeKind)).map (·.id)).Nodup :=
    holds.sound.distinct.sublist (List.filter_sublist.map _)
  have among : (r.registered.filter (·.kind == Registry.decodeKind)).map (·.id) ⊆ sessions := by
    intro id mem
    obtain ⟨h, filtered, rfl⟩ := List.mem_map.1 mem
    obtain ⟨registered, kind⟩ := List.mem_filter.1 filtered
    exact holds.opened h registered (by simpa using kind)
  have bound := distinct.length_le_of_subset among
  simpa [Registry.outstanding] using bound

/-- When all items have been extracted and no session is open, nothing is left to release. -/
theorem Holds.assertReleased (holds : Holds items done [] r)
    (all : ∀ k item, items[k]? = some item → k ∈ done) :
    r.assertReleased [Registry.contentKind, Registry.decodeKind] = .ok () := by
  have hnone : r.leaked [Registry.contentKind, Registry.decodeKind] = [] := by
    refine List.filter_eq_nil_iff.2 fun h mem leaked => ?_
    have kind : h.kind = Registry.contentKind ∨ h.kind = Registry.decodeKind := by
      simpa using leaked
    rcases kind with kind | kind
    · obtain ⟨k, item, hat, left, -⟩ := holds.owned h mem kind
      exact left (all k item hat)
    · exact List.not_mem_nil (holds.opened h mem kind)
  rw [Registry.assertReleased, hnone]

namespace Extractor

open Race

variable {x : Extractor} {item : Item} {id : Nat}

/-- What an extraction leaves of the handles of its item. -/
structure Cleared (registry : Registry) (ids : List Nat) (e : Extracted) : Prop where
  registry : e.registry = registry.without ids
  content : e.item.content = none
  result : ∃ result, e.result = .ok result

theorem conclude_cleared {decoding : Decoding} {base : Registry} {session : Option Nat}
    {start : Race} (stake : Stake base session id) (phase : Phase base session id start) :
    Cleared base (session.toList ++ [id]) (x.conclude decoding start) := by
  obtain ⟨registry, content, r, order, -, returned, result⟩ :=
    conclude_released x decoding stake phase
  refine ⟨registry, content, resultOf r.item (r.gate.verdict.getD ⟨.error, none⟩), ?_⟩
  rw [result, answer, returned]

/-- The sessions that can be opened for some items close with nothing worse than refusals of the
operating system. -/
def MildFor (x : Extractor) (items : List Item) : Prop :=
  ∀ item ∈ items, item.content ≠ none → (x.backend item.source false).opening = .ok () →
    ∀ f, (x.backend item.source false).closing = some f → f.isSystem = true

theorem mildFor_of_mild
    (closing : ∀ path shut f, (x.backend path shut).closing = some f → f.isSystem = true)
    (items : List Item) : x.MildFor items := fun item _ _ _ => closing item.source false

/-- What a session does is known if the content is open. -/
theorem decoding_open (x : Extractor) {session : Option Nat} (stake : Stake registry session id)
    (held : item.content = some id) : x.decoding registry item = x.backend item.source false := by
  rw [decoding, held, Option.map_some, stake.content_open]
  rfl

/-- The race for an item without content at some moments: nothing is released, and nothing is
written. -/
def vacant (registry : Registry) (item : Item) (gate : Gate Ruling) (deadline : DeadlinePoint) :
    Race :=
  { registry := registry, item := item, session := none, gate := gate, decode := .ended
    deadline := deadline }

/-- The moments of that race. -/
inductive Vacant (registry : Registry) (item : Item) : Race → Prop
  | refused : Vacant registry item (vacant registry item {} (.resorting .contentReleased))
  | releasing (next : Release) (sure : ∀ f, next ≠ .finish (some f)) :
      Vacant registry item
        (vacant registry item ⟨some Resort.contentReleased.ruling, false⟩ (.releasing next []))
  | returned :
      Vacant registry item (vacant registry item ⟨some Resort.contentReleased.ruling, true⟩
        .returned)

theorem Vacant.step {r : Race} (vacant : Vacant registry item r) (empty : item.content = none)
    (decoding : Decoding) (party : Party) :
    Vacant registry item (r.step x.encoder x.settings decoding party) := by
  cases party with
  | decode =>
    have still : r.step x.encoder x.settings decoding .decode = r := by
      cases vacant <;> rfl
    rw [still]
    exact vacant
  | deadline =>
    cases vacant with
    | refused => exact .releasing .session (by simp)
    | returned => exact .returned
    | releasing next sure =>
      cases next with
      | session => exact .releasing .content (by simp)
      | content =>
        have moved : (Extractor.vacant registry item ⟨some Resort.contentReleased.ruling, false⟩
            (.releasing .content [])).step x.encoder x.settings decoding .deadline =
            Extractor.vacant registry { item with content := none }
              ⟨some Resort.contentReleased.ruling, false⟩ (.releasing (.finish none) []) := by
          simp [Race.step, stepDeadline, Extractor.vacant, releaseStep, Registry.release?, empty]
        have same : ({ item with content := none } : Item) = item := by rw [← empty]
        rw [moved, same]
        exact .releasing (.finish none) (by simp)
      | finish failed =>
        cases failed with
        | none => exact .returned
        | some f => exact absurd rfl (sure f)

theorem Vacant.run {r : Race} (vacant : Vacant registry item r) (empty : item.content = none)
    (decoding : Decoding) (order : List Party) :
    Vacant registry item (r.run x.encoder x.settings decoding order) := by
  induction order generalizing r with
  | nil => exact vacant
  | cons party order ih => exact ih (vacant.step empty decoding party)

/-- An item without content is left alone. -/
theorem openItem_vacant (x : Extractor) (registry : Registry) (empty : item.content = none) :
    x.openItem registry item =
      .inl { registry := registry, item := item
             result := .ok (resultOf item Resort.contentReleased.ruling) } := by
  obtain ⟨decoding, hd⟩ : ∃ decoding, decoding = x.decoding registry item := ⟨_, rfl⟩
  have begun : x.begin registry item = vacant registry item {} (.resorting .contentReleased) := by
    simp only [begin, empty, vacant]
  obtain ⟨start, hs⟩ : ∃ start, start = vacant registry item {} (.resorting .contentReleased) :=
    ⟨_, rfl⟩
  have first : Vacant registry item start := hs ▸ .refused
  obtain ⟨stuck, -, still, -⟩ := stopped_met x decoding start
  have met : Vacant registry item (x.met decoding start) := first.run empty decoding _
  have ended : Vacant registry item (x.ended decoding start) := met.run empty decoding _
  have returned : x.met decoding start =
      vacant registry item ⟨some Resort.contentReleased.ruling, true⟩ .returned := by
    generalize x.met decoding start = r at met stuck ⊢
    cases met with
    | returned => rfl
    | refused => cases stuck
    | releasing next sure =>
      rcases deadline_of_stuck stuck with stop | ⟨f, stop⟩ | ⟨stop, -⟩ <;> cases stop
  have last : x.ended decoding start =
      vacant registry item ⟨some Resort.contentReleased.ruling, true⟩ .returned := by
    rw [returned] at still
    generalize x.ended decoding start = r at ended still ⊢
    cases ended with
    | returned => rfl
    | refused | releasing _ _ => cases still
  unfold openItem
  dsimp only
  rw [begun, ← hd, ← hs]
  have none_open : start.session = none := by rw [hs]; rfl
  rw [none_open]
  dsimp only
  rw [conclude_eq, returned, last, hs]
  simp [vacant, answer, empty]

/-- Without a session the extraction is over; a session that is opened is the newest handle. -/
theorem openItem_spec (stake : Stake registry none id) (held : item.content = some id) :
    (∃ e, x.openItem registry item = .inl e ∧ Cleared registry [id] e) ∨
      (x.backend item.source false).opening = .ok () ∧
        x.openItem registry item = .inr (registry.issued + 1,
          (registry.acquire Registry.decodeKind (x.backend item.source false).closing).2) := by
  rw [← decoding_open x stake held]
  obtain ⟨lease, mem, rfl, mild⟩ := stake.content
  cases opening : (x.decoding registry item).opening with
  | error f =>
    have phase := phase_begin x registry held
    have start := begin_of_refused held opening
    rw [start] at phase
    refine .inl ⟨x.conclude (x.decoding registry item) _, ?_, conclude_cleared stake phase⟩
    rw [openItem, start]
  | ok _ =>
    refine .inr ⟨rfl, ?_⟩
    rw [openItem, begin_of_opened held opening]

theorem finishItem_spec (x : Extractor) (decoding : Decoding) {session : Nat}
    (stake : Stake registry (some session) id) (held : item.content = some id) :
    Cleared registry [session, id] (x.finishItem decoding registry item session) :=
  conclude_cleared stake (.undecided rfl trivial trivial (by simp) ⟨rfl, rfl, held⟩)

end Extractor

end VideoCatalog
