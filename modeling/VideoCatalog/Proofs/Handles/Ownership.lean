import Mathlib.Data.List.Nodup
import Mathlib.Tactic.Common
import VideoCatalog.Handles.Registry

/-!
# Handles and the resources behind them

The numbers of handles stay distinct, and a resource is closed once at most and never while its
handle is registered.

* `Handle.Mild`: closing raises nothing but refusals of the operating system.
* `Registry.Sound`: the invariant; `Registry.Reached.sound` says that every registry has it.
* `Registry.without`: a registry whose handles with some numbers have been taken out and closed;
  `release_without` takes out one more.
* `Registry.Spent`: handles have been taken out and closed, and nothing else has happened.
* `releaseAll_of_mild`: a registry whose resources can be closed is emptied.
-/

namespace VideoCatalog

/-- Closing the resource raises nothing but refusals of the operating system. -/
def Handle.Mild (h : Handle) : Prop := ∀ f, h.fault = some f → f.isSystem = true

namespace Registry

/-- Numbers are given out once, and resources are closed once, after their handle was taken out. -/
structure Sound (r : Registry) : Prop where
  distinct : (r.registered.map (·.id)).Nodup
  registered_le : ∀ h ∈ r.registered, h.id ≤ r.issued
  closed_le : ∀ id ∈ r.closings, id ≤ r.issued
  closed_once : r.closings.Nodup
  not_closed : ∀ h ∈ r.registered, h.id ∉ r.closings

/-- The registries that the operations lead to. -/
inductive Reached : Registry → Prop
  | fresh : Reached {}
  | acquire {r : Registry} (kind : String) (fault : Option Failure) :
      Reached r → Reached (r.acquire kind fault).2
  | release {r : Registry} (id : Nat) : Reached r → Reached (r.release id).registry
  | releaseAll {r : Registry} : Reached r → Reached r.releaseAll.registry

variable {r : Registry} {h : Handle}

/-! ### What the operations do to the registry -/

theorem registry_close (r : Registry) (h : Handle) :
    (r.close h).registry = { r with closings := r.closings ++ [h.id] } := by
  unfold close
  split
  · rfl
  · split <;> rfl

theorem result_close (mild : h.Mild) : (r.close h).result = .ok () := by
  unfold close
  split
  · rfl
  · next f hf => rw [if_pos (mild f hf)]

/-- Handles are told apart by their numbers. -/
theorem Sound.eq_of_id (sound : r.Sound) {g : Handle} (hg : g ∈ r.registered)
    (hh : h ∈ r.registered) (same : g.id = h.id) : g = h :=
  List.inj_on_of_nodup_map sound.distinct hg hh same

/-- A handle is found by its number if no other has that number. -/
theorem find?_eq (mem : h ∈ r.registered) (only : ∀ g ∈ r.registered, g.id = h.id → g = h) :
    r.find? h.id = some h := by
  cases found : r.find? h.id with
  | none => simpa using List.find?_eq_none.1 found h mem
  | some g =>
    have same : g.id = h.id := by simpa using List.find?_some found
    rw [only g (List.mem_of_find?_eq_some found) same]

theorem release_of_find? {id : Nat} (found : r.find? id = some h) :
    (r.release id).registry =
        { r with registered := r.registered.filter (·.id != id)
                 closings := r.closings ++ [h.id] } ∧
      (h.Mild → (r.release id).result = .ok true) := by
  unfold release
  rw [found]
  refine ⟨registry_close _ h, fun mild => ?_⟩
  simp only [result_close mild]
  rfl

theorem release_of_find?_none {id : Nat} (missing : r.find? id = none) :
    r.release id = ⟨r, .ok false, []⟩ := by
  unfold release
  rw [missing]

/-! ### The invariant -/

theorem Sound.acquire (sound : r.Sound) (kind : String) (fault : Option Failure) :
    (r.acquire kind fault).2.Sound where
  distinct := by
    simp only [Registry.acquire, List.map_append, List.map_cons, List.map_nil]
    refine List.Nodup.append sound.distinct (List.nodup_singleton _) ?_
    simp only [List.disjoint_singleton, List.mem_map]
    rintro ⟨h, mem, same⟩
    have := sound.registered_le h mem
    omega
  registered_le h mem := by
    simp only [Registry.acquire, List.mem_append, List.mem_singleton] at mem ⊢
    rcases mem with mem | rfl
    · have := sound.registered_le h mem
      omega
    · exact Nat.le_refl _
  closed_le id mem := by
    have := sound.closed_le id mem
    simp only [Registry.acquire]
    omega
  closed_once := sound.closed_once
  not_closed h mem closed := by
    simp only [Registry.acquire, List.mem_append, List.mem_singleton] at mem
    rcases mem with mem | rfl
    · exact sound.not_closed h mem closed
    · exact absurd (sound.closed_le _ closed) (Nat.not_succ_le_self _)

/-- A registry whose handles with some numbers have been taken out and closed in this order. -/
def without (r : Registry) (ids : List Nat) : Registry :=
  { r with
    registered := r.registered.filter fun h => !ids.contains h.id
    closings := r.closings ++ ids }

@[simp] theorem without_nil (r : Registry) : r.without [] = r := by
  simp [without]

theorem mem_without {ids : List Nat} :
    h ∈ (r.without ids).registered ↔ h ∈ r.registered ∧ h.id ∉ ids := by
  simp [without]

theorem isClosed_without {ids : List Nat} {id : Nat} :
    (r.without ids).isClosed id = true ↔ id ∈ r.closings ∨ id ∈ ids := by
  simp [isClosed, without]

theorem Sound.without (sound : r.Sound) {ids : List Nat} (nodup : ids.Nodup)
    (mem : ∀ id ∈ ids, ∃ h ∈ r.registered, h.id = id) : (r.without ids).Sound where
  distinct := sound.distinct.sublist (List.filter_sublist.map _)
  registered_le h hm := sound.registered_le h (mem_without.1 hm).1
  closed_le id hm := by
    rcases List.mem_append.1 hm with hm | hm
    · exact sound.closed_le id hm
    · obtain ⟨h, registered, rfl⟩ := mem id hm
      exact sound.registered_le h registered
  closed_once := by
    refine List.Nodup.append sound.closed_once nodup fun id closed hm => ?_
    obtain ⟨h, registered, rfl⟩ := mem id hm
    exact sound.not_closed h registered closed
  not_closed h hm closed := by
    obtain ⟨registered, out⟩ := mem_without.1 hm
    rcases List.mem_append.1 closed with closed | closed
    · exact sound.not_closed h registered closed
    · exact out closed

/-- Releasing one more handle takes it out and closes it. -/
theorem release_without (sound : r.Sound) (mem : h ∈ r.registered) {ids : List Nat}
    (out : h.id ∉ ids) :
    ((r.without ids).release h.id).registry = r.without (ids ++ [h.id]) ∧
      (h.Mild → ((r.without ids).release h.id).result = .ok true) := by
  have found : (r.without ids).find? h.id = some h :=
    find?_eq (mem_without.2 ⟨mem, out⟩) fun g left same =>
      sound.eq_of_id (mem_without.1 left).1 mem same
  obtain ⟨registry, result⟩ := release_of_find? found
  refine ⟨?_, result⟩
  rw [registry]
  simp only [without, List.filter_filter, List.append_assoc, Registry.mk.injEq, true_and, and_true]
  refine List.filter_congr fun g _ => ?_
  rw [Bool.eq_iff_iff]
  simp
  tauto

theorem Sound.release (sound : r.Sound) (id : Nat) : (r.release id).registry.Sound := by
  cases found : r.find? id with
  | none => rw [release_of_find?_none found]; exact sound
  | some h =>
    have mem := List.mem_of_find?_eq_some found
    have same : h.id = id := by simpa using List.find?_some found
    subst same
    have released := (release_without sound mem List.not_mem_nil).1
    rw [without_nil] at released
    rw [released]
    exact sound.without (by simp) (by simpa using ⟨h, mem, rfl⟩)

/-- Closing handles that have been taken out closes some of them from the front on. -/
theorem closeEach_prefix (handles : List Handle) (r : Registry) :
    ∃ front, front <+: handles ∧
      (r.closeEach handles).registry =
        { r with closings := r.closings ++ front.map (·.id) } := by
  induction handles generalizing r with
  | nil => exact ⟨[], List.nil_prefix, by simp [closeEach]⟩
  | cons h rest ih =>
    cases hr : (r.close h).result with
    | error f => exact ⟨[h], by simp, by simp [closeEach, hr, registry_close]⟩
    | ok _ =>
      obtain ⟨front, le, eq⟩ := ih (r.close h).registry
      refine ⟨h :: front, by simpa using le, ?_⟩
      simp only [closeEach, hr, eq]
      simp only [registry_close, List.map_cons, List.append_assoc, List.singleton_append]

theorem Sound.releaseAll (sound : r.Sound) : r.releaseAll.registry.Sound := by
  obtain ⟨front, le, eq⟩ := closeEach_prefix r.registered { r with registered := [] }
  have registry : r.releaseAll.registry =
      { r with registered := [], closings := r.closings ++ front.map (·.id) } := by
    unfold Registry.releaseAll
    cases hr : (closeEach { r with registered := [] } r.registered).result <;>
      simp only [hr, eq]
  have all : ∀ id ∈ front.map (·.id), ∃ h ∈ r.registered, h.id = id := by
    simp only [List.mem_map]
    rintro id ⟨h, mem, rfl⟩
    exact ⟨h, le.subset mem, rfl⟩
  have closed := sound.without (sound.distinct.sublist (le.sublist.map _)) all
  rw [registry]
  exact ⟨by simp, by simp, closed.closed_le, closed.closed_once, by simp⟩

/-! ### Taking out -/

/-- Handles have been taken out and closed, and nothing else has happened. -/
structure Spent (before after : Registry) : Prop where
  registered : after.registered ⊆ before.registered
  closings : before.closings ⊆ after.closings

theorem Spent.refl (r : Registry) : Spent r r := ⟨fun _ h => h, fun _ h => h⟩

theorem Spent.trans {a b c : Registry} (ab : Spent a b) (bc : Spent b c) : Spent a c :=
  ⟨List.Subset.trans bc.registered ab.registered, List.Subset.trans ab.closings bc.closings⟩

theorem spent_release (r : Registry) (id : Nat) : Spent r (r.release id).registry := by
  cases found : r.find? id with
  | none =>
    rw [release_of_find?_none found]
    exact .refl r
  | some h =>
    rw [(release_of_find? found).1]
    exact ⟨fun _ mem => (List.mem_filter.1 mem).1, List.subset_append_left _ _⟩

theorem spent_release? (r : Registry) (id : Option Nat) : Spent r (r.release? id).registry := by
  cases id with
  | none => exact .refl r
  | some id => exact spent_release r id

/-- A handle that has been released is registered no more. -/
theorem out_of_release (r : Registry) (id : Nat) :
    ∀ h ∈ (r.release id).registry.registered, h.id ≠ id := by
  intro h mem same
  cases found : r.find? id with
  | none =>
    rw [release_of_find?_none found] at mem
    exact absurd same (by simpa using List.find?_eq_none.1 found h mem)
  | some g =>
    rw [(release_of_find? found).1] at mem
    exact absurd same (by simpa using (List.mem_filter.1 mem).2)

/-- A handle stays registered or is closed. -/
theorem mem_release (mem : h ∈ r.registered) (id : Nat) :
    h ∈ (r.release id).registry.registered ∨ h.id ∈ (r.release id).registry.closings := by
  cases found : r.find? id with
  | none =>
    rw [release_of_find?_none found]
    exact .inl mem
  | some g =>
    have same : g.id = id := by simpa using List.find?_some found
    rw [(release_of_find? found).1]
    by_cases own : h.id = id
    · exact .inr (List.mem_append_right _ (List.mem_singleton.2 (own.trans same.symm)))
    · exact .inl (List.mem_filter.2 ⟨mem, by simpa using own⟩)

theorem closeEach_of_mild (handles : List Handle) (mild : ∀ h ∈ handles, h.Mild) (r : Registry) :
    (r.closeEach handles).result = .ok () ∧
      (r.closeEach handles).registry =
        { r with closings := r.closings ++ handles.map (·.id) } := by
  induction handles generalizing r with
  | nil => simp [closeEach]
  | cons h rest ih =>
    obtain ⟨result, registry⟩ := ih (fun g mem => mild g (List.mem_cons_of_mem h mem))
      (r.close h).registry
    simp only [closeEach, result_close (mild h List.mem_cons_self)]
    refine ⟨result, ?_⟩
    rw [registry]
    simp only [registry_close, List.map_cons, List.append_assoc, List.singleton_append]

/-- A registry whose resources can all be closed is emptied. -/
theorem releaseAll_of_mild (mild : ∀ h ∈ r.registered, h.Mild) :
    r.releaseAll.result = .ok r.registered.length ∧
      r.releaseAll.registry =
        { r with registered := [], closings := r.closings ++ r.registered.map (·.id) } := by
  obtain ⟨result, registry⟩ := closeEach_of_mild r.registered mild { r with registered := [] }
  unfold Registry.releaseAll
  simp only [result, registry]
  exact ⟨rfl, trivial⟩

/-- Every registry keeps its handles and resources apart. -/
theorem Reached.sound (reached : Reached r) : r.Sound := by
  induction reached with
  | fresh => exact ⟨by simp, by simp, by simp, by simp, by simp⟩
  | acquire kind fault _ ih => exact ih.acquire kind fault
  | release id _ ih => exact ih.release id
  | releaseAll _ ih => exact ih.releaseAll

end Registry

end VideoCatalog
