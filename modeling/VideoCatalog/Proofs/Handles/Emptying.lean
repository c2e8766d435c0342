import VideoCatalog.Proofs.Handles.History

/-!
# Emptying a registry

All handles are taken out before the first resource is closed, and closing ends with the first
failure that is more than a refusal of the operating system. The handles after that one are out of
the registry with their resources open.

* `Handle.severe?`: what closing a resource passes on.
* `Registry.reached`: the handles whose resources are closed when some are closed in turn.
* `Registry.releaseAll_eq`: what emptying a registry leaves and answers.
* `Registry.not_closed_after`: a resource whose handle is out stays as it is.
* `Registry.all_closed_iff`: emptying closes all resources exactly if none but the last fails.
-/

namespace VideoCatalog

/-- The failure that closing a resource passes on. -/
def Handle.severe? (h : Handle) : Option Failure := h.fault.filter fun f => !f.isSystem

theorem Handle.mild_iff {h : Handle} : h.Mild ↔ h.severe? = none := by
  unfold Mild severe?
  cases h.fault with
  | none => simp
  | some f => simp [Option.filter]

namespace Registry

variable {r : Registry} {h : Handle}

/-- The handles up to the first whose closing passes a failure on. -/
def reached : List Handle → List Handle
  | [] => []
  | h :: rest => if h.severe?.isSome then [h] else h :: reached rest

/-- The answer of closing some handles in turn. -/
def closingResult (handles : List Handle) : Except Failure Unit :=
  match handles.findSome? Handle.severe? with
  | some f => .error f
  | none => .ok ()

/-! ### What is reached -/

theorem reached_of_severe {f : Failure} (rest : List Handle) (severe : h.severe? = some f) :
    reached (h :: rest) = [h] ∧ closingResult (h :: rest) = .error f := by
  simp [reached, closingResult, severe]

theorem reached_of_mild (rest : List Handle) (mild : h.severe? = none) :
    reached (h :: rest) = h :: reached rest ∧
      closingResult (h :: rest) = closingResult rest := by
  simp [reached, closingResult, mild]

theorem prefix_reached (handles : List Handle) : reached handles <+: handles := by
  induction handles with
  | nil => exact List.nil_prefix
  | cons h rest ih =>
    cases severe : h.severe? with
    | some f =>
      rw [(reached_of_severe _ severe).1]
      exact (List.prefix_cons_inj h).2 List.nil_prefix
    | none =>
      rw [(reached_of_mild _ severe).1]
      exact (List.prefix_cons_inj h).2 ih

/-- All handles are reached unless one before the last fails. -/
theorem reached_eq_self_iff (handles : List Handle) :
    reached handles = handles ↔ ∀ h ∈ handles.dropLast, h.Mild := by
  induction handles with
  | nil => simp [reached]
  | cons h rest ih =>
    cases rest with
    | nil =>
      -- The last handle is reached whether it fails or not.
      unfold reached
      split <;> simp [reached]
    | cons g rest =>
      rw [List.dropLast_cons_cons, List.forall_mem_cons, Handle.mild_iff]
      cases severe : h.severe? with
      | some f => simp [(reached_of_severe _ severe).1]
      | none => simp [(reached_of_mild _ severe).1, ih]

/-! ### What is closed -/

theorem result_close_eq (r : Registry) (h : Handle) :
    (r.close h).result = closingResult [h] := by
  unfold close closingResult Handle.severe?
  cases fault : h.fault with
  | none => simp [fault]
  | some f => cases system : f.isSystem <;> simp [fault, Option.filter, system]

theorem closeEach_eq (handles : List Handle) (r : Registry) :
    (r.closeEach handles).registry =
        { r with closings := r.closings ++ (reached handles).map (·.id) } ∧
      (r.closeEach handles).result = closingResult handles := by
  induction handles generalizing r with
  | nil => simp [closeEach, reached, closingResult]
  | cons h rest ih =>
    cases severe : h.severe? with
    | some f =>
      obtain ⟨front, failed⟩ := reached_of_severe rest severe
      have first : (r.close h).result = .error f :=
        (result_close_eq r h).trans (reached_of_severe _ severe).2
      simp [closeEach, first, front, failed, registry_close]
    | none =>
      obtain ⟨front, passed⟩ := reached_of_mild rest severe
      have first : (r.close h).result = .ok () :=
        (result_close_eq r h).trans (reached_of_mild _ severe).2
      obtain ⟨registry, result⟩ := ih (r.close h).registry
      simp only [closeEach, first, registry, result, front, passed]
      simp [registry_close]

theorem releaseAll_eq (r : Registry) :
    r.releaseAll.registry =
        { r with registered := []
                 closings := r.closings ++ (reached r.registered).map (·.id) } ∧
      r.releaseAll.result =
        (closingResult r.registered).map fun _ => r.registered.length := by
  obtain ⟨registry, result⟩ := closeEach_eq r.registered { r with registered := [] }
  unfold releaseAll
  simp only [result]
  cases closingResult r.registered with
  | error f => exact ⟨registry, rfl⟩
  | ok _ =>
    -- Nothing is registered any more, so the assertion that ends the call holds.
    simp [registry, assertReleased, leaked, Except.map]

/-! ### What is out stays as it is -/

/-- A call closes nothing but resources of registered handles. -/
theorem closed_run (call : Call) {id : Nat} (closed : id ∈ (call.run r).registry.closings) :
    id ∈ r.closings ∨ ∃ h ∈ r.registered, h.id = id := by
  cases call with
  | acquire kind fault => exact .inl closed
  | release number =>
    cases number with
    | none => exact .inl closed
    | some number =>
      change id ∈ (r.release number).registry.closings at closed
      cases found : r.find? number with
      | none =>
        rw [release_of_find?_none found] at closed
        exact .inl closed
      | some h =>
        rw [(release_of_find? found).1, List.mem_append, List.mem_singleton] at closed
        exact closed.imp_right fun same => ⟨h, List.mem_of_find?_eq_some found, same.symm⟩
  | releaseAll =>
    change id ∈ r.releaseAll.registry.closings at closed
    rw [(releaseAll_eq r).1, List.mem_append, List.mem_map] at closed
    exact closed.imp_right fun ⟨h, front, same⟩ => ⟨h, (prefix_reached _).subset front, same⟩
  | assertReleased kinds => exact .inl closed

/-- A number that was given out and is registered no more is never registered again. -/
theorem out_run (call : Call) {id : Nat} (given : id ≤ r.issued)
    (out : ∀ h ∈ r.registered, h.id ≠ id) :
    id ≤ (call.run r).registry.issued ∧ ∀ h ∈ (call.run r).registry.registered, h.id ≠ id := by
  refine ⟨?_, fun h mem => ?_⟩
  · cases call with
    | acquire kind fault => exact Nat.le_succ_of_le given
    | release number => cases number <;> simpa [Call.run, Step.map, release?] using given
    | releaseAll => simpa [Call.run, Step.map] using given
    | assertReleased kinds => exact given
  · rcases call.mem_run.1 mem with ⟨old, -⟩ | ⟨kind, fault, rfl, rfl⟩
    · exact out h old
    · exact Nat.ne_of_gt (Nat.lt_succ_of_le given)

/-- A resource that is open when its handle is out is never closed. -/
theorem not_closed_after (calls : List Call) {id : Nat} (given : id ≤ r.issued)
    (out : ∀ h ∈ r.registered, h.id ≠ id) (unclosed : id ∉ r.closings) :
    id ∉ (r.after calls).closings := by
  induction calls generalizing r with
  | nil => exact unclosed
  | cons call rest ih =>
    obtain ⟨given', out'⟩ := out_run call given out
    refine ih given' out' fun closed => ?_
    rcases closed_run call closed with before | ⟨h, mem, same⟩
    · exact unclosed before
    · exact out h mem same

/-! ### Emptying -/

/-- A handle is reached exactly if its resource is closed. -/
theorem Sound.mem_reached_iff (sound : r.Sound) (mem : h ∈ r.registered) :
    h ∈ reached r.registered ↔ h.id ∈ r.releaseAll.registry.closings := by
  rw [(releaseAll_eq r).1, List.mem_append, List.mem_map]
  constructor
  · exact fun front => .inr ⟨h, front, rfl⟩
  · rintro (before | ⟨g, front, same⟩)
    · exact absurd before (sound.not_closed h mem)
    · rwa [← sound.eq_of_id ((prefix_reached _).subset front) mem same]

/-- After every history of calls. Emptying the registry takes out all handles and closes the
resources up to the first failure, which it passes on. So all resources are closed, and each of
them once, exactly if closing raises nothing but refusals of the operating system, the last resource
apart. Those that are not closed then are closed by no later call. -/
theorem all_closed_iff (calls : List Call) :
    let r := after {} calls
    let left := r.releaseAll.registry
    left.registered = [] ∧
    left.closings = r.closings ++ (reached r.registered).map (·.id) ∧
    (r.releaseAll.result = match r.registered.findSome? Handle.severe? with
      | some f => .error f
      | none => .ok r.registered.length) ∧
    ((∀ h ∈ r.registered, left.closings.count h.id = 1) ↔
      ∀ h ∈ r.registered.dropLast, h.Mild) ∧
    ∀ h ∈ r.registered, h ∉ reached r.registered → ∀ later, h.id ∉ (left.after later).closings := by
  intro r left
  have sound : r.Sound := Sound.after Reached.fresh.sound calls
  have whole : left.Sound := sound.releaseAll
  obtain ⟨registry, result⟩ := releaseAll_eq r
  have emptied : left.registered = [] := registered_releaseAll r
  refine ⟨emptied, congrArg closings registry, ?_, ?_, fun h mem lost later => ?_⟩
  · rw [result, closingResult]
    cases r.registered.findSome? Handle.severe? <;> rfl
  · rw [← reached_eq_self_iff]
    constructor
    · intro all
      refine (prefix_reached _).eq_of_length_le ?_
      -- Handles have different numbers, so those that are reached are as many as all.
      refine (sound.distinct.of_map _).length_le_of_subset fun h mem => ?_
      rw [sound.mem_reached_iff mem]
      exact List.count_pos_iff.1 (all h mem ▸ Nat.one_pos)
    · intro all h mem
      refine List.count_eq_one_of_mem whole.closed_once ?_
      rw [← all] at mem
      exact (sound.mem_reached_iff ((prefix_reached _).subset mem)).1 mem
  · refine not_closed_after later ?_ (by simp [emptied]) ?_
    · rw [issued_releaseAll]
      exact sound.registered_le h mem
    · rwa [← sound.mem_reached_iff mem]

/-- Two contents, the first of which cannot be closed: the second is out of the registry and stays
open. -/
theorem second_content_stays_open :
    let fault := Failure.raised (.other "ValueError") "close failed"
    let r := after {} [.acquire contentKind (some fault), .acquire contentKind none]
    r.registered.map (·.id) = [1, 2] ∧ r.releaseAll.result = .error fault ∧
      r.releaseAll.registry.registered = [] ∧
      ¬∀ h ∈ r.registered, r.releaseAll.registry.closings.count h.id = 1 := by
  decide

end Registry

end VideoCatalog
