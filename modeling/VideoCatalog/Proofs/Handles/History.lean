import Mathlib.Data.List.Induction
import VideoCatalog.Proofs.Handles.Ownership

/-!
# Histories of a registry

Calls follow one another in any order, and closing a resource may fail in any way. A call that
fails has done its part, and the next one finds what it left.

* `Registry.Call`, `Registry.Call.run`, `Registry.after`: calls, one of them, and all of them.
* `Registry.Call.mem_run`: which handles are registered after a call.
* `Registry.Call.runWith`: the same calls with another way of closing; `Registry.closeChecked`
  refuses to close what is registered or has been closed.
* `Registry.Accounted`: the account of a registry after a history; `Registry.accounts_balance`
  says that it holds after every one.
-/

namespace VideoCatalog.Registry

/-- A call of a registry. -/
inductive Call where
  | acquire (kind : String) (fault : Option Failure)
  | release (id : Option Nat)
  | releaseAll
  | assertReleased (kinds : List String)

/-- What a call gives back. -/
inductive Answer where
  | handle (h : Handle)
  | flag (b : Bool)
  | count (n : Nat)
  | nothing

namespace Step

/-- A step with its result in another form. -/
def map {α β : Type} (f : α → β) (step : Step α) : Step β :=
  ⟨step.registry, step.result.map f, step.log⟩

end Step

/-! ### Closing in another way -/

section Closing

variable (closing : Registry → Handle → Step Unit)

/-- `release` with another way of closing. -/
def releaseWith (r : Registry) (id : Nat) : Step Bool :=
  match r.find? id with
  | none => ⟨r, .ok false, []⟩
  | some h =>
    (closing { r with registered := r.registered.filter (·.id != id) } h).map fun _ => true

/-- `closeEach` with another way of closing. -/
def closeEachWith (r : Registry) : List Handle → Step Unit
  | [] => ⟨r, .ok (), []⟩
  | h :: rest =>
    let first := closing r h
    match first.result with
    | .error f => ⟨first.registry, .error f, first.log⟩
    | .ok () =>
      let others := closeEachWith first.registry rest
      ⟨others.registry, others.result, first.log ++ others.log⟩

/-- `releaseAll` with another way of closing. -/
def releaseAllWith (r : Registry) : Step Nat :=
  let handles := r.registered
  let step := closeEachWith closing { r with registered := [] } handles
  match step.result with
  | .error f => ⟨step.registry, .error f, step.log⟩
  | .ok () =>
    let note :=
      if handles.isEmpty then []
      else [Record.debug ("Released " ++ Quantity.intText handles.length ++
        " outstanding handles")]
    ⟨step.registry, (step.registry.assertReleased []).map fun _ => handles.length,
      step.log ++ note⟩

/-- A call with another way of closing. -/
def Call.runWith (r : Registry) : Call → Step Answer
  | .acquire kind fault => ⟨(r.acquire kind fault).2, .ok (.handle (r.acquire kind fault).1), []⟩
  | .release none => ⟨r, .ok (.flag false), []⟩
  | .release (some id) => (releaseWith closing r id).map .flag
  | .releaseAll => (releaseAllWith closing r).map .count
  | .assertReleased kinds => ⟨r, (r.assertReleased kinds).map fun _ => .nothing, []⟩

end Closing

/-- Makes a call. -/
def Call.run (r : Registry) : Call → Step Answer
  | .acquire kind fault => ⟨(r.acquire kind fault).2, .ok (.handle (r.acquire kind fault).1), []⟩
  | .release id => (r.release? id).map .flag
  | .releaseAll => r.releaseAll.map .count
  | .assertReleased kinds => ⟨r, (r.assertReleased kinds).map fun _ => .nothing, []⟩

/-- The registry after some calls, whether they failed or not. -/
def after (r : Registry) (calls : List Call) : Registry :=
  calls.foldl (fun r call => (call.run r).registry) r

/-- The handles that some calls give out, in their order. -/
def acquired (r : Registry) : List Call → List Handle
  | [] => []
  | .acquire kind fault :: rest => (r.acquire kind fault).1 :: acquired (r.acquire kind fault).2 rest
  | call :: rest => acquired (call.run r).registry rest

/-- The call takes out the handle with a number if it is registered. -/
def Call.Takes (call : Call) (id : Nat) : Prop := call = .releaseAll ∨ call = .release (some id)

variable {r : Registry} {h : Handle}

theorem after_concat (r : Registry) (calls : List Call) (call : Call) :
    r.after (calls ++ [call]) = (call.run (r.after calls)).registry := by
  simp [after]

/-! ### One call -/

@[simp] theorem registered_releaseAll (r : Registry) : r.releaseAll.registry.registered = [] := by
  obtain ⟨front, -, closed⟩ := closeEach_prefix r.registered { r with registered := [] }
  unfold releaseAll
  cases ended : (closeEach { r with registered := [] } r.registered).result <;>
    simp only [ended, closed]

@[simp] theorem issued_releaseAll (r : Registry) : r.releaseAll.registry.issued = r.issued := by
  obtain ⟨front, -, closed⟩ := closeEach_prefix r.registered { r with registered := [] }
  unfold releaseAll
  cases ended : (closeEach { r with registered := [] } r.registered).result <;>
    simp only [ended, closed]

@[simp] theorem issued_release (r : Registry) (id : Nat) :
    (r.release id).registry.issued = r.issued := by
  cases found : r.find? id with
  | none => rw [release_of_find?_none found]
  | some g => rw [(release_of_find? found).1]

theorem mem_registered_release {id : Nat} :
    h ∈ (r.release id).registry.registered ↔ h ∈ r.registered ∧ h.id ≠ id := by
  cases found : r.find? id with
  | none =>
    rw [release_of_find?_none found]
    have others := List.find?_eq_none.1 found
    exact ⟨fun mem => ⟨mem, by simpa using others h mem⟩, And.left⟩
  | some g =>
    rw [(release_of_find? found).1]
    simp

/-- After a call those handles are registered that were so before and are not taken out, and the
one that the call gives out. -/
theorem Call.mem_run (call : Call) :
    h ∈ (call.run r).registry.registered ↔
      (h ∈ r.registered ∧ ¬call.Takes h.id) ∨
        ∃ kind fault, call = .acquire kind fault ∧ h = (r.acquire kind fault).1 := by
  cases call with
  | acquire kind fault => simp [run, Registry.acquire, Takes]
  | release id =>
    cases id with
    | none => simp [run, Step.map, release?, Takes]
    | some id => simp [run, Step.map, release?, Takes, mem_registered_release, eq_comm]
  | releaseAll => simp [run, Step.map, Takes]
  | assertReleased kinds => simp [run, Takes]

theorem Call.sound_run (call : Call) (sound : r.Sound) : (call.run r).registry.Sound := by
  cases call with
  | acquire kind fault => exact sound.acquire kind fault
  | release id =>
    cases id with
    | none => exact sound
    | some id => exact sound.release id
  | releaseAll => exact sound.releaseAll
  | assertReleased kinds => exact sound

/-! ### What is answered -/

/-- A handle that is registered is taken out and closed. The call fails only if closing raises
what is no refusal of the operating system. -/
theorem Sound.release_of_mem (sound : r.Sound) (mem : h ∈ r.registered) :
    (r.release h.id).registry =
        { r with registered := r.registered.filter (·.id != h.id)
                 closings := r.closings ++ [h.id] } ∧
      (r.release h.id).result = match h.fault with
        | none => .ok true
        | some f => if f.isSystem then .ok true else .error f := by
  have found : r.find? h.id = some h :=
    find?_eq mem fun g other same => sound.eq_of_id other mem same
  refine ⟨(release_of_find? found).1, ?_⟩
  unfold Registry.release Registry.close
  cases fault : h.fault with
  | none => simp [found, fault, Except.map]
  | some f => cases system : f.isSystem <;> simp [found, fault, system, Except.map]

/-- A handle that is not registered is left alone. -/
theorem release_of_not_mem {id : Nat} (out : ∀ h ∈ r.registered, h.id ≠ id) :
    r.release id = ⟨r, .ok false, []⟩ :=
  release_of_find?_none (List.find?_eq_none.2 fun h mem => by simpa using out h mem)

theorem outstanding_eq_countP (r : Registry) (kind : Option String) :
    r.outstanding kind = r.registered.countP fun h => kind.all (· == h.kind) := by
  cases kind with
  | none => simp [outstanding, List.countP_true]
  | some k => simp [outstanding, List.countP_eq_length_filter, Bool.beq_comm]

theorem leaked_eq_nil_iff (r : Registry) (kinds : List String) :
    r.leaked kinds = [] ↔
      if kinds = [] then r.outstanding none = 0 else ∀ k ∈ kinds, r.outstanding (some k) = 0 := by
  simp only [outstanding_eq_countP, List.countP_eq_zero, leaked, List.filter_eq_nil_iff]
  split
  · next any => simp [any]
  · next some =>
    simp only [List.isEmpty_eq_false_iff.2 some, Bool.false_or, List.contains_iff_mem,
      Option.all_some, beq_iff_eq]
    exact ⟨fun out k mem h registered same => out h registered (same ▸ mem),
      fun out h registered mem => out h.kind mem h registered rfl⟩

theorem assertReleased_cases (r : Registry) (kinds : List String) :
    (r.leaked kinds = [] ∧ r.assertReleased kinds = .ok ()) ∨
      (r.leaked kinds ≠ [] ∧ ∃ handles, r.assertReleased kinds = .error (.leaked handles)) := by
  unfold assertReleased
  split
  · next none => exact .inl ⟨none, rfl⟩
  · next some => exact .inr ⟨some, _, rfl⟩

/-- Handles are refused exactly if some of the given kinds are out. -/
theorem refused_iff (r : Registry) (kinds : List String) :
    (∃ handles, r.assertReleased kinds = .error (.leaked handles)) ↔
      if kinds = [] then r.outstanding none ≠ 0 else ∃ k ∈ kinds, r.outstanding (some k) ≠ 0 := by
  have refused : (∃ handles, r.assertReleased kinds = .error (.leaked handles)) ↔
      ¬r.leaked kinds = [] := by
    rcases assertReleased_cases r kinds with ⟨none, passed⟩ | ⟨some, refused⟩
    · simp [none, passed]
    · simp [some, refused]
  rw [refused, leaked_eq_nil_iff]
  split <;> simp

/-! ### When resources are closed -/

/-- Closes the resource of a handle only if the handle is not registered and the resource has not
been closed before. -/
def closeChecked (r : Registry) (h : Handle) : Step Unit :=
  if h.id ∈ r.registered.map (·.id) ∨ h.id ∈ r.closings then ⟨r, .error .closedStream, []⟩
  else r.close h

theorem closeChecked_eq (out : ∀ g ∈ r.registered, g.id ≠ h.id) (unclosed : h.id ∉ r.closings) :
    r.closeChecked h = r.close h := by
  refine if_neg ?_
  rintro (registered | closed)
  · obtain ⟨g, mem, same⟩ := List.mem_map.1 registered
    exact out g mem same
  · exact unclosed closed

/-- Handles that have been taken out, none of them closed before, are all closed unchecked. -/
theorem closeEachWith_checked (handles : List Handle) (distinct : (handles.map (·.id)).Nodup)
    (r : Registry) (out : r.registered = []) (unclosed : ∀ h ∈ handles, h.id ∉ r.closings) :
    closeEachWith closeChecked r handles = r.closeEach handles := by
  induction handles generalizing r with
  | nil => rfl
  | cons h rest ih =>
    rw [List.map_cons, List.nodup_cons] at distinct
    have first : r.closeChecked h = r.close h :=
      closeChecked_eq (by simp [out]) (unclosed h List.mem_cons_self)
    have others := ih distinct.2 (r.close h).registry (by simp [out]) fun g mem closed => by
      rw [closings_close, List.mem_append, List.mem_singleton] at closed
      rcases closed with closed | same
      · exact unclosed g (List.mem_cons_of_mem h mem) closed
      · exact distinct.1 (same ▸ List.mem_map_of_mem mem)
    cases ended : (r.close h).result <;>
      simp only [closeEachWith, closeEach, first, ended, others]

theorem releaseWith_checked (sound : r.Sound) (id : Nat) :
    releaseWith closeChecked r id = r.release id := by
  unfold releaseWith Registry.release
  cases found : r.find? id with
  | none => rfl
  | some h =>
    have same : h.id = id := by simpa using List.find?_some found
    have checked : closeChecked { r with registered := r.registered.filter (·.id != id) } h =
        close { r with registered := r.registered.filter (·.id != id) } h :=
      closeChecked_eq (fun g mem => by simpa [same] using (List.mem_filter.1 mem).2)
        (sound.not_closed h (List.mem_of_find?_eq_some found))
    exact congrArg (Step.map fun _ => true) checked

theorem releaseAllWith_checked (sound : r.Sound) :
    releaseAllWith closeChecked r = r.releaseAll := by
  have checked := closeEachWith_checked r.registered sound.distinct { r with registered := [] }
    rfl sound.not_closed
  cases ended : (closeEach { r with registered := [] } r.registered).result <;>
    simp only [releaseAllWith, Registry.releaseAll, checked, ended]

/-- Checking makes no difference: nothing is closed while it is registered, and nothing twice. -/
theorem Call.runWith_checked (sound : r.Sound) (call : Call) :
    call.runWith closeChecked r = call.run r := by
  cases call with
  | acquire kind fault => rfl
  | release id =>
    cases id with
    | none => rfl
    | some id => exact congrArg (Step.map Answer.flag) (releaseWith_checked sound id)
  | releaseAll => exact congrArg (Step.map Answer.count) (releaseAllWith_checked sound)
  | assertReleased kinds => rfl

/-! ### All calls -/

theorem Sound.after (sound : r.Sound) (calls : List Call) : (r.after calls).Sound := by
  induction calls using List.reverseRecOn with
  | nil => exact sound
  | append_singleton calls call ih =>
    rw [after_concat]
    exact call.sound_run ih

/-- Numbers are given out in ascending order, all of them above those given out before. -/
theorem ascending_acquired (r : Registry) (calls : List Call) :
    ((r.acquired calls).map (·.id)).Pairwise (· < ·) ∧
      ∀ h ∈ r.acquired calls, r.issued < h.id := by
  induction calls generalizing r with
  | nil => simp [acquired]
  | cons call rest ih =>
    obtain ⟨ascending, above⟩ := ih (call.run r).registry
    cases call with
    | acquire kind fault =>
      simp only [Call.run, Registry.acquire] at ascending above
      simp only [acquired, Registry.acquire, List.map_cons, List.pairwise_cons, List.mem_cons,
        forall_eq_or_imp, List.forall_mem_map]
      exact ⟨⟨above, ascending⟩, Nat.lt_succ_self _, fun h mem => by have := above h mem; omega⟩
    | release id =>
      refine ⟨ascending, fun h mem => ?_⟩
      cases id with
      | none => exact above h mem
      | some id => simpa [Call.run, Step.map, release?] using above h mem
    | releaseAll => exact ⟨ascending, fun h mem => by simpa [Call.run, Step.map] using above h mem⟩
    | assertReleased kinds => exact ⟨ascending, above⟩

/-- A handle is registered if some call gave it out and none has taken it out since. -/
theorem mem_after_iff (calls : List Call) :
    h ∈ (after {} calls).registered ↔ ∃ before kind fault later,
      calls = before ++ .acquire kind fault :: later ∧
        h = ((after {} before).acquire kind fault).1 ∧ ∀ call ∈ later, ¬call.Takes h.id := by
  induction calls using List.reverseRecOn with
  | nil => simp [after]
  | append_singleton calls call ih =>
    rw [after_concat, call.mem_run, ih]
    constructor
    · rintro (⟨⟨before, kind, fault, later, rfl, rfl, kept⟩, keeps⟩ | ⟨kind, fault, rfl, rfl⟩)
      · refine ⟨before, kind, fault, later ++ [call], by simp, rfl, fun c mem => ?_⟩
        rcases List.mem_append.1 mem with mem | mem
        · exact kept c mem
        · rwa [List.mem_singleton.1 mem]
      · exact ⟨calls, kind, fault, [], rfl, rfl, by simp⟩
    · rintro ⟨before, kind, fault, later, split, rfl, kept⟩
      rcases List.eq_nil_or_concat' later with rfl | ⟨later, last, rfl⟩
      · obtain ⟨rfl, same⟩ := List.append_inj' split rfl
        exact .inr ⟨kind, fault, List.singleton_inj.1 same, rfl⟩
      · rw [← List.cons_append, ← List.append_assoc] at split
        obtain ⟨rfl, same⟩ := List.append_inj' split rfl
        obtain rfl := List.singleton_inj.1 same
        exact .inl ⟨⟨before, kind, fault, later, rfl, rfl,
          fun c mem => kept c (List.mem_append_left _ mem)⟩, kept call (by simp)⟩

/-- The account of a registry after a history of calls. -/
structure Accounted (calls : List Call) (r : Registry) : Prop where
  /-- Numbers are given out in ascending order. -/
  ascending : ((acquired {} calls).map (·.id)).Pairwise (· < ·)
  /-- Those handles are registered that were given out and not taken out since. -/
  registered : ∀ h, h ∈ r.registered ↔ ∃ before kind fault later,
    calls = before ++ .acquire kind fault :: later ∧
      h = ((after {} before).acquire kind fault).1 ∧ ∀ call ∈ later, ¬call.Takes h.id
  /-- No resource has been closed twice. -/
  closed_once : r.closings.Nodup
  /-- No resource of a registered handle has been closed. -/
  not_closed : ∀ h ∈ r.registered, h.id ∉ r.closings
  /-- The next call closes nothing that is registered at that moment or was closed before. -/
  checked : ∀ call : Call, call.runWith closeChecked r = call.run r
  /-- A registered handle is taken out and closed, whatever closing raises. -/
  released : ∀ h ∈ r.registered,
    (r.release h.id).registry =
        { r with registered := r.registered.filter (·.id != h.id)
                 closings := r.closings ++ [h.id] } ∧
      (r.release h.id).result = match h.fault with
        | none => .ok true
        | some f => if f.isSystem then .ok true else .error f
  /-- A handle that is not registered is left alone. -/
  ignored : ∀ id, (∀ h ∈ r.registered, h.id ≠ id) → r.release id = ⟨r, .ok false, []⟩
  /-- So is a handle that is missing. -/
  missing : r.release? none = ⟨r, .ok false, []⟩
  /-- What is counted is what is registered. -/
  counted : ∀ kind, r.outstanding kind = r.registered.countP fun h => kind.all (· == h.kind)
  /-- Handles are refused exactly if some of the given kinds are out. -/
  refused : ∀ kinds, (∃ handles, r.assertReleased kinds = .error (.leaked handles)) ↔
    if kinds = [] then r.outstanding none ≠ 0 else ∃ k ∈ kinds, r.outstanding (some k) ≠ 0
  /-- Nothing else is refused. -/
  passed : ∀ kinds, (¬∃ handles, r.assertReleased kinds = .error (.leaked handles)) →
    r.assertReleased kinds = .ok ()

/-- Whatever closing raises, the accounts are in order after every history of calls. -/
theorem accounts_balance (calls : List Call) : Accounted calls (after {} calls) := by
  have sound : (after {} calls).Sound := Sound.after Reached.fresh.sound calls
  exact {
    ascending := (ascending_acquired {} calls).1
    registered := fun _ => mem_after_iff calls
    closed_once := sound.closed_once
    not_closed := sound.not_closed
    checked := fun call => call.runWith_checked sound
    released := fun _ => sound.release_of_mem
    ignored := fun _ => release_of_not_mem
    missing := rfl
    counted := outstanding_eq_countP _
    refused := refused_iff _
    passed := fun kinds others => ((assertReleased_cases _ kinds).resolve_right
      fun refused => others refused.2).2 }

end VideoCatalog.Registry
