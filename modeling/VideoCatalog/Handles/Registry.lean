import VideoCatalog.Log.Record

/-!
# The registry of handles

Every resource that has to be closed is registered under a handle with a number of its own.
Taking a handle out closes its resource; a handle that is not registered is left alone.

* `Handle`: a number, a kind, and what closing the resource raises.
* `Registry`: the handles that are out, how many were given out, and which were closed.
* `acquire`, `release`, `releaseAll`: the operations.
* `outstanding`, `leaked`, `assertReleased`: what is still registered.
-/

namespace VideoCatalog

/-- A registered resource. -/
structure Handle where
  id : Nat
  kind : String
  fault : Option Failure := none
deriving DecidableEq, Repr

/-- The handles given out so far. -/
structure Registry where
  issued : Nat := 0
  registered : List Handle := []
  closings : List Nat := []
deriving DecidableEq, Repr, Inhabited

/-- What an operation on the registry leaves: the registry, its result and its log. -/
structure Registry.Step (α : Type) where
  registry : Registry
  result : Except Failure α
  log : List Record := []

namespace Registry

/-- The kind of leases on content. -/
def contentKind : String := "content"

/-- The kind of decode sessions. -/
def decodeKind : String := "decode"

/-- The kind of streams. -/
def playbackKind : String := "playback"

/-- Registers a resource under the next number. -/
def acquire (r : Registry) (kind : String) (fault : Option Failure) : Handle × Registry :=
  let handle : Handle := ⟨r.issued + 1, kind, fault⟩
  (handle, { r with issued := r.issued + 1, registered := r.registered ++ [handle] })

/-- The registered handle with a number. -/
def find? (r : Registry) (id : Nat) : Option Handle := r.registered.find? (·.id == id)

/-- Whether the resource of a handle has been closed. -/
def isClosed (r : Registry) (id : Nat) : Bool := r.closings.contains id

/-- The warning about a resource that could not be closed. -/
def closeWarning (h : Handle) (f : Failure) : Record :=
  .warning ("Failed to close " ++ h.kind ++ " handle #" ++ Quantity.intText h.id ++ ": " ++
    f.report)

/-- Closes the resource of a handle that has been taken out. Refusals of the operating system
are logged, all others are passed on. -/
def close (r : Registry) (h : Handle) : Step Unit :=
  let r := { r with closings := r.closings ++ [h.id] }
  match h.fault with
  | none => ⟨r, .ok (), []⟩
  | some f => if f.isSystem then ⟨r, .ok (), [closeWarning h f]⟩ else ⟨r, .error f, []⟩

/-- Takes out the handle with a number and closes its resource. The result says whether the
handle was registered. -/
def release (r : Registry) (id : Nat) : Step Bool :=
  match r.find? id with
  | none => ⟨r, .ok false, []⟩
  | some h =>
    let step := close { r with registered := r.registered.filter (·.id != id) } h
    ⟨step.registry, step.result.map fun _ => true, step.log⟩

/-- The same for a handle that may be missing. -/
def release? (r : Registry) : Option Nat → Step Bool
  | none => ⟨r, .ok false, []⟩
  | some id => r.release id

/-- Closes the resources of handles that have been taken out, up to the first failure. -/
def closeEach (r : Registry) : List Handle → Step Unit
  | [] => ⟨r, .ok (), []⟩
  | h :: rest =>
    let first := r.close h
    match first.result with
    | .error f => ⟨first.registry, .error f, first.log⟩
    | .ok () =>
      let others := first.registry.closeEach rest
      ⟨others.registry, others.result, first.log ++ others.log⟩

/-- How many handles of a kind, or of any kind, are registered. -/
def outstanding (r : Registry) (kind : Option String) : Nat :=
  match kind with
  | none => r.registered.length
  | some k => (r.registered.filter (·.kind == k)).length

/-- The registered handles of the given kinds; of any kind if none is given. -/
def leaked (r : Registry) (kinds : List String) : List Handle :=
  r.registered.filter fun h => kinds.isEmpty || kinds.contains h.kind

/-- Refuses handles of the given kinds that are still registered. -/
def assertReleased (r : Registry) (kinds : List String) : Except Failure Unit :=
  match r.leaked kinds with
  | [] => .ok ()
  | handles => .error (.leaked (handles.map fun h => (h.kind, h.id)))

/-- Takes out all handles and closes their resources. The result is how many there were. -/
def releaseAll (r : Registry) : Step Nat :=
  let handles := r.registered
  let step := closeEach { r with registered := [] } handles
  match step.result with
  | .error f => ⟨step.registry, .error f, step.log⟩
  | .ok () =>
    let note :=
      if handles.isEmpty then []
      else [Record.debug ("Released " ++ Quantity.intText handles.length ++
        " outstanding handles")]
    ⟨step.registry, (step.registry.assertReleased []).map fun _ => handles.length,
      step.log ++ note⟩

@[simp] theorem registered_close (r : Registry) (h : Handle) :
    (r.close h).registry.registered = r.registered := by
  unfold close; split <;> try split
  all_goals rfl

@[simp] theorem closings_close (r : Registry) (h : Handle) :
    (r.close h).registry.closings = r.closings ++ [h.id] := by
  unfold close; split <;> try split
  all_goals rfl

end Registry

end VideoCatalog
