import VideoCatalog.Catalog.Item
import VideoCatalog.Files.Tree
import VideoCatalog.Handles.Registry

/-!
# Playback streams

A stream reads the file of an item from a position. Its handle is registered, and the stream
is closed when the handle is taken out.

* `PlaybackStream`, `PlaybackStream.start`: the stream of an item.
* `read`, `seek`: reading on, and moving.
* `Reads`: some bytes come from the position, and the position moves behind them.
* `Iteration`, `Iteration.next`, `Iteration.consume`: reading on chunk by chunk, the next chunk
  and all chunks to the end.
* `chunks`: reading to the end in chunks.
* `PlaybackStream.close`: gives the handle back.
-/

namespace VideoCatalog

/-- The bytes of a file, what kind of file it is, and a position in the bytes. -/
structure PlaybackStream where
  content : List UInt8
  mime : String := ""
  position : Nat := 0
  handle : Nat
  detached : Bool := false
deriving Repr

namespace PlaybackStream

/-- The size of chunks if nothing is said. -/
def defaultChunk : Nat := 1024 * 1024

/-- Opens the file of an item. -/
def start (tree : FileTree) (registry : Registry) (item : Item) :
    Except Failure (PlaybackStream × Registry) :=
  (tree.read item.source).map fun content =>
    let (handle, registry) := registry.acquire Registry.playbackKind none
    ({ content := content, mime := item.mime, handle := handle.id }, registry)

/-- Whether a stream is closed. -/
def closed (registry : Registry) (s : PlaybackStream) : Bool :=
  s.detached || registry.isClosed s.handle

/-! ### Reading and moving -/

/-- The bytes from the position on. -/
def rest (s : PlaybackStream) : List UInt8 := s.content.drop s.position

/-- The same stream with some more bytes behind it. -/
def moved (s : PlaybackStream) (count : Nat) : PlaybackStream :=
  { s with position := s.position + count }

/-- Reads up to a number of bytes, or all that are left. -/
def take (s : PlaybackStream) (count : Option Nat) : List UInt8 × PlaybackStream :=
  let bytes := match count with
    | none => s.rest
    | some n => s.rest.take n
  (bytes, s.moved bytes.length)

/-- Counts and positions have to be below this limit, and not below its negative. -/
def numberLimit : Int := Nat.pow 2 63

/-- The most bytes that can be asked for at once. -/
def mostAtOnce : Nat := Nat.pow 2 63 - 34

/-- How many bytes a value asks for: nothing and minus one ask for all. -/
def countOf (size : Value) : Except Failure (Option Nat) :=
  match size with
  | .null => .ok none
  | v =>
    match v.quantity? with
    | some (.whole n) =>
      if numberLimit ≤ n ∨ n < -numberLimit then .error .numberTooLarge
      else if 0 ≤ n then .ok (some n.toNat)
      else if n = -1 then .ok none
      else .error .malformedNumber
    | _ => .error (.unsuitable v.kind "a number of bytes")

/-- Reads bytes of an open stream. -/
def read (registry : Registry) (s : PlaybackStream) (size : Value) :
    Except Failure (List UInt8 × PlaybackStream) :=
  match countOf size with
  | .error f => .error f
  | .ok count =>
    if registry.isClosed s.handle then .error .closedStream
    else if mostAtOnce < count.getD 0 then .error .numberTooLarge
    else .ok (s.take count)

/-- Bases of positions have to be below this limit, and not below its negative. -/
def baseLimit : Int := Nat.pow 2 31

/-- The position that an offset stands for, from the start, the position or the end. The last
two bases look for data and for the end of data. -/
def target (s : PlaybackStream) (offset base : Int) : Int :=
  let size : Int := s.content.length
  if base = 0 then offset
  else if base = 1 then s.position + offset
  else if base = 2 then size + offset
  else if base = 3 then (if offset < size then offset else -1)
  else if 0 ≤ offset ∧ offset < size then size else -1

/-- Moves an open stream. The base is looked at first, and the offset last. -/
def seek (registry : Registry) (s : PlaybackStream) (offset base : Value) :
    Except Failure (Nat × PlaybackStream) :=
  match base.quantity? with
  | some (.whole base) =>
    if baseLimit ≤ base ∨ base < -baseLimit then .error .numberTooLarge
    else if base < 0 ∨ 4 < base then .error .malformedNumber
    else if registry.isClosed s.handle then .error .closedStream
    else
      match offset.quantity? with
      | some (.whole offset) =>
        if numberLimit ≤ offset ∨ offset < -numberLimit then .error .malformedNumber
        else
          let place := s.target offset base
          if place < 0 ∨ numberLimit ≤ place then .error (.file .badArgument "")
          else .ok (place.toNat, { s with position := place.toNat })
      | _ => .error (.unsuitable offset.kind "a position")
  | _ => .error (.unsuitable base.kind "a base of positions")

/-- Some bytes are those from the position on, and the position moves behind them. -/
structure Reads (s : PlaybackStream) (bytes : List UInt8) (s' : PlaybackStream) : Prop where
  taken : bytes ++ s'.rest = s.rest
  moved : s' = s.moved bytes.length

section Reads

variable {s s' s'' : PlaybackStream} {bytes more : List UInt8}

@[simp] theorem moved_zero (s : PlaybackStream) : s.moved 0 = s := rfl

@[simp] theorem moved_moved (s : PlaybackStream) (m n : Nat) :
    (s.moved m).moved n = s.moved (m + n) := by
  simp only [PlaybackStream.moved, Nat.add_assoc]

@[simp] theorem rest_moved (s : PlaybackStream) (n : Nat) : (s.moved n).rest = s.rest.drop n := by
  simp only [rest, PlaybackStream.moved, List.drop_drop]

theorem Reads.refl (s : PlaybackStream) : s.Reads [] s := ⟨rfl, rfl⟩

/-- Bytes that are read one after another stand one after another in the file. -/
theorem Reads.trans (first : s.Reads bytes s') (second : s'.Reads more s'') :
    s.Reads (bytes ++ more) s'' := by
  constructor
  · rw [List.append_assoc, second.taken, first.taken]
  · rw [second.moved, first.moved, moved_moved, List.length_append]

/-- What is left behind some of the bytes that were left. -/
theorem rest_moved_take (s : PlaybackStream) (n : Nat) :
    (s.moved (s.rest.take n).length).rest = s.rest.drop n := by
  rw [rest_moved, List.length_take]
  rcases Nat.le_total n s.rest.length with fits | long
  · rw [Nat.min_eq_left fits]
  · rw [Nat.min_eq_right long, List.drop_length, List.drop_eq_nil_of_le long]

theorem reads_take (s : PlaybackStream) (count : Option Nat) :
    s.Reads (s.take count).1 (s.take count).2 := by
  refine ⟨?_, rfl⟩
  cases count with
  | none => simp [take]
  | some n =>
    dsimp only [take]
    rw [rest_moved_take, List.take_append_drop]

theorem reads_of_read {registry : Registry} {size : Value}
    (ran : s.read registry size = .ok (bytes, s')) : s.Reads bytes s' := by
  unfold read at ran
  split at ran
  · cases ran
  · next count _ =>
    split at ran
    · cases ran
    · split at ran
      · cases ran
      · have same : s.take count = (bytes, s') := Except.ok.inj ran
        have reads := s.reads_take count
        rwa [same] at reads

end Reads

/-! ### Chunks -/

/-- An iteration over the chunks of a stream: what it asks for each time, and whether it is
over. -/
structure Iteration where
  size : Value
  finished : Bool := false

/-- What asking an iteration for a chunk leaves. -/
structure Iteration.Step where
  iteration : Iteration
  stream : PlaybackStream
  result : Except Failure (Option (List UInt8))

namespace Iteration

/-- Asks an iteration for its next chunk. It is over as soon as nothing is read or reading fails,
and then it reads no more. -/
def next (registry : Registry) (it : Iteration) (s : PlaybackStream) : Step :=
  if it.finished then ⟨it, s, .ok none⟩
  else
    match s.read registry it.size with
    | .error f => ⟨{ it with finished := true }, s, .error f⟩
    | .ok (bytes, s) =>
      if bytes.isEmpty then ⟨{ it with finished := true }, s, .ok none⟩
      else ⟨it, s, .ok (some bytes)⟩

/-- The bytes that asking for a chunk gives. -/
def Step.bytes (step : Step) : List UInt8 :=
  match step.result with
  | .ok (some chunk) => chunk
  | _ => []

theorem Step.bytes_of_result {step : Step} {chunk : List UInt8}
    (given : step.result = .ok (some chunk)) : step.bytes = chunk := by
  rw [Step.bytes, given]

/-- Asking for a chunk reads it. -/
theorem reads_next (registry : Registry) (it : Iteration) (s : PlaybackStream) :
    s.Reads (it.next registry s).bytes (it.next registry s).stream := by
  unfold next
  split
  · exact .refl s
  · split
    · exact .refl s
    · next bytes s' ran =>
      have reads := reads_of_read ran
      split
      · next empty =>
        rw [List.isEmpty_iff.1 empty] at reads
        exact reads
      · exact reads

/-- No chunk is empty. -/
theorem ne_nil_of_next {registry : Registry} {it : Iteration} {s : PlaybackStream}
    {chunk : List UInt8} (given : (it.next registry s).result = .ok (some chunk)) :
    chunk ≠ [] := by
  unfold next at given
  split at given
  · cases given
  · split at given
    · cases given
    · split at given
      · cases given
      · next full =>
        cases given
        simpa using full

/-- A chunk leaves less of the file. -/
theorem length_rest_next {registry : Registry} {it : Iteration} {s : PlaybackStream}
    {chunk : List UInt8} (given : (it.next registry s).result = .ok (some chunk)) :
    (it.next registry s).stream.rest.length < s.rest.length := by
  have taken := congrArg List.length (it.reads_next registry s).taken
  have full : 0 < chunk.length := List.length_pos_iff.2 (ne_nil_of_next given)
  rw [Step.bytes_of_result given, List.length_append] at taken
  omega

/-- All chunks that an iteration gives until it is over. -/
def consume (registry : Registry) (it : Iteration) (s : PlaybackStream) :
    Except Failure (List (List UInt8) × PlaybackStream) :=
  match _given : (it.next registry s).result with
  | .error f => .error f
  | .ok none => .ok ([], (it.next registry s).stream)
  | .ok (some chunk) =>
    (consume registry (it.next registry s).iteration (it.next registry s).stream).map
      fun (more, s) => (chunk :: more, s)
termination_by s.rest.length
decreasing_by exact length_rest_next _given

end Iteration

/-- Reads an open stream to its end in chunks. -/
def chunks (registry : Registry) (s : PlaybackStream) (size : Value) :
    Except Failure (List (List UInt8) × PlaybackStream) :=
  Iteration.consume registry { size } s

/-! ### Closing -/

/-- Gives the handle back. A second time nothing happens. -/
def close (registry : Registry) (s : PlaybackStream) : Registry.Step PlaybackStream :=
  if s.detached then ⟨registry, .ok s, []⟩
  else
    let step := registry.release s.handle
    ⟨step.registry, step.result.map fun _ => { s with detached := true }, step.log⟩

end PlaybackStream

end VideoCatalog
