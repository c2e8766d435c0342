import Mathlib.Data.Nat.Notation
import VideoCatalog.Playback.Stream

/-!
# Reading a stream in pieces

A stream may be read, moved, and gone through in several iterations side by side, in any order.

* `StreamCall`, `StreamAnswer`: what is asked of a stream, and what it answers.
* `Viewer`, `Viewer.step`, `Viewer.run`: a stream with the iterations over it that have begun, one
  call, and calls one after another.
* `stream_run`: calls change the position only, and their answers tell how.
* `reads_run`: calls that do not seek read on in the file without a gap.
* `ChunksOf`: chunks of a size that make up some bytes.
* `Yields`: the chunks that an iteration gives until it is over. `exists_yields` says that these
  are the chunks of what is left of the file.
* `chunks_follow_file`: the main statement.
-/

namespace VideoCatalog

open PlaybackStream

/-- What is asked of a stream: some bytes, another position, a new iteration, or the next chunk of
one of the iterations that have begun. -/
inductive StreamCall where
  | read (size : Value)
  | seek (offset base : Value)
  | iterate (size : Value)
  | next (k : ℕ)

/-- Whether a call asks for another position. -/
def StreamCall.Seeks : StreamCall → Prop
  | .seek .. => True
  | _ => False

/-- What a stream answers. -/
inductive StreamAnswer where
  | bytes (data : List UInt8)
  | place (position : ℕ)
  | begun
  | finished
deriving DecidableEq

namespace StreamAnswer

/-- What an iteration answers. -/
def ofChunk : Except Failure (Option (List UInt8)) → Except Failure StreamAnswer
  | .ok (some chunk) => .ok (.bytes chunk)
  | .ok none => .ok .finished
  | .error f => .error f

/-- The bytes of an answer. -/
def given : Except Failure StreamAnswer → List UInt8
  | .ok (.bytes data) => data
  | _ => []

/-- The position after an answer, if it was known before. -/
def advance (position : ℕ) : Except Failure StreamAnswer → ℕ
  | .ok (.bytes data) => position + data.length
  | .ok (.place position) => position
  | _ => position

theorem given_ofChunk (step : Iteration.Step) : given (ofChunk step.result) = step.bytes := by
  rw [Iteration.Step.bytes]
  rcases step.result with f | _ | chunk <;> rfl

theorem advance_ofChunk (position : ℕ) (step : Iteration.Step) :
    advance position (ofChunk step.result) = position + step.bytes.length := by
  rw [Iteration.Step.bytes]
  rcases step.result with f | _ | chunk <;> rfl

end StreamAnswer

open StreamAnswer

/-- All bytes of some answers, in their order. -/
def received (answers : List (Except Failure StreamAnswer)) : List UInt8 := answers.flatMap given

/-- The position after some answers, if it was known before. -/
def placeAfter (position : ℕ) (answers : List (Except Failure StreamAnswer)) : ℕ :=
  answers.foldl advance position

/-- A stream, and the iterations over it that have begun. -/
structure Viewer where
  stream : PlaybackStream
  iterations : List Iteration := []

namespace Viewer

variable (registry : Registry) (v : Viewer)

/-- What a call answers, and what it leaves. -/
def step : StreamCall → Except Failure StreamAnswer × Viewer
  | .read size =>
    match v.stream.read registry size with
    | .error f => (.error f, v)
    | .ok (data, s) => (.ok (.bytes data), { v with stream := s })
  | .seek offset base =>
    match v.stream.seek registry offset base with
    | .error f => (.error f, v)
    | .ok (position, s) => (.ok (.place position), { v with stream := s })
  | .iterate size => (.ok .begun, { v with iterations := v.iterations ++ [{ size }] })
  | .next k =>
    match v.iterations[k]? with
    | none => (.error .indexOutOfRange, v)
    | some it =>
      let step := it.next registry v.stream
      (ofChunk step.result, ⟨step.stream, v.iterations.set k step.iteration⟩)

/-- Calls one after another, whatever they answer. -/
def run (v : Viewer) : List StreamCall → List (Except Failure StreamAnswer) × Viewer
  | [] => ([], v)
  | call :: later =>
    let first := v.step registry call
    let others := run first.2 later
    (first.1 :: others.1, others.2)

variable {registry v} {call : StreamCall}

@[simp] theorem run_nil : v.run registry [] = ([], v) := rfl

@[simp] theorem run_cons (call : StreamCall) (later : List StreamCall) :
    v.run registry (call :: later) =
      ((v.step registry call).1 :: ((v.step registry call).2.run registry later).1,
        ((v.step registry call).2.run registry later).2) := rfl

/-! ### Positions -/

theorem stream_of_seek {s s' : PlaybackStream} {offset base : Value} {position : ℕ}
    (ran : s.seek registry offset base = .ok (position, s')) :
    s' = { s with position := position } := by
  unfold seek at ran
  dsimp only at ran
  repeat' split at ran
  all_goals cases ran
  rfl

/-- A call that does not seek reads the bytes of its answer. -/
theorem reads_step (still : ¬call.Seeks) :
    v.stream.Reads (given (v.step registry call).1) (v.step registry call).2.stream := by
  cases call with
  | read size =>
    unfold step
    dsimp only
    split
    · exact Reads.refl _
    · next ran => exact reads_of_read ran
  | seek => exact absurd trivial still
  | iterate => exact Reads.refl _
  | next k =>
    unfold step
    dsimp only
    split
    · exact Reads.refl _
    · next it _ =>
      rw [given_ofChunk]
      exact it.reads_next registry v.stream

/-- A call changes nothing but the position of the stream, in the way that its answer tells. -/
theorem stream_step (call : StreamCall) : (v.step registry call).2.stream =
    { v.stream with position := advance v.stream.position (v.step registry call).1 } := by
  cases call with
  | read size =>
    unfold step
    dsimp only
    split
    · rfl
    · next ran => exact (reads_of_read ran).moved
  | seek offset base =>
    unfold step
    dsimp only
    split
    · rfl
    · next ran => exact stream_of_seek ran
  | iterate => rfl
  | next k =>
    unfold step
    dsimp only
    split
    · rfl
    · next it _ =>
      rw [advance_ofChunk]
      exact (it.reads_next registry v.stream).moved

variable (registry v) in
theorem stream_run (calls : List StreamCall) : (v.run registry calls).2.stream =
    { v.stream with position := placeAfter v.stream.position (v.run registry calls).1 } := by
  induction calls generalizing v with
  | nil => rfl
  | cons call later ih => rw [run_cons, ih, stream_step, placeAfter, placeAfter, List.foldl_cons]

variable (registry v) in
/-- Calls that do not seek read all bytes of their answers one after another. -/
theorem reads_run {calls : List StreamCall} (still : ∀ call ∈ calls, ¬call.Seeks) :
    v.stream.Reads (received (v.run registry calls).1) (v.run registry calls).2.stream := by
  induction calls generalizing v with
  | nil => exact Reads.refl _
  | cons call later ih =>
    rw [List.forall_mem_cons] at still
    rw [run_cons, received, List.flatMap_cons]
    exact (reads_step still.1).trans (ih _ still.2)

end Viewer

/-! ### Chunks of some bytes -/

/-- Chunks that make up some bytes: none is empty, and all but the last have a given size, which
the last one does not exceed. -/
structure ChunksOf (size : ℕ) (bytes : List UInt8) (chunks : List (List UInt8)) : Prop where
  nonempty : ∀ chunk ∈ chunks, chunk ≠ []
  full : ∀ chunk ∈ chunks.dropLast, chunk.length = size
  within : ∀ chunk ∈ chunks, chunk.length ≤ size
  whole : chunks.flatten = bytes

namespace ChunksOf

variable {size : ℕ} {bytes : List UInt8} {chunks : List (List UInt8)}

theorem nil (size : ℕ) : ChunksOf size [] [] := ⟨by simp, by simp, by simp, rfl⟩

theorem eq_nil (given : ChunksOf size [] chunks) : chunks = [] := by
  refine List.eq_nil_iff_forall_not_mem.2 fun chunk mem => given.nonempty chunk mem ?_
  exact List.flatten_eq_nil_iff.1 given.whole chunk mem

/-- One more chunk in front. -/
theorem cons (pos : 0 < size) (some : bytes ≠ []) (given : ChunksOf size (bytes.drop size) chunks) :
    ChunksOf size bytes (bytes.take size :: chunks) where
  nonempty := by
    refine List.forall_mem_cons.2 ⟨fun none => ?_, given.nonempty⟩
    rcases List.take_eq_nil_iff.1 none with zero | empty
    · omega
    · exact some empty
  full := by
    cases chunks with
    | nil => simp
    | cons next later =>
      rw [List.dropLast_cons_cons, List.forall_mem_cons]
      refine ⟨?_, given.full⟩
      -- Something is left for the next chunk.
      have left : bytes.drop size ≠ [] := by
        rw [← given.whole, List.flatten_cons]
        exact List.append_ne_nil_of_left_ne_nil (given.nonempty next List.mem_cons_self) _
      rw [List.length_take, Nat.min_eq_left (Nat.le_of_not_le fun short => ?_)]
      exact left (List.drop_eq_nil_of_le short)
  within := List.forall_mem_cons.2 ⟨List.length_take_le _ _, given.within⟩
  whole := by rw [List.flatten_cons, given.whole, List.take_append_drop]

end ChunksOf

/-! ### What an iteration gives -/

namespace PlaybackStream

/-- An iteration gives some chunks one by one, and then it is over. -/
inductive Yields (registry : Registry) :
    Iteration → PlaybackStream → List (List UInt8) → PlaybackStream → Prop
  | finish {it : Iteration} {s : PlaybackStream} (ended : (it.next registry s).result = .ok none) :
    Yields registry it s [] (it.next registry s).stream
  | chunk {it : Iteration} {s s' : PlaybackStream} {chunk : List UInt8} {more : List (List UInt8)}
    (given : (it.next registry s).result = .ok (some chunk))
    (later : Yields registry (it.next registry s).iteration (it.next registry s).stream more s') :
    Yields registry it s (chunk :: more) s'

variable {registry : Registry} {it : Iteration} {s s' : PlaybackStream}
  {chunks : List (List UInt8)}

/-- An iteration that is over gives nothing more. -/
theorem finished_of_next (ended : (it.next registry s).result = .ok none) :
    (it.next registry s).iteration.finished = true := by
  unfold Iteration.next at ended ⊢
  split
  · next finished => exact finished
  · next going =>
    rw [if_neg going] at ended
    split at ended
    · cases ended
    · next ran =>
      split at ended
      · next empty => simp only [empty, if_true]
      · cases ended

theorem next_of_finished (finished : it.finished = true) (s : PlaybackStream) :
    it.next registry s = ⟨it, s, .ok none⟩ := by
  rw [Iteration.next, if_pos finished]

/-- All that an iteration gives is consumed. -/
theorem Yields.consume (yields : Yields registry it s chunks s') :
    it.consume registry s = .ok (chunks, s') := by
  induction yields with
  | finish ended =>
    rw [Iteration.consume]
    split
    · next raised => rw [ended] at raised; cases raised
    · rfl
    · next given => rw [ended] at given; cases given
  | chunk given _ ih =>
    rw [Iteration.consume]
    split
    · next raised => rw [given] at raised; cases raised
    · next ended => rw [given] at ended; cases ended
    · next given' =>
      rw [given] at given'
      cases given'
      rw [ih]
      rfl

/-! ### Reading to the end in chunks -/

theorem countOf_int (size : ℕ) : countOf (.int size) =
    if numberLimit ≤ size then .error .numberTooLarge else .ok (some size) := by
  have natural : ¬(size : Int) < -numberLimit := by
    have : 0 ≤ numberLimit := by decide
    omega
  simp only [countOf, Value.int, Value.quantity?, natural, or_false, Int.natCast_nonneg, if_true,
    Int.toNat_natCast]

/-- A number of bytes that an open stream can be asked for is read. -/
theorem read_int (unclosed : registry.isClosed s.handle = false) {size : ℕ}
    (fits : size ≤ mostAtOnce) : s.read registry (.int size) = .ok (s.take (some size)) := by
  have below : ¬numberLimit ≤ (size : Int) := by
    have : (mostAtOnce : Int) < numberLimit := by decide
    omega
  simp only [PlaybackStream.read, countOf_int, below, unclosed, Option.getD_some, Nat.not_lt.2 fits,
    if_false, Bool.false_eq_true]

/-- A greater number is refused. -/
theorem read_int_of_lt (unclosed : registry.isClosed s.handle = false) {size : ℕ}
    (large : mostAtOnce < size) : s.read registry (.int size) = .error .numberTooLarge := by
  by_cases beyond : numberLimit ≤ (size : Int)
  · simp only [PlaybackStream.read, countOf_int, beyond, if_true]
  · simp only [PlaybackStream.read, countOf_int, beyond, unclosed, Option.getD_some, large,
      if_false, if_true, Bool.false_eq_true]

section

variable {size : ℕ} (unclosed : registry.isClosed s.handle = false) (fits : size ≤ mostAtOnce)

include unclosed fits

theorem next_at_end (none : s.rest = []) :
    Iteration.next registry { size := .int size } s =
      ⟨{ size := .int size, finished := true }, s, .ok .none⟩ := by
  simp [Iteration.next, read_int unclosed fits, take, none]

theorem next_inside (pos : 0 < size) (some : s.rest ≠ []) :
    Iteration.next registry { size := .int size } s =
      ⟨{ size := .int size }, s.moved (s.rest.take size).length,
        .ok (.some (s.rest.take size))⟩ := by
  have full : (s.rest.take size).isEmpty = false := by
    rw [List.isEmpty_eq_false_iff]
    intro none
    rcases List.take_eq_nil_iff.1 none with zero | empty
    · omega
    · exact some empty
  simp [Iteration.next, read_int unclosed fits, take, full]

end

/-- A chunk size that cannot be asked for at once is refused. -/
theorem chunks_of_lt (unclosed : registry.isClosed s.handle = false) {size : ℕ}
    (large : mostAtOnce < size) : s.chunks registry (.int size) = .error .numberTooLarge := by
  have refused : (Iteration.next registry { size := .int size } s).result =
      .error .numberTooLarge := by
    simp [Iteration.next, read_int_of_lt unclosed large]
  rw [PlaybackStream.chunks, Iteration.consume]
  split
  · next raised => rw [refused] at raised; cases raised; rfl
  · next ended => rw [refused] at ended; cases ended
  · next given => rw [refused] at given; cases given

/-- An iteration over an open stream gives what is left of the file in chunks of its size, and then
it is over. -/
theorem exists_yields (unclosed : registry.isClosed s.handle = false) {size : ℕ} (pos : 0 < size)
    (fits : size ≤ mostAtOnce) : ∃ chunks, ChunksOf size s.rest chunks ∧
      Yields registry { size := .int size } s chunks (s.moved s.rest.length) := by
  -- Each chunk leaves less of the file.
  induction left : s.rest.length using Nat.strongRecOn generalizing s with
  | _ length ih =>
    by_cases none : s.rest = []
    · have ended := next_at_end unclosed fits none
      have yields : Yields registry { size := .int size } s [] _ := .finish (by rw [ended])
      rw [ended] at yields
      rw [← left, none]
      exact ⟨[], .nil size, yields⟩
    · have given := next_inside unclosed fits pos none
      have shorter : (s.rest.drop size).length < length := by
        have : 0 < s.rest.length := List.length_pos_iff.2 none
        rw [List.length_drop]
        omega
      have behind := s.rest_moved_take size
      obtain ⟨chunks, made, yields⟩ := ih _ shorter (s := s.moved (s.rest.take size).length)
        unclosed (by rw [behind])
      rw [behind] at made
      rw [moved_moved, ← List.length_append, List.take_append_drop, left] at yields
      refine ⟨_, made.cons pos none, .chunk (by rw [given]) ?_⟩
      rw [given]
      exact yields

end PlaybackStream

namespace Viewer

variable {registry : Registry} {v : Viewer} {it : Iteration} {k : ℕ}

variable (registry) in
theorem step_next (found : v.iterations[k]? = some it) :
    v.step registry (.next k) = (ofChunk (it.next registry v.stream).result,
      ⟨(it.next registry v.stream).stream,
        v.iterations.set k (it.next registry v.stream).iteration⟩) := by
  simp only [step, found]

theorem getElem?_set_iterations (found : v.iterations[k]? = some it) (it' : Iteration) :
    (v.iterations.set k it')[k]? = some it' :=
  List.getElem?_set_self (List.getElem?_eq_some_iff.1 found).1

variable (registry) in
/-- Whoever asks an iteration that is over hears so each time. -/
theorem answers_run_finished (found : v.iterations[k]? = some it) (finished : it.finished = true)
    (times : ℕ) : (v.run registry (List.replicate times (.next k))).1 =
      List.replicate times (.ok .finished) := by
  induction times generalizing v with
  | zero => rfl
  | succ times ih =>
    have same := step_next registry found
    rw [next_of_finished finished] at same
    rw [List.replicate_succ, List.replicate_succ, run_cons, same, ih]
    · rfl
    · exact getElem?_set_iterations found it

/-- Whoever asks an iteration a number of times gets as many of its chunks. -/
theorem answers_run_next {s s' : PlaybackStream} {chunks : List (List UInt8)}
    (yields : Yields registry it s chunks s') (same : v.stream = s)
    (found : v.iterations[k]? = some it) (times : ℕ) :
    (v.run registry (List.replicate times (.next k))).1 =
      (chunks.take times).map (fun chunk => .ok (.bytes chunk)) ++
        List.replicate (times - chunks.length) (.ok .finished) := by
  induction yields generalizing v times with
  | @finish it s ended =>
    subst same
    cases times with
    | zero => rfl
    | succ times =>
      have past := answers_run_finished registry (v := (v.step registry (.next k)).2)
        (by rw [step_next registry found]; exact getElem?_set_iterations found _)
        (finished_of_next ended) times
      rw [List.replicate_succ, run_cons, past, step_next registry found, ended]
      rfl
  | @chunk it s s' chunk more given _ ih =>
    subst same
    cases times with
    | zero => simp
    | succ times =>
      have later := ih (v := (v.step registry (.next k)).2) (by rw [step_next registry found])
        (by rw [step_next registry found]; exact getElem?_set_iterations found _) times
      rw [List.replicate_succ, run_cons, later, step_next registry found, given,
        List.take_succ_cons, List.length_cons, Nat.add_sub_add_right]
      rfl

/-- What a stream gives follows the bytes of its file from the position on.

* A chunk size from one up to what can be asked for at once gives the rest of the file in chunks
  of that size, nothing at the end, whether they are taken all together or one by one; a greater
  size is refused.
* The answers of calls that do not seek hold the next bytes of the file, and the position is right
  behind them. -/
structure FollowsFile (registry : Registry) (content : List UInt8) (v : Viewer) : Prop where
  chunked : ∀ size, 0 < size → size ≤ mostAtOnce → ∃ chunks,
    ChunksOf size (content.drop v.stream.position) chunks ∧
    (content.length ≤ v.stream.position → chunks = []) ∧
    v.stream.chunks registry (.int size) =
      .ok (chunks, v.stream.moved (content.length - v.stream.position)) ∧
    ∀ times, (v.run registry
        (.iterate (.int size) :: List.replicate times (.next v.iterations.length))).1 =
      .ok .begun :: ((chunks.take times).map (fun chunk => .ok (.bytes chunk)) ++
        List.replicate (times - chunks.length) (.ok .finished))
  refused : ∀ size : ℕ, mostAtOnce < size →
    v.stream.chunks registry (.int size) = .error .numberTooLarge
  onward : ∀ later, (∀ call ∈ later, ¬call.Seeks) → ∀ answers v',
    v.run registry later = (answers, v') →
      received answers = (content.drop v.stream.position).take (received answers).length ∧
      v'.stream.position = v.stream.position + (received answers).length

theorem followsFile (unclosed : registry.isClosed v.stream.handle = false) :
    v.FollowsFile registry v.stream.content where
  chunked size pos fits := by
    obtain ⟨chunks, made, yields⟩ := exists_yields unclosed pos fits
    have length : v.stream.rest.length = v.stream.content.length - v.stream.position :=
      List.length_drop
    refine ⟨chunks, made, fun past => ?_, ?_, fun times => ?_⟩
    · rw [rest, List.drop_eq_nil_of_le past] at made
      exact made.eq_nil
    · rw [← length]
      exact yields.consume
    · have begun := answers_run_next
        (v := { v with iterations := v.iterations ++ [{ size := .int size }] })
        yields rfl List.getElem?_concat_length times
      rw [run_cons]
      exact congrArg _ begun
  refused size large := chunks_of_lt unclosed large
  onward later still answers v' ran := by
    have reads := reads_run registry v still
    rw [ran] at reads
    refine ⟨?_, congrArg PlaybackStream.position reads.moved⟩
    have taken := congrArg (List.take (received answers).length) reads.taken
    rwa [List.take_left] at taken

/-- Whatever an open stream has been asked, its answers tell where it is, and all that it gives from
there on follows its file. -/
theorem follows_run (unclosed : registry.isClosed v.stream.handle = false)
    {calls : List StreamCall} {answers : List (Except Failure StreamAnswer)} {v' : Viewer}
    (ran : v.run registry calls = (answers, v')) :
    v'.stream.position = placeAfter v.stream.position answers ∧
      v'.FollowsFile registry v.stream.content := by
  have left := stream_run registry v calls
  rw [ran] at left
  have follows : v'.FollowsFile registry v'.stream.content := by
    refine followsFile ?_
    rw [left]
    exact unclosed
  rw [left] at follows ⊢
  exact ⟨rfl, follows⟩

/-- A stream is opened at the start of its file. Whatever it is asked while it is open, its answers
tell where it is in the file, and all that it gives from there on follows the file. -/
theorem chunks_follow_file {tree : FileTree} {before after registry : Registry} {item : Item}
    {s : PlaybackStream} (opened : PlaybackStream.start tree before item = .ok (s, after))
    (unclosed : registry.isClosed s.handle = false) (calls : List StreamCall) :
    ∃ content, tree.read item.source = .ok content ∧
      ∀ answers v, run registry { stream := s } calls = (answers, v) →
        v.stream.position = placeAfter 0 answers ∧ v.FollowsFile registry content := by
  unfold PlaybackStream.start at opened
  cases file : tree.read item.source with
  | error f => rw [file] at opened; cases opened
  | ok content =>
    rw [file] at opened
    cases opened
    exact ⟨content, rfl, fun answers v ran => follows_run unclosed ran⟩

/-- A clip of ten bytes. -/
def clipFile : FileTree :=
  ⟨[(["clip.mp4"], .file [48, 49, 50, 51, 52, 53, 54, 55, 56, 57] .zero)], [], []⟩

/-- The item of the clip. -/
def clipItem : Item where
  name := "clip.mp4"
  relativePath := "clip.mp4"
  size := none
  modified := none
  mime := "video/mp4"
  source := ⟨"/", ["clip.mp4"]⟩

/-- The stream over the clip. -/
def clipStream : PlaybackStream where
  content := [48, 49, 50, 51, 52, 53, 54, 55, 56, 57]
  mime := "video/mp4"
  handle := 1

/-- The registry once the stream over the clip is open. -/
def clipRegistry : Registry := (Registry.acquire {} Registry.playbackKind none).2

/-- Reading three bytes and a chunk of four, the last two bytes as a short chunk, the end, and two
bytes near the start in another iteration. -/
def clipCalls : List StreamCall :=
  [.read (.int 3), .iterate (.int 4), .next 0, .seek (.int (-2)) (.int 2), .next 0, .next 0,
    .seek (.int 1) (.int 0), .iterate (.int 2), .next 1]

theorem chunks_follow_file_midway :
    PlaybackStream.start clipFile {} clipItem = .ok (clipStream, clipRegistry) ∧
    clipRegistry.isClosed clipStream.handle = false ∧
    let told := run clipRegistry { stream := clipStream } clipCalls
    told.1 = [.ok (.bytes [48, 49, 50]), .ok .begun, .ok (.bytes [51, 52, 53, 54]), .ok (.place 8),
      .ok (.bytes [56, 57]), .ok .finished, .ok (.place 1), .ok .begun, .ok (.bytes [49, 50])] ∧
    told.2.stream.position = 3 ∧
    told.2.FollowsFile clipRegistry [48, 49, 50, 51, 52, 53, 54, 55, 56, 57] := by
  have opened : PlaybackStream.start clipFile {} clipItem = .ok (clipStream, clipRegistry) := rfl
  have unclosed : clipRegistry.isClosed clipStream.handle = false := rfl
  obtain ⟨content, file, follows⟩ := chunks_follow_file opened unclosed clipCalls
  have same : content = [48, 49, 50, 51, 52, 53, 54, 55, 56, 57] := Except.ok.inj file.symm
  exact ⟨opened, unclosed, rfl, (follows _ _ rfl).1, same ▸ (follows _ _ rfl).2⟩

/-- No chunks are given for a size that cannot be asked for at once. -/
theorem oversized_chunks_refused :
    PlaybackStream.start clipFile {} clipItem = .ok (clipStream, clipRegistry) ∧
    clipRegistry.isClosed clipStream.handle = false ∧
    ¬∀ size : ℕ, 0 < size → ∃ chunks s, clipStream.chunks clipRegistry (.int size) =
      .ok (chunks, s) ∧ ChunksOf size clipStream.rest chunks := by
  refine ⟨rfl, rfl, fun all => ?_⟩
  obtain ⟨chunks, s, given, -⟩ := all (2 ^ 63) (by decide)
  rw [chunks_of_lt rfl (by decide)] at given
  cases given

end Viewer

end VideoCatalog
