import Mathlib.Data.List.Induction
import Mathlib.Tactic.Common
import VideoCatalog.Enrichment.Program
import VideoCatalog.Proofs.Number.Numerals

/-!
# The life of a session and of its programs

A caller takes a session through its stages. While the program of a stage runs, others may close the
session or its content, and the program may end or hang.

* `Fate`, `Process`: a program that was started, and what has become of it.
* `ProgramLife`: a session, the programs it has started, and the call that waits for one of them.
* `ProgramLife.move`, `ProgramLife.run`: what callers and programs do, in any order.
* `ProgramLife.call_unstarted`, `ProgramLife.run_undisturbed`: with nothing else going on, a call is a
  stage of `ProgramSession`.
* `ProgramLife.Moved`: everything that one move can do.
* `ProgramLife.Sound`: what every move keeps.
* `ProgramLife.Kept`, `ProgramLife.closing_is_final`: what holds after any moves.
-/

namespace VideoCatalog

/-- What has become of a program that was started. -/
inductive Fate where
  | running
  | exited (run : ProgramRun)
  | killed

/-- A program that was started. -/
structure Process where
  command : List String
  fate : Fate := .running

/-- The stages that start a program. -/
inductive ProgramStage where
  | probing
  | capturing

/-- What a session answers to a call. -/
inductive SessionAnswer where
  | duration (result : Except Failure (Option Binary64))
  | moved (result : Except Failure Unit)
  | frame (result : Except Failure Picture)

/-- A session, every program that it has started, the one that it remembers, and the stage in progress
with the program it waits for. -/
structure ProgramLife where
  session : ProgramSession
  processes : List Process := []
  remembered : Option Nat := none
  waiting : Option (ProgramStage × Nat) := none

/-- The caller begins a stage, whose program may be missing, or seeks, or goes on with the stage in
progress; somebody closes the session or its content; a program ends. -/
inductive SessionMove where
  | call (stage : ProgramStage) (absent : Bool)
  | seek (seconds : Value)
  | goOn
  | close
  | closeContent
  | exit (i : Nat) (run : ProgramRun)

/-- What is known of a program that has ended. One that was killed says so with its code. -/
def Fate.outcome? : Fate → Option ProgramRun
  | .running => none
  | .exited run => some run
  | .killed => some { code := -9 }

/-- Ends a program that runs. -/
def Process.ends (fate : Fate) (p : Process) : Process :=
  match p.fate with
  | .running => { p with fate := fate }
  | _ => p

/-- What happens while a program runs, as moves. -/
def Meanwhile.moves : Meanwhile → List SessionMove
  | .nothing => []
  | .sessionCloses => [.close]
  | .contentCloses => [.closeContent]

namespace ProgramStage

/-- The command of a stage. -/
def command (s : ProgramSession) : ProgramStage → List String
  | .probing => s.tools.probeCommand s.path
  | .capturing => s.tools.frameCommand s.path s.position

/-- A stage fails. -/
def refuse (f : Failure) : ProgramStage → SessionAnswer
  | .probing => .duration (.error f)
  | .capturing => .frame (.error f)

/-- What a stage answers once its program has ended. -/
def answer (s : ProgramSession) (run : ProgramRun) : ProgramStage → SessionAnswer
  | .probing => .duration ((s.outputOf s.tools.prober run).bind probedDuration)
  | .capturing =>
    .frame ((s.outputOf s.tools.framer run).bind (ProgramSession.frameIn s.position run))

/-- The whole stage at once: its answer, the session after it, and the command started. -/
def whole (s : ProgramSession) (run : ProgramRun) :
    ProgramStage → SessionAnswer × ProgramSession × Option (List String)
  | .probing =>
    let step := s.loadMetadata run
    (.duration step.result, step.session, step.command)
  | .capturing =>
    let step := s.captureFrame run
    (.frame step.result, step.session, step.command)

end ProgramStage

namespace ProgramLife

/-- A session that has just been opened. -/
def fresh (tools : Tools) (path : Path) : ProgramLife :=
  { session := { tools := tools, path := path } }

/-- A program ends, if it runs. -/
def stop (l : ProgramLife) (i : Nat) (fate : Fate) : ProgramLife :=
  { l with processes := l.processes.modify i (Process.ends fate) }

/-- A call that has begun in `l`, with a session that may have changed since and with the fate of its
program. -/
def begun (l : ProgramLife) (stage : ProgramStage) (s : ProgramSession) (fate : Fate) :
    ProgramLife where
  session := s
  processes := l.processes ++ [{ command := stage.command l.session, fate := fate }]
  remembered := some l.processes.length
  waiting := some (stage, l.processes.length)

/-- Starts the program of a stage. -/
def start (l : ProgramLife) (stage : ProgramStage) : ProgramLife :=
  l.begun stage l.session .running

/-- Begins a stage. There is no answer yet if its program is started. -/
def call (l : ProgramLife) (stage : ProgramStage) (absent : Bool) :
    Option SessionAnswer × ProgramLife :=
  match l.session.checkOpen with
  | .error f => (some (stage.refuse f), l)
  | .ok () =>
    if absent then
      (some (stage.refuse (.decode (.programMissing ((stage.command l.session).headD "")))), l)
    else (none, l.start stage)

/-- Goes on with the stage in progress, once its program has ended. -/
def goOn (l : ProgramLife) : Option SessionAnswer × ProgramLife :=
  match l.waiting with
  | none => (none, l)
  | some (stage, i) =>
    match (l.processes[i]?).bind (·.fate.outcome?) with
    | none => (none, l)
    | some run =>
      (some (stage.answer l.session run), { l with remembered := none, waiting := none })

/-- Closes the session and kills the program that it remembers, if that runs. -/
def close (l : ProgramLife) : ProgramLife :=
  { l with
    session := l.session.close
    processes := match l.remembered with
      | some i => l.processes.modify i (Process.ends .killed)
      | none => l.processes }

/-- Closes the content. -/
def closeContent (l : ProgramLife) : ProgramLife :=
  { l with session := { l.session with contentClosed := true } }

/-- One move, and what it answers. The caller does one thing at a time. -/
def move (l : ProgramLife) : SessionMove → Option SessionAnswer × ProgramLife
  | .call stage absent => if l.waiting.isSome then (none, l) else l.call stage absent
  | .seek seconds =>
    if l.waiting.isSome then (none, l)
    else
      let step := l.session.seek seconds
      (some (.moved step.result), { l with session := step.session })
  | .goOn => l.goOn
  | .close => (none, l.close)
  | .closeContent => (none, l.closeContent)
  | .exit i run => (none, l.stop i (.exited run))

/-- Moves one after another. -/
def run (l : ProgramLife) (moves : List SessionMove) : ProgramLife :=
  moves.foldl (fun l m => (l.move m).2) l

variable {l l' : ProgramLife} {m : SessionMove} {moves : List SessionMove} {stage : ProgramStage}
  {i j : Nat} {p : Process} {fate : Fate} {run : ProgramRun}

theorem move_call (idle : l.waiting = none) (absent : Bool) :
    l.move (.call stage absent) = l.call stage absent := by
  simp [move, idle]

theorem move_seek (idle : l.waiting = none) (v : Value) :
    l.move (.seek v) = (some (.moved (l.session.seek v).result),
      { l with session := (l.session.seek v).session }) := by
  simp only [move, idle]
  rfl

/-- While a stage is in progress, its caller does nothing else. -/
theorem move_of_busy (busy : l.waiting.isSome = true)
    (asks : (∃ stage absent, m = .call stage absent) ∨ ∃ v, m = .seek v) : l.move m = (none, l) := by
  rcases asks with ⟨stage, absent, rfl⟩ | ⟨v, rfl⟩
  · simp [move, busy]
  · simp [move, busy]

/-! ### Ends of programs -/

theorem ends_command (p : Process) (fate : Fate) : (p.ends fate).command = p.command := by
  unfold Process.ends
  split <;> rfl

theorem fate_ends (other : fate ≠ .running) (p : Process) : (p.ends fate).fate ≠ .running := by
  unfold Process.ends
  split
  · exact other
  · next stays => exact stays

/-- Ending a program leaves the others. The programs that still run are others. -/
theorem running_of_modify {processes : List Process} (other : fate ≠ .running)
    (found : (processes.modify i (Process.ends fate))[j]? = some p) (runs : p.fate = .running) :
    i ≠ j ∧ processes[j]? = some p := by
  rw [List.getElem?_modify] at found
  obtain ⟨q, held, rfl⟩ := Option.map_eq_some_iff.1 found
  split at runs
  · exact absurd runs (fate_ends other q)
  · next apart => exact ⟨apart, by simpa [apart] using held⟩

theorem commands_modify (processes : List Process) (i : Nat) (fate : Fate) :
    (processes.modify i (Process.ends fate)).map Process.command =
      processes.map Process.command := by
  refine List.ext_getElem? fun j => ?_
  rw [List.getElem?_map, List.getElem?_map, List.getElem?_modify]
  cases processes[j]? with
  | none => rfl
  | some p =>
    by_cases same : i = j
    · simp [same, ends_command]
    · simp [same]

/-! ### Stages with nothing else going on -/

theorem answer_of_closed {s : ProgramSession} (closed : s.closed = true) (stage : ProgramStage)
    (run : ProgramRun) : stage.answer s run = stage.refuse (.decode .sessionClosed) := by
  have refused (program : String) : s.outputOf program run = .error (.decode .sessionClosed) := by
    simp [ProgramSession.outputOf, closed]
  cases stage <;> simp only [ProgramStage.answer, refused] <;> rfl

theorem whole_of_refused {s : ProgramSession} {f : Failure} (refused : s.checkOpen = .error f)
    (stage : ProgramStage) (run : ProgramRun) : stage.whole s run = (stage.refuse f, s, none) := by
  cases stage <;> simp [ProgramStage.whole, ProgramStage.refuse, ProgramSession.loadMetadata,
    ProgramSession.captureFrame, ProgramSession.runProgram, refused]

theorem whole_of_started {s : ProgramSession} (opened : s.checkOpen = .ok ())
    (started : run.missing = false) (stage : ProgramStage) :
    stage.whole s run = (stage.answer (s.meanwhile run.meanwhile) run, s.meanwhile run.meanwhile,
      some (stage.command s)) := by
  have stays : (s.meanwhile run.meanwhile).position = s.position ∧
      (s.meanwhile run.meanwhile).tools = s.tools := by
    cases run.meanwhile <;> exact ⟨rfl, rfl⟩
  have ran (command : List String) : s.runProgram command run = ⟨s.meanwhile run.meanwhile,
      (s.meanwhile run.meanwhile).outputOf (command.headD "") run, some command⟩ := by
    simp [ProgramSession.runProgram, opened, started]
  cases stage with
  | probing =>
    have program : (s.tools.probeCommand s.path).headD "" = s.tools.prober := rfl
    simp only [ProgramStage.whole, ProgramStage.answer, ProgramSession.loadMetadata, ran, stays,
      program]
    cases (s.meanwhile run.meanwhile).outputOf s.tools.prober run <;> rfl
  | capturing =>
    have program : (s.tools.frameCommand s.path s.position).headD "" = s.tools.framer := rfl
    simp only [ProgramStage.whole, ProgramStage.answer, ProgramSession.captureFrame, ran, stays,
      program]
    cases (s.meanwhile run.meanwhile).outputOf s.tools.framer run <;> rfl

theorem modify_last {α : Type} (xs : List α) (x : α) (f : α → α) :
    (xs ++ [x]).modify xs.length f = xs ++ [f x] := by
  induction xs with
  | nil => rfl
  | cons y ys ih => simp [ih]

/-- A session that refuses its stages starts nothing. -/
theorem call_of_refused {f : Failure} (refused : l.session.checkOpen = .error f)
    (stage : ProgramStage) (absent : Bool) : l.call stage absent = (some (stage.refuse f), l) := by
  simp only [call, refused]

theorem call_of_open (opened : l.session.checkOpen = .ok ()) (stage : ProgramStage) :
    l.call stage false = (none, l.start stage) := by
  simp [call, opened]

/-- A call whose program is not started, since the session refuses it or there is no such program,
is a whole stage at once. -/
theorem call_unstarted (stage : ProgramStage)
    (unstarted : l.session.checkOpen ≠ .ok () ∨ run.missing = true) :
    l.call stage run.missing = (some (stage.whole l.session run).1, l) ∧
      (stage.whole l.session run).2.1 = l.session := by
  cases opened : l.session.checkOpen with
  | error f =>
    rw [call_of_refused opened, whole_of_refused opened]
    exact ⟨rfl, rfl⟩
  | ok =>
    have absent : run.missing = true := by simpa [opened] using unstarted
    have ran (command : List String) : l.session.runProgram command run =
        ⟨l.session, .error (.decode (.programMissing (command.headD ""))), some command⟩ := by
      simp [ProgramSession.runProgram, opened, absent]
    cases stage with
    | probing => simp [call, opened, absent, ProgramStage.whole, ProgramSession.loadMetadata, ran,
        ProgramStage.refuse, ProgramStage.command]
    | capturing => simp [call, opened, absent, ProgramStage.whole, ProgramSession.captureFrame, ran,
        ProgramStage.refuse, ProgramStage.command]

theorem stop_begun (l : ProgramLife) (stage : ProgramStage) (s : ProgramSession)
    (before after : Fate) : (l.begun stage s before).stop l.processes.length after =
      l.begun stage s (Process.ends after ⟨stage.command l.session, before⟩).fate := by
  simp only [stop, begun, modify_last]
  cases before <;> rfl

theorem close_begun (l : ProgramLife) (stage : ProgramStage) (s : ProgramSession) (fate : Fate) :
    (l.begun stage s fate).close =
      l.begun stage s.close (Process.ends .killed ⟨stage.command l.session, fate⟩).fate := by
  simp only [close, begun, modify_last]
  cases fate <;> rfl

theorem goOn_begun {s : ProgramSession} (gone : fate.outcome? = some run) :
    (l.begun stage s fate).goOn = (some (stage.answer s run),
      { l.begun stage s fate with remembered := none, waiting := none }) := by
  have found : ((l.begun stage s fate).processes[l.processes.length]?).bind (·.fate.outcome?) =
      some run := by
    simp [begun, gone]
  simp only [goOn, begun] at found ⊢
  rw [found]

/-- A call with what happens before it goes on. A program that hangs does not end. -/
def course (l : ProgramLife) (stage : ProgramStage) (run : ProgramRun) : List SessionMove :=
  .call stage run.missing ::
    (run.meanwhile.moves ++ if run.hangs then [] else [.exit l.processes.length run])

/-- With nothing else going on, a call is a whole stage: it ends with the same answer and session, and
has started the same command. -/
theorem run_undisturbed (idle : l.waiting = none) (opened : l.session.checkOpen = .ok ())
    (started : run.missing = false) (ends : run.hangs = false ∨ run.meanwhile = .sessionCloses)
    (stage : ProgramStage) :
    let after := (l.run (l.course stage run)).goOn
    let whole := stage.whole l.session run
    after.1 = some whole.1 ∧ after.2.session = whole.2.1 ∧ after.2.waiting = none ∧
      after.2.processes.map Process.command =
        l.processes.map Process.command ++ whole.2.2.toList := by
  have begins : (l.move (.call stage run.missing)).2 = l.begun stage l.session .running := by
    rw [move_call idle, started, call_of_open opened]
    rfl
  have ran : l.run (l.course stage run) = ((l.begun stage l.session .running).run
      run.meanwhile.moves).run (if run.hangs then [] else [.exit l.processes.length run]) := by
    rw [← begins]
    exact List.foldl_append
  rw [whole_of_started opened started, ran]
  cases happens : run.meanwhile with
  | nothing =>
    have quick : run.hangs = false := by simpa [happens] using ends
    have during : ((l.begun stage l.session .running).run Meanwhile.nothing.moves).run
        [.exit l.processes.length run] = l.begun stage l.session (.exited run) :=
      stop_begun ..
    rw [quick, if_neg Bool.false_ne_true, during, goOn_begun rfl]
    simp [begun, ProgramSession.meanwhile]
  | contentCloses =>
    have quick : run.hangs = false := by simpa [happens] using ends
    have during : ((l.begun stage l.session .running).run Meanwhile.contentCloses.moves).run
        [.exit l.processes.length run] =
          l.begun stage (l.session.meanwhile .contentCloses) (.exited run) :=
      stop_begun ..
    rw [quick, if_neg Bool.false_ne_true, during, goOn_begun rfl]
    simp [begun, ProgramSession.meanwhile]
  | sessionCloses =>
    have closed : (l.begun stage l.session .running).run Meanwhile.sessionCloses.moves =
        l.begun stage l.session.close .killed := close_begun ..
    -- The program was killed, so that it does not end by itself any more.
    have during : (l.begun stage l.session.close .killed).run
        (if run.hangs then [] else [.exit l.processes.length run]) =
          l.begun stage l.session.close .killed := by
      split
      · rfl
      · exact stop_begun ..
    rw [closed, during, goOn_begun rfl]
    simp [begun, ProgramSession.meanwhile, answer_of_closed, ProgramSession.close]

/-! ### Single moves -/

/-- Everything that a move can do. -/
inductive Moved (l : ProgramLife) : SessionMove → ProgramLife → Prop
  | same {m : SessionMove} (stays : m ≠ .close ∧ m ≠ .closeContent) : Moved l m l
  | started {stage : ProgramStage} (idle : l.waiting = none) (opened : l.session.checkOpen = .ok ()) :
      Moved l (.call stage false) (l.start stage)
  | sought {v : Value} {x : Binary64} (idle : l.waiting = none) (counts : x.Counts) :
      Moved l (.seek v) { l with session := { l.session with position := x } }
  | answered {stage : ProgramStage} {i : Nat} {run : ProgramRun} (waits : l.waiting = some (stage, i))
      (gone : (l.processes[i]?).bind (·.fate.outcome?) = some run) :
      Moved l .goOn { l with remembered := none, waiting := none }
  | closed : Moved l .close l.close
  | released : Moved l .closeContent l.closeContent
  | ended {i : Nat} {run : ProgramRun} : Moved l (.exit i run) (l.stop i (.exited run))

theorem counts_max (x : Binary64) : (if Binary64.zero.less x then x else .zero).Counts := by
  split
  · next positive =>
    cases x with
    | notANumber => simp [Binary64.less] at positive
    | infinite negative =>
      cases negative with
      | true => cases positive
      | false => exact .inr rfl
    | finite negative units =>
      cases negative with
      | true =>
        have below : (0 : Int) < -units := by
          simpa [Binary64.less, Binary64.compare?, Binary64.zero, Binary64.signedUnits,
            Int.compare_eq_lt] using positive
        omega
      | false => exact .inl ⟨units, rfl⟩
  · exact .inl ⟨0, rfl⟩

/-- A seek refuses and leaves the session, or goes to a position from zero on. -/
theorem seek_cases (s : ProgramSession) (v : Value) :
    (∃ f, s.seek v = ⟨s, .error f, none⟩) ∨
      ∃ x : Binary64, x.Counts ∧ s.seek v = ⟨{ s with position := x }, .ok (), none⟩ := by
  unfold ProgramSession.seek
  split
  · next f _ => exact .inl ⟨f, rfl⟩
  · split
    · next f _ => exact .inl ⟨f, rfl⟩
    · next x _ => exact .inr ⟨_, counts_max x, rfl⟩

theorem moved_call (l : ProgramLife) (idle : l.waiting = none) (stage : ProgramStage)
    (absent : Bool) : Moved l (.call stage absent) (l.call stage absent).2 := by
  unfold call
  split
  · exact .same (by simp)
  · next opened =>
    cases absent with
    | true => exact .same (by simp)
    | false => exact .started idle opened

theorem moved_move (l : ProgramLife) (m : SessionMove) : Moved l m (l.move m).2 := by
  cases m with
  | call stage absent =>
    by_cases idle : l.waiting = none
    · rw [move_call idle]
      exact moved_call l idle stage absent
    · rw [move_of_busy (Option.isSome_iff_ne_none.2 idle) (.inl ⟨stage, absent, rfl⟩)]
      exact .same (by simp)
  | seek v =>
    by_cases idle : l.waiting = none
    · rw [move_seek idle]
      rcases seek_cases l.session v with ⟨f, refused⟩ | ⟨x, counts, sought⟩
      · rw [refused]
        exact .same (by simp)
      · rw [sought]
        exact .sought idle counts
    · rw [move_of_busy (Option.isSome_iff_ne_none.2 idle) (.inr ⟨v, rfl⟩)]
      exact .same (by simp)
  | goOn =>
    simp only [move, goOn]
    split
    · exact .same (by simp)
    · next stage i waits =>
      split
      · exact .same (by simp)
      · next run gone => exact .answered waits gone
  | close => exact .closed
  | closeContent => exact .released
  | exit i run => exact .ended

/-! ### All moves -/

/-- The commands that a session may issue. No position among them is negative. -/
def Issued (s : ProgramSession) (command : List String) : Prop :=
  command = s.tools.probeCommand s.path ∨
    ∃ x : Binary64, x.Counts ∧ command = s.tools.frameCommand s.path x

/-- What every move keeps. -/
structure Sound (l : ProgramLife) : Prop where
  /-- The session remembers the program that a stage waits for. -/
  remembers : l.remembered = l.waiting.map Prod.snd
  /-- No other program runs, and none at all once the session is closed. -/
  alone : ∀ i p, l.processes[i]? = some p → p.fate = .running →
    l.remembered = some i ∧ l.session.closed = false
  /-- The program that is remembered was started. -/
  inside : ∀ i, l.remembered = some i → i < l.processes.length
  position : l.session.position.Counts
  issued : ∀ p ∈ l.processes, Issued l.session p.command

theorem sound_fresh (tools : Tools) (path : Path) : Sound (fresh tools path) where
  remembers := rfl
  alone := nofun
  inside := nofun
  position := .inl ⟨0, rfl⟩
  issued := nofun

theorem checkOpen_eq_ok {s : ProgramSession} :
    s.checkOpen = .ok () ↔ s.closed = false ∧ s.contentClosed = false := by
  unfold ProgramSession.checkOpen
  cases s.closed <;> cases s.contentClosed <;> simp

/-- The issued commands are issued still if only fates change. -/
theorem issued_of_commands {s : ProgramSession} {before after : List Process}
    (same : after.map Process.command = before.map Process.command)
    (issued : ∀ p ∈ before, Issued s p.command) : ∀ p ∈ after, Issued s p.command := by
  intro p mem
  have mem : p.command ∈ before.map Process.command := same ▸ List.mem_map_of_mem mem
  obtain ⟨q, held, command⟩ := List.mem_map.1 mem
  exact command ▸ issued q held

theorem sound_start (sound : Sound l) (idle : l.waiting = none)
    (opened : l.session.checkOpen = .ok ()) (stage : ProgramStage) : Sound (l.start stage) where
  remembers := rfl
  alone i p found runs := by
    have forgotten : l.remembered = none := by rw [sound.remembers, idle]; rfl
    refine ⟨?_, (checkOpen_eq_ok.1 opened).1⟩
    rcases Nat.lt_trichotomy i l.processes.length with inside | same | outside
    · rw [start, begun, List.getElem?_append_left inside] at found
      rw [(sound.alone i p found runs).1] at forgotten
      cases forgotten
    · rw [same]
      rfl
    · rw [List.getElem?_eq_none (by simp [start, begun]; omega)] at found
      cases found
  inside i held := by
    obtain rfl : l.processes.length = i := Option.some.inj held
    simp [start, begun]
  position := sound.position
  issued p mem := by
    rcases List.mem_append.1 mem with before | new
    · exact sound.issued p before
    · obtain rfl := List.mem_singleton.1 new
      cases stage with
      | probing => exact .inl rfl
      | capturing => exact .inr ⟨_, sound.position, rfl⟩

theorem Sound.stop (sound : Sound l) (i : Nat) (other : fate ≠ .running) : Sound (l.stop i fate) where
  remembers := sound.remembers
  alone j p found runs := by
    obtain ⟨-, before⟩ := running_of_modify other found runs
    exact sound.alone j p before runs
  inside j held := by simpa [ProgramLife.stop] using sound.inside j held
  position := sound.position
  issued := issued_of_commands (commands_modify ..) sound.issued

/-- A program that runs is the one that the session remembers, and the session is open. -/
theorem Sound.of_running (sound : Sound l) (mem : p ∈ l.processes) (runs : p.fate = .running) :
    l.remembered ≠ none ∧ l.session.closed = false := by
  obtain ⟨i, found⟩ := List.getElem?_of_mem mem
  obtain ⟨held, opened⟩ := sound.alone i p found runs
  exact ⟨by simp [held], opened⟩

/-- Closing ends the program that is remembered, if there is one. -/
theorem close_cases (l : ProgramLife) :
    (l.remembered = none ∧ l.close = { l with session := l.session.close }) ∨
    ∃ i, l.remembered = some i ∧ l.close = { l.stop i .killed with session := l.session.close } := by
  cases held : l.remembered with
  | none => exact .inl ⟨rfl, by simp [close, held]⟩
  | some i => exact .inr ⟨i, rfl, by simp [close, held, stop]⟩

/-- After closing, no program runs. -/
theorem Sound.close (sound : Sound l) : Sound l.close := by
  rcases close_cases l with ⟨forgotten, closed⟩ | ⟨i, held, closed⟩
  · rw [closed]
    refine ⟨sound.remembers, fun j p found runs => ?_, sound.inside, sound.position, sound.issued⟩
    rw [(sound.alone j p found runs).1] at forgotten
    cases forgotten
  · rw [closed]
    have stopped : Sound (l.stop i .killed) := sound.stop i (by simp)
    refine ⟨stopped.remembers, fun j p found runs => ?_, stopped.inside, stopped.position,
      stopped.issued⟩
    -- What still runs was not remembered, but nothing else ran.
    obtain ⟨apart, before⟩ := running_of_modify (by simp) found runs
    have same := (sound.alone j p before runs).1
    exact absurd (Option.some.inj (held.symm.trans same)) apart

/-- A move keeps all of this. -/
theorem Sound.moved (sound : Sound l) (moved : Moved l m l') : Sound l' := by
  cases moved with
  | same => exact sound
  | started idle opened => exact sound_start sound idle opened _
  | sought _ counts =>
    exact ⟨sound.remembers, sound.alone, sound.inside, counts, sound.issued⟩
  | @answered stage i run waits gone =>
    refine ⟨rfl, fun j p found runs => ?_, nofun, sound.position, sound.issued⟩
    -- The program that was waited for has ended, and it was the only one.
    have held : l.remembered = some i := by rw [sound.remembers, waits]; rfl
    obtain rfl : i = j := Option.some.inj (held.symm.trans (sound.alone j p found runs).1)
    simp [found, runs, Fate.outcome?] at gone
  | closed => exact sound.close
  | released => exact ⟨sound.remembers, sound.alone, sound.inside, sound.position, sound.issued⟩
  | ended => exact sound.stop _ (by simp)

theorem sound_run (sound : Sound l) (moves : List SessionMove) : Sound (l.run moves) := by
  induction moves generalizing l with
  | nil => exact sound
  | cons m rest ih => exact ih (sound.moved (moved_move l m))

/-! ### Closing -/

theorem Moved.closed_iff (moved : Moved l m l') :
    l'.session.closed = true ↔ l.session.closed = true ∨ m = .close := by
  cases moved with
  | same stays => simp [stays.1]
  | closed => simp [close, ProgramSession.close]
  | _ => simp [start, begun, closeContent, stop]

theorem Moved.released_iff (moved : Moved l m l') :
    l'.session.contentClosed = true ↔ l.session.contentClosed = true ∨ m = .closeContent := by
  cases moved with
  | same stays => simp [stays.2]
  | _ => simp [start, begun, close, ProgramSession.close, closeContent, stop]

/-- Only a session that is open over open content starts programs. -/
theorem Moved.commands (moved : Moved l m l')
    (shut : l.session.closed = true ∨ l.session.contentClosed = true) :
    l'.processes.map Process.command = l.processes.map Process.command := by
  cases moved with
  | started idle opened =>
    have opened := checkOpen_eq_ok.1 opened
    simp [opened] at shut
  | closed =>
    rcases close_cases l with ⟨-, closed⟩ | ⟨i, -, closed⟩
    · rw [closed]
    · rw [closed]
      exact commands_modify ..
  | ended => exact commands_modify ..
  | _ => rfl

/-- A flag that one kind of move sets, and no other move changes, is set if there was such a move. -/
theorem flag_run {P : ProgramLife → Prop} {sets : SessionMove}
    (step : ∀ l m, P (l.move m).2 ↔ P l ∨ m = sets) (l : ProgramLife) (moves : List SessionMove) :
    P (l.run moves) ↔ P l ∨ sets ∈ moves := by
  induction moves generalizing l with
  | nil => simp [run]
  | cons m rest ih =>
    refine (ih (l.move m).2).trans ?_
    rw [step, List.mem_cons, or_assoc, @eq_comm _ m]

theorem closed_run (l : ProgramLife) (moves : List SessionMove) :
    (l.run moves).session.closed = true ↔ l.session.closed = true ∨ .close ∈ moves :=
  flag_run (P := fun l => l.session.closed = true) (fun l m => (moved_move l m).closed_iff) l moves

theorem released_run (l : ProgramLife) (moves : List SessionMove) :
    (l.run moves).session.contentClosed = true ↔
      l.session.contentClosed = true ∨ .closeContent ∈ moves :=
  flag_run (P := fun l => l.session.contentClosed = true)
    (fun l m => (moved_move l m).released_iff) l moves

theorem commands_run (shut : l.session.closed = true ∨ l.session.contentClosed = true)
    (later : List SessionMove) :
    (l.run later).processes.map Process.command = l.processes.map Process.command := by
  induction later generalizing l with
  | nil => rfl
  | cons m rest ih =>
    have moved := moved_move l m
    have still : (l.move m).2.session.closed = true ∨ (l.move m).2.session.contentClosed = true :=
      shut.imp (fun closed => moved.closed_iff.2 (.inl closed))
        (fun released => moved.released_iff.2 (.inl released))
    exact (ih still).trans (moved.commands shut)

/-- Once the session is closed, the stage in progress is refused, however its program has ended. -/
theorem goOn_of_closed (sound : Sound l) (closed : l.session.closed = true)
    (waits : l.waiting = some (stage, i)) :
    l.goOn = (some (stage.refuse (.decode .sessionClosed)),
      { l with remembered := none, waiting := none }) := by
  have held : l.remembered = some i := by rw [sound.remembers, waits]; rfl
  obtain ⟨p, found⟩ : ∃ p, l.processes[i]? = some p :=
    ⟨_, List.getElem?_eq_getElem (sound.inside i held)⟩
  have gone : ∃ run, p.fate.outcome? = some run := by
    cases fate : p.fate with
    | running =>
      have opened := (sound.alone i p found fate).2
      rw [closed] at opened
      cases opened
    | exited run => exact ⟨run, rfl⟩
    | killed => exact ⟨_, rfl⟩
  obtain ⟨run, gone⟩ := gone
  simp only [goOn, waits, found, Option.bind_some, gone, answer_of_closed closed]

/-- A program that runs when the session is closed is killed. -/
theorem killed_close (sound : Sound l) (found : l.processes[i]? = some p) (runs : p.fate = .running) :
    l.close.processes[i]? = some { p with fate := .killed } := by
  have held := (sound.alone i p found runs).1
  simp [close, held, found, Process.ends, runs]

/-- A position from zero on is written neither as not-a-number nor with a sign. -/
theorem positionText_of_counts {x : Binary64} (counts : x.Counts) :
    Tools.positionText x ≠ "nan" ∧ (Tools.positionText x).toList.head? ≠ some '-' := by
  rcases counts with ⟨units, rfl⟩ | rfl
  · obtain ⟨c, rest, text, digit⟩ := head_fixedDigits 3 units Binary64.unitsPerOne
    have text : (Tools.positionText (.finite false units)).toList = c :: rest := by
      simp [Tools.positionText, Binary64.fixed, text]
    refine ⟨fun same => ?_, fun same => ?_⟩
    · rw [same] at text
      obtain rfl : 'n' = c := (List.cons.inj text).1
      cases digit
    · rw [text] at same
      obtain rfl : c = '-' := Option.some.inj same
      cases digit
  · exact ⟨by decide, by decide⟩

/-- What holds of a session after some moves. -/
structure Kept (moves : List SessionMove) (l : ProgramLife) : Prop where
  /-- The session is closed if somebody has closed it. -/
  closed : l.session.closed = true ↔ .close ∈ moves
  /-- The content is closed if somebody has closed it. -/
  released : l.session.contentClosed = true ↔ .closeContent ∈ moves
  /-- A call whose program is not started is a whole stage of the session at once. -/
  unstarted : l.waiting = none → ∀ (stage : ProgramStage) (run : ProgramRun),
    l.session.checkOpen ≠ .ok () ∨ run.missing = true →
      l.move (.call stage run.missing) = (some (stage.whole l.session run).1, l)
  /-- So is one whose program ends before the call goes on, with nothing else going on. -/
  undisturbed : l.waiting = none → ∀ (stage : ProgramStage) (run : ProgramRun),
    l.session.checkOpen = .ok () → run.missing = false →
      run.hangs = false ∨ run.meanwhile = .sessionCloses →
        ((l.run (l.course stage run)).move .goOn).1 = some (stage.whole l.session run).1
  /-- Every call of a closed session is refused, and starts nothing. -/
  refused : .close ∈ moves → l.waiting = none → ∀ stage absent,
    l.move (.call stage absent) = (some (stage.refuse (.decode .sessionClosed)), l)
  /-- So is every seek. -/
  fixed : .close ∈ moves → l.waiting = none → ∀ v,
    l.move (.seek v) = (some (.moved (.error (.decode .sessionClosed))), l)
  /-- A call during which the session was closed goes on, and is refused. -/
  interrupted : .close ∈ moves → ∀ stage i, l.waiting = some (stage, i) →
    l.move .goOn = (some (stage.refuse (.decode .sessionClosed)),
      { l with remembered := none, waiting := none })
  /-- Closing kills the program that runs. -/
  killed : ∀ (i : Nat) (p : Process), l.processes[i]? = some p → p.fate = .running →
    (l.move .close).2.processes[i]? = some { p with fate := .killed }
  /-- No program runs on after that. -/
  stopped : .close ∈ moves → ∀ p ∈ l.processes, p.fate ≠ .running
  /-- With its content closed, the session refuses every call, and starts nothing. -/
  withdrawn : .closeContent ∈ moves → l.waiting = none → ∀ stage absent, ∃ f : Failure,
    f.isDecode = true ∧ l.move (.call stage absent) = (some (stage.refuse f), l)
  /-- After either, whatever follows starts nothing. -/
  final : .close ∈ moves ∨ .closeContent ∈ moves → ∀ later,
    (l.run later).processes.map Process.command = l.processes.map Process.command
  /-- Between calls the session remembers no program, and none runs. -/
  idle : l.waiting = none → l.remembered = none ∧ ∀ p ∈ l.processes, p.fate ≠ .running
  /-- The position is neither negative nor not-a-number. -/
  position : l.session.position.Counts
  /-- Nor are the positions that programs were started with, as they are written. -/
  issued : ∀ p ∈ l.processes, p.command = l.session.tools.probeCommand l.session.path ∨
    ∃ x : Binary64, x.Counts ∧ p.command = l.session.tools.frameCommand l.session.path x ∧
      Tools.positionText x ≠ "nan" ∧ (Tools.positionText x).toList.head? ≠ some '-'
  /-- A seek that fails changes nothing. -/
  unmoved : ∀ v f, (l.move (.seek v)).1 = some (.moved (.error f)) → (l.move (.seek v)).2 = l

/-- Whatever callers and programs do and in whatever order: a closed session starts nothing, refuses
everything and lets nothing run, and no position is negative. -/
theorem closing_is_final (tools : Tools) (path : Path) (moves : List SessionMove) :
    Kept moves ((fresh tools path).run moves) := by
  have sound := sound_run (sound_fresh tools path) moves
  have closed : ((fresh tools path).run moves).session.closed = true ↔ .close ∈ moves := by
    simp [closed_run, fresh]
  have released : ((fresh tools path).run moves).session.contentClosed = true ↔
      .closeContent ∈ moves := by
    simp [released_run, fresh]
  generalize (fresh tools path).run moves = l at sound closed released
  have check (shut : .close ∈ moves) : l.session.checkOpen = .error (.decode .sessionClosed) := by
    simp [ProgramSession.checkOpen, closed.2 shut]
  exact {
    closed := closed
    released := released
    unstarted := fun idle stage run unstarted => by
      rw [move_call idle]
      exact (call_unstarted stage unstarted).1
    undisturbed := fun idle stage run opened started ends =>
      (run_undisturbed idle opened started ends stage).1
    refused := fun shut idle stage absent => by
      rw [move_call idle, call_of_refused (check shut)]
    fixed := fun shut idle v => by
      rw [move_seek idle, ProgramSession.seek, check shut]
    interrupted := fun shut stage i waits => goOn_of_closed sound (closed.2 shut) waits
    killed := fun i p found runs => killed_close sound found runs
    stopped := fun shut p mem runs => by
      have opened := (sound.of_running mem runs).2
      rw [closed.2 shut] at opened
      cases opened
    withdrawn := fun gone idle stage absent => by
      rw [move_call idle]
      by_cases shut : .close ∈ moves
      · exact ⟨_, rfl, call_of_refused (check shut) stage absent⟩
      · have check : l.session.checkOpen = .error (.decode .contentReleased) := by
          simp [ProgramSession.checkOpen, Bool.eq_false_iff.2 (mt closed.1 shut), released.2 gone]
        exact ⟨_, rfl, call_of_refused check stage absent⟩
    final := fun shut later => commands_run (shut.imp closed.2 released.2) later
    idle := fun idle => by
      have forgotten : l.remembered = none := by rw [sound.remembers, idle]; rfl
      exact ⟨forgotten, fun p mem runs => (sound.of_running mem runs).1 forgotten⟩
    position := sound.position
    issued := fun p mem => (sound.issued p mem).imp_right fun ⟨x, counts, command⟩ =>
      ⟨x, counts, command, positionText_of_counts counts⟩
    unmoved := fun v f answer => by
      by_cases idle : l.waiting = none
      · rw [move_seek idle] at answer ⊢
        rcases seek_cases l.session v with ⟨f, refused⟩ | ⟨x, -, sought⟩
        · rw [refused]
        · rw [sought] at answer
          cases answer
      · rw [move_of_busy (Option.isSome_iff_ne_none.2 idle) (.inr ⟨v, rfl⟩)] }

/-- A session that is closed while its program writes a duration refuses the call. -/
example : ((fresh ⟨"ffmpeg", "ffprobe"⟩ ⟨"/", ["clip.mp4"]⟩).run
    [.call .probing false, .close, .exit 0 { output := "\x7b\x7d".toUTF8.toList }]).goOn.1 =
      some (.duration (.error (.decode .sessionClosed))) := rfl

end ProgramLife

end VideoCatalog
