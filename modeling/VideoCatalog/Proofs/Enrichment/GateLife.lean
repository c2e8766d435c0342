import Mathlib.Data.List.Induction
import Mathlib.Logic.Function.Iterate
import VideoCatalog.Enrichment.GateUse

/-!
# The life of a gate

Many callers use a gate. The one whose verdict was the first goes on to run the callback, which may
call the gate itself, and only then finishes the gate; in between the others may make any calls.

* `GateCall`, `Reaction`: a call of a gate, and what a callback does, call by call.
* `GateLife`: a gate and how far the caller of the first verdict is.
* `GateLife.ask`, `GateLife.goOn`, `GateLife.run`: a call, the next step of that caller, and any
  order of the two.
* `GateLife.finalize_undisturbed`: with no call in between this is `GateUse.finalize`.
* `GateLife.ask_of_shut`: once the first verdict is given, no call changes anything.
* `GateLife.Kept`, `GateLife.first_verdict_counts`: what holds after any moves.
-/

namespace VideoCatalog

/-- A call of a gate. -/
inductive GateCall where
  | guarded (write : Except Failure Value)
  | finalize (v : Verdict)
  | done
  | wait

/-- What a callback does: it calls the gate and goes on by what it is answered, and in the end it
returns or fails. -/
inductive Reaction where
  | ended (fault : Option Failure)
  | calls (call : GateCall) (next : Except Failure Bool → Reaction)

/-- How far the caller of the first verdict is. -/
inductive Winner where
  | missing
  | starting (outcome : Value)
  | inside (rest : Reaction)
  | finished (result : Except Failure Bool)

/-- A gate that is used by many, and the caller of its first verdict. -/
structure GateLife where
  book : GateBook
  winner : Winner := .missing

/-- Somebody calls the gate, or the caller of the first verdict goes on. -/
inductive GateMove where
  | call (c : GateCall)
  | goOn

/-- What a shut gate that is not finished answers. -/
def GateCall.shutAnswer : GateCall → Except Failure Bool
  | .done => .ok true
  | _ => .ok false

namespace Reaction

/-- How a callback ends that is answered by a shut gate. -/
def ending : Reaction → Option Failure
  | .ended fault => fault
  | .calls call next => (next call.shutAnswer).ending

end Reaction

/-- What the first verdict gives back: true, unless the callback fails. -/
def Winner.resultOf : Option Failure → Except Failure Bool
  | none => .ok true
  | some f => .error f

namespace GateLife

/-- A gate that nobody has called yet. -/
def fresh : GateLife := ⟨{}, .missing⟩

/-- Makes a call. There is no answer yet for the first verdict. -/
def ask (s : GateLife) : GateCall → Option (Except Failure Bool) × GateLife
  | .guarded write => (some (s.book.guarded write).1, { s with book := (s.book.guarded write).2 })
  | .finalize v =>
    if (s.book.settle v).1 then (none, ⟨(s.book.settle v).2, .starting v.outcome⟩)
    else (some (.ok false), { s with book := (s.book.settle v).2 })
  | .done => (some (.ok !s.book.gate.admits), s)
  | .wait => (some (.ok s.book.gate.finished), s)

/-- Finishes the gate, also after a callback that failed. -/
def finish (s : GateLife) (fault : Option Failure) : GateLife :=
  ⟨s.book.finish, .finished (Winner.resultOf fault)⟩

/-- The next step of the caller of the first verdict, if there is one. -/
def goOn (react : Option (Value → Reaction)) (s : GateLife) : GateLife :=
  match s.winner with
  | .missing => s
  | .starting outcome =>
    match react with
    | none => s.finish none
    | some f => ⟨{ s.book with calls := s.book.calls ++ [outcome] }, .inside (f outcome)⟩
  | .inside (.ended fault) => s.finish fault
  | .inside (.calls call next) =>
    ⟨(s.ask call).2.book, .inside (next ((s.ask call).1.getD (.ok true)))⟩
  | .finished _ => s

/-- One move. -/
def move (react : Option (Value → Reaction)) (s : GateLife) : GateMove → GateLife
  | .call c => (s.ask c).2
  | .goOn => s.goOn react

/-- Moves one after another. -/
def run (react : Option (Value → Reaction)) (s : GateLife) (moves : List GateMove) : GateLife :=
  moves.foldl (move react) s

end GateLife

namespace GateMove

/-- The verdict that a move gives. -/
def verdict? : GateMove → Option Verdict
  | .call (.finalize v) => some v
  | _ => none

/-- The value that a move writes, if it may. -/
def write? : GateMove → Option Value
  | .call (.guarded (.ok v)) => some v
  | _ => none

/-- Whether a move is one of the caller of the first verdict. -/
def isGoOn : GateMove → Bool
  | .goOn => true
  | .call _ => false

/-- The first verdict among some moves. -/
def first (moves : List GateMove) : Option Verdict := moves.findSome? verdict?

/-- What is written before the first verdict. -/
def written : List GateMove → List Value
  | [] => []
  | m :: rest => if m.verdict?.isSome then [] else m.write?.toList ++ written rest

theorem first_concat (moves : List GateMove) (m : GateMove) :
    first (moves ++ [m]) = (first moves).or m.verdict? := by
  simp [first, List.findSome?_append]

theorem written_concat (moves : List GateMove) (m : GateMove) (quiet : m.verdict? = none) :
    written (moves ++ [m]) =
      if first moves = none then written moves ++ m.write?.toList else written moves := by
  induction moves with
  | nil => simp [written, first, quiet]
  | cons other rest ih =>
    cases said : other.verdict? with
    | some v => simp [written, first, said]
    | none =>
      have same : first (other :: rest) = first rest := by simp [first, said]
      simp only [List.cons_append, written, said, Option.isSome_none, Bool.false_eq_true, if_false,
        ih, same]
      split <;> simp

/-- A verdict ends the writes. -/
theorem written_verdict (moves : List GateMove) {m : GateMove} (said : m.verdict?.isSome) :
    written (moves ++ [m]) = written moves := by
  induction moves with
  | nil => simp [written, said]
  | cons other rest ih => simp only [List.cons_append, written, ih]

end GateMove

namespace GateLife

variable {react : Option (Value → Reaction)} {s : GateLife} {moves : List GateMove} {v : Verdict}

theorem run_concat (moves : List GateMove) (m : GateMove) :
    s.run react (moves ++ [m]) = (s.run react moves).move react m := by
  simp [run]

/-! ### Calls -/

/-- An open gate takes writes and the first verdict; a write that fails leaves it as it was. -/
theorem ask_of_open (admits : s.book.gate.verdict = none) (c : GateCall) :
    s.ask c = match c with
      | .guarded (.ok v) =>
        (some (.ok true), { s with book := { s.book with writes := s.book.writes ++ [v] } })
      | .guarded (.error f) => (some (.error f), s)
      | .finalize v =>
        (none, ⟨{ s.book with gate := { s.book.gate with verdict := some v } }, .starting v.outcome⟩)
      | .done => (some (.ok false), s)
      | .wait => (some (.ok s.book.gate.finished), s) := by
  cases c with
  | guarded write => cases write <;> simp [ask, GateBook.guarded, Gate.admits, admits]
  | finalize v => simp [ask, GateBook.settle, Gate.decide, admits]
  | done => simp [ask, Gate.admits, admits]
  | wait => rfl

/-- A shut gate takes nothing: no call changes anything. -/
theorem ask_of_shut (shut : s.book.gate.verdict = some v) (c : GateCall) :
    s.ask c = match c with
      | .wait => (some (.ok s.book.gate.finished), s)
      | c => (some c.shutAnswer, s) := by
  cases c with
  | guarded write => simp [ask, GateBook.guarded, Gate.admits, shut, GateCall.shutAnswer]
  | finalize v => simp [ask, GateBook.settle, Gate.decide, shut, GateCall.shutAnswer]
  | done => simp [ask, Gate.admits, shut, GateCall.shutAnswer]
  | wait => rfl

theorem move_of_shut (shut : s.book.gate.verdict = some v) (c : GateCall) :
    s.move react (.call c) = s := by
  rw [move, ask_of_shut shut]
  cases c <;> rfl

/-- A callback is answered by a shut gate. -/
theorem goOn_calls (shut : s.book.gate.verdict = some v) (unfinished : s.book.gate.finished = false)
    {call : GateCall} {next : Except Failure Bool → Reaction}
    (inside : s.winner = .inside (.calls call next)) :
    s.goOn react = { s with winner := .inside (next call.shutAnswer) } := by
  have answered : s.ask call = (some call.shutAnswer, s) := by
    rw [ask_of_shut shut]
    cases call with
    | wait => simp [GateCall.shutAnswer, unfinished]
    | _ => rfl
  simp [goOn, inside, answered]

/-! ### Moves -/

/-- Where a gate stands, by the first verdict that it was given. -/
inductive Stands (react : Option (Value → Reaction)) (s : GateLife) : Option Verdict → Prop
  | admitting (winner : s.winner = .missing) (calls : s.book.calls = [])
      (unfinished : s.book.gate.finished = false) : Stands react s none
  | starting {v : Verdict} (winner : s.winner = .starting v.outcome) (calls : s.book.calls = [])
      (unfinished : s.book.gate.finished = false) : Stands react s (some v)
  | inside {v : Verdict} {f : Value → Reaction} {rest : Reaction} (callback : react = some f)
      (winner : s.winner = .inside rest) (calls : s.book.calls = [v.outcome])
      (ending : rest.ending = (f v.outcome).ending)
      (unfinished : s.book.gate.finished = false) : Stands react s (some v)
  | finished {v : Verdict}
      (winner : s.winner =
        .finished (Winner.resultOf (react.bind fun f => (f v.outcome).ending)))
      (calls : s.book.calls = (react.map fun _ => v.outcome).toList)
      (finished : s.book.gate.finished = true) : Stands react s (some v)

/-- The gate has the first verdict and what was written before it. -/
structure Follows (react : Option (Value → Reaction)) (moves : List GateMove) (s : GateLife) :
    Prop where
  verdict : s.book.gate.verdict = GateMove.first moves
  writes : s.book.writes = GateMove.written moves
  stands : Stands react s (GateMove.first moves)

theorem follows_fresh (react : Option (Value → Reaction)) : Follows react [] fresh :=
  ⟨rfl, rfl, .admitting rfl rfl rfl⟩

/-- The caller of the first verdict goes on. -/
theorem Stands.goOn (shut : s.book.gate.verdict = some v) (stands : Stands react s (some v)) :
    Stands react (s.goOn react) (some v) ∧ (s.goOn react).book.gate.verdict = some v ∧
      (s.goOn react).book.writes = s.book.writes := by
  cases stands with
  | starting winner calls unfinished =>
    cases react with
    | none =>
      have next : s.goOn none = s.finish none := by simp only [GateLife.goOn, winner]
      rw [next]
      exact ⟨.finished rfl calls rfl, shut, rfl⟩
    | some f =>
      have next : s.goOn (some f) =
          ⟨{ s.book with calls := s.book.calls ++ [v.outcome] }, .inside (f v.outcome)⟩ := by
        simp only [GateLife.goOn, winner]
      rw [next]
      exact ⟨.inside rfl rfl (by simp [calls]) rfl unfinished, shut, rfl⟩
  | @inside _ f rest callback winner calls ending unfinished =>
    cases rest with
    | ended fault =>
      have result : Winner.resultOf fault =
          Winner.resultOf (react.bind fun f => (f v.outcome).ending) := by
        rw [callback, Option.bind_some, ← ending, Reaction.ending]
      have next : s.goOn react = s.finish fault := by simp only [GateLife.goOn, winner]
      rw [next]
      exact ⟨.finished (congrArg Winner.finished result) (by simpa [finish, callback] using calls)
        rfl, shut, rfl⟩
    | calls call next =>
      rw [goOn_calls shut unfinished winner]
      exact ⟨.inside callback rfl calls ending unfinished, shut, rfl⟩
  | finished winner calls finished =>
    have same : s.goOn react = s := by simp [GateLife.goOn, winner]
    rw [same]
    exact ⟨.finished winner calls finished, shut, rfl⟩

theorem Follows.move_of_shut (follows : Follows react moves s)
    (given : GateMove.first moves = some v) (m : GateMove) :
    Follows react (moves ++ [m]) (s.move react m) := by
  obtain ⟨verdict, writes, stands⟩ := follows
  have first : GateMove.first (moves ++ [m]) = some v := by simp [GateMove.first_concat, given]
  have unwritten : GateMove.written (moves ++ [m]) = GateMove.written moves := by
    cases said : m.verdict? with
    | none => simp [GateMove.written_concat moves m said, given]
    | some w => exact GateMove.written_verdict moves (by simp [said])
  rw [given] at verdict stands
  cases m with
  | call c =>
    rw [GateLife.move_of_shut verdict]
    exact ⟨verdict.trans first.symm, writes.trans unwritten.symm, first ▸ stands⟩
  | goOn =>
    obtain ⟨stands, shut, kept⟩ := stands.goOn verdict
    exact ⟨shut.trans first.symm, (kept.trans writes).trans unwritten.symm, first ▸ stands⟩

theorem Follows.move_of_open (follows : Follows react moves s)
    (given : GateMove.first moves = none) (m : GateMove) :
    Follows react (moves ++ [m]) (s.move react m) := by
  obtain ⟨verdict, writes, stands⟩ := follows
  have first : GateMove.first (moves ++ [m]) = m.verdict? := by
    simp [GateMove.first_concat, given]
  have more (quiet : m.verdict? = none) :
      GateMove.written (moves ++ [m]) = s.book.writes ++ m.write?.toList := by
    rw [GateMove.written_concat moves m quiet, if_pos given, writes]
  rw [given] at verdict stands
  cases stands with
  | admitting winner calls unfinished =>
    cases m with
    | goOn =>
      have same : s.move react .goOn = s := by simp [GateLife.move, GateLife.goOn, winner]
      rw [same]
      exact ⟨verdict.trans first.symm, by simp [more rfl, GateMove.write?],
        first ▸ .admitting winner calls unfinished⟩
    | call c =>
      rw [GateLife.move, ask_of_open verdict]
      cases c with
      | guarded write =>
        cases write <;>
          exact ⟨verdict.trans first.symm, by simp [more rfl, GateMove.write?],
            first ▸ .admitting winner calls unfinished⟩
      | finalize v =>
        exact ⟨first.symm, writes.trans (GateMove.written_verdict moves rfl).symm,
          first ▸ .starting rfl calls unfinished⟩
      | done =>
        exact ⟨verdict.trans first.symm, by simp [more rfl, GateMove.write?],
          first ▸ .admitting winner calls unfinished⟩
      | wait =>
        exact ⟨verdict.trans first.symm, by simp [more rfl, GateMove.write?],
          first ▸ .admitting winner calls unfinished⟩

theorem Follows.move (follows : Follows react moves s) (m : GateMove) :
    Follows react (moves ++ [m]) (s.move react m) := by
  cases given : GateMove.first moves with
  | none => exact follows.move_of_open given m
  | some v => exact follows.move_of_shut given m

theorem Follows.run (follows : Follows react moves s) (later : List GateMove) :
    Follows react (moves ++ later) (s.run react later) := by
  induction later using List.reverseRecOn with
  | nil => rwa [List.append_nil]
  | append_singleton later m ih =>
    rw [run_concat, ← List.append_assoc]
    exact ih.move m

theorem follows_run (react : Option (Value → Reaction)) (moves : List GateMove) :
    Follows react moves (fresh.run react moves) :=
  (follows_fresh react).run moves

/-! ### The caller of the first verdict comes to an end -/

/-- Once the gate is shut, only the steps of that caller count. -/
theorem run_of_shut (stands : Stands react s (some v)) (shut : s.book.gate.verdict = some v)
    (moves : List GateMove) :
    s.run react moves = (GateLife.goOn react)^[moves.countP (·.isGoOn)] s := by
  induction moves generalizing s with
  | nil => rfl
  | cons m rest ih =>
    have next : s.run react (m :: rest) = (s.move react m).run react rest := rfl
    cases m with
    | call c =>
      rw [next, move_of_shut shut, ih stands shut,
        List.countP_cons_of_neg (by simp [GateMove.isGoOn])]
    | goOn =>
      obtain ⟨onward, still, -⟩ := stands.goOn shut
      rw [next, List.countP_cons_of_pos (by rfl), Function.iterate_succ_apply]
      exact ih onward still

theorem goOn_of_finished {result : Except Failure Bool} (winner : s.winner = .finished result)
    (n : Nat) : ((GateLife.goOn react)^[n] s).winner = .finished result := by
  induction n with
  | zero => exact winner
  | succ n ih =>
    rw [Function.iterate_succ_apply', GateLife.goOn, ih]
    exact ih

/-- The caller of the first verdict is at its end after a number of steps. -/
def Finishes (react : Option (Value → Reaction)) (s : GateLife) : Prop :=
  ∃ k, ∀ n, k ≤ n → ∃ result, ((GateLife.goOn react)^[n] s).winner = .finished result

theorem finishes_of_finished {result : Except Failure Bool}
    (winner : s.winner = .finished result) : Finishes react s :=
  ⟨0, fun n _ => ⟨result, goOn_of_finished winner n⟩⟩

theorem Finishes.before (ends : Finishes react (s.goOn react)) : Finishes react s := by
  obtain ⟨k, ends⟩ := ends
  refine ⟨k + 1, fun n enough => ?_⟩
  obtain ⟨n, rfl⟩ : ∃ m, n = m + 1 := ⟨n - 1, by omega⟩
  rw [Function.iterate_succ_apply]
  exact ends n (by omega)

/-- A callback makes finitely many calls, whatever it is answered. -/
theorem finishes_of_inside (rest : Reaction) (shut : s.book.gate.verdict = some v)
    (unfinished : s.book.gate.finished = false) (winner : s.winner = .inside rest) :
    Finishes react s := by
  induction rest generalizing s with
  | ended fault =>
    have last : (s.goOn react).winner = .finished (Winner.resultOf fault) := by
      simp [GateLife.goOn, winner, finish]
    exact (finishes_of_finished last).before
  | calls call next ih =>
    have first : s.goOn react = _ := goOn_calls shut unfinished winner
    refine (ih call.shutAnswer (s := s.goOn react) ?_ ?_ ?_).before
    · simpa [first] using shut
    · simpa [first] using unfinished
    · simp [first]

theorem finishes_of_shut (stands : Stands react s (some v)) (shut : s.book.gate.verdict = some v) :
    Finishes react s := by
  cases stands with
  | starting winner calls unfinished =>
    refine Finishes.before ?_
    cases react with
    | none =>
      have last : (s.goOn none).winner = .finished (.ok true) := by
        simp only [GateLife.goOn, winner, finish]
        rfl
      exact finishes_of_finished last
    | some f =>
      refine finishes_of_inside (f v.outcome) (v := v) ?_ ?_ ?_
      · simpa [GateLife.goOn, winner] using shut
      · simpa [GateLife.goOn, winner] using unfinished
      · simp [GateLife.goOn, winner]
  | inside _ winner _ _ unfinished => exact finishes_of_inside _ shut unfinished winner
  | finished winner => exact finishes_of_finished winner

/-! ### Without calls in between -/

end GateLife

/-- What a callback does on an outcome. -/
def Callback.reaction : Callback → Option (Value → Reaction)
  | .absent => none
  | .recording => some fun _ => .ended none
  | .raising f => some fun _ => .ended (some f)
  | .reentering again late => some fun _ =>
    .calls (.finalize again) fun _ => .calls .done fun _ => .calls (.guarded (.ok late)) fun _ =>
      .ended none

/-- What a callback notes beside the outcome: the answers to its own calls. -/
def Callback.heard : Callback → List Value
  | .reentering .. => [.list [.bool false, .bool true, .bool false]]
  | _ => []

namespace GateLife

/-- More steps than any of the callbacks needs. -/
def undisturbed (v : Verdict) : List GateMove :=
  .call (.finalize v) :: List.replicate 5 .goOn

/-- If nobody else calls the gate, the first verdict and the steps of its caller are one use. -/
theorem finalize_undisturbed (u : GateUse) (v : Verdict) (admits : u.gate.verdict = none) :
    let s := (GateLife.mk u.toGateBook .missing).run u.callback.reaction (undisturbed v)
    s.winner = .finished (u.finalize v).1 ∧ s.book.gate = (u.finalize v).2.gate ∧
      s.book.writes = (u.finalize v).2.writes ∧
      s.book.calls ++ u.callback.heard = (u.finalize v).2.calls := by
  obtain ⟨⟨⟨verdict, finished⟩, calls, writes⟩, callback⟩ := u
  obtain rfl : verdict = none := admits
  cases callback with
  | absent => exact ⟨rfl, rfl, rfl, List.append_nil _⟩
  | recording => exact ⟨rfl, rfl, rfl, List.append_nil _⟩
  | raising f => exact ⟨rfl, rfl, rfl, List.append_nil _⟩
  | reentering again late => exact ⟨rfl, rfl, rfl, rfl⟩

/-! ### All moves -/

/-- What holds of a gate after some moves. -/
structure Kept (react : Option (Value → Reaction)) (moves : List GateMove) (s : GateLife) :
    Prop where
  /-- The gate has the outcome and the error of the first verdict. -/
  verdict : s.book.gate.verdict = GateMove.first moves
  /-- It keeps them. -/
  final : ∀ v, GateMove.first moves = some v → ∀ later,
    (s.run react later).book.gate.verdict = some v
  /-- The first verdict wins: its caller goes on. -/
  won : GateMove.first moves = none → ∀ v, s.ask (.finalize v) =
    (none, ⟨{ s.book with gate := { s.book.gate with verdict := some v } }, .starting v.outcome⟩)
  /-- Every other verdict is refused and changes nothing. -/
  lost : GateMove.first moves ≠ none → ∀ v, s.ask (.finalize v) = (some (.ok false), s)
  /-- The callback is run once at most, on the outcome of the first verdict. -/
  called : s.book.calls = [] ∨
    ∃ v, GateMove.first moves = some v ∧ react.isSome ∧ s.book.calls = [v.outcome]
  /-- The first verdict gives back true or the failure of the callback, which has been run once
  then, if there is one. -/
  ended : ∀ result, s.winner = .finished result → ∃ v, GateMove.first moves = some v ∧
    result = Winner.resultOf (react.bind fun f => (f v.outcome).ending) ∧
    s.book.calls = (react.map fun _ => v.outcome).toList
  /-- Its caller comes to that end, whatever the others do. -/
  ends : GateMove.first moves ≠ none → ∃ k, ∀ later, k ≤ later.countP (·.isGoOn) →
    ∃ result, (s.run react later).winner = .finished result
  /-- Before the first verdict writes are made. -/
  admitted : GateMove.first moves = none → ∀ v, s.ask (.guarded (.ok v)) =
    (some (.ok true), { s with book := { s.book with writes := s.book.writes ++ [v] } })
  /-- A write that fails leaves the gate as it is. -/
  failed : GateMove.first moves = none → ∀ f, s.ask (.guarded (.error f)) = (some (.error f), s)
  /-- From the first verdict on no write is tried, whoever asks for it. -/
  dropped : GateMove.first moves ≠ none → ∀ write, s.ask (.guarded write) = (some (.ok false), s)
  /-- What is written was asked for before the first verdict. -/
  written : s.book.writes = GateMove.written moves
  /-- The gate is done from the first verdict on. -/
  done : s.ask .done = (some (.ok (GateMove.first moves).isSome), s)
  /-- Waiting is over when the caller of the first verdict is at its end. -/
  waited : ∃ ended, s.ask .wait = (some (.ok ended), s) ∧
    (ended = true ↔ ∃ result, s.winner = .finished result)

theorem Stands.called {given : Option Verdict} (stands : Stands react s given) :
    s.book.calls = [] ∨ ∃ v, given = some v ∧ react.isSome ∧ s.book.calls = [v.outcome] := by
  cases stands with
  | admitting _ calls => exact .inl calls
  | starting _ calls => exact .inl calls
  | inside callback _ calls => exact .inr ⟨_, rfl, by simp [callback], calls⟩
  | finished _ calls =>
    cases react with
    | none => exact .inl calls
    | some f => exact .inr ⟨_, rfl, rfl, calls⟩

theorem Stands.ended {given : Option Verdict} (stands : Stands react s given)
    {result : Except Failure Bool} (winner : s.winner = .finished result) :
    ∃ v, given = some v ∧
      result = Winner.resultOf (react.bind fun f => (f v.outcome).ending) ∧
      s.book.calls = (react.map fun _ => v.outcome).toList := by
  cases stands with
  | finished same calls =>
    rw [same] at winner
    cases winner
    exact ⟨_, rfl, rfl, calls⟩
  | admitting other => rw [other] at winner; cases winner
  | starting other => rw [other] at winner; cases winner
  | inside _ other => rw [other] at winner; cases winner

theorem Stands.finished_iff {given : Option Verdict} (stands : Stands react s given) :
    s.book.gate.finished = true ↔ ∃ result, s.winner = .finished result := by
  cases stands with
  | admitting winner _ unfinished => simp [winner, unfinished]
  | starting winner _ unfinished => simp [winner, unfinished]
  | inside _ winner _ _ unfinished => simp [winner, unfinished]
  | finished winner _ finished => simp [winner, finished]

/-- Whatever the callback does and in whatever order calls are made, the first verdict counts. -/
theorem first_verdict_counts (react : Option (Value → Reaction)) (moves : List GateMove) :
    Kept react moves (fresh.run react moves) := by
  have follows := follows_run react moves
  generalize fresh.run react moves = s at follows
  obtain ⟨verdict, writes, stands⟩ := follows
  have asked (admits : GateMove.first moves = none) := ask_of_open (verdict.trans admits)
  have refused {v : Verdict} (given : GateMove.first moves = some v) :=
    ask_of_shut (verdict.trans given)
  have shut (given : GateMove.first moves ≠ none) : ∃ v, GateMove.first moves = some v :=
    Option.ne_none_iff_exists'.1 given
  exact {
    verdict := verdict
    final := fun v given later => by
      have later := (Follows.run ⟨verdict, writes, stands⟩ later).verdict
      rwa [GateMove.first, List.findSome?_append, ← GateMove.first, given, Option.some_or] at later
    won := fun admits v => asked admits (.finalize v)
    lost := fun given v => (shut given).elim fun _ given => refused given (.finalize v)
    called := stands.called
    ended := fun _ => stands.ended
    ends := fun given => by
      obtain ⟨v, given⟩ := shut given
      rw [given] at stands
      obtain ⟨k, ends⟩ := finishes_of_shut stands (verdict.trans given)
      refine ⟨k, fun later enough => ?_⟩
      rw [run_of_shut stands (verdict.trans given)]
      exact ends _ enough
    admitted := fun admits v => asked admits (.guarded (.ok v))
    failed := fun admits f => asked admits (.guarded (.error f))
    dropped := fun given write => (shut given).elim fun _ given => refused given (.guarded write)
    written := writes
    done := by
      cases given : GateMove.first moves with
      | none => exact asked given .done
      | some v => exact refused given .done
    waited := ⟨s.book.gate.finished, rfl, stands.finished_iff⟩ }

end GateLife

end VideoCatalog
