import Mathlib.Data.List.Perm.Basic
import Mathlib.Tactic.Common
import VideoCatalog.Enrichment.Pass

/-!
# The workers of a pass

* `Worker.place?`, `Worker.session?`, `Worker.result?`: what a worker has in hand.
* `PassEvent`, `Pass.history`: what the workers do along a run.
* `Pass.turnsLeft`: a bound on the turns that a worker needs.
* `Pass.stopped_run`: a worker that has had enough turns has stopped.
-/

namespace VideoCatalog

namespace Worker

/-- The place that a worker is busy with. -/
def place? : Worker → Option Nat
  | .claimed place | .opened place _ => some place
  | _ => none

/-- The decode session that a worker has opened. -/
def session? : Worker → Option Nat
  | .opened _ session => some session
  | _ => none

/-- The result that a worker has still to count. -/
def result? : Worker → Option ExtractionResult
  | .extracted result => some result
  | _ => none

/-- The turns that a worker needs until it claims the next place. -/
def rank : Worker → Nat
  | .claimed _ => 4
  | .opened .. => 3
  | .extracted _ => 2
  | .idle => 1
  | .stopped _ => 0

theorem stopped_of_rank {w : Worker} (hnone : w.rank = 0) : ∃ failed, w = .stopped failed := by
  cases w with
  | stopped failed => exact ⟨failed, rfl⟩
  | _ => cases hnone

end Worker

/-- What a worker can do: claim a place, extract the item there, count a result. -/
inductive PassEvent where
  | claim (place : Nat)
  | extract (place : Nat) (result : ExtractionResult)
  | count (result : ExtractionResult)
deriving DecidableEq, Repr

namespace PassEvent

def claimed? : PassEvent → Option Nat
  | .claim place => some place
  | _ => none

def extracted? : PassEvent → Option (Nat × ExtractionResult)
  | .extract place result => some (place, result)
  | _ => none

def counted? : PassEvent → Option ExtractionResult
  | .count result => some result
  | _ => none

end PassEvent

/-- What a worker has done that was in one place and is in another. -/
def Worker.event : Worker → Worker → Option PassEvent
  | .idle, .claimed place => some (.claim place)
  | .claimed place, .extracted result => some (.extract place result)
  | .opened place _, .extracted result => some (.extract place result)
  | .extracted result, .idle => some (.count result)
  | _, _ => none

namespace Pass

variable {x : Extractor} {onProgress : Nat → Nat → Option Failure} {p : Pass}

/-- What the next step of a worker does. -/
def eventAt (x : Extractor) (onProgress : Nat → Nat → Option Failure) (p : Pass) (worker : Nat) :
    Option PassEvent :=
  p.workers[worker]?.bind fun w => w.event (p.advance x onProgress w).2

/-- What the workers do along a run. -/
def history (x : Extractor) (onProgress : Nat → Nat → Option Failure) :
    List Nat → Pass → List PassEvent
  | [], _ => []
  | worker :: order, p =>
    (p.eventAt x onProgress worker).toList ++
      history x onProgress order (p.step x onProgress worker)

/-- The places claimed, in this order. -/
def claims (past : List PassEvent) : List Nat := past.filterMap PassEvent.claimed?

/-- The places whose items were extracted, with the results. -/
def extractions (past : List PassEvent) : List (Nat × ExtractionResult) :=
  past.filterMap PassEvent.extracted?

/-- The places whose items were extracted. -/
def done (past : List PassEvent) : List Nat := (extractions past).map (·.1)

/-- The results that were counted. -/
def counted (past : List PassEvent) : List ExtractionResult := past.filterMap PassEvent.counted?

/-! ### What a step leaves alone -/

theorem frame_absorb (p : Pass) (place : Nat) (done : Extracted) :
    (p.absorb place done).1.workers = p.workers ∧ (p.absorb place done).1.cursor = p.cursor := by
  unfold absorb
  dsimp only
  split <;> exact ⟨rfl, rfl⟩

theorem frame_record (p : Pass) (result : ExtractionResult) :
    (p.record onProgress result).1.workers = p.workers ∧
      (p.record onProgress result).1.cursor = p.cursor := by
  unfold record
  dsimp only
  split <;> exact ⟨rfl, rfl⟩

variable (x onProgress) in
/-- Only claims move the cursor, and no worker moves another. -/
theorem frame_advance (p : Pass) (w : Worker) :
    (p.advance x onProgress w).1.workers = p.workers ∧
      (w ≠ .idle → (p.advance x onProgress w).1.cursor = p.cursor) := by
  cases w with
  | idle =>
    unfold advance
    dsimp only
    split <;> simp
  | claimed place =>
    unfold advance
    dsimp only
    split
    · simp
    · split
      · exact ⟨(frame_absorb p place _).1, fun _ => (frame_absorb p place _).2⟩
      · simp
  | opened place session =>
    unfold advance
    dsimp only
    split
    · simp
    · exact ⟨(frame_absorb p place _).1, fun _ => (frame_absorb p place _).2⟩
  | extracted result => exact ⟨(frame_record p result).1, fun _ => (frame_record p result).2⟩
  | stopped failed => simp [advance]

theorem step_of_worker {worker : Nat} {w : Worker} (hat : p.workers[worker]? = some w) :
    p.step x onProgress worker =
      { (p.advance x onProgress w).1 with
        workers := p.workers.set worker (p.advance x onProgress w).2 } := by
  simp only [step, hat]
  rw [(frame_advance x onProgress p w).1]

theorem step_of_no_worker {worker : Nat} (hnone : p.workers[worker]? = none) :
    p.step x onProgress worker = p := by
  simp [step, hnone]

@[simp] theorem run_nil (p : Pass) : p.run x onProgress [] = p := rfl

@[simp] theorem run_cons (p : Pass) (worker : Nat) (order : List Nat) :
    p.run x onProgress (worker :: order) = (p.step x onProgress worker).run x onProgress order :=
  rfl

variable (x onProgress) in
/-- What a worker does in a turn. -/
def news (p : Pass) (w : Worker) : List PassEvent := (w.event (p.advance x onProgress w).2).toList

variable (x onProgress) in
/-- The pass after a turn of a worker that stands in front of the others. -/
def turn (p : Pass) (w : Worker) (others : List Worker) : Pass :=
  { (p.advance x onProgress w).1 with workers := (p.advance x onProgress w).2 :: others }

section Induction

variable {P : List PassEvent → Pass → Prop} (past : List PassEvent)
  (perm : ∀ past p ws, P past p → p.workers.Perm ws → P past { p with workers := ws })
  (turned : ∀ past p w others, P past p → p.workers.Perm (w :: others) →
    P (past ++ p.news x onProgress w) (p.turn x onProgress w others))
include perm turned

/-- A property that does not depend on the order of the workers is kept by a step if it is kept by
the turn of a worker that stands in front of the others. -/
theorem step_induction (before : P past p) (worker : Nat) :
    P (past ++ (p.eventAt x onProgress worker).toList) (p.step x onProgress worker) := by
  cases hat : p.workers[worker]? with
  | none =>
    rw [step_of_no_worker hat, eventAt, hat]
    simpa using before
  | some w =>
    obtain ⟨bound, rfl⟩ := List.getElem?_eq_some_iff.1 hat
    rw [step_of_worker hat, eventAt, hat]
    have next := turned past p _ _ before (List.getElem_cons_eraseIdx_perm bound).symm
    have kept := perm _ _ _ next (List.set_perm_cons_eraseIdx bound _).symm
    exact kept

/-- Then it is kept by a run, under every order of the workers' steps. -/
theorem run_induction (before : P past p) (order : List Nat) :
    P (past ++ history x onProgress order p) (p.run x onProgress order) := by
  induction order generalizing past p with
  | nil => simpa [history] using before
  | cons worker order ih =>
    rw [run_cons, history, ← List.append_assoc]
    exact ih _ (step_induction _ perm turned before worker)

end Induction

theorem length_step (p : Pass) (worker : Nat) :
    (p.step x onProgress worker).workers.length = p.workers.length := by
  cases hat : p.workers[worker]? with
  | none => rw [step_of_no_worker hat]
  | some w =>
    rw [step_of_worker hat]
    exact List.length_set

theorem length_run (order : List Nat) (p : Pass) :
    (p.run x onProgress order).workers.length = p.workers.length := by
  induction order generalizing p with
  | nil => rfl
  | cons worker order ih => rw [run_cons, ih, length_step]

/-- Without workers nothing happens. -/
theorem run_of_no_workers (order : List Nat) (hnone : p.workers = []) :
    p.run x onProgress order = p := by
  induction order with
  | nil => rfl
  | cons worker order ih => rw [run_cons, step_of_no_worker (by simp [hnone]), ih]

/-! ### The turns of a worker -/

/-- A bound on the turns that a worker needs until it stops. -/
def turnsLeft (p : Pass) (w : Worker) : Nat :=
  4 * (p.cursor.limit - p.cursor.next).toNat + w.rank

theorem rank_absorb (p : Pass) (place : Nat) (done : Extracted) :
    (p.absorb place done).2.rank ≤ 2 := by
  unfold absorb
  dsimp only
  split <;> simp [Worker.rank]

theorem rank_record (p : Pass) (result : ExtractionResult) :
    (p.record onProgress result).2.rank ≤ 1 := by
  unfold record
  dsimp only
  split <;> simp [Worker.rank]

variable (x onProgress p) in
/-- A turn that claims nothing brings a worker closer to its next claim. -/
theorem rank_advance {w : Worker} (running : ∀ failed, w ≠ .stopped failed) (busy : w ≠ .idle) :
    (p.advance x onProgress w).2.rank < w.rank := by
  cases w with
  | idle => exact absurd rfl busy
  | claimed place =>
    unfold advance
    dsimp only
    split
    · simp [Worker.rank]
    · split
      · exact Nat.lt_of_le_of_lt (rank_absorb p place _) (by simp [Worker.rank])
      · simp [Worker.rank]
  | opened place session =>
    unfold advance
    dsimp only
    split
    · simp [Worker.rank]
    · exact Nat.lt_of_le_of_lt (rank_absorb p place _) (by simp [Worker.rank])
  | extracted result => exact Nat.lt_of_le_of_lt (rank_record p result) (by simp [Worker.rank])
  | stopped failed => exact absurd rfl (running failed)

variable (x onProgress p) in
/-- Every turn of a worker that has not stopped brings it closer to its end. -/
theorem turnsLeft_advance {w : Worker} (running : ∀ failed, w ≠ .stopped failed) :
    (p.advance x onProgress w).1.turnsLeft (p.advance x onProgress w).2 < p.turnsLeft w := by
  by_cases busy : w = .idle
  · subst busy
    unfold advance ClaimCursor.claim
    -- A claim raises the rank by three and takes a place from those that are left.
    by_cases quit : p.cursor.limit ≤ p.cursor.next
    · simp [quit, turnsLeft, Worker.rank]
    · simp only [quit, if_false, turnsLeft, Worker.rank]
      omega
  · have closer := rank_advance x onProgress p running busy
    have same := (frame_advance x onProgress p w).2 busy
    unfold turnsLeft
    rw [same]
    omega

/-- The turns of the others take no worker further from its end. -/
theorem turnsLeft_step (p : Pass) (worker : Nat) (w : Worker) :
    (p.step x onProgress worker).turnsLeft w ≤ p.turnsLeft w := by
  cases hat : p.workers[worker]? with
  | none => exact Nat.le_of_eq (by rw [step_of_no_worker hat])
  | some v =>
    rw [step_of_worker hat]
    by_cases busy : v = .idle
    · subst busy
      unfold advance ClaimCursor.claim
      by_cases quit : p.cursor.limit ≤ p.cursor.next
      · simp [quit, turnsLeft]
      · simp only [quit, if_false, turnsLeft]
        omega
    · unfold turnsLeft
      dsimp only
      exact Nat.le_of_eq (by rw [(frame_advance x onProgress p v).2 busy])

theorem step_other {worker other : Nat} (ne : worker ≠ other) :
    (p.step x onProgress worker).workers[other]? = p.workers[other]? := by
  cases hat : p.workers[worker]? with
  | none => rw [step_of_no_worker hat]
  | some v =>
    rw [step_of_worker hat]
    exact List.getElem?_set_ne ne

theorem step_self {worker : Nat} {w : Worker} (hat : p.workers[worker]? = some w) :
    (p.step x onProgress worker).workers[worker]? = some (p.advance x onProgress w).2 := by
  obtain ⟨bound, -⟩ := List.getElem?_eq_some_iff.1 hat
  rw [step_of_worker hat]
  exact List.getElem?_set_self bound

/-- A worker that has stopped stays where it is. -/
theorem still_run (order : List Nat) {worker : Nat} {failed : Option Failure}
    (hat : p.workers[worker]? = some (.stopped failed)) :
    (p.run x onProgress order).workers[worker]? = some (.stopped failed) := by
  induction order generalizing p with
  | nil => exact hat
  | cons turn order ih =>
    rw [run_cons]
    by_cases own : turn = worker
    · subst own
      exact ih (step_self hat)
    · exact ih ((step_other own).trans hat)

variable (x onProgress) in
/-- A worker that has had enough turns has stopped. -/
theorem stopped_run (order : List Nat) {worker : Nat} {w : Worker}
    (hat : p.workers[worker]? = some w) (enough : p.turnsLeft w ≤ order.count worker) :
    ∃ failed, (p.run x onProgress order).workers[worker]? = some (.stopped failed) := by
  induction order generalizing p w with
  | nil =>
    have hnone : w.rank = 0 := by
      simp only [turnsLeft, List.count_nil] at enough
      omega
    obtain ⟨failed, rfl⟩ := Worker.stopped_of_rank hnone
    exact ⟨failed, hat⟩
  | cons turn order ih =>
    rw [run_cons]
    by_cases own : turn = worker
    · subst own
      by_cases quit : ∃ failed, w = .stopped failed
      · obtain ⟨failed, rfl⟩ := quit
        exact ⟨failed, still_run order (step_self hat)⟩
      · have running : ∀ failed, w ≠ .stopped failed := fun failed h => quit ⟨failed, h⟩
        have closer := turnsLeft_advance x onProgress p running
        rw [List.count_cons_self] at enough
        refine ih (step_self hat) ?_
        rw [step_of_worker hat]
        exact Nat.le_of_lt_succ (Nat.lt_of_lt_of_le closer enough)
    · rw [List.count_cons_of_ne own] at enough
      exact ih ((step_other own).trans hat)
        (Nat.le_trans (turnsLeft_step p turn w) enough)

end Pass

end VideoCatalog
