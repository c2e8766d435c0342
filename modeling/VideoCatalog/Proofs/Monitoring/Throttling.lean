import Mathlib.Data.Rat.Floor
import VideoCatalog.Monitoring.Throttle
import VideoCatalog.Proofs.Number.Differences

/-!
# Calls of a monitor

A monitor is called again and again on any host. All that is known of the clock is what the calls
see of it.

* `Steady`: the clock never runs backwards and advances by at least a sleep in each sleep.
* `SleepsWhenExceeded`: each sleep comes directly after readings above a limit.
* `settle_bounded`: a call that takes readings comes to its end after so many sleeps.
* `calls`: calls one after another, with anything in between.
* `Apart`: two calls that both take readings are at least the least interval apart.
* `throttling_bounded_and_spaced`: all of this, for all calls of a monitor from its start on.
-/

namespace VideoCatalog

open Binary64

-- The count of units is never evaluated here.
attribute [local irreducible] Binary64.unitsPerOne Binary64.unitsLimit

/-! ### The clock as it is seen -/

/-- What the clock has reached after an event, if it had reached a given time before. -/
def ThrottleEvent.advance (since : ℚ) : ThrottleEvent → ℚ
  | .looked time => time.toRat
  | .measured _ _ => since
  | .slept seconds => since + seconds.toRat

/-- A time that the clock may show once it has reached a given one: a binary64 number that is not
before it. -/
structure ShownFrom (since : ℚ) (time : Binary64) : Prop where
  finite : time.isFinite = true
  held : time.Representable
  reached : since ≤ time.toRat

/-- The clock shows finite numbers, never runs backwards, and advances by at least the length of a
sleep in each sleep. -/
def Steady (since : ℚ) : List ThrottleEvent → Prop
  | [] => True
  | e :: rest =>
    (∀ time, e = .looked time → ShownFrom since time) ∧ Steady (e.advance since) rest

theorem shownFrom_ofNat {since : ℚ} {n : ℕ} (small : n < 2 ^ 53) :
    ShownFrom since (ofNat n) ↔ since ≤ n := by
  rw [← toRat_ofNat small]
  exact ⟨ShownFrom.reached, fun reached => ⟨isFinite_ofNat small, representable_ofNat n, reached⟩⟩

/-- What the clock has reached after some events. -/
def reachedAfter (since : ℚ) (events : List ThrottleEvent) : ℚ :=
  events.foldl ThrottleEvent.advance since

section Clock

variable {since : ℚ} {events more : List ThrottleEvent}

@[simp] theorem steady_nil : Steady since [] := trivial

@[simp] theorem steady_looked {time : Binary64} :
    Steady since (.looked time :: events) ↔ ShownFrom since time ∧ Steady time.toRat events := by
  simp [Steady, ThrottleEvent.advance]

@[simp] theorem steady_measured {cpu ram : Binary64} :
    Steady since (.measured cpu ram :: events) ↔ Steady since events := by
  simp [Steady, ThrottleEvent.advance]

@[simp] theorem steady_slept {seconds : Binary64} :
    Steady since (.slept seconds :: events) ↔ Steady (since + seconds.toRat) events := by
  simp [Steady, ThrottleEvent.advance]

theorem steady_append : Steady since (events ++ more) ↔
    Steady since events ∧ Steady (reachedAfter since events) more := by
  induction events generalizing since with
  | nil => simp [Steady, reachedAfter]
  | cons e events ih =>
    simp only [List.cons_append, Steady, ih, reachedAfter, List.foldl_cons, and_assoc]

/-- The clock does not fall behind what it has reached. -/
theorem Steady.le_reachedAfter (steady : Steady since events)
    (sleeps : ∀ seconds, .slept seconds ∈ events → 0 ≤ seconds.toRat) :
    since ≤ reachedAfter since events := by
  induction events generalizing since with
  | nil => exact le_rfl
  | cons e events ih =>
    have further := ih steady.2 fun seconds mem => sleeps seconds (List.mem_cons_of_mem _ mem)
    refine le_trans ?_ further
    cases e with
    | looked time => exact (steady.1 time rfl).reached
    | measured => exact le_rfl
    | slept seconds =>
      have := sleeps seconds List.mem_cons_self
      exact le_add_of_nonneg_right this

end Clock

/-- An event is that both readings have been taken. -/
def ThrottleCall.Measures {σ : Type} (c : ThrottleCall σ) : Prop :=
  ∃ cpu ram, .measured cpu ram ∈ c.events

/-- The time of a call is what the clock shows first. -/
def ThrottleCall.time? {σ : Type} (c : ThrottleCall σ) : Option Binary64 :=
  match c.events with
  | .looked time :: _ => some time
  | _ => none

theorem ThrottleCall.events_of_time? {σ : Type} {c : ThrottleCall σ} {time : Binary64}
    (first : c.time? = some time) : ∃ rest, c.events = .looked time :: rest := by
  unfold time? at first
  split at first
  case h_1 rest events =>
    cases first
    exact ⟨rest, events⟩
  case h_2 => cases first

namespace ThrottleLimits

variable {σ : Type} (limits : ThrottleLimits) (host : Host σ)

/-- A number is reached exactly if it is no greater. -/
theorem reached_iff {x y : Binary64} (number : (Quantity.real x).IsNumber)
    (number' : (Quantity.real y).IsNumber) :
    reached x y = true ↔ (Quantity.real y).value ≤ (Quantity.real x).value := by
  have compared : x.compare? y = some (compare (Quantity.real x).value (Quantity.real y).value) :=
    Quantity.compare?_eq_compare number number'
  unfold reached
  rw [compared, ← compare_ge_iff_ge]
  cases compare (Quantity.real x).value (Quantity.real y).value <;> simp

/-! ### One round of readings -/

/-- Readings are above a limit that is switched on. -/
def AboveLimit (limits : ThrottleLimits) (cpu ram : Binary64) : Prop :=
  zero.less limits.maxCpu = true ∧ limits.maxCpu.less cpu = true ∨
    zero.less limits.maxRam = true ∧ limits.maxRam.less ram = true

theorem exceeded_iff (cpu ram : Binary64) :
    limits.exceeded cpu ram = true ↔ limits.AboveLimit cpu ram := by
  simp [exceeded, AboveLimit]

/-- A round ends the call or has readings above a limit and sees the clock before its time. -/
theorem round_cases (checked started : Binary64) (s : σ) :
    (∃ cpu ram, (limits.round host checked started s).events = [.measured cpu ram] ∧
      (limits.round host checked started s).ended = true) ∨
    ∃ cpu ram time, (limits.round host checked started s).events =
        [.measured cpu ram, .looked time] ∧ limits.AboveLimit cpu ram ∧
      (limits.round host checked started s).ended =
        reached (time.sub started) limits.maxThrottle := by
  unfold round
  dsimp only
  split
  case isTrue above => exact .inr ⟨_, _, _, rfl, (limits.exceeded_iff _ _).1 above, rfl⟩
  case isFalse => exact .inl ⟨_, _, rfl, rfl⟩

theorem round_lastCheck (checked started : Binary64) (s : σ) :
    (limits.round host checked started s).lastCheck = checked := by
  unfold round
  dsimp only
  split <;> rfl

/-! ### Rounds with sleeps in between -/

/-- Each sleep has the length that is set. It comes directly after readings above a limit, with
one look at the clock in between. -/
def SleepsWhenExceeded (limits : ThrottleLimits) (events : List ThrottleEvent) : Prop :=
  ∀ i seconds, events[i]? = some (.slept seconds) → seconds = limits.sleep ∧
    ∃ j cpu ram time, i = j + 2 ∧ events[j]? = some (.measured cpu ram) ∧
      events[j + 1]? = some (.looked time) ∧ limits.AboveLimit cpu ram

variable {limits}

/-- Something done before a call leaves its sleeps as they are. -/
theorem SleepsWhenExceeded.prepend {before events : List ThrottleEvent}
    (given : limits.SleepsWhenExceeded before) (justified : limits.SleepsWhenExceeded events) :
    limits.SleepsWhenExceeded (before ++ events) := by
  intro i seconds found
  rcases Nat.lt_or_ge i before.length with inside | behind
  · rw [List.getElem?_append_left inside] at found
    obtain ⟨length, j, cpu, ram, time, rfl, measured, looked, above⟩ := given i seconds found
    refine ⟨length, j, cpu, ram, time, rfl, ?_, ?_, above⟩
    · rw [List.getElem?_append_left (by omega), measured]
    · rw [List.getElem?_append_left (by omega), looked]
  · rw [List.getElem?_append_right behind] at found
    obtain ⟨length, j, cpu, ram, time, place, measured, looked, above⟩ :=
      justified _ seconds found
    refine ⟨length, j + before.length, cpu, ram, time, by omega, ?_, ?_, above⟩
    · rw [List.getElem?_append_right (by omega), Nat.add_sub_cancel, measured]
    · rw [List.getElem?_append_right (by omega), Nat.add_right_comm, Nat.add_sub_cancel, looked]

theorem sleepsWhenExceeded_of_none {events : List ThrottleEvent}
    (none : ∀ seconds, .slept seconds ∉ events) : limits.SleepsWhenExceeded events :=
  fun _ seconds found => absurd (List.mem_of_getElem? found) (none seconds)

/-- A sleep after a round with readings above a limit. -/
theorem sleepsWhenExceeded_round {cpu ram time : Binary64} (above : limits.AboveLimit cpu ram) :
    limits.SleepsWhenExceeded [.measured cpu ram, .looked time, .slept limits.sleep] := by
  intro i seconds found
  match i with
  | 0 => simp at found
  | 1 => simp at found
  | 2 =>
    refine ⟨by simpa using found.symm, 0, cpu, ram, time, rfl, rfl, rfl, above⟩
  | i + 3 => simp at found

/-- A round that does not end the call has its readings above a limit. -/
theorem round_of_not_ended {checked started : Binary64} {s : σ}
    (going : ¬(limits.round host checked started s).ended = true) :
    ∃ cpu ram time, (limits.round host checked started s).events =
        [.measured cpu ram, .looked time] ∧ limits.AboveLimit cpu ram ∧
      ¬reached (time.sub started) limits.maxThrottle = true := by
  rcases limits.round_cases host checked started s with
    ⟨cpu, ram, -, ended⟩ | ⟨cpu, ram, time, events, above, ended⟩
  · exact absurd ended going
  · exact ⟨cpu, ram, time, events, above, ended ▸ going⟩

theorem settle_succ_of_ended {checked started : Binary64} {s : σ} (watched : ℕ)
    (ended : (limits.round host checked started s).ended = true) :
    limits.settle host checked started (watched + 1) s = limits.round host checked started s :=
  if_pos ended

theorem settle_succ_of_not_ended {checked started : Binary64} {s : σ} (watched : ℕ)
    (going : ¬(limits.round host checked started s).ended = true) :
    limits.settle host checked started (watched + 1) s =
      (limits.settle host checked started watched
        (host.sleep limits.sleep (limits.round host checked started s).after)).prepend
      ((limits.round host checked started s).events ++ [.slept limits.sleep]) :=
  if_neg going

theorem sleepsWhenExceeded_settle (checked started : Binary64) (watched : ℕ) (s : σ) :
    limits.SleepsWhenExceeded (limits.settle host checked started watched s).events := by
  have single (s : σ) :
      limits.SleepsWhenExceeded (limits.round host checked started s).events := by
    refine sleepsWhenExceeded_of_none fun seconds mem => ?_
    rcases limits.round_cases host checked started s with
      ⟨cpu, ram, events, -⟩ | ⟨cpu, ram, time, events, -⟩ <;> simp [events] at mem
  induction watched generalizing s with
  | zero => exact single s
  | succ watched ih =>
    by_cases ended : (limits.round host checked started s).ended = true
    · rw [settle_succ_of_ended host watched ended]
      exact single s
    · obtain ⟨cpu, ram, time, events, above, -⟩ := round_of_not_ended host ended
      rw [settle_succ_of_not_ended host watched ended]
      refine SleepsWhenExceeded.prepend ?_ (ih _)
      rw [events]
      exact sleepsWhenExceeded_round above

theorem settle_lastCheck (checked started : Binary64) (watched : ℕ) (s : σ) :
    (limits.settle host checked started watched s).lastCheck = checked := by
  induction watched generalizing s with
  | zero => exact limits.round_lastCheck host checked started s
  | succ watched ih =>
    by_cases ended : (limits.round host checked started s).ended = true
    · rw [settle_succ_of_ended host watched ended, round_lastCheck]
    · rw [settle_succ_of_not_ended host watched ended]
      exact ih _

/-- Readings are taken at least once. -/
theorem settle_measures (checked started : Binary64) (watched : ℕ) (s : σ) :
    (limits.settle host checked started watched s).Measures := by
  have first (s : σ) : (limits.round host checked started s).Measures := by
    rcases limits.round_cases host checked started s with
      ⟨cpu, ram, events, -⟩ | ⟨cpu, ram, time, events, -⟩ <;>
    exact ⟨cpu, ram, events ▸ List.mem_cons_self⟩
  cases watched with
  | zero => exact first s
  | succ watched =>
    by_cases ended : (limits.round host checked started s).ended = true
    · rw [settle_succ_of_ended host watched ended]
      exact first s
    · obtain ⟨cpu, ram, mem⟩ := first s
      rw [settle_succ_of_not_ended host watched ended]
      exact ⟨cpu, ram, List.mem_append_left _ (List.mem_append_left _ mem)⟩

/-! ### The end of a call -/

/-- How many sleeps of the length that is set are as long as the longest wait, none if the longest
wait is negative. -/
def mostSleeps (limits : ThrottleLimits) : ℕ := ⌈limits.maxThrottle.toRat / limits.sleep.toRat⌉₊

/-- The longest wait is a finite binary64 number. A sleep takes some time and is not endless. -/
structure Timed (limits : ThrottleLimits) : Prop where
  finite : limits.maxThrottle.isFinite = true
  held : limits.maxThrottle.Representable
  sleeps : 0 < limits.sleep.toRat

/-- Before its time is up, a call has not slept as often as it may. -/
theorem Timed.lt_mostSleeps (timed : limits.Timed) {started time : Binary64} {since : ℚ} {k : ℕ}
    (known : started.isFinite = true) (behind : started.toRat + k * limits.sleep.toRat ≤ since)
    (shown : ShownFrom since time)
    (early : ¬reached (time.sub started) limits.maxThrottle = true) : k < limits.mostSleeps := by
  have slept : 0 ≤ k * limits.sleep.toRat := mul_nonneg (Nat.cast_nonneg k) timed.sleeps.le
  have order : started.toRat ≤ time.toRat := by linarith [shown.reached]
  rw [mostSleeps, Nat.lt_ceil, lt_div_iff₀ timed.sleeps]
  by_contra long
  -- The exact difference has reached the longest wait, hence the rounded one has as well.
  obtain ⟨number, le⟩ :=
    le_sub shown.finite known timed.finite timed.held order (by linarith [shown.reached])
  exact early ((reached_iff number (isNumber_of_isFinite timed.finite)).2 le)

theorem round_sleeps (checked started : Binary64) (s : σ) :
    (limits.round host checked started s).sleeps = [] := by
  rcases limits.round_cases host checked started s with
    ⟨cpu, ram, events, -⟩ | ⟨cpu, ram, time, events, -⟩ <;>
  simp [ThrottleCall.sleeps, events, ThrottleEvent.sleep?]

/-- A call that takes readings sleeps no more often than it may, and it comes to its end within as
many sleeps. -/
theorem settle_bounded (timed : limits.Timed) {checked started : Binary64}
    (known : started.isFinite = true) (watched : ℕ) {s : σ} {since : ℚ} {k : ℕ}
    (behind : started.toRat + k * limits.sleep.toRat ≤ since)
    (steady : Steady since (limits.settle host checked started watched s).events) :
    (limits.settle host checked started watched s).sleeps.length ≤ limits.mostSleeps - k ∧
      (limits.mostSleeps - k ≤ watched →
        (limits.settle host checked started watched s).ended = true) := by
  induction watched generalizing s since k with
  | zero =>
    rw [settle] at steady ⊢
    refine ⟨by simp [round_sleeps], fun done => ?_⟩
    by_contra going
    obtain ⟨cpu, ram, time, events, -, early⟩ := round_of_not_ended host going
    rw [events, steady_measured, steady_looked] at steady
    have := timed.lt_mostSleeps known behind steady.1 early
    omega
  | succ watched ih =>
    by_cases ended : (limits.round host checked started s).ended = true
    · rw [settle_succ_of_ended host watched ended]
      exact ⟨by simp [round_sleeps], fun _ => ended⟩
    · obtain ⟨cpu, ram, time, events, -, early⟩ := round_of_not_ended host ended
      rw [settle_succ_of_not_ended host watched ended] at steady ⊢
      simp only [ThrottleCall.prepend_events, events, List.cons_append, List.nil_append,
        steady_measured, steady_looked, steady_slept] at steady
      obtain ⟨shown, later⟩ := steady
      have few := timed.lt_mostSleeps known behind shown early
      -- One sleep later the clock has advanced by the length of one more sleep.
      have behind' : started.toRat + (k + 1 : ℕ) * limits.sleep.toRat ≤
          time.toRat + limits.sleep.toRat := by
        push_cast
        linarith [shown.reached]
      obtain ⟨sleeps, finished⟩ := ih behind' later
      constructor
      · rw [ThrottleCall.prepend_sleeps, events]
        simp only [List.cons_append, List.nil_append, ThrottleEvent.sleep?, List.filterMap_cons,
          List.filterMap_nil, List.length_cons]
        omega
      · intro enough
        exact finished (by omega)

/-- What has come to its end stays the same however long it is watched. -/
theorem settle_watched {checked started : Binary64} {watched : ℕ} {s : σ}
    (ended : (limits.settle host checked started watched s).ended = true) (more : ℕ) :
    limits.settle host checked started (watched + more) s =
      limits.settle host checked started watched s := by
  induction watched generalizing s with
  | zero =>
    cases more with
    | zero => rfl
    | succ more =>
      rw [Nat.zero_add]
      exact settle_succ_of_ended host more ended
  | succ watched ih =>
    rw [Nat.add_right_comm]
    by_cases last : (limits.round host checked started s).ended = true
    · rw [settle_succ_of_ended host _ last, settle_succ_of_ended host _ last]
    · rw [settle_succ_of_not_ended host _ last] at ended
      rw [settle_succ_of_not_ended host _ last, settle_succ_of_not_ended host _ last, ih ended]

/-! ### One call -/

/-- What a call does: nothing if no limit is switched on, one look at the clock if the last check
is too recent, and rounds of readings after two looks otherwise. -/
theorem call_cases (watched : ℕ) (lastCheck : Binary64) (s : σ) :
    (limits.enabled = false ∧ limits.call host watched lastCheck s = ⟨lastCheck, [], true, s⟩) ∨
    (limits.enabled = true ∧ ∃ now, (now.sub lastCheck).less limits.minInterval = true ∧
      limits.call host watched lastCheck s = ⟨lastCheck, [.looked now], true, host.look s⟩) ∨
    (limits.enabled = true ∧ ∃ now started, (now.sub lastCheck).less limits.minInterval = false ∧
      limits.call host watched lastCheck s =
        (limits.settle host now started watched (host.look (host.look s))).prepend
          [.looked now, .looked started]) := by
  unfold call
  dsimp only
  split
  case isTrue off => exact .inl ⟨by simpa using off, rfl⟩
  case isFalse on =>
    have enabled : limits.enabled = true := by simpa using on
    split
    case isTrue recent => exact .inr (.inl ⟨enabled, _, recent, rfl⟩)
    case isFalse due => exact .inr (.inr ⟨enabled, _, _, by simpa using due, rfl⟩)

theorem sleepsWhenExceeded_call (watched : ℕ) (lastCheck : Binary64) (s : σ) :
    limits.SleepsWhenExceeded (limits.call host watched lastCheck s).events := by
  rcases limits.call_cases host watched lastCheck s with
    ⟨-, done⟩ | ⟨-, now, -, done⟩ | ⟨-, now, started, -, done⟩ <;> rw [done]
  · exact sleepsWhenExceeded_of_none (by simp)
  · exact sleepsWhenExceeded_of_none (by simp)
  · exact (sleepsWhenExceeded_of_none (by simp)).prepend
      (sleepsWhenExceeded_settle host now started watched _)

/-- A call sleeps no more often than it may, and it comes to its end within as many sleeps. -/
theorem call_bounded (timed : limits.Timed) {watched : ℕ} {lastCheck : Binary64} {s : σ} {since : ℚ}
    (steady : Steady since (limits.call host watched lastCheck s).events) :
    (limits.call host watched lastCheck s).sleeps.length ≤ limits.mostSleeps ∧
      (limits.mostSleeps ≤ watched → (limits.call host watched lastCheck s).ended = true) := by
  rcases limits.call_cases host watched lastCheck s with
    ⟨-, done⟩ | ⟨-, now, -, done⟩ | ⟨-, now, started, -, done⟩ <;> rw [done] at steady ⊢
  · exact ⟨Nat.zero_le _, fun _ => rfl⟩
  · exact ⟨Nat.zero_le _, fun _ => rfl⟩
  · simp only [ThrottleCall.prepend_events, List.cons_append, List.nil_append,
      steady_looked] at steady
    obtain ⟨-, shown, later⟩ := steady
    have behind : started.toRat + (0 : ℕ) * limits.sleep.toRat ≤ started.toRat := by simp
    have bounded := settle_bounded host timed shown.finite watched behind later
    simpa only [ThrottleCall.prepend_sleeps, ThrottleCall.prepend_ended, ThrottleEvent.sleep?,
      List.filterMap_cons, List.filterMap_nil, List.nil_append, Nat.sub_zero] using bounded

theorem call_watched {watched : ℕ} {lastCheck : Binary64} {s : σ}
    (ended : (limits.call host watched lastCheck s).ended = true) (more : ℕ) :
    limits.call host (watched + more) lastCheck s = limits.call host watched lastCheck s := by
  unfold call at ended ⊢
  dsimp only at ended ⊢
  split
  · rfl
  · next on =>
    split
    · rfl
    · next due =>
      rw [if_neg on, if_neg due] at ended
      rw [settle_watched host ended more]

/-- A call that takes readings notes its own time as that of the last check. -/
theorem call_measures {watched : ℕ} {lastCheck : Binary64} {s : σ} {since : ℚ}
    (steady : Steady since (limits.call host watched lastCheck s).events)
    (measures : (limits.call host watched lastCheck s).Measures) :
    ∃ now, (limits.call host watched lastCheck s).time? = some now ∧
      (limits.call host watched lastCheck s).lastCheck = now ∧
      ShownFrom since now ∧
      (now.sub lastCheck).less limits.minInterval = false := by
  obtain ⟨cpu, ram, mem⟩ := measures
  rcases limits.call_cases host watched lastCheck s with
    ⟨-, done⟩ | ⟨-, now, -, done⟩ | ⟨-, now, started, due, done⟩ <;> rw [done] at steady mem ⊢
  · simp at mem
  · simp at mem
  · simp only [ThrottleCall.prepend_events, List.cons_append, List.nil_append,
      steady_looked] at steady
    exact ⟨now, rfl, settle_lastCheck host now started watched _, steady.1, due⟩

/-- Other calls leave the last check as it is. -/
theorem call_of_not_measures {watched : ℕ} {lastCheck : Binary64} {s : σ}
    (quiet : ¬(limits.call host watched lastCheck s).Measures) :
    (limits.call host watched lastCheck s).lastCheck = lastCheck := by
  rcases limits.call_cases host watched lastCheck s with
    ⟨-, done⟩ | ⟨-, now, -, done⟩ | ⟨-, now, started, -, done⟩ <;> rw [done] at quiet ⊢
  obtain ⟨cpu, ram, mem⟩ :
      (limits.settle host now started watched (host.look (host.look s))).Measures :=
    settle_measures host now started watched _
  exact absurd ⟨cpu, ram, List.mem_append_right _ mem⟩ quiet

/-! ### The last check -/

/-- A time is at least the least interval after another one. -/
def FarFrom (limits : ThrottleLimits) (earlier later : Binary64) : Prop :=
  (Quantity.real limits.minInterval).value ≤ Quantity.finite (later.toRat - earlier.toRat)

/-- What a monitor notes as its last check: a time that the clock has shown, and one that is not
below the least interval. -/
structure Noted (limits : ThrottleLimits) (since : ℚ) (time : Binary64) : Prop where
  finite : time.isFinite = true
  held : time.Representable
  past : time.toRat ≤ since
  beyond : time.less limits.minInterval = false

variable {since : ℚ} {lastCheck now : Binary64}

theorem Noted.later {later : ℚ} (le : since ≤ later) (noted : limits.Noted since lastCheck) :
    limits.Noted later lastCheck :=
  { noted with past := noted.past.trans le }

/-- Rounding does not make the last check seem longer ago than the least interval. -/
theorem Noted.farFrom (noted : limits.Noted since lastCheck) (shown : ShownFrom since now)
    (due : (now.sub lastCheck).less limits.minInterval = false) :
    limits.FarFrom lastCheck now := by
  refine not_lt.1 fun close => ?_
  have recent := less_of_close shown.finite shown.held noted.finite noted.held
    (noted.past.trans shown.reached) noted.beyond close
  rw [due] at recent
  cases recent

/-- At first zero stands for the last check, and a time that is due is not below the least interval
either. -/
theorem beyond_of_due (start : lastCheck = .zero ∨ limits.Noted since lastCheck)
    (shown : ShownFrom since now) (due : (now.sub lastCheck).less limits.minInterval = false) :
    now.less limits.minInterval = false := by
  rcases start with rfl | noted
  · rwa [sub_zero shown.finite shown.held] at due
  · refine eq_false_of_ne_true fun below => ?_
    have := less_of_le noted.finite shown.finite (noted.past.trans shown.reached) below
    rw [noted.beyond] at this
    cases this

theorem call_sleeps_nonneg (timed : limits.Timed) {watched : ℕ} {s : σ} (seconds : Binary64)
    (mem : .slept seconds ∈ (limits.call host watched lastCheck s).events) :
    0 ≤ seconds.toRat := by
  obtain ⟨i, found⟩ := List.getElem?_of_mem mem
  rw [(sleepsWhenExceeded_call host watched lastCheck s i seconds found).1]
  exact timed.sleeps.le

/-- A call that takes readings notes its own time, and it is due then. -/
theorem call_noted (timed : limits.Timed) {watched : ℕ} {s : σ}
    (start : lastCheck = .zero ∨ limits.Noted since lastCheck)
    (steady : Steady since (limits.call host watched lastCheck s).events)
    (measures : (limits.call host watched lastCheck s).Measures) :
    ∃ now, (limits.call host watched lastCheck s).time? = some now ∧
      (limits.call host watched lastCheck s).lastCheck = now ∧
      ShownFrom since now ∧
      (now.sub lastCheck).less limits.minInterval = false ∧
      limits.Noted (reachedAfter since (limits.call host watched lastCheck s).events) now := by
  have sleeps : ∀ seconds, .slept seconds ∈ (limits.call host watched lastCheck s).events →
      0 ≤ seconds.toRat := call_sleeps_nonneg host timed
  obtain ⟨now, first, kept, shown, due⟩ := call_measures host steady measures
  obtain ⟨rest, events⟩ := ThrottleCall.events_of_time? first
  refine ⟨now, first, kept, shown, due, shown.finite, shown.held, ?_, beyond_of_due start shown due⟩
  rw [events] at steady sleeps ⊢
  exact (steady_looked.1 steady).2.le_reachedAfter
    fun seconds mem => sleeps seconds (List.mem_cons_of_mem _ mem)

/-! ### Calls one after another -/

/-- Calls one after another, each on the host as it finds it, beginning with a given last check. -/
def calls (limits : ThrottleLimits) (host : Host σ) (watched : ℕ) :
    Binary64 → List σ → List (ThrottleCall σ)
  | _, [] => []
  | lastCheck, s :: later =>
    limits.call host watched lastCheck s ::
      limits.calls host watched (limits.call host watched lastCheck s).lastCheck later

/-- Everything that calls do, in its order. -/
def history (calls : List (ThrottleCall σ)) : List ThrottleEvent := calls.flatMap (·.events)

@[simp] theorem steady_history_cons {c : ThrottleCall σ} {later : List (ThrottleCall σ)} :
    Steady since (history (c :: later)) ↔
      Steady since c.events ∧ Steady (reachedAfter since c.events) (history later) := by
  rw [history, List.flatMap_cons, steady_append, history]

/-- What holds of every call through which the clock is steady holds of each of the calls. -/
theorem forall_mem_calls {P : ThrottleCall σ → Prop} {watched : ℕ}
    (single : ∀ since lastCheck s, Steady since (limits.call host watched lastCheck s).events →
      P (limits.call host watched lastCheck s)) {starts : List σ}
    (steady : Steady since (history (limits.calls host watched lastCheck starts))) :
    ∀ c ∈ limits.calls host watched lastCheck starts, P c := by
  induction starts generalizing since lastCheck with
  | nil => simp [calls]
  | cons s later ih =>
    rw [calls, steady_history_cons] at steady
    rw [calls, List.forall_mem_cons]
    exact ⟨single since lastCheck s steady.1, ih steady.2⟩

theorem calls_watched {watched : ℕ} {starts : List σ}
    (ended : ∀ c ∈ limits.calls host watched lastCheck starts, c.ended = true) (more : ℕ) :
    limits.calls host (watched + more) lastCheck starts =
      limits.calls host watched lastCheck starts := by
  induction starts generalizing lastCheck with
  | nil => rfl
  | cons s later ih =>
    rw [calls, List.forall_mem_cons] at ended
    rw [calls, calls, call_watched host ended.1 more, ih ended.2]

/-- Readings are taken only far from a time that was noted before. -/
theorem calls_farFrom (timed : limits.Timed) {watched : ℕ} {starts : List σ}
    (noted : limits.Noted since lastCheck)
    (steady : Steady since (history (limits.calls host watched lastCheck starts))) :
    ∀ c ∈ limits.calls host watched lastCheck starts, c.Measures →
      ∃ now, c.time? = some now ∧ limits.FarFrom lastCheck now := by
  induction starts generalizing since lastCheck with
  | nil => simp [calls]
  | cons s later ih =>
    rw [calls, steady_history_cons] at steady
    rw [calls, List.forall_mem_cons]
    by_cases measures : (limits.call host watched lastCheck s).Measures
    · obtain ⟨now, first, kept, shown, due, noted'⟩ :=
        call_noted host timed (.inr noted) steady.1 measures
      refine ⟨fun _ => ⟨now, first, noted.farFrom shown due⟩, fun c mem measures' => ?_⟩
      rw [kept] at mem steady
      obtain ⟨time, first', far⟩ := ih noted' steady.2 c mem measures'
      -- What is far from the new last check is even farther from the old one.
      refine ⟨time, first', far.trans (Quantity.finite_le_finite.2 ?_)⟩
      linarith [noted.past, shown.reached]
    · have forward := steady.1.le_reachedAfter (call_sleeps_nonneg host timed)
      rw [call_of_not_measures host measures] at steady ⊢
      exact ⟨fun does => absurd does measures, ih (noted.later forward) steady.2⟩

/-- Two calls do not both take readings unless they are at least the least interval apart. -/
def Apart (limits : ThrottleLimits) (c d : ThrottleCall σ) : Prop :=
  c.Measures → d.Measures → ∃ earlier later, c.time? = some earlier ∧ d.time? = some later ∧
    limits.FarFrom earlier later

theorem calls_apart (timed : limits.Timed) {watched : ℕ} {starts : List σ}
    (start : lastCheck = .zero ∨ limits.Noted since lastCheck)
    (steady : Steady since (history (limits.calls host watched lastCheck starts))) :
    (limits.calls host watched lastCheck starts).Pairwise limits.Apart := by
  induction starts generalizing since lastCheck with
  | nil => exact .nil
  | cons s later ih =>
    rw [calls, steady_history_cons] at steady
    rw [calls, List.pairwise_cons]
    by_cases measures : (limits.call host watched lastCheck s).Measures
    · obtain ⟨now, first, kept, -, -, noted⟩ := call_noted host timed start steady.1 measures
      rw [kept] at steady ⊢
      refine ⟨fun d mem _ measures' => ?_, ih (.inr noted) steady.2⟩
      obtain ⟨time, first', far⟩ := calls_farFrom host timed noted steady.2 d mem measures'
      exact ⟨now, time, first, first', far⟩
    · have forward := steady.1.le_reachedAfter (call_sleeps_nonneg host timed)
      rw [call_of_not_measures host measures] at steady ⊢
      exact ⟨fun d _ does => absurd does measures, ih (start.imp_right (.later forward)) steady.2⟩

/-- A monitor with no limit switched on does nothing at all. -/
theorem events_of_not_enabled (off : limits.enabled = false) {watched : ℕ} {starts : List σ} :
    ∀ c ∈ limits.calls host watched lastCheck starts, c.events = [] := by
  induction starts generalizing lastCheck with
  | nil => simp [calls]
  | cons s later ih =>
    rw [calls, List.forall_mem_cons]
    exact ⟨by simp [call, off], ih⟩

theorem not_enabled_of_zero (cpu : limits.maxCpu.equal .zero = true)
    (ram : limits.maxRam.equal .zero = true) : limits.enabled = false := by
  have off {x : Binary64} (zero : x.equal .zero = true) : Binary64.zero.less x = false := by
    have same : x.compare? .zero = some .eq := by simpa [equal] using zero
    rw [less, compare?_swap x, same]
    rfl
  rw [enabled, off cpu, off ram]
  rfl

/-- A monitor may be called again and again on any host. Each call comes to its end after at most
`mostSleeps` sleeps and sleeps only after readings above a limit that is switched on. Two calls
that take readings are at least the least interval apart. If both limits are zero, nothing is
ever read, and nobody sleeps. -/
theorem throttling_bounded_and_spaced (limits : ThrottleLimits) (host : Host σ) (watched : ℕ)
    (starts : List σ) (since : ℚ) (timed : limits.Timed)
    (clock : Steady since (history (limits.calls host watched .zero starts))) :
    (∀ c ∈ limits.calls host watched .zero starts,
      c.sleeps.length ≤ limits.mostSleeps ∧
      (limits.mostSleeps ≤ watched → c.ended = true) ∧
      limits.SleepsWhenExceeded c.events) ∧
    (limits.mostSleeps ≤ watched → ∀ more,
      limits.calls host (watched + more) .zero starts = limits.calls host watched .zero starts) ∧
    (limits.calls host watched .zero starts).Pairwise limits.Apart ∧
    (limits.maxCpu.equal .zero = true → limits.maxRam.equal .zero = true →
      limits.setupReadings = 0 ∧ history (limits.calls host watched .zero starts) = []) := by
  have bounded : ∀ c ∈ limits.calls host watched .zero starts,
      c.sleeps.length ≤ limits.mostSleeps ∧ (limits.mostSleeps ≤ watched → c.ended = true) :=
    forall_mem_calls host (fun _ _ _ steady => call_bounded host timed steady) clock
  have justified : ∀ c ∈ limits.calls host watched .zero starts,
      limits.SleepsWhenExceeded c.events :=
    forall_mem_calls host (fun _ lastCheck s _ => sleepsWhenExceeded_call host watched lastCheck s)
      clock
  refine ⟨fun c mem => ⟨(bounded c mem).1, (bounded c mem).2, justified c mem⟩,
    fun enough => calls_watched host fun c mem => (bounded c mem).2 enough,
    calls_apart host timed (.inl rfl) clock, fun cpu ram => ?_⟩
  have off := not_enabled_of_zero cpu ram
  exact ⟨by simp [setupReadings, off], List.flatMap_eq_nil_iff.2 (events_of_not_enabled host off)⟩

/-- A host whose processor is always busy, with a clock that shows whole seconds and advances by a
second in each sleep. -/
def busyHost : Host ℕ where
  clock seconds := ofNat (100 + seconds)
  cpu _ := ofNat 90
  ram _ := zero
  look seconds := seconds
  measure seconds := seconds
  sleep _ seconds := seconds + 1

/-- Half of the processor, and no longer than two sleeps of a second every five seconds. -/
def halfProcessor : ThrottleLimits where
  maxCpu := ofNat 50
  sleep := ofNat 1
  maxThrottle := ofNat 2
  minInterval := ofNat 5

/-- Three calls on a busy host: both the first and the last one use up their sleeps, and the second
one comes too early for readings. -/
theorem throttling_bounded_and_spaced_on_busy_host :
    halfProcessor.Timed ∧
    Steady 100 (history (halfProcessor.calls busyHost 2 .zero [0, 2, 7])) ∧
    halfProcessor.mostSleeps = 2 ∧
    ((halfProcessor.calls busyHost 2 .zero [0, 2, 7]).map (·.sleeps.length) = [2, 0, 2]) ∧
    (∀ c ∈ halfProcessor.calls busyHost 2 .zero [0, 2, 7], c.ended = true) ∧
    (halfProcessor.calls busyHost 2 .zero [0, 2, 7]).Pairwise halfProcessor.Apart := by
  have done : history (halfProcessor.calls busyHost 2 .zero [0, 2, 7]) =
      [.looked (ofNat 100), .looked (ofNat 100), .measured (ofNat 90) zero, .looked (ofNat 100),
        .slept (ofNat 1), .measured (ofNat 90) zero, .looked (ofNat 101),
        .slept (ofNat 1), .measured (ofNat 90) zero, .looked (ofNat 102),
        .looked (ofNat 102),
        .looked (ofNat 107), .looked (ofNat 107), .measured (ofNat 90) zero, .looked (ofNat 107),
        .slept (ofNat 1), .measured (ofNat 90) zero, .looked (ofNat 108),
        .slept (ofNat 1), .measured (ofNat 90) zero, .looked (ofNat 109)] := by
    decide +kernel
  have timed : halfProcessor.Timed :=
    ⟨isFinite_ofNat (by decide), representable_ofNat 2, by
      rw [halfProcessor, toRat_ofNat (by decide)]
      exact one_pos⟩
  have most : halfProcessor.mostSleeps = 2 := by
    rw [mostSleeps, halfProcessor, toRat_ofNat (by decide), toRat_ofNat (by decide)]
    norm_num
  have clock : Steady 100 (history (halfProcessor.calls busyHost 2 .zero [0, 2, 7])) := by
    rw [done]
    simp (disch := norm_num) only [steady_looked, steady_measured, steady_slept, steady_nil,
      toRat_ofNat, shownFrom_ofNat]
    norm_num
  obtain ⟨bounded, -, apart, -⟩ :=
    throttling_bounded_and_spaced halfProcessor busyHost 2 [0, 2, 7] 100 timed clock
  exact ⟨timed, clock, most, by decide +kernel, fun c mem => (bounded c mem).2.1 most.le, apart⟩

end ThrottleLimits

end VideoCatalog
