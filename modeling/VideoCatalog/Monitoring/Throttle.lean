import VideoCatalog.Settings.Configuration

/-!
# Throttling

Work waits while the processor or the memory is used more than allowed. Readings are taken no
more often than at a least interval, and no wait lasts longer than a limit.

* `ThrottleLimits`, `ThrottleLimits.ofConfiguration`: the limits; zero switches a limit off.
* `Host`: the clock and the usage that a monitor finds, and what becomes of them in time.
* `ThrottleLimits.call`: one call, with everything that it does, on any host.
* `ThrottleLimits.throttle`: one call on a host whose clock advances in sleeps only.
-/

namespace VideoCatalog

/-- The limits of usage in percent, and the times in seconds. -/
structure ThrottleLimits where
  maxCpu : Binary64 := .zero
  maxRam : Binary64 := .zero
  sleep : Binary64 := .ofRatio false 1 2
  maxThrottle : Binary64 := Binary64.ofNat 15
  minInterval : Binary64 := .ofRatio false 1 2
deriving DecidableEq, Repr

/-- What a monitor finds around it: what the clock shows, and the percentages of processor and
memory in use. Looking at the clock, taking readings and sleeping each take time of their own. -/
structure Host (σ : Type) where
  clock : σ → Binary64
  cpu : σ → Binary64
  ram : σ → Binary64
  look : σ → σ
  measure : σ → σ
  sleep : Binary64 → σ → σ

/-- What a monitor does: it looks at the clock, takes both readings, or sleeps. -/
inductive ThrottleEvent where
  | looked (time : Binary64)
  | measured (cpu ram : Binary64)
  | slept (seconds : Binary64)
deriving DecidableEq, Repr

/-- One call of a monitor: the last check that is noted after it, what was done, whether the call
has come to its end, and the host as it is left. -/
structure ThrottleCall (σ : Type) where
  lastCheck : Binary64
  events : List ThrottleEvent
  ended : Bool
  after : σ

/-- The same call with something done before. -/
def ThrottleCall.prepend {σ : Type} (events : List ThrottleEvent) (c : ThrottleCall σ) :
    ThrottleCall σ :=
  { c with events := events ++ c.events }

/-- The length of a sleep. -/
def ThrottleEvent.sleep? : ThrottleEvent → Option Binary64
  | .slept seconds => some seconds
  | _ => none

/-- The sleeps of a call. -/
def ThrottleCall.sleeps {σ : Type} (c : ThrottleCall σ) : List Binary64 :=
  c.events.filterMap ThrottleEvent.sleep?

namespace ThrottleCall

variable {σ : Type} (events : List ThrottleEvent) (c : ThrottleCall σ)

@[simp] theorem prepend_events : (c.prepend events).events = events ++ c.events := rfl

@[simp] theorem prepend_ended : (c.prepend events).ended = c.ended := rfl

@[simp] theorem prepend_lastCheck : (c.prepend events).lastCheck = c.lastCheck := rfl

@[simp] theorem prepend_sleeps :
    (c.prepend events).sleeps = events.filterMap ThrottleEvent.sleep? ++ c.sleeps :=
  List.filterMap_append

end ThrottleCall

namespace ThrottleLimits

/-- Whether any limit is switched on. -/
def enabled (limits : ThrottleLimits) : Bool :=
  Binary64.zero.less limits.maxCpu || Binary64.zero.less limits.maxRam

/-- The limits that a configuration sets. -/
def ofConfiguration (config : Option Configuration) : Except Failure ThrottleLimits :=
  match config with
  | none => .ok {}
  | some c =>
    let read (name : String) (default : Value) : Except Failure Binary64 :=
      (c.setting "resource_limits" name default).toReal
    match read "max_cpu_percent" (.int 0) with
    | .error f => .error f
    | .ok cpu =>
      match read "max_ram_percent" (.int 0) with
      | .error f => .error f
      | .ok ram =>
        match read "max_throttle_seconds" (.int 15) with
        | .error f => .error f
        | .ok throttle =>
          (read "min_check_interval_seconds" (.number (.real (.ofRatio false 1 2)))).map
            fun interval =>
              { maxCpu := cpu, maxRam := ram, maxThrottle := throttle, minInterval := interval }

/-- Whether a reading is above a limit that is switched on. -/
def exceeded (limits : ThrottleLimits) (cpu ram : Binary64) : Bool :=
  (Binary64.zero.less limits.maxCpu && limits.maxCpu.less cpu) ||
    (Binary64.zero.less limits.maxRam && limits.maxRam.less ram)

/-- Whether the first number is at least the second. -/
def reached (x y : Binary64) : Bool :=
  match x.compare? y with
  | some .gt | some .eq => true
  | _ => false

/-- How many readings are taken when a monitor is set up. -/
def setupReadings (limits : ThrottleLimits) : Nat := if limits.enabled then 1 else 0

section Call

variable {σ : Type} (limits : ThrottleLimits) (host : Host σ)

/-- Takes readings once. That is the end of a call if they are within the limits, or if the time
is up. -/
def round (checked started : Binary64) (s : σ) : ThrottleCall σ :=
  let reading := .measured (host.cpu s) (host.ram s)
  let s' := host.measure s
  if limits.exceeded (host.cpu s) (host.ram s) then
    { lastCheck := checked
      events := [reading, .looked (host.clock s')]
      ended := reached ((host.clock s').sub started) limits.maxThrottle
      after := host.look s' }
  else { lastCheck := checked, events := [reading], ended := true, after := s' }

/-- Takes readings again and again with a sleep in between, until the call comes to its end. It
is watched for a number of sleeps only. -/
def settle (checked started : Binary64) : Nat → σ → ThrottleCall σ
  | 0, s => limits.round host checked started s
  | watched + 1, s =>
    let r := limits.round host checked started s
    if r.ended then r
    else (settle checked started watched (host.sleep limits.sleep r.after)).prepend
      (r.events ++ [.slept limits.sleep])

/-- One call, watched for a number of sleeps. Nothing happens if no limit is switched on, and no
readings are taken if the last check is too recent. -/
def call (watched : Nat) (lastCheck : Binary64) (s : σ) : ThrottleCall σ :=
  if !limits.enabled then { lastCheck, events := [], ended := true, after := s }
  else
    let now := host.clock s
    let s := host.look s
    if (now.sub lastCheck).less limits.minInterval then
      { lastCheck, events := [.looked now], ended := true, after := s }
    else
      (limits.settle host now (host.clock s) watched (host.look s)).prepend
        [.looked now, .looked (host.clock s)]

end Call

end ThrottleLimits

/-! ### A clock that advances in sleeps only -/

/-- The clock, when readings were last asked for, and how many were taken. -/
structure ThrottleState where
  now : Binary64
  lastCheck : Binary64 := .zero
  readings : Nat := 0
deriving DecidableEq, Repr

/-- The percentages of processor and memory that each reading gives. -/
structure Usage where
  cpu : Nat → Binary64
  ram : Nat → Binary64

/-- A host with given readings, where only sleeps take time. -/
def Usage.host (usage : Usage) : Host ThrottleState where
  clock s := s.now
  cpu s := usage.cpu s.readings
  ram s := usage.ram s.readings
  look s := s
  measure s := { s with readings := s.readings + 1 }
  sleep seconds s := { s with now := s.now.add seconds }

namespace ThrottleLimits

/-- More waits than fit into the longest wait. -/
def waitBound (limits : ThrottleLimits) : Nat :=
  match (limits.maxThrottle.div limits.sleep).truncate? with
  | some n => n.toNat + 2
  | none => Nat.pow 2 20

/-- One call, with its sleeps. -/
def throttle (limits : ThrottleLimits) (usage : Usage) (s : ThrottleState) :
    ThrottleState × List Binary64 :=
  let c := limits.call usage.host limits.waitBound s.lastCheck s
  ({ c.after with lastCheck := c.lastCheck }, c.sleeps)

end ThrottleLimits

end VideoCatalog
