import FrameSync.Tick.Threshold

/-!
# Tick settings

How often a room ticks and what happens when a tick comes late. Durations are in nanoseconds.
`TickConfig.validated` brings settings into range: an interval of at least a millisecond,
thresholds between 0 and 1, and a warning threshold not above the critical one.
-/

set_option autoImplicit false

namespace FrameSync.Tick

/-- What to do when a tick comes late: drop the missed ticks and go on from now; fire up to `cap`
missed ticks back to back and, if more were missed, go on from now; or keep the planned times. -/
inductive TickPolicy where
  | skip
  | catchUp (cap : Nat)
  | drop
deriving DecidableEq, Repr

/-- The name of a policy. -/
def TickPolicy.name : TickPolicy → String
  | skip => "Skip"
  | catchUp _ => "CatchUp"
  | drop => "Drop"

/-- How many missed ticks a policy fires, where it has a bound. -/
def TickPolicy.cap : TickPolicy → Option Nat
  | catchUp cap => some cap
  | skip | drop => none

/-- The settings of a tick schedule. `warn` and `critical` are parts of the interval; `metrics` says
whether average and greatest tick time are kept; the first tick may be put off by up to `jitter`. -/
structure TickConfig where
  interval : Nat
  policy : TickPolicy
  warn : Threshold
  critical : Threshold
  metrics : Bool
  jitter : Nat
deriving DecidableEq, Repr

/-- One microsecond. -/
def microsecond : Nat := 1000

/-- One millisecond. -/
def millisecond : Nat := 1000000

namespace TickConfig

/-- The stock settings: a tick every 33 ms. -/
def standard : TickConfig :=
  { interval := 33 * millisecond
    policy := .skip
    warn := .fourFifths
    critical := .one
    metrics := true
    jitter := 2 * millisecond }

/-- Stock settings with another interval. -/
def ofInterval (interval : Nat) : TickConfig := { standard with interval }

/-- The settings brought into range. -/
def validated (c : TickConfig) : TickConfig :=
  let warn := c.warn.clamp
  let critical := c.critical.clamp
  { c with
    interval := max c.interval millisecond
    warn := if critical.below warn then critical else warn
    critical }

/-- The delay of the first tick for a random draw: whole microseconds below the jitter. -/
def delay (c : TickConfig) (draw : Nat) : Nat :=
  if c.jitter / microsecond = 0 then 0 else draw % (c.jitter / microsecond) * microsecond

/-- Validated settings have a positive interval. -/
theorem validated_interval_pos (c : TickConfig) : 0 < c.validated.interval := by
  simp only [validated, millisecond]
  omega

end TickConfig

end FrameSync.Tick
