import FrameSync.Tick.Config

/-!
# The tick schedule

A schedule knows when its next tick is due. Waiting for it ends at `wake`: timers have millisecond
resolution, so a deadline between two milliseconds is met at the later one, and a deadline in the
past at once. `fire` then takes the tick at the time it woke, tells whether it came late and how
many ticks were given up, and plans the next one by the policy. A schedule always moves its
deadline forward (`next_lt_fire_next`).
-/

set_option autoImplicit false

namespace FrameSync.Tick

/-- What a tick reports: its number, from 1, the interval, whether it woke more than a tenth of the
interval late, and the ticks given up. -/
structure TickInfo where
  tick : Nat
  interval : Nat
  overrun : Bool
  skipped : Nat
deriving DecidableEq, Repr

/-- Totals of a schedule: the ticks fired, the late ones and those given up; and whether the average
tick time, the greatest one and the last tick's share of the interval are above zero. -/
structure TickMetrics where
  ticks : Nat
  overruns : Nat
  skipped : Nat
  averaged : Bool
  peaked : Bool
  budgeted : Bool
deriving DecidableEq, Repr

/-- A tick schedule. `count` ticks have fired, the next is due at `next`, and `begun` says whether
one has begun that has not ended. -/
structure Schedule where
  config : TickConfig
  interval_pos : 0 < config.interval
  count : Nat
  next : Nat
  begun : Bool
  metrics : TickMetrics

namespace Schedule

instance : DecidableEq Schedule := fun s t =>
  if h : s.config = t.config ∧ s.count = t.count ∧ s.next = t.next ∧ s.begun = t.begun ∧
      s.metrics = t.metrics then
    isTrue (by
      cases s
      cases t
      obtain ⟨h₁, h₂, h₃, h₄, h₅⟩ := h
      subst h₁ h₂ h₃ h₄ h₅
      rfl)
  else
    isFalse fun e => h (by subst e; exact ⟨rfl, rfl, rfl, rfl, rfl⟩)

/-- A schedule made at `now`: the first tick is one interval away, put off by the jitter. -/
def start (config : TickConfig) (now draw : Nat) : Schedule :=
  { config := config.validated
    interval_pos := config.validated_interval_pos
    count := 0
    next := now + config.validated.interval + config.validated.delay draw
    begun := false
    metrics := ⟨0, 0, 0, false, false, false⟩ }

/-- The time between ticks. -/
def interval (s : Schedule) : Nat := s.config.interval

/-- A time rounded up to a whole millisecond. -/
def wholeMs (t : Nat) : Nat := (t + (millisecond - 1)) / millisecond * millisecond

/-- When a wait that begins at `now` ends. -/
def wake (s : Schedule) (now : Nat) : Nat := max now (wholeMs s.next)

/-- How late the pending tick is at `now`. -/
def lateBy (s : Schedule) (now : Nat) : Nat := now - s.next

/-- Is a tick at `now` late by more than a tenth of the interval? -/
def overrun (s : Schedule) (now : Nat) : Bool := s.interval / 10 < s.lateBy now

/-- How many whole intervals late a tick at `now` is. -/
def behind (s : Schedule) (now : Nat) : Nat := s.lateBy now / s.interval

/-- The ticks given up by a tick at `now`. -/
def skippedAt (s : Schedule) (now : Nat) : Nat :=
  match s.config.policy with
  | .skip => if s.overrun now then s.behind now else 0
  | .catchUp cap => if s.overrun now then s.behind now - cap else 0
  | .drop => 0

/-- The deadline after a tick at `now`. -/
def nextAfter (s : Schedule) (now : Nat) : Nat :=
  match s.config.policy with
  | .skip => now + s.interval
  | .catchUp cap =>
    if s.overrun now ∧ cap < s.behind now then now + s.interval else s.next + s.interval
  | .drop => s.next + s.interval

/-- Take the tick at `now`. -/
def fire (s : Schedule) (now : Nat) : TickInfo × Schedule :=
  let late := s.overrun now
  let skipped := s.skippedAt now
  ({ tick := s.count + 1, interval := s.interval, overrun := late, skipped },
    { s with
      count := s.count + 1
      next := s.nextAfter now
      begun := true
      metrics := { s.metrics with
        ticks := s.metrics.ticks + 1
        overruns := s.metrics.overruns + (if late then 1 else 0)
        skipped := s.metrics.skipped + skipped } })

/-- The work of the tick has ended, after a time above zero. Without a tick that has begun,
nothing happens. -/
def finish (s : Schedule) : Schedule :=
  if s.begun then
    { s with
      begun := false
      metrics := { s.metrics with
        averaged := s.metrics.averaged || s.config.metrics
        peaked := s.metrics.peaked || s.config.metrics
        budgeted := true } }
  else s

/-- Ending a tick leaves the deadline alone. -/
@[simp] theorem finish_next (s : Schedule) : s.finish.next = s.next := by
  unfold finish
  split <;> rfl

/-- Wait for the tick from `now` on. Answers the report, the time of the tick and the schedule. -/
def wait (s : Schedule) (now : Nat) : TickInfo × Nat × Schedule :=
  let time := s.wake now
  let (info, s') := s.fire time
  (info, time, s')

/-- Wait for the tick from `now` on, but no longer than until `limit`. A wait that is given up
leaves the schedule as it is. -/
def waitUntil (s : Schedule) (now limit : Nat) : Option (TickInfo × Nat × Schedule) :=
  if s.wake now ≤ limit then some (s.wait now) else none

/-- A wait ends no earlier than the deadline. -/
theorem next_le_wake (s : Schedule) (now : Nat) : s.next ≤ s.wake now := by
  simp only [wake, wholeMs, millisecond]
  omega

/-- A wait ends no earlier than it began. -/
theorem le_wake (s : Schedule) (now : Nat) : now ≤ s.wake now := Nat.le_max_left _ _

/-- **A tick that is due moves the deadline forward.** -/
theorem next_lt_fire_next (s : Schedule) {now : Nat} (h : s.next ≤ now) :
    s.next < (s.fire now).2.next := by
  have hpos := s.interval_pos
  simp only [fire, nextAfter, interval]
  split
  · omega
  · split <;> omega
  · omega

/-! ## Histories -/

/-- A schedule and the time. -/
structure Clocked where
  now : Nat
  schedule : Schedule

/-- What happens to a schedule as time passes: the tick is waited for, and taken the given time
after the wait could end; it is waited for, but no longer than the given time; its work has ended;
or nobody waits, and the clock moves on. -/
inductive Op where
  | wait (late : Nat)
  | waitFor (time : Nat)
  | finish
  | pass (time : Nat)
deriving DecidableEq, Repr

/-- Carry out one operation. Answers the tick, if one was taken. -/
def Clocked.apply (c : Clocked) : Op → Option TickInfo × Clocked
  | .wait late =>
    let time := c.schedule.wake c.now + late
    let (info, schedule) := c.schedule.fire time
    (some info, ⟨time, schedule⟩)
  | .waitFor time =>
    match c.schedule.waitUntil c.now (c.now + time) with
    | some (info, time, schedule) => (some info, ⟨time, schedule⟩)
    | none => (none, ⟨c.now + time, c.schedule⟩)
  | .finish => (none, { c with schedule := c.schedule.finish })
  | .pass time => (none, { c with now := c.now + time })

/-- Carry out the operations of a history in order. Answers the ticks that were taken. -/
def Clocked.run : Clocked → List Op → List TickInfo × Clocked
  | c, [] => ([], c)
  | c, op :: ops =>
    let (info, c') := c.apply op
    let (infos, c'') := run c' ops
    (info.toList ++ infos, c'')

end Schedule

end FrameSync.Tick
