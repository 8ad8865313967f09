import FrameSync.Tick.Schedule
import Mathlib.Tactic.Ring

/-!
# A schedule keeps to the time

Each policy plans the next tick from another point: from now, from the planned time, or from one or
the other. What they have in common is that a tick moves the deadline on by an interval for itself
and by one for every tick it gives up, at least (`next_add_le_nextAfter`): a tick that is given up
is one for which a whole interval has passed. So the deadline is always behind the intervals of all
the ticks fired and given up and of the pending one (`OnPace`), however late ticks are taken and
however often waits are given up, and the ticks of a history are never more than the intervals that
have passed (`never_ahead`).
-/

set_option autoImplicit false

namespace FrameSync.Tick.Schedule

variable {s s' : Schedule} {now time created : Nat}

/-! ## One tick -/

@[simp] theorem finish_count (s : Schedule) : s.finish.count = s.count := by
  unfold finish
  split <;> rfl

@[simp] theorem finish_skipped (s : Schedule) : s.finish.metrics.skipped = s.metrics.skipped := by
  unfold finish
  split <;> rfl

@[simp] theorem finish_config (s : Schedule) : s.finish.config = s.config := by
  unfold finish
  split <;> rfl

/-- As many intervals as a tick is behind have passed since its deadline. -/
theorem behind_mul_interval_le (s : Schedule) (now : Nat) :
    s.behind now * s.interval ≤ s.lateBy now := Nat.div_mul_le_self _ _

/-- No policy gives up more ticks than are behind. -/
theorem skippedAt_le_behind (s : Schedule) (now : Nat) : s.skippedAt now ≤ s.behind now := by
  unfold skippedAt
  cases s.config.policy with
  | skip => simp only; split <;> omega
  | catchUp cap => simp only; split <;> omega
  | drop => exact Nat.zero_le _

/-- For every tick that is given up an interval has passed since the deadline. -/
theorem next_add_skippedAt_le (hdue : s.next ≤ now) :
    s.next + s.skippedAt now * s.interval ≤ now := by
  have hskipped := Nat.mul_le_mul_right s.interval (skippedAt_le_behind s now)
  have hbehind := behind_mul_interval_le s now
  rw [lateBy] at hbehind
  omega

/-- **A tick moves the deadline on** by an interval for itself and one for each tick it gives up. -/
theorem next_add_le_nextAfter (hdue : s.next ≤ now) :
    s.next + (s.skippedAt now + 1) * s.interval ≤ s.nextAfter now := by
  have hskipped := next_add_skippedAt_le hdue
  rw [Nat.add_one_mul]
  unfold nextAfter
  cases hpolicy : s.config.policy with
  | skip => simp only; omega
  | catchUp cap =>
    simp only
    split
    · omega
    · -- all that is behind is caught up with, and nothing is given up
      rename_i hcatches
      have hzero : s.skippedAt now = 0 := by
        simp only [skippedAt, hpolicy]
        split
        · rename_i hlate
          rw [not_and] at hcatches
          have := hcatches hlate
          omega
        · rfl
      rw [hzero]
      omega
  | drop =>
    have hzero : s.skippedAt now = 0 := by simp only [skippedAt, hpolicy]
    rw [hzero]
    simp only
    omega

/-! ## One operation -/

/-- What an operation does to a schedule, and when it is over: no tick is taken, the work of a tick
ends, or a tick is taken once it is due. -/
inductive Moves (c : Clocked) : Option TickInfo → Clocked → Prop where
  | rests (time : Nat) : c.now ≤ time → Moves c none ⟨time, c.schedule⟩
  | finishes : Moves c none ⟨c.now, c.schedule.finish⟩
  | takes (time : Nat) : c.now ≤ time → c.schedule.next ≤ time →
    Moves c (some (c.schedule.fire time).1) ⟨time, (c.schedule.fire time).2⟩

/-- **Every operation is one of the moves.** -/
theorem moves_apply (c : Clocked) (op : Op) : Moves c (c.apply op).1 (c.apply op).2 := by
  have hnow := c.schedule.le_wake c.now
  have hnext := c.schedule.next_le_wake c.now
  cases op with
  | wait late => exact .takes _ (by omega) (by omega)
  | waitFor time =>
    unfold Clocked.apply
    simp only [waitUntil]
    split
    · rename_i info time' schedule hwait
      split at hwait
      · cases hwait
        exact .takes _ hnow hnext
      · cases hwait
    · exact .rests _ (by omega)
  | finish => exact .finishes
  | pass time => exact .rests _ (by omega)

/-- A schedule made at `created` has not got ahead of the time. The pending tick is due no earlier
than after the intervals of all the ticks and its own, and the intervals of the ticks so far have
passed. -/
structure OnPace (created : Nat) (c : Clocked) : Prop where
  ahead : created + (c.schedule.count + c.schedule.metrics.skipped + 1) * c.schedule.interval ≤
    c.schedule.next
  elapsed : created + (c.schedule.count + c.schedule.metrics.skipped) * c.schedule.interval ≤ c.now

/-- However long the first tick is put off. -/
theorem onPace_start (config : TickConfig) (created draw : Nat) :
    OnPace created ⟨created, start config created draw⟩ where
  ahead := by
    simp only [start, interval]
    omega
  elapsed := by
    simp only [start, interval]
    omega

/-- **Every move** keeps a schedule on pace. -/
theorem OnPace.moves {c c' : Clocked} {info : Option TickInfo} (h : OnPace created c)
    (hmoves : Moves c info c') : OnPace created c' := by
  obtain ⟨hahead, helapsed⟩ := h
  cases hmoves with
  | rests time hnow => exact ⟨hahead, Nat.le_trans helapsed hnow⟩
  | finishes =>
    refine ⟨?_, ?_⟩
    · simpa only [finish_count, finish_skipped, finish_next, interval, finish_config] using hahead
    · simpa only [finish_count, finish_skipped, interval, finish_config] using helapsed
  | takes time hnow hdue =>
    have hmoved := next_add_le_nextAfter hdue
    have hpassed := next_add_skippedAt_le hdue
    -- the ticks so far, this one, and those that it gives up
    have hticks : (c.schedule.count + 1 + (c.schedule.metrics.skipped + c.schedule.skippedAt time)) *
          c.schedule.interval =
        (c.schedule.count + c.schedule.metrics.skipped + 1) * c.schedule.interval +
          c.schedule.skippedAt time * c.schedule.interval := by ring
    refine ⟨?_, ?_⟩
    · show created + (c.schedule.count + 1 + (c.schedule.metrics.skipped +
        c.schedule.skippedAt time) + 1) * c.schedule.interval ≤ c.schedule.nextAfter time
      rw [Nat.add_one_mul, hticks]
      rw [Nat.add_one_mul] at hmoved
      omega
    · show created + (c.schedule.count + 1 + (c.schedule.metrics.skipped +
        c.schedule.skippedAt time)) * c.schedule.interval ≤ time
      rw [hticks]
      omega

/-! ## Histories -/

/-- The ticks of a history are counted, those fired and those given up. -/
structure Tallies (c : Clocked) (infos : List TickInfo) (c' : Clocked) : Prop where
  config : c'.schedule.config = c.schedule.config
  count : c'.schedule.count = c.schedule.count + infos.length
  skipped : c'.schedule.metrics.skipped =
    c.schedule.metrics.skipped + (infos.map TickInfo.skipped).sum

theorem Moves.tallies {c c' : Clocked} {info : Option TickInfo} (h : Moves c info c') :
    Tallies c info.toList c' := by
  cases h with
  | rests => exact ⟨rfl, rfl, rfl⟩
  | finishes => exact ⟨finish_config _, finish_count _, finish_skipped _⟩
  | takes => exact ⟨rfl, rfl, rfl⟩

theorem Tallies.append {c c' c'' : Clocked} {infos infos' : List TickInfo}
    (h : Tallies c infos c') (h' : Tallies c' infos' c'') : Tallies c (infos ++ infos') c'' where
  config := h'.config.trans h.config
  count := by
    rw [h'.count, h.count, List.length_append, Nat.add_assoc]
  skipped := by
    rw [h'.skipped, h.skipped, List.map_append, List.sum_append, Nat.add_assoc]

theorem run_cons (c : Clocked) (op : Op) (ops : List Op) :
    c.run (op :: ops) =
      ((c.apply op).1.toList ++ ((c.apply op).2.run ops).1, ((c.apply op).2.run ops).2) := rfl

theorem tallies_run (c : Clocked) (ops : List Op) : Tallies c (c.run ops).1 (c.run ops).2 := by
  induction ops generalizing c with
  | nil => exact ⟨rfl, rfl, rfl⟩
  | cons op ops ih => exact (moves_apply c op).tallies.append (ih (c.apply op).2)

theorem OnPace.run {c : Clocked} (h : OnPace created c) (ops : List Op) :
    OnPace created (c.run ops).2 := by
  induction ops generalizing c with
  | nil => exact h
  | cons op ops ih => exact ih (h.moves (moves_apply c op))

/-- **A schedule never runs ahead of time.** Whatever the settings, however late ticks are taken,
however often waits are given up and however far the clock moves on in between: the deadline is
behind the intervals of the ticks fired, the ticks given up and the pending one, and the ticks fired
and given up, which are those that the waits have reported, are no more than the whole intervals
that have passed. -/
theorem never_ahead (config : TickConfig) (created draw : Nat) (ops : List Op) :
    let ran := Clocked.run ⟨created, start config created draw⟩ ops
    let s := ran.2.schedule
    s.interval = config.validated.interval ∧
      created + (s.count + s.metrics.skipped + 1) * s.interval ≤ s.next ∧
      created ≤ ran.2.now ∧ (s.count + s.metrics.skipped) * s.interval ≤ ran.2.now - created ∧
      s.count + s.metrics.skipped ≤ (ran.2.now - created) / s.interval ∧
      s.count = ran.1.length ∧ s.metrics.skipped = (ran.1.map TickInfo.skipped).sum := by
  intro ran s
  obtain ⟨hahead, helapsed⟩ := (onPace_start config created draw).run ops
  obtain ⟨hconfig, hcount, hskipped⟩ := tallies_run ⟨created, start config created draw⟩ ops
  have hbegun : created ≤ ran.2.now := Nat.le_trans (Nat.le_add_right _ _) helapsed
  have hpassed : (s.count + s.metrics.skipped) * s.interval ≤ ran.2.now - created :=
    (Nat.le_sub_iff_add_le' hbegun).mpr helapsed
  refine ⟨congrArg TickConfig.interval hconfig, hahead, hbegun, hpassed, ?_, ?_, ?_⟩
  · exact (Nat.le_div_iff_mul_le s.interval_pos).mpr hpassed
  · exact hcount.trans (Nat.zero_add _)
  · exact hskipped.trans (Nat.zero_add _)

end FrameSync.Tick.Schedule
