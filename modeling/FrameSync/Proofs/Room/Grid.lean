import FrameSync.Proofs.Room.TickTask
import FrameSync.Proofs.Tick.Pace

/-!
# Frames on the grid

A ticker that keeps the planned times has its ticks due at the points of a grid: one interval apart,
from the moment it was started on. How time is told to it makes no difference to that. While time
passes evenly each tick fires at its point, rounded up to a whole millisecond; after a jump all the
points that were passed fire at once, late but with the times planned for them. Either way the
frames sent so far are those whose points have been passed (`OnGrid`), and how many they are depends
on nothing but the time that has passed in all (`drop_on_grid`).

Points need not be whole milliseconds. Between a point and the millisecond it is rounded up to, time
cannot be a whole millisecond, so at whole milliseconds the rounding is not seen (`wholeMs_le_iff`).
-/

set_option autoImplicit false

namespace FrameSync

open Wire Tick

/-! ## Schedules -/

/-- An interval that has been brought into range is in range. -/
theorem Tick.TickConfig.interval_validated (c : TickConfig) :
    c.validated.validated.interval = c.validated.interval :=
  Nat.max_eq_left (Nat.le_max_right c.interval millisecond)

namespace Tick.Schedule

/-- At a whole millisecond a time has been passed exactly if its rounding has. -/
theorem wholeMs_le_iff {t now : Nat} (hnow : millisecond ∣ now) : wholeMs t ≤ now ↔ t ≤ now := by
  simp only [wholeMs, millisecond] at hnow ⊢
  omega

/-- Rounding up to a millisecond does not go back. -/
theorem le_wholeMs (t : Nat) : t ≤ wholeMs t := by
  simp only [wholeMs, millisecond]
  omega

/-- A schedule that keeps the planned times, started at `created`, with `n` ticks behind it. -/
structure AtPoint (created interval n : Nat) (s : Schedule) : Prop where
  policy : s.config.policy = .drop
  spacing : s.interval = interval
  next : s.next = created + (n + 1) * interval

theorem atPoint_start (config : TickConfig) (hdrop : config.policy = .drop) {draw : Nat}
    (hprompt : config.delay draw = 0) (created : Nat) :
    AtPoint created config.validated.interval 0 (start config created draw) where
  policy := hdrop
  spacing := rfl
  next := by
    have hdelay : config.validated.delay draw = 0 := hprompt
    rw [Nat.zero_add, Nat.one_mul]
    simp only [start, hdelay, Nat.add_zero]

/-- **A tick moves on to the next point**, however late it is. -/
theorem AtPoint.tick {created interval n : Nat} {s : Schedule} (h : AtPoint created interval n s)
    (now : Nat) : AtPoint created interval (n + 1) (s.fire now).2.finish where
  policy := by
    rw [finish_config]
    exact h.policy
  spacing := by
    rw [Schedule.interval, finish_config]
    exact h.spacing
  next := by
    have hplanned : (s.fire now).2.next = s.next + s.interval := by
      simp only [fire, nextAfter, h.policy]
    rw [finish_next, hplanned, h.next, h.spacing, Nat.add_assoc, ← Nat.succ_mul]

end Tick.Schedule

namespace Room

/-- A room that has begun is no less running after an operation than before, unless it is ticked or
closed by it or loses its last ready entry. -/
theorem Change.phase_eq {r r' : Room} {op : Op} {answer : Answer} (h : Change r op answer r')
    (hr : WellFormed r) (hbegun : r.nextFrame ≠ none) (htick : op ≠ .tick) (hclose : op ≠ .close)
    (hready : r'.ready ≠ []) : r'.phase = r.phase := by
  cases h with
  | joined player hnew hphase => exact absurd (hr.not_started (Or.inl hphase)) hbegun
  | started player conn now outcome hmember hcomplete =>
    exact absurd (hr.not_started (Or.inr hcomplete.1)) hbegun
  | ticked => exact absurd rfl htick
  | leftLast player hrunning hnone => exact absurd ((close_ready _).trans hnone) hready
  | closed => exact absurd rfl hclose
  | _ => rfl

/-- A frame that was sent, with the time at which it was due. -/
def Firing.point (f : Firing) : UInt32 × Nat := (f.frame, f.due)

namespace Slot

variable {encoder : Encoder} {s s' : Slot} {schedule : Schedule} {created interval now target n : Nat}

/-! ## What others do -/

/-- An operation of others than the ticker that neither closes the room nor ticks it. -/
def Op.Attends : Op → Prop
  | .close | .onRoom .close | .onRoom .tick | .advance _ _ => False
  | _ => True

instance (op : Op) : Decidable op.Attends := by
  unfold Op.Attends
  split <;> infer_instance

/-- As far as the ticker can see, the slot is as it was. -/
structure Undisturbed (s s' : Slot) : Prop where
  wellFormed : s'.room.WellFormed
  config : s'.room.config = s.room.config
  phase : s'.room.phase = s.room.phase
  nextFrame : s'.room.nextFrame = s.room.nextFrame
  started : s'.tickerStarted = s.tickerStarted
  ticker : s'.ticker = s.ticker

/-- An operation on the room alone. -/
theorem undisturbed_room (hwell : s.room.WellFormed) (hbegun : s.room.nextFrame ≠ none)
    {op : Room.Op} (htick : op ≠ .tick) (hclose : op ≠ .close)
    (hready : (s.room.apply op).2.ready ≠ []) :
    Undisturbed s { s with room := (s.room.apply op).2 } where
  wellFormed := wellFormed_apply hwell op
  config := (change_apply hwell op).config_eq
  phase := (change_apply hwell op).phase_eq hwell hbegun htick hclose hready
  nextFrame := by
    rcases (change_apply hwell op).nextFrame_of_ne_tick hwell htick with hnext | ⟨hnone, -⟩
    · exact hnext
    · exact absurd hnone hbegun
  started := rfl
  ticker := rfl

/-- **What others do** sends nothing and does not disturb the ticker, as long as somebody is ready
afterwards. -/
theorem undisturbed_apply (encoder : Encoder) {op : Op} (hwell : s.room.WellFormed)
    (hbegun : s.room.nextFrame ≠ none) (hstarted : s.tickerStarted = true) (hop : op.Attends)
    (hready : (s.apply encoder op).2.room.ready ≠ []) :
    (s.apply encoder op).1.firings = [] ∧ Undisturbed s (s.apply encoder op).2 := by
  rcases apply_served encoder s op with ⟨t, draw, rfl⟩ | ⟨now, target, rfl⟩ |
    ⟨hnothing, roomOp, hserved, htick, hclose⟩
  · -- the ticker is not started again
    have hsame : s.apply encoder (.spawnTicker t draw) = (.spawned false, s) := by
      simp only [Slot.apply, Slot.spawnTicker, if_pos hstarted]
    rw [hsame]
    exact ⟨rfl, hwell, rfl, rfl, rfl, rfl, rfl⟩
  · exact hop.elim
  · have hnotick : roomOp ≠ .tick := by
      intro hroomOp
      rw [htick hroomOp] at hop
      exact hop
    have hnoclose : roomOp ≠ .close := by
      intro hroomOp
      rcases hclose hroomOp with h | h
      · rw [h] at hop
        exact hop
      · rw [h] at hop
        exact hop
    refine ⟨hnothing, ?_⟩
    generalize (s.apply encoder op).2 = s' at hserved hready ⊢
    cases hserved with
    | room => exact undisturbed_room hwell hbegun hnotick hnoclose hready
    | closes hclosed hwhy => exact absurd (hwhy.resolve_left hnoclose) hready

/-! ## The ticker -/

/-- `n` frames from frame `k` on, each at its point of the grid. -/
def grid (created interval k n : Nat) : List (UInt32 × Nat) :=
  (List.range' k n).map fun i =>
    (UInt32.ofNat i, Schedule.wholeMs (created + (i + 1) * interval))

theorem grid_append (created interval k m n : Nat) :
    grid created interval k m ++ grid created interval (k + m) n =
      grid created interval k (m + n) := by
  rw [grid, grid, ← List.map_append, List.range'_append_1]
  rfl

/-- A running room at frame `n`, with a ticker that is at its point. -/
structure Going (created interval n : Nat) (s : Slot) (schedule : Schedule) : Prop where
  wellFormed : s.room.WellFormed
  started : s.tickerStarted = true
  running : s.room.phase = .running
  next : s.room.nextFrame = some n
  point : schedule.AtPoint created interval n

/-- The tick of such a room answers the frame that is next, and tells whether it is the last one. -/
theorem Going.tick {out : TickOutput} (h : Going created interval n s schedule)
    (hout : s.room.tick.1 = some out) :
    n < s.room.config.maxFrames ∧ out.broadcast.frame = UInt32.ofNat n ∧
      s.room.tick.2 = s.room.advanceFrom n ∧
      out.closed = decide (s.room.config.maxFrames ≤ n + 1) := by
  obtain ⟨frame, hnext, hlt, hframe, -, hroom⟩ := tick_eq_some h.wellFormed hout
  obtain rfl : n = frame := Option.some.inj (h.next.symm.trans hnext)
  exact ⟨hlt, hframe, hroom, closed_of_tick h.wellFormed hout hnext⟩

/-- Unless it was the last frame, the ticker goes on at the next point. -/
theorem Going.ticked {room : Room} (h : Going created interval n s schedule)
    (hroom : room = s.room.advanceFrom n) (hmore : ¬s.room.config.maxFrames ≤ n + 1) (now : Nat)
    (ticker : Option Schedule) :
    Going created interval (n + 1) { s with room, ticker } (schedule.fire now).2.finish := by
  subst hroom
  refine ⟨wellFormed_advanceFrom h.wellFormed h.running n, h.started, ?_, ?_, h.point.tick now⟩
  · show (s.room.advanceFrom n).phase = .running
    rw [advanceFrom_phase, if_neg hmore, h.running]
  · exact advanceFrom_nextFrame s.room n

/-- A tick is taken when its point has been passed. -/
theorem Going.le_wake (h : Going created interval n s schedule) (now : Nat) :
    Schedule.wholeMs (created + (n + 1) * interval) ≤ schedule.wake now := by
  rw [Schedule.wake, ← h.point.next]
  exact Nat.le_max_right _ _

/-- The frame is sent for the point. -/
theorem Going.point_eq (h : Going created interval n s schedule) {f : Firing}
    (hframe : f.frame = UInt32.ofNat n) (hdue : f.due = Schedule.wholeMs schedule.next) :
    f.point = (UInt32.ofNat n, Schedule.wholeMs (created + (n + 1) * interval)) := by
  rw [Firing.point, hframe, hdue, h.point.next]

/-- **At `now`, the frames below `n` have been sent**: the ticker has passed their points and no
other, and goes on for as long as the room has frames. It waits for a point that has not been
passed, or the room is used up. -/
structure OnGrid (created interval now n : Nat) (s : Slot) : Prop where
  wellFormed : s.room.WellFormed
  started : s.tickerStarted = true
  next : s.room.nextFrame = some n
  passed : n ≠ 0 → Schedule.wholeMs (created + n * interval) ≤ now
  pending : (∃ schedule, s.ticker = some schedule ∧ Going created interval n s schedule ∧
      now < Schedule.wholeMs schedule.next) ∨
    (s.room.phase = .closed ∧ s.ticker = none ∧ n = s.room.config.maxFrames)

/-- **A ticker that runs** sends the frames whose points it passes. -/
theorem runSchedule_grid (h : Going created interval n s schedule)
    (hpassed : n ≠ 0 → Schedule.wholeMs (created + n * interval) ≤ target) (hnow : now ≤ target) :
    ∃ m, (s.runSchedule encoder schedule now target).1.map Firing.point =
        grid created interval n m ∧
      OnGrid created interval target (n + m) (s.runSchedule encoder schedule now target).2 := by
  fun_induction runSchedule encoder s schedule now target generalizing n with
  | case1 s schedule now hdue fired ticked s₁ =>
    -- the room is running, and every tick answers a frame
    rename_i hnone
    exact absurd hnone (tick_ne_none h.wellFormed h.running)
  | case2 s schedule now hdue fired ticked s₁ out hout firing s₂ =>
    -- the last frame
    rename_i hlast
    obtain ⟨hlt, hframe, hroom, hcloses⟩ := h.tick hout
    rw [hcloses, decide_eq_true_eq] at hlast
    have hstops : s₂.stop.room = s.room.advanceFrom n := hroom
    refine ⟨1, congrArg (fun p => [p]) (h.point_eq hframe rfl), ?_⟩
    refine ⟨?_, h.started, ?_, fun _ => (h.le_wake now).trans hdue, Or.inr ⟨?_, rfl, ?_⟩⟩
    · rw [hstops]
      exact wellFormed_advanceFrom h.wellFormed h.running n
    · rw [hstops]
      exact advanceFrom_nextFrame s.room n
    · rw [hstops, advanceFrom_phase, if_pos hlast]
    · rw [hstops, advanceFrom_config]
      exact Nat.le_antisymm hlt hlast
  | case3 s schedule now hdue fired ticked s₁ out hout firing s₂ hlast later =>
    -- one frame, and then those of the points from the next one on
    rename_i ih
    obtain ⟨-, hframe, hroom, hcloses⟩ := h.tick hout
    rw [hcloses, decide_eq_true_eq] at hlast
    have hgoes : Going created interval (n + 1) s₂ fired.2.finish := h.ticked hroom hlast _ _
    obtain ⟨m, hpoints, hgrid⟩ := ih hgoes (fun _ => (h.le_wake now).trans hdue) hdue
    refine ⟨1 + m, ?_, ?_⟩
    · rw [List.map_cons, h.point_eq hframe rfl, hpoints, ← grid_append]
      rfl
    · rw [← Nat.add_assoc]
      exact hgrid
  | case4 s schedule now hwaits =>
    -- the next point is behind the target
    refine ⟨0, rfl, h.wellFormed, h.started, h.next, hpassed, Or.inl ⟨schedule, rfl, ?_, ?_⟩⟩
    · exact ⟨h.wellFormed, h.started, h.running, h.next, h.point⟩
    · rw [Schedule.wake] at hwaits
      omega

/-- Time that passes, evenly or in a jump. -/
theorem OnGrid.runTicker (h : OnGrid created interval now n s) (encoder : Encoder) {begun : Nat}
    (hbegun : now ≤ begun) (htarget : begun ≤ target) :
    ∃ m, (s.runTicker encoder begun target).1.map Firing.point = grid created interval n m ∧
      OnGrid created interval target (n + m) (s.runTicker encoder begun target).2 := by
  have hpassed : n ≠ 0 → Schedule.wholeMs (created + n * interval) ≤ target :=
    fun hn => (h.passed hn).trans (hbegun.trans htarget)
  rw [Slot.runTicker]
  rcases h.pending with ⟨schedule, hticker, hgoing, -⟩ | ⟨hclosed, hticker, hend⟩
  · rw [hticker]
    exact runSchedule_grid hgoing hpassed htarget
  · -- the room is used up
    simp only [hticker]
    exact ⟨0, rfl, h.wellFormed, h.started, h.next, hpassed, Or.inr ⟨hclosed, hticker, hend⟩⟩

/-- What does not disturb the ticker. -/
theorem OnGrid.undisturbed (h : OnGrid created interval now n s) (hs : Undisturbed s s') :
    OnGrid created interval now n s' where
  wellFormed := hs.wellFormed
  started := hs.started.trans h.started
  next := hs.nextFrame.trans h.next
  passed := h.passed
  pending := by
    rcases h.pending with ⟨schedule, hticker, hgoing, hwaits⟩ | ⟨hclosed, hticker, hend⟩
    · refine Or.inl ⟨schedule, hs.ticker.trans hticker, ?_, hwaits⟩
      exact ⟨hs.wellFormed, hs.started.trans h.started, hs.phase.trans hgoing.running,
        hs.nextFrame.trans h.next, hgoing.point⟩
    · exact Or.inr ⟨hs.phase.trans hclosed, hs.ticker.trans hticker, by rw [hs.config, hend]⟩

/-- **At a whole millisecond the frames can be counted**: there is one for each whole interval,
until there are no more. -/
theorem OnGrid.count (h : OnGrid created interval now n s) (hpos : 0 < interval)
    (hwhole : millisecond ∣ now) (hbegun : created ≤ now) :
    n = min ((now - created) / interval) s.room.config.maxFrames ∧
      (s.room.phase = .closed ↔ n = s.room.config.maxFrames) := by
  have hpassed : n ≤ (now - created) / interval := by
    rw [Nat.le_div_iff_mul_le hpos]
    by_cases hn : n = 0
    · rw [hn, Nat.zero_mul]
      exact Nat.zero_le _
    · -- at a whole millisecond the clock has passed a point only if the time has
      have hpoint := (Schedule.wholeMs_le_iff hwhole).mp (h.passed hn)
      omega
  rcases h.pending with ⟨schedule, -, hgoing, hwaits⟩ | ⟨hclosed, -, hend⟩
  · -- the next point is to come, and so is the next frame
    obtain ⟨frame, hframe, hlt⟩ := hgoing.wellFormed.in_range hgoing.running
    obtain rfl : n = frame := Option.some.inj (h.next.symm.trans hframe)
    have hnext : (now - created) / interval < n + 1 := by
      rw [Nat.div_lt_iff_lt_mul hpos]
      have hpoint := mt (Schedule.wholeMs_le_iff hwhole).mpr (Nat.not_le.mpr hwaits)
      rw [hgoing.point.next] at hpoint
      omega
    refine ⟨by omega, ?_⟩
    rw [hgoing.running]
    exact ⟨nofun, fun hn => absurd hn (Nat.ne_of_lt hlt)⟩
  · exact ⟨by omega, fun _ => hend, fun _ => hclosed⟩

/-! ## Time in steps -/

/-- What happens to a slot while its ticker is told the time: time passes evenly, the clock jumps
forward, or somebody does something else to the slot. -/
inductive Step where
  | sleep (time : Nat)
  | jump (time : Nat)
  | other (op : Op)
deriving DecidableEq, Repr

namespace Step

/-- The step as an operation, at the time it is taken. -/
def op (now : Nat) : Step → Op
  | sleep time => .advance now (now + time)
  | jump time => .advance (now + time) (now + time)
  | other op => op

/-- The time that passes with it. -/
def time : Step → Nat
  | sleep time | jump time => time
  | other _ => 0

/-- Nobody closes the room. -/
def Attends : Step → Prop
  | sleep _ | jump _ => True
  | other op => op.Attends

instance (step : Step) : Decidable step.Attends := by
  unfold Attends
  split <;> infer_instance

end Step

/-- The operations of some steps that begin at `now`. -/
def timeline (now : Nat) : List Step → List Op
  | [] => []
  | step :: steps => step.op now :: timeline (now + step.time) steps

/-- The time that passes in all. -/
def elapsed (steps : List Step) : Nat := (steps.map Step.time).sum

/-- **One step** keeps the frames on the grid. -/
theorem OnGrid.step (h : OnGrid created interval now n s) (encoder : Encoder) {step : Step}
    (hstep : step.Attends) (hready : (s.apply encoder (step.op now)).2.room.ready ≠ []) :
    ∃ m, (s.apply encoder (step.op now)).1.firings.map Firing.point = grid created interval n m ∧
      OnGrid created interval (now + step.time) (n + m) (s.apply encoder (step.op now)).2 := by
  cases step with
  | sleep time => exact h.runTicker encoder (Nat.le_refl now) (Nat.le_add_right now time)
  | jump time => exact h.runTicker encoder (Nat.le_add_right now time) (Nat.le_refl _)
  | other op =>
    have hbegun : s.room.nextFrame ≠ none := by
      rw [h.next]
      exact Option.some_ne_none n
    obtain ⟨hnothing, hs⟩ := undisturbed_apply encoder h.wellFormed hbegun h.started hstep hready
    exact ⟨0, congrArg (List.map Firing.point) hnothing, h.undisturbed hs⟩

/-- **Any steps** keep the frames on the grid. -/
theorem OnGrid.run (h : OnGrid created interval now n s) (encoder : Encoder) {steps : List Step}
    (hsteps : ∀ step ∈ steps, step.Attends)
    (hready : ∀ before, before <+: steps →
      (run encoder s (timeline now before)).2.room.ready ≠ []) :
    ∃ m, (sentFrames (run encoder s (timeline now steps)).1).map Firing.point =
        grid created interval n m ∧
      OnGrid created interval (now + elapsed steps) (n + m)
        (run encoder s (timeline now steps)).2 := by
  induction steps generalizing now n s with
  | nil => exact ⟨0, rfl, h⟩
  | cons step steps ih =>
    obtain ⟨k, hfirst, hgrid⟩ := h.step encoder (hsteps step List.mem_cons_self)
      (hready [step] (List.cons_prefix_cons.mpr ⟨rfl, List.nil_prefix⟩))
    -- the rest is counted from where this step has left off
    obtain ⟨m, hrest, hgrid'⟩ := ih hgrid (fun step' hstep' => hsteps step' (.tail step hstep'))
      fun before hbefore => hready (step :: before) (List.cons_prefix_cons.mpr ⟨rfl, hbefore⟩)
    refine ⟨k + m, ?_, ?_⟩
    · rw [← grid_append, ← hfirst, ← hrest, ← List.map_append]
      rfl
    · rw [elapsed, List.map_cons, List.sum_cons, ← Nat.add_assoc, ← Nat.add_assoc]
      exact hgrid'

/-! ## The start -/

/-- Without a ticker, a slot is stopped only with its room, by any operation -/
theorem Waiting.closed_of_apply (h : Waiting s) (encoder : Encoder) {op : Op} (hop : ¬op.Ticks)
    (hshut : s.stopped = true → s.room.phase = .closed)
    (hstopped : (s.apply encoder op).2.stopped = true) :
    (s.apply encoder op).2.room.phase = .closed := by
  rcases apply_served encoder s op with ⟨t, draw, rfl⟩ | ⟨now, target, rfl⟩ | ⟨-, roomOp, hserved, -⟩
  · exact absurd trivial hop
  · -- there is no ticker to run
    have hsame : (s.apply encoder (.advance now target)).2 = s := by
      simp only [Slot.apply, Slot.runTicker, h.ticker]
    rw [hsame] at hstopped ⊢
    exact hshut hstopped
  · generalize (s.apply encoder op).2 = s' at hserved hstopped ⊢
    cases hserved with
    | room =>
      refine Classical.byContradiction fun hopen => ?_
      exact (change_apply h.wellFormed roomOp).open_before hopen (hshut hstopped)
    | closes hclosed => exact hclosed

/-- and in any history. -/
theorem Waiting.closed_of_run (h : Waiting s) (encoder : Encoder)
    (hshut : s.stopped = true → s.room.phase = .closed) {ops : List Op}
    (hops : ∀ op ∈ ops, ¬op.Ticks) (hstopped : (Slot.run encoder s ops).2.stopped = true) :
    (Slot.run encoder s ops).2.room.phase = .closed := by
  induction ops generalizing s with
  | nil => exact hshut hstopped
  | cons op ops ih =>
    have hop := hops op List.mem_cons_self
    have hwaits : Waiting (Slot.run encoder s [op]).2 :=
      h.run fun op' hop' => List.mem_singleton.mp hop' ▸ hop
    exact ih hwaits (h.closed_of_apply encoder hop hshut)
      (fun op' hop' => hops op' (List.mem_cons_of_mem op hop')) hstopped

/-- No operation changes the settings of the room. -/
theorem apply_config (encoder : Encoder) (hwell : s.room.WellFormed) (op : Op) :
    (s.apply encoder op).2.room.WellFormed ∧
      (s.apply encoder op).2.room.config = s.room.config := by
  rcases apply_served encoder s op with ⟨t, draw, rfl⟩ | ⟨now, target, rfl⟩ | ⟨-, roomOp, hserved, -⟩
  · have hsame : (s.apply encoder (.spawnTicker t draw)).2.room = s.room := by
      show (s.spawnTicker t draw).2.room = s.room
      rw [Slot.spawnTicker]
      split <;> rfl
    rw [hsame]
    exact ⟨hwell, rfl⟩
  · obtain ⟨k, hroom, -⟩ := runTicker_spec encoder s now target
    have hticked : (s.apply encoder (.advance now target)).2.room = s.room.afterTicks k := hroom
    rw [hticked]
    exact ⟨wellFormed_run hwell _, Room.run_config hwell _⟩
  · rw [hserved.tended.room]
    exact ⟨wellFormed_apply hwell roomOp, (change_apply hwell roomOp).config_eq⟩

theorem run_config (encoder : Encoder) (hwell : s.room.WellFormed) (ops : List Op) :
    (Slot.run encoder s ops).2.room.config = s.room.config := by
  induction ops generalizing s with
  | nil => rfl
  | cons op ops ih =>
    obtain ⟨hwell', hconfig⟩ := apply_config encoder hwell op
    exact (ih hwell').trans hconfig

/-- A ticker that keeps the planned times starts at the beginning of the grid. -/
theorem Waiting.onGrid (h : Waiting s) {c : BattleConfig} (hdrop : c.tick.policy = .drop)
    (hconfig : s.room.config = c.validated) (hgoes : s.stopped = false)
    (hrunning : s.room.phase = .running) (created : Nat) {draw : Nat}
    (hprompt : c.tick.delay draw = 0) :
    OnGrid created c.tick.validated.interval created 0 (s.spawnTicker created draw).2 := by
  have hfirst : s.room.nextFrame = some 0 :=
    h.fresh.resolve_left (h.wellFormed.nextFrame_ne_none hrunning)
  have hspawn : (s.spawnTicker created draw).2 = { s with
      tickerStarted := true
      ticker := some (Schedule.start s.room.config.tick created draw) } := by
    rw [Slot.spawnTicker, h.started, hgoes]
    rfl
  have hpoint : (Schedule.start s.room.config.tick created draw).AtPoint created
      c.tick.validated.interval 0 := by
    rw [hconfig, ← c.tick.interval_validated]
    exact Schedule.atPoint_start c.validated.tick hdrop hprompt created
  rw [hspawn]
  refine ⟨h.wellFormed, rfl, hfirst, fun hn => absurd rfl hn, Or.inl ⟨_, rfl, ?_, ?_⟩⟩
  · exact ⟨h.wellFormed, rfl, hrunning, hfirst, hpoint⟩
  · -- the first point is an interval away
    have hpos := c.tick.validated_interval_pos
    refine Nat.lt_of_lt_of_le ?_ (Schedule.le_wholeMs _)
    rw [hpoint.next]
    omega

/-- **Under the policy that keeps the planned times every frame is on the grid.** The ticker of a
running room is started at `created` with a draw that does not put off its first tick, which is
every draw if there is no jitter. From then on time passes evenly or in jumps, and others do to the
slot what they like, except that nobody closes the room and somebody stays ready. Whenever a whole
millisecond is reached, the frames sent are those whose points have been passed, one for each whole
interval since the start, up to the last of the room, each of them planned for its point, however
the time was divided; and the room is closed exactly if all its frames have been sent. -/
theorem drop_on_grid (encoder : Encoder) (id : RoomId) (c : BattleConfig)
    (hdrop : c.tick.policy = .drop) (before : List Op) (hbefore : ∀ op ∈ before, ¬op.Ticks)
    (hrunning : (run encoder (ofRoom (Room.new id c) false) before).2.room.phase = .running)
    (created draw : Nat) (hprompt : c.tick.delay draw = 0) (steps : List Step)
    (hsteps : ∀ step ∈ steps, step.Attends)
    (hready : ∀ part, part <+: steps →
      (run encoder
        ((run encoder (ofRoom (Room.new id c) false) before).2.spawnTicker created draw).2
        (timeline created part)).2.room.ready ≠ [])
    (hwhole : millisecond ∣ created + elapsed steps) :
    let spawned := (run encoder (ofRoom (Room.new id c) false) before).2.spawnTicker created draw
    let ran := run encoder spawned.2 (timeline created steps)
    let n := min (elapsed steps / c.tick.validated.interval) c.validated.maxFrames
    spawned.1 = true ∧
      (sentFrames ran.1).map Firing.frame = (List.range n).map UInt32.ofNat ∧
      (sentFrames ran.1).map Firing.due = (List.range n).map (fun k =>
        Schedule.wholeMs (created + (k + 1) * c.tick.validated.interval)) ∧
      ran.2.room.nextFrame = some n ∧
      (ran.2.room.phase = .closed ↔ n = c.validated.maxFrames) := by
  intro spawned ran n
  have hwaiting : Waiting (run encoder (ofRoom (Room.new id c) false) before).2 :=
    (waiting_ofRoom id c false).run hbefore
  have hgoes : (run encoder (ofRoom (Room.new id c) false) before).2.stopped = false := by
    refine Bool.eq_false_iff.mpr fun hstopped => ?_
    have hclosed := (waiting_ofRoom id c false).closed_of_run encoder nofun hbefore hstopped
    rw [hrunning] at hclosed
    cases hclosed
  have hconfig : (run encoder (ofRoom (Room.new id c) false) before).2.room.config =
      c.validated := run_config encoder (wellFormed_new id c) before
  have hstart := hwaiting.onGrid hdrop hconfig hgoes hrunning created hprompt
  obtain ⟨m, hpoints, hgrid⟩ := hstart.run encoder hsteps hready
  rw [Nat.zero_add] at hgrid
  have hmax : ran.2.room.config = c.validated :=
    (run_config encoder hstart.wellFormed _).trans
      ((apply_config encoder hwaiting.wellFormed (.spawnTicker created draw)).2.trans hconfig)
  have hcount := hgrid.count c.tick.validated_interval_pos hwhole (Nat.le_add_right _ _)
  rw [Nat.add_sub_cancel_left, hmax] at hcount
  obtain ⟨rfl : m = n, hclosed⟩ := hcount
  refine ⟨(hwaiting.spawnTicker hrunning created draw).1, ?_, ?_, hgrid.next, hclosed⟩
  · have hframes := congrArg (List.map Prod.fst) hpoints
    rwa [grid, List.map_map, List.map_map, ← List.range_eq_range'] at hframes
  · have hdues := congrArg (List.map Prod.snd) hpoints
    rwa [grid, List.map_map, List.map_map, ← List.range_eq_range'] at hdues

/-- Ticks of 1.5 ms, planned ahead, in a room of two players with five frames. -/
def halfConfig : BattleConfig :=
  { maxPlayers := 2
    maxFrames := 5
    tick := { TickConfig.standard with
      interval := 1500 * microsecond
      policy := .drop
      jitter := 0 } }

/-- Time passes to 2 ms, 102 moves to another connection, the clock jumps to 6 ms, 101 leaves, and
time passes to 7 ms. -/
def halfSteps : List Step :=
  [.sleep (2 * millisecond), .other (.rebind ⟨102⟩ ⟨13⟩), .jump (4 * millisecond),
    .other (.disconnect ⟨101⟩), .sleep millisecond]

/-- At 7 ms four points have been passed, those at 1.5, 3, 4.5 and 6 ms, whatever has been drawn. -/
theorem drop_on_grid_half :
    let begun := (run .standard (ofRoom (Room.new ⟨10001⟩ halfConfig) false) pairReady).2
    let spawned := begun.spawnTicker 0 1729
    let ran := run .standard spawned.2 (timeline 0 halfSteps)
    halfConfig.tick.policy = .drop ∧ halfConfig.tick.delay 1729 = 0 ∧
      elapsed halfSteps = 7 * millisecond ∧
      (∀ step ∈ halfSteps, step.Attends) ∧
      (sentFrames ran.1).map Firing.frame = [0, 1, 2, 3] ∧
      (sentFrames ran.1).map Firing.due =
        [2 * millisecond, 3 * millisecond, 5 * millisecond, 6 * millisecond] ∧
      ran.2.room.nextFrame = some 4 ∧ ran.2.room.phase ≠ .closed := by
  intro begun spawned ran
  have hready : ∀ op ∈ pairReady, ¬op.Ticks := by
    simp [pairReady, Op.Ticks]
  have hsteps : ∀ step ∈ halfSteps, step.Attends := by
    decide
  have hstays : ∀ part ∈ halfSteps.inits,
      (run .standard spawned.2 (timeline 0 part)).2.room.ready ≠ [] := by
    decide +kernel
  obtain ⟨-, hframes, hdues, hnext, hclosed⟩ := drop_on_grid .standard ⟨10001⟩ halfConfig rfl pairReady
    hready (by decide +kernel) 0 1729 rfl halfSteps hsteps
    (fun part hpart => hstays part ((List.mem_inits part halfSteps).mpr hpart)) (by decide)
  exact ⟨rfl, rfl, rfl, hsteps, hframes, hdues, hnext, fun h => absurd (hclosed.mp h) (by decide)⟩

end Slot

end Room

end FrameSync
