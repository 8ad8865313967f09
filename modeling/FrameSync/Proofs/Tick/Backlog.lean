import FrameSync.Proofs.Tick.Pace
import Mathlib.Data.List.Chain

/-!
# What becomes of late ticks

The deadline stands on a line of points one interval apart. When a tick is taken late, the points
that have been passed are either given up, which the tick reports, or still to come, because the
deadline has not moved past them. `moved_eq` counts what the deadline moves past: the point of the
tick, those given up, and under a policy that catches up also those that it would have caught up
with (`lostAt`), for with more behind than the cap it goes on from now and reports only what is
above the cap. So every point is accounted for exactly as long as no tick is more than a positive
cap behind (`accounted_iff`).

The cap does not bound how many ticks in a row are caught up with either. It is compared with what
is behind, and nobody counts: a run of ticks that each come between one interval late and the cap
goes on for as long as the clock keeps step with it (`staysLate_iff`). What bounds such a run is the
time it takes (`length_lt_elapsed`): beyond the cap each tick has had an interval to itself. Hence
the cap is only kept in a run where no more than the cap stay late in a row, and in every run only
if it is zero (`catch_up_capped_iff`).
-/

set_option autoImplicit false

namespace FrameSync.Tick.Schedule

variable {s : Schedule} {now cap : Nat}

/-! ## The ticks of a history -/

/-- A tick that was taken: the schedule in which it was pending, and when. -/
structure Taken where
  schedule : Schedule
  time : Nat

namespace Taken

/-- What the tick reports. -/
def info (t : Taken) : TickInfo := (t.schedule.fire t.time).1

/-- The schedule after it. -/
def after (t : Taken) : Schedule := (t.schedule.fire t.time).2

/-- How late it was taken. -/
def late (t : Taken) : Nat := t.schedule.lateBy t.time

/-- A tick that is pending after another one: it is due when that has planned it, and is taken no
earlier than that. -/
structure Precedes (t u : Taken) : Prop where
  due : u.schedule.next = t.after.next
  time : t.time ≤ u.time

end Taken

/-- The ticks that are taken in a history. -/
def Clocked.taken : Clocked → List Op → List Taken
  | _, [] => []
  | c, op :: ops =>
    ((c.apply op).1.map fun _ => Taken.mk c.schedule (c.apply op).2.now).toList ++
      taken (c.apply op).2 ops

/-- An operation that takes no tick leaves the deadline alone. -/
theorem Moves.rested {c c' : Clocked} (h : Moves c none c') :
    c'.schedule.config = c.schedule.config ∧ c'.schedule.next = c.schedule.next ∧ c.now ≤ c'.now := by
  cases h with
  | rests time hnow => exact ⟨rfl, rfl, hnow⟩
  | finishes => exact ⟨finish_config _, finish_next _, Nat.le_refl _⟩

/-- An operation that takes a tick takes the pending one, once it is due. -/
theorem Moves.took {c c' : Clocked} {info : TickInfo} (h : Moves c (some info) c') :
    info = (c.schedule.fire c'.now).1 ∧ c'.schedule = (c.schedule.fire c'.now).2 ∧
      c.schedule.next ≤ c'.now ∧ c.now ≤ c'.now := by
  cases h with
  | takes time hnow hdue => exact ⟨rfl, rfl, hdue, hnow⟩

/-- **The ticks of a history** report what its operations answer. -/
theorem map_info_taken (c : Clocked) (ops : List Op) :
    (c.taken ops).map Taken.info = (c.run ops).1 := by
  induction ops generalizing c with
  | nil => rfl
  | cons op ops ih =>
    have hmoves := moves_apply c op
    rw [Clocked.taken, List.map_append, ih, run_cons]
    generalize c.apply op = e at hmoves
    obtain ⟨info, c'⟩ := e
    cases info with
    | none => rfl
    | some info =>
      rw [hmoves.took.1]
      rfl

/-- Each of them was due when it was taken, and has the settings of the schedule. -/
theorem of_mem_taken {c : Clocked} {ops : List Op} {t : Taken} (ht : t ∈ c.taken ops) :
    t.schedule.config = c.schedule.config ∧ t.schedule.next ≤ t.time := by
  induction ops generalizing c with
  | nil => exact absurd ht List.not_mem_nil
  | cons op ops ih =>
    have hmoves := moves_apply c op
    rw [Clocked.taken] at ht
    generalize c.apply op = e at hmoves ht
    obtain ⟨info, c'⟩ := e
    cases info with
    | none =>
      obtain ⟨hconfig, hdue⟩ := ih ht
      exact ⟨hconfig.trans hmoves.rested.1, hdue⟩
    | some info =>
      obtain ⟨-, hafter, hpending, -⟩ := hmoves.took
      rcases List.mem_cons.mp ht with rfl | ht
      · exact ⟨rfl, hpending⟩
      · obtain ⟨hconfig, hdue⟩ := ih ht
        exact ⟨hconfig.trans (by rw [hafter]; rfl), hdue⟩

/-- The first of them is the one that is pending, and each of them plans the next. -/
theorem chain_taken (c : Clocked) (ops : List Op) :
    (∀ t ∈ (c.taken ops).head?, t.schedule.next = c.schedule.next ∧ c.now ≤ t.time) ∧
      List.IsChain Taken.Precedes (c.taken ops) := by
  induction ops generalizing c with
  | nil => exact ⟨fun t ht => absurd ht (Option.not_mem_none t), List.IsChain.nil⟩
  | cons op ops ih =>
    have hmoves := moves_apply c op
    rw [Clocked.taken]
    generalize c.apply op = e at hmoves
    obtain ⟨info, c'⟩ := e
    obtain ⟨hfirst, hchain⟩ := ih c'
    cases info with
    | none =>
      obtain ⟨-, hnext, hnow⟩ := hmoves.rested
      refine ⟨fun t ht => ?_, hchain⟩
      obtain ⟨hdue, htime⟩ := hfirst t ht
      exact ⟨hdue.trans hnext, hnow.trans htime⟩
    | some info =>
      -- the tick that is taken now was the pending one, and the others go on from what it has planned
      obtain ⟨-, hafter, -, hnow⟩ := hmoves.took
      refine ⟨fun t ht => ?_, List.isChain_cons.mpr ⟨fun u hu => ?_, hchain⟩⟩
      · rw [← Option.some.inj ht]
        exact ⟨rfl, hnow⟩
      · obtain ⟨hdue, htime⟩ := hfirst u hu
        exact ⟨hdue.trans (congrArg next hafter), htime⟩

/-- So does any part of a history. -/
theorem of_infix_taken {c : Clocked} {ops : List Op} {block : List Taken}
    (hblock : block <:+: c.taken ops) :
    (∀ t ∈ block, t.schedule.config = c.schedule.config) ∧ List.IsChain Taken.Precedes block :=
  ⟨fun _ ht => (of_mem_taken (hblock.subset ht)).1, List.IsChain.infix (chain_taken c ops).2 hblock⟩

/-! ## Accounting for the points that are passed -/

/-- What a tick gives up without reporting it: with more behind than the cap, the ticks that the cap
allows to catch up with are not caught up with either. -/
def lostAt (s : Schedule) (now : Nat) : Nat :=
  match s.config.policy with
  | .catchUp cap => if cap < s.behind now then cap else 0
  | .skip | .drop => 0

/-- A tick that is an interval late is late enough to be noticed. -/
theorem overrun_of_interval_le (h : s.interval ≤ s.lateBy now) : s.overrun now = true := by
  have hpos : 0 < s.interval := s.interval_pos
  refine decide_eq_true ?_
  omega

/-- So a tick that is not noticed is not a whole interval behind. -/
theorem behind_eq_zero (h : s.overrun now = false) : s.behind now = 0 := by
  refine Nat.div_eq_of_lt (Nat.lt_of_not_le fun hle => ?_)
  rw [overrun_of_interval_le hle] at h
  cases h

/-- Going on from now passes all that is behind. -/
theorem now_add_interval_sub_div (hdue : s.next ≤ now) :
    (now + s.interval - s.next) / s.interval = s.behind now + 1 := by
  have hpos : 0 < s.interval := s.interval_pos
  have hmoved : now + s.interval - s.next = s.lateBy now + s.interval := by
    rw [lateBy]
    omega
  rw [hmoved, Nat.add_div_right _ hpos, behind]

theorem next_add_interval_sub_div (s : Schedule) :
    (s.next + s.interval - s.next) / s.interval = 1 := by
  have hpos : 0 < s.interval := s.interval_pos
  rw [Nat.add_sub_cancel_left, Nat.div_self hpos]

/-- **What the deadline moves past:** the point of the tick, those given up, and those lost. -/
theorem moved_eq (hdue : s.next ≤ now) :
    (s.nextAfter now - s.next) / s.interval = 1 + s.skippedAt now + s.lostAt now := by
  unfold nextAfter skippedAt lostAt
  cases s.config.policy with
  | skip =>
    simp only
    rw [now_add_interval_sub_div hdue]
    by_cases hlate : s.overrun now = true
    · rw [if_pos hlate]
      omega
    · -- a tick that is on time gives up nothing, and nothing is behind it
      rw [if_neg hlate, behind_eq_zero (Bool.eq_false_iff.mpr hlate)]
  | catchUp cap =>
    simp only
    by_cases hbehind : cap < s.behind now
    · -- too much is behind, so the tick has been noticed
      have hlate : s.overrun now = true := by
        refine Classical.byContradiction fun hnot => ?_
        rw [behind_eq_zero (Bool.eq_false_iff.mpr hnot)] at hbehind
        omega
      rw [if_pos ⟨hlate, hbehind⟩, if_pos hlate, if_pos hbehind, now_add_interval_sub_div hdue]
      omega
    · rw [if_neg fun h => hbehind h.2, if_neg hbehind, next_add_interval_sub_div]
      split <;> omega
  | drop => exact next_add_interval_sub_div s

/-- A tick loses nothing unless it is more than a positive cap behind. -/
theorem lostAt_eq_zero_iff : s.lostAt now = 0 ↔
    ∀ cap, s.config.policy = .catchUp cap → cap < s.behind now → cap = 0 := by
  unfold lostAt
  cases s.config.policy with
  | skip => simp
  | drop => simp
  | catchUp cap => simp

/-- **Every point is accounted for, unless a tick is more than a positive cap behind.** Whatever the
settings, and whenever ticks are waited for and taken: a tick is taken when it is due, reports what
the history answers, and adds what it gives up to the total. It moves the deadline past its own
point, past those it reports as given up, and past those it loses. These are none, so that the
deadline moves by one more than what is given up, and by less than one interval beyond, exactly if
the policy does not catch up, or its cap is zero or not exceeded. -/
theorem accounted_iff (config : TickConfig) (created draw : Nat) (ops : List Op) (t : Taken)
    (ht : t ∈ Clocked.taken ⟨created, start config created draw⟩ ops) :
    let interval := config.validated.interval
    let moved := t.after.next - t.schedule.next
    let behind := (t.time - t.schedule.next) / interval
    t.info ∈ (Clocked.run ⟨created, start config created draw⟩ ops).1 ∧
      t.schedule.next ≤ t.time ∧ t.schedule.next < t.after.next ∧
      t.after.metrics.skipped = t.schedule.metrics.skipped + t.info.skipped ∧
      moved / interval = 1 + t.info.skipped + t.schedule.lostAt t.time ∧
      (moved / interval = 1 + t.info.skipped ↔
        ∀ cap, config.policy = .catchUp cap → cap < behind → cap = 0) := by
  intro interval moved behind
  obtain ⟨hconfig, hdue⟩ := of_mem_taken ht
  have hinterval : t.schedule.interval = interval := congrArg TickConfig.interval hconfig
  have hpolicy : t.schedule.config.policy = config.policy :=
    (congrArg TickConfig.policy hconfig).trans rfl
  have hmoved : moved / interval = 1 + t.info.skipped + t.schedule.lostAt t.time := by
    rw [← hinterval]
    exact moved_eq hdue
  have hinfo : t.info ∈ (Clocked.run ⟨created, start config created draw⟩ ops).1 := by
    rw [← map_info_taken]
    exact List.mem_map_of_mem ht
  have hlost : t.schedule.lostAt t.time = 0 ↔
      ∀ cap, config.policy = .catchUp cap → cap < behind → cap = 0 := by
    rw [lostAt_eq_zero_iff, hpolicy, Schedule.behind, hinterval]
    rfl
  refine ⟨hinfo, hdue, next_lt_fire_next _ hdue, rfl, hmoved, ?_⟩
  rw [hmoved, ← hlost]
  omega

/-- Stock settings that catch up, without jitter. -/
def catchingUp (cap : Nat) : TickConfig :=
  { TickConfig.standard with policy := .catchUp cap, jitter := 0 }

/-- Two ticks with a pause of some milliseconds between them. -/
def pausing (pause : Nat) : List Op := [.wait 0, .pass (pause * millisecond), .wait 0]

theorem accounted_within_cap :
    ∃ t ∈ Clocked.taken ⟨0, start (catchingUp 5) 0 0⟩ (pausing 100),
      t.time - t.schedule.next = 67 * millisecond ∧ t.info.skipped = 0 ∧
        (t.after.next - t.schedule.next) / (catchingUp 5).validated.interval = 1 + t.info.skipped := by
  have ht := List.get_mem (Clocked.taken ⟨0, start (catchingUp 5) 0 0⟩ (pausing 100)) ⟨1, by decide⟩
  obtain ⟨-, -, -, -, -, haccounted⟩ := accounted_iff (catchingUp 5) 0 0 (pausing 100) _ ht
  refine ⟨_, ht, by decide, by decide, haccounted.mpr fun cap hcap hbehind => ?_⟩
  -- two intervals are behind, and the cap is 5
  rw [← TickPolicy.catchUp.inj hcap] at hbehind
  exact absurd hbehind (by decide)

/-- **Two of the four points are reported when three are behind with a cap of one.** The tick that
is due at 66 ms is taken at 166 ms and says that two are given up. The next deadline is at 199 ms,
so the one that the cap still allows is gone. -/
theorem lost_above_cap :
    ∃ t ∈ Clocked.taken ⟨0, start (catchingUp 1) 0 0⟩ (pausing 133),
      t.schedule.next = 66 * millisecond ∧ t.time = 166 * millisecond ∧ t.info.skipped = 2 ∧
        t.after.next = 199 * millisecond ∧
        (t.after.next - t.schedule.next) / (catchingUp 1).validated.interval ≠ 1 + t.info.skipped :=
  ⟨_, List.get_mem (Clocked.taken ⟨0, start (catchingUp 1) 0 0⟩ (pausing 133)) ⟨1, by decide⟩,
    by decide, by decide, by decide, by decide, by decide⟩

/-! ## Catching up -/

/-- A tick that catches up: it is taken at least an interval late, and gives nothing up. -/
def Taken.CatchesUp (t : Taken) : Prop := t.schedule.interval ≤ t.late ∧ t.info.skipped = 0

instance (t : Taken) : Decidable t.CatchesUp := instDecidableAnd

/-- No more ticks in a row than the cap catch up. -/
def Capped (cap : Nat) (taken : List Taken) : Prop :=
  ∀ block, block <:+: taken → block.length = cap + 1 → ¬∀ t ∈ block, t.CatchesUp

/-- The times stay between one interval and the cap behind a deadline that moves on by one interval
from each to the next. -/
def StaysLate (interval cap : Nat) : Nat → List Nat → Prop
  | _, [] => True
  | due, time :: times =>
    (due + interval ≤ time ∧ time < due + (cap + 1) * interval) ∧
      StaysLate interval cap (due + interval) times

section

variable {settings : TickConfig} {t first last : Taken} {rest : List Taken}

/-- Under a policy that catches up, a tick does so if it is one interval late, or more up to the
cap. -/
theorem catchesUp_iff (hconfig : t.schedule.config = settings) (hpolicy : settings.policy = .catchUp cap) :
    t.CatchesUp ↔ t.schedule.next + settings.interval ≤ t.time ∧
      t.time < t.schedule.next + (cap + 1) * settings.interval := by
  subst hconfig
  have hpos : 0 < t.schedule.config.interval := t.schedule.interval_pos
  have hlate : t.late = t.time - t.schedule.next := rfl
  have hskipped : t.schedule.config.interval ≤ t.late →
      (t.info.skipped = 0 ↔ t.late < (cap + 1) * t.schedule.config.interval) := by
    intro h
    have hinfo : t.info.skipped = t.late / t.schedule.config.interval - cap := by
      show t.schedule.skippedAt t.time = _
      simp only [skippedAt, hpolicy, if_pos (overrun_of_interval_le h)]
      rfl
    rw [hinfo, Nat.sub_eq_zero_iff_le, ← Nat.lt_succ_iff, Nat.div_lt_iff_lt_mul hpos]
  rw [Taken.CatchesUp, interval]
  constructor
  · rintro ⟨hinterval, hnone⟩
    have hcap := (hskipped hinterval).mp hnone
    omega
  · rintro ⟨hinterval, hcap⟩
    have hbehind : t.schedule.config.interval ≤ t.late := by omega
    exact ⟨hbehind, (hskipped hbehind).mpr (by omega)⟩

/-- A tick that catches up moves the deadline on by one interval. -/
theorem after_next_of_catchesUp (hconfig : t.schedule.config = settings)
    (hpolicy : settings.policy = .catchUp cap) (h : t.CatchesUp) :
    t.after.next = t.schedule.next + settings.interval := by
  subst hconfig
  have hskipped : t.schedule.behind t.time - cap = 0 := by
    have hnone : t.schedule.skippedAt t.time = 0 := h.2
    simpa only [skippedAt, hpolicy, if_pos (overrun_of_interval_le h.1)] using hnone
  show t.schedule.nextAfter t.time = _
  simp only [nextAfter, hpolicy]
  rw [if_neg fun hmore => by omega]
  rfl

/-- **Ticks in a row catch up exactly if they stay late.** All that counts is the deadline of the
first and the times. -/
theorem staysLate_iff (hpolicy : settings.policy = .catchUp cap)
    (hconfig : ∀ t ∈ first :: rest, t.schedule.config = settings)
    (hchain : List.IsChain Taken.Precedes (first :: rest)) :
    (∀ t ∈ first :: rest, t.CatchesUp) ↔
      StaysLate settings.interval cap first.schedule.next ((first :: rest).map Taken.time) := by
  induction rest generalizing first with
  | nil =>
    rw [List.forall_mem_singleton, List.map_singleton, StaysLate, StaysLate, and_true]
    exact catchesUp_iff (hconfig first List.mem_cons_self) hpolicy
  | cons second rest ih =>
    obtain ⟨hprecedes, hrest⟩ := List.isChain_cons_cons.mp hchain
    have hfirst := hconfig first List.mem_cons_self
    rw [List.forall_mem_cons, List.map_cons, StaysLate, ← catchesUp_iff hfirst hpolicy]
    refine and_congr_right fun hup => ?_
    -- the first one has moved the deadline on to where the others stay late from
    have hdue := hprecedes.due.trans (after_next_of_catchesUp hfirst hpolicy hup)
    rw [ih (fun t ht => hconfig t (List.mem_cons_of_mem first ht)) hrest, hdue]

/-- Times that stay late end as many intervals after the deadline as there are. -/
theorem StaysLate.le_last {interval due : Nat} {times : List Nat}
    (h : StaysLate interval cap due times) :
    ∀ time ∈ times.getLast?, due + times.length * interval ≤ time := by
  induction times generalizing due with
  | nil => exact fun time htime => absurd htime (Option.not_mem_none time)
  | cons first rest ih =>
    obtain ⟨⟨hfirst, -⟩, hrest⟩ := h
    -- the last time is that of the rest, unless there is no rest
    cases rest with
    | nil =>
      intro time htime
      rw [← Option.some.inj htime, List.length_singleton, Nat.one_mul]
      exact hfirst
    | cons second rest =>
      intro time htime
      have hlast := ih hrest time htime
      rw [List.length_cons, Nat.add_one_mul]
      omega

/-- **Beyond the cap each tick in a row has an interval to itself.** -/
theorem length_lt_elapsed (hpolicy : settings.policy = .catchUp cap)
    (hconfig : ∀ t ∈ first :: rest, t.schedule.config = settings)
    (hchain : List.IsChain Taken.Precedes (first :: rest)) (h : ∀ t ∈ first :: rest, t.CatchesUp)
    (hlast : last ∈ (first :: rest).getLast?) :
    (rest.length + 1) * settings.interval <
      last.time - first.time + (cap + 1) * settings.interval := by
  have hlate := (staysLate_iff hpolicy hconfig hchain).mp h
  have hfirst := hlate.1.2
  have htime : last.time ∈ ((first :: rest).map Taken.time).getLast? := by
    rw [List.getLast?_map]
    exact Option.mem_map_of_mem Taken.time hlast
  have hend := hlate.le_last last.time htime
  rw [List.length_map, List.length_cons] at hend
  omega

/-- A wait for a tick that is a millisecond late or more is over at once. -/
theorem wake_of_late (h : s.next + millisecond ≤ now) : s.wake now = now := by
  simp only [wake, wholeMs, millisecond] at h ⊢
  omega

/-- Ticks whose work takes some time each. -/
def working (time : Nat) : Nat → List Op
  | 0 => []
  | n + 1 => .wait 0 :: .pass time :: working time n

/-- **Work that takes an interval each time** goes on catching up, if it begins one interval late.
-/
theorem taken_working (hpolicy : settings.policy = .catchUp cap) (hcap : 0 < cap)
    (hinterval : millisecond ≤ settings.interval) {c : Clocked} (hconfig : c.schedule.config = settings)
    (hlate : c.now = c.schedule.next + settings.interval) (n : Nat) :
    (c.taken (working settings.interval n)).length = n ∧
      ∀ t ∈ c.taken (working settings.interval n), t.CatchesUp := by
  induction n generalizing c with
  | zero => exact ⟨rfl, fun t ht => absurd ht List.not_mem_nil⟩
  | succ n ih =>
    have hwake : c.schedule.wake c.now = c.now := wake_of_late (by omega)
    -- one interval is no more than a positive cap
    have hup : (Taken.mk c.schedule c.now).CatchesUp := by
      refine (catchesUp_iff hconfig hpolicy).mpr ⟨Nat.le_of_eq hlate.symm, ?_⟩
      show c.now < c.schedule.next + (cap + 1) * settings.interval
      have hmore : 2 * settings.interval ≤ (cap + 1) * settings.interval :=
        Nat.mul_le_mul_right _ (by omega)
      simp only [millisecond] at hinterval
      omega
    have hmoved : (c.schedule.fire c.now).2.next = c.schedule.next + settings.interval :=
      after_next_of_catchesUp (t := ⟨c.schedule, c.now⟩) hconfig hpolicy hup
    -- the work takes as long as the deadline moves on by
    have hnext : c.now + settings.interval =
        (c.schedule.fire c.now).2.next + settings.interval := by
      rw [hmoved, hlate]
    have hrest := ih (c := ⟨c.now + settings.interval, (c.schedule.fire c.now).2⟩) hconfig hnext
    have htaken : c.taken (working settings.interval (n + 1)) = ⟨c.schedule, c.now⟩ ::
        Clocked.taken ⟨c.now + settings.interval, (c.schedule.fire c.now).2⟩
          (working settings.interval n) := by
      simp only [working, Clocked.taken, Clocked.apply, hwake, Nat.add_zero]
      rfl
    rw [htaken, List.length_cons, List.forall_mem_cons]
    exact ⟨congrArg (· + 1) hrest.1, hup, hrest.2⟩

/-- So a schedule with a positive cap can go on catching up for as many ticks as one likes. -/
theorem exists_taken_catchesUp (hpolicy : settings.policy = .catchUp cap) (hcap : 0 < cap)
    (hinterval : millisecond ≤ settings.interval) {c : Clocked} (hconfig : c.schedule.config = settings)
    (hnow : c.now ≤ c.schedule.next + settings.interval) (n : Nat) :
    ∃ ops, (c.taken ops).length = n ∧ ∀ t ∈ c.taken ops, t.CatchesUp := by
  let pause := c.schedule.next + settings.interval - c.now
  have hlate : c.now + pause = c.schedule.next + settings.interval := Nat.add_sub_cancel' hnow
  have htaken := taken_working (c := ⟨c.now + pause, c.schedule⟩) hpolicy hcap hinterval hconfig hlate n
  exact ⟨.pass pause :: working settings.interval n, htaken⟩

/-- **The cap is kept in a history** in which no more ticks in a row stay late. -/
theorem capped_iff {c : Clocked} (hpolicy : c.schedule.config.policy = .catchUp cap) (ops : List Op) :
    Capped cap (c.taken ops) ↔
      ∀ first rest, first :: rest <:+: c.taken ops → rest.length = cap →
        ¬StaysLate c.schedule.interval cap first.schedule.next ((first :: rest).map Taken.time) := by
  have hlate : ∀ {first rest}, first :: rest <:+: c.taken ops →
      ((∀ t ∈ first :: rest, t.CatchesUp) ↔ StaysLate c.schedule.interval cap
        first.schedule.next ((first :: rest).map Taken.time)) := by
    intro first rest hblock
    obtain ⟨hconfig, hchain⟩ := of_infix_taken hblock
    exact staysLate_iff hpolicy hconfig hchain
  constructor
  · intro hcapped first rest hblock hlength hstays
    exact hcapped _ hblock (congrArg (· + 1) hlength) ((hlate hblock).mpr hstays)
  · intro hnever block hblock hlength hall
    obtain ⟨first, rest, rfl⟩ := List.exists_cons_of_length_eq_add_one hlength
    exact hnever first rest hblock (Nat.succ.inj hlength) ((hlate hblock).mp hall)

/-- With a cap of zero nothing is caught up with: an interval late is more than nothing behind. -/
theorem capped_zero {c : Clocked} (hpolicy : c.schedule.config.policy = .catchUp 0) (ops : List Op) :
    Capped 0 (c.taken ops) := by
  intro block hblock hlength hall
  obtain ⟨first, rest, rfl⟩ := List.exists_cons_of_length_eq_add_one hlength
  have hconfig := (of_infix_taken hblock).1 first List.mem_cons_self
  have hfirst := (catchesUp_iff hconfig hpolicy).mp (hall first List.mem_cons_self)
  omega

end

/-- **The cap bounds what is behind, not how long a schedule catches up.** Take any settings, with a
policy that catches up with at most `cap` ticks. In a history no more than `cap` ticks in a row
catch up exactly if no more than that stay late. Ticks in a row that do catch up are no more than
the cap when no time passes, and one more for each interval that begins meanwhile. With a positive
cap there is a history of any number of ticks that all catch up, so every history keeps the cap
exactly if it is zero. -/
theorem catch_up_capped_iff (config : TickConfig) (cap created draw : Nat) :
    let settings := { config with policy := .catchUp cap }
    let interval := settings.validated.interval
    let begun : Clocked := ⟨created, start settings created draw⟩
    (∀ ops, (begun.taken ops).map Taken.info = (begun.run ops).1) ∧
      (∀ ops, Capped cap (begun.taken ops) ↔
        ∀ first rest, first :: rest <:+: begun.taken ops → rest.length = cap →
          ¬StaysLate interval cap first.schedule.next ((first :: rest).map Taken.time)) ∧
      (∀ ops first rest, first :: rest <:+: begun.taken ops → (∀ t ∈ first :: rest, t.CatchesUp) →
        ∀ last ∈ (first :: rest).getLast?,
          (rest.length + 1) * interval < last.time - first.time + (cap + 1) * interval) ∧
      (0 < cap → ∀ n, ∃ ops, (begun.taken ops).length = n ∧ ∀ t ∈ begun.taken ops, t.CatchesUp) ∧
      ((∀ ops, Capped cap (begun.taken ops)) ↔ cap = 0) := by
  intro settings interval begun
  have hpolicy : settings.validated.policy = .catchUp cap := rfl
  have hendless : 0 < cap →
      ∀ n, ∃ ops, (begun.taken ops).length = n ∧ ∀ t ∈ begun.taken ops, t.CatchesUp := by
    intro hcap
    have hnow : created ≤ created + interval + settings.validated.delay draw + interval := by omega
    exact exists_taken_catchesUp hpolicy hcap (Nat.le_max_right _ _) rfl hnow
  refine ⟨map_info_taken begun, capped_iff hpolicy, ?_, hendless, ?_, ?_⟩
  · intro ops first rest hblock hall last hlast
    obtain ⟨hconfig, hchain⟩ := of_infix_taken hblock
    exact length_lt_elapsed hpolicy hconfig hchain hall hlast
  · intro hcapped
    refine Nat.eq_zero_of_not_pos fun hcap => ?_
    -- one tick more than the cap allows
    obtain ⟨ops, hlength, hall⟩ := hendless hcap (cap + 1)
    exact hcapped ops _ List.infix_rfl hlength hall
  · intro hzero ops
    subst hzero
    exact capped_zero hpolicy ops

/-- A schedule with a cap of one, whose second tick comes an interval late and takes one to work on.
-/
def lateTwice : List Taken :=
  Clocked.taken ⟨0, start (catchingUp 1) 0 0⟩ (pausing 66 ++ [.pass (33 * millisecond), .wait 0])

/-- **With a cap of one two ticks in a row catch up:** the second tick, due at 66 ms and taken at 99
ms, and the third, due at 99 ms and taken at 132 ms. -/
theorem uncapped_twice :
    lateTwice.map Taken.time = [33 * millisecond, 99 * millisecond, 132 * millisecond] ∧
      lateTwice.map Taken.late = [0, 33 * millisecond, 33 * millisecond] ∧
      lateTwice.map (fun t => t.info.skipped) = [0, 0, 0] ∧ ¬Capped 1 lateTwice := by
  refine ⟨by decide, by decide, by decide, fun hcapped => ?_⟩
  exact hcapped (lateTwice.drop 1) (List.drop_suffix 1 lateTwice).isInfix (by decide) (by decide)

end FrameSync.Tick.Schedule
