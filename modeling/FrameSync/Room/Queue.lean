import FrameSync.Room.Turns

/-!
# A queue of tickers

The rota of a runtime with one thread. Tickers stand in a queue in the order in which they began to
wait. At each moment the due ones run: first the one whose wait was to end first, and of two whose
waits end together the one that stands further ahead.

A ticker that is late has several ticks to take at one moment. It takes up to `turnLength` of them
in a turn, and a round is up to `roundSize` turns. A ticker that has used up its whole turn has been
cut short: after the round it stands behind those that have had no turn yet, and of several the last
one comes first. One that has not is on time again and goes to the end of the queue
(`Runner.rounds`). A ticker that ends takes part up to its last tick, and also a tick that finds its
room not running and sends nothing is a turn. `Waiter.inTurn` goes from moment to moment, and each
moment takes some ticks (`Waiter.load_after_lt`).

This is one rota among others: runs are compared with it, and what is said of rooms and servers is
said for every rota.
-/

set_option autoImplicit false

namespace FrameSync.Room

/-- How many ticks a ticker may take before the others have their turn. -/
def turnLength : Nat := 128

/-- How many tickers have a turn before those that were cut short line up again. -/
def roundSize : Nat := 61

/-- A ticker at a moment when it is due: the ticks it takes at this moment, those it takes later,
and whether it ends with the last of them. -/
structure Runner where
  room : RoomId
  ready : List Beat
  later : List Beat
  ends : Bool
deriving DecidableEq, Repr

namespace Runner

/-- The ticks of the next turn. -/
def turn (r : Runner) : List Beat := r.ready.take turnLength

/-- Does the ticker end in the next turn? -/
def endsInTurn (r : Runner) : Bool :=
  r.ends && r.later.isEmpty && (r.ready.drop turnLength).isEmpty

/-- Is the next turn used up while the ticker goes on? -/
def full (r : Runner) : Bool := r.turn.length == turnLength && !r.endsInTurn

/-- The runner after its turn. -/
def afterTurn (r : Runner) : Runner := { r with ready := r.ready.drop turnLength }

/-- The runner once it is on time again. -/
def waiter (r : Runner) : Waiter := ⟨r.room, r.later, r.ends⟩

/-- What is left to do: the ticks that are ready, and one last turn for every runner. -/
def weight : List Runner → Nat
  | [] => 0
  | r :: rest => r.ready.length + 1 + weight rest

/-- Those of the runners that a turn cuts short, after it, the last one first. -/
def cutShort (runners : List Runner) : List Runner :=
  ((runners.filter full).map afterTurn).reverse

/-- Those that are left after a round: who had no turn yet, then who was cut short. -/
def next (runners : List Runner) : List Runner :=
  runners.drop roundSize ++ cutShort (runners.take roundSize)

/-- A full turn takes its whole length off the ticks that are ready. -/
theorem turnLength_le_of_full {r : Runner} (h : r.full = true) :
    turnLength ≤ r.ready.length := by
  simp only [full, turn, Bool.and_eq_true, beq_iff_eq, List.length_take] at h
  omega

/-- A turn that is not full takes all the ticks that are ready. -/
theorem drop_ready_of_not_full {r : Runner} (h : ¬r.full = true) :
    r.ready.drop turnLength = [] := by
  by_cases hends : r.endsInTurn = true
  · simp only [endsInTurn, Bool.and_eq_true, List.isEmpty_iff] at hends
    exact hends.2
  · simp only [full, turn, hends, Bool.not_false, Bool.and_true, beq_iff_eq,
      List.length_take] at h
    exact List.drop_eq_nil_of_le (by omega)

/-- What is left to do adds up. -/
theorem weight_append (as bs : List Runner) : weight (as ++ bs) = weight as + weight bs := by
  induction as with
  | nil => simp [weight]
  | cons r rest ih =>
    rw [List.cons_append, weight, weight, ih]
    omega

theorem weight_reverse (runners : List Runner) : weight runners.reverse = weight runners := by
  induction runners with
  | nil => rfl
  | cons r rest ih =>
    rw [List.reverse_cons, weight_append, ih]
    simp only [weight]
    omega

/-- A turn takes something off every runner. -/
theorem weight_cutShort_add_length_le (runners : List Runner) :
    weight (cutShort runners) + runners.length ≤ weight runners := by
  rw [cutShort, weight_reverse]
  induction runners with
  | nil => simp [weight]
  | cons r rest ih =>
    by_cases h : r.full = true
    · have := turnLength_le_of_full h
      simp only [List.filter_cons_of_pos h, List.map_cons, List.length_cons, weight,
        afterTurn, List.length_drop, turnLength] at *
      omega
    · simp only [List.filter_cons_of_neg h, List.length_cons, weight] at *
      omega

/-- **A round takes something off those that have a turn in it.** -/
theorem weight_next_add_length_le (runners : List Runner) :
    weight (next runners) + (runners.take roundSize).length ≤ weight runners := by
  have hturns := weight_cutShort_add_length_le (runners.take roundSize)
  have hparts := weight_append (runners.take roundSize) (runners.drop roundSize)
  rw [List.take_append_drop] at hparts
  rw [next, weight_append]
  omega

/-- Let runners take turns until all are on time again. Answers their ticks in order, and the
runners as waiters in the order in which they came to the end. -/
def rounds : List Runner → List Beat × List Waiter
  | [] => ([], [])
  | r :: rest =>
    let turns := (r :: rest).take roundSize
    let later := rounds (next (r :: rest))
    (turns.flatMap turn ++ later.1,
      (turns.filter fun r => !r.full).map waiter ++ later.2)
termination_by runners => weight runners
decreasing_by
  have := weight_next_add_length_le (r :: rest)
  simp only [roundSize, List.take_succ_cons, List.length_cons] at this
  omega

/-- Whoever has a turn is on time after it or has been cut short. -/
theorem perm_waiters_cutShort (runners : List Runner) :
    ((runners.filter fun r => !r.full).map waiter ++ (cutShort runners).map waiter).Perm
      (runners.map waiter) := by
  have hcut : (cutShort runners).map waiter = ((runners.filter full).map waiter).reverse := by
    simp [cutShort, List.map_reverse, Function.comp_def, waiter, afterTurn]
  rw [hcut]
  refine ((List.reverse_perm _).append_left _).trans ?_
  rw [← List.map_append]
  exact (List.perm_append_comm.trans (List.filter_append_perm full runners)).map _

/-- **Every runner comes to the end once.** -/
theorem perm_rounds_waiters (runners : List Runner) :
    (rounds runners).2.Perm (runners.map waiter) := by
  fun_induction rounds runners with
  | case1 => simp
  | case2 r rest turns later ih =>
    rw [next, List.map_append] at ih
    refine ((ih.trans List.perm_append_comm).append_left _).trans ?_
    rw [← List.append_assoc]
    refine ((perm_waiters_cutShort turns).append_right _).trans (.of_eq ?_)
    rw [← List.map_append, List.take_append_drop]

/-- What runners do not take in their turns is left to those that are cut short. -/
theorem flatMap_cutShort_ready (runners : List Runner) :
    ((cutShort runners).flatMap ready).Perm
      (runners.flatMap fun r => r.ready.drop turnLength) := by
  unfold cutShort
  refine (List.Perm.flatMap_right _ (List.reverse_perm _)).trans (.of_eq ?_)
  induction runners with
  | nil => rfl
  | cons r rest ih =>
    by_cases h : r.full = true
    · simp only [List.filter_cons_of_pos h, List.map_cons, List.flatMap_cons, ih, afterTurn]
    · simp only [List.filter_cons_of_neg h, List.flatMap_cons, ih, drop_ready_of_not_full h,
        List.nil_append]

/-- Two parts of every element's list, gathered apart or together. -/
theorem perm_flatMap_append {α β : Type} (f g : α → List β) (l : List α) :
    (l.flatMap f ++ l.flatMap g).Perm (l.flatMap fun a => f a ++ g a) := by
  induction l with
  | nil => simp
  | cons a rest ih =>
    simp only [List.flatMap_cons, List.append_assoc]
    refine .append_left _ ?_
    rw [← List.append_assoc]
    refine (List.perm_append_comm.append_right _).trans ?_
    rw [List.append_assoc]
    exact ih.append_left _

/-- A turn and what is left after it are the ticks that were ready. -/
theorem perm_turn_cutShort (runners : List Runner) :
    (runners.flatMap turn ++ (cutShort runners).flatMap ready).Perm (runners.flatMap ready) := by
  refine ((flatMap_cutShort_ready runners).append_left _).trans ?_
  refine (perm_flatMap_append turn (fun r => r.ready.drop turnLength) runners).trans (.of_eq ?_)
  simp only [turn, List.take_append_drop]

/-- **Every tick that is ready is taken once.** -/
theorem perm_rounds (runners : List Runner) :
    (rounds runners).1.Perm (runners.flatMap ready) := by
  fun_induction rounds runners with
  | case1 => simp
  | case2 r rest turns later ih =>
    rw [next, List.flatMap_append] at ih
    refine ((ih.trans List.perm_append_comm).append_left _).trans ?_
    rw [← List.append_assoc]
    refine ((perm_turn_cutShort turns).append_right _).trans (.of_eq ?_)
    rw [← List.flatMap_append, List.take_append_drop]

end Runner

namespace Waiter

/-- Does it take a tick at `time`? -/
def dueAt (time : Nat) (w : Waiter) : Bool :=
  match w.beats with
  | [] => false
  | beat :: _ => beat.time == time

/-- When the wait of its next tick was to end. -/
def deadline (w : Waiter) : Nat :=
  match w.beats with
  | [] => 0
  | beat :: _ => beat.due

/-- The ticker at a moment. -/
def runner (time : Nat) (w : Waiter) : Runner :=
  { room := w.room
    ready := w.beats.takeWhile fun b => b.time == time
    later := w.beats.dropWhile fun b => b.time == time
    ends := w.ends }

/-- The next moment at which a ticker of the queue is due. -/
def nextMoment (queue : List Waiter) : Option Nat :=
  (queue.filterMap fun w => w.beats.head?.map Beat.time).min?

/-- The tickers of the queue that are due at `time`, in the order in which they run. -/
def runners (time : Nat) (queue : List Waiter) : List Runner :=
  ((queue.filter (dueAt time)).mergeSort fun v w => v.deadline ≤ w.deadline).map (runner time)

/-- The queue after the moment `time`: those that were not due, then those that ran. -/
def after (time : Nat) (queue : List Waiter) : List Waiter :=
  (queue.filter fun w => !w.dueAt time) ++ (Runner.rounds (runners time queue)).2

/-- The ticks that the queue is still to take. -/
def load (queue : List Waiter) : List Beat := queue.flatMap beats

/-- The runners of a moment are the due waiters, and none takes more or less than it was going to.
-/
theorem perm_runners (time : Nat) (queue : List Waiter) :
    ((runners time queue).flatMap Runner.ready ++ (runners time queue).flatMap Runner.later).Perm
      (load (queue.filter (dueAt time))) := by
  refine (Runner.perm_flatMap_append _ _ _).trans ?_
  unfold runners
  rw [List.flatMap_map]
  simp only [runner, List.takeWhile_append_dropWhile]
  exact List.Perm.flatMap_right _ (List.mergeSort_perm _ _)

/-- **Nothing is lost when a moment passes.** -/
theorem perm_load_after (time : Nat) (queue : List Waiter) :
    ((Runner.rounds (runners time queue)).1 ++ load (after time queue)).Perm (load queue) := by
  have hlater : (load (Runner.rounds (runners time queue)).2).Perm
      ((runners time queue).flatMap Runner.later) := by
    refine (List.Perm.flatMap_right _ (Runner.perm_rounds_waiters _)).trans (.of_eq ?_)
    rw [List.flatMap_map]
    rfl
  have hafter : load (after time queue) = load (queue.filter fun w => !w.dueAt time) ++
      load (Runner.rounds (runners time queue)).2 := List.flatMap_append
  rw [hafter]
  refine ((Runner.perm_rounds _).append (hlater.append_left _)).trans ?_
  refine (List.perm_append_comm.append_left _).trans ?_
  rw [← List.append_assoc]
  refine ((perm_runners time queue).append_right _).trans (.trans (.of_eq ?_) <|
    List.Perm.flatMap_right beats (List.filter_append_perm (dueAt time) queue))
  exact List.flatMap_append.symm

/-- Somebody is due at the next moment. -/
theorem exists_dueAt {queue : List Waiter} {time : Nat} (h : nextMoment queue = some time) :
    ∃ w ∈ queue, w.dueAt time = true := by
  obtain ⟨w, hw, hhead⟩ := List.mem_filterMap.mp (List.min?_mem h)
  refine ⟨w, hw, ?_⟩
  unfold dueAt
  cases hf : w.beats with
  | nil => simp [hf] at hhead
  | cons beat rest => simpa [hf] using hhead

/-- Whoever is due takes a tick. -/
theorem runner_ready_ne_nil {time : Nat} {w : Waiter} (h : w.dueAt time = true) :
    (w.runner time).ready ≠ [] := by
  unfold dueAt at h
  cases hf : w.beats with
  | nil => simp [hf] at h
  | cons beat rest =>
    rw [hf] at h
    have htime : (beat.time == time) = true := h
    simp [runner, hf, htime]

/-- **Each moment takes some ticks.** -/
theorem load_after_lt {queue : List Waiter} {time : Nat} (h : nextMoment queue = some time) :
    (load (after time queue)).length < (load queue).length := by
  have hlength := (perm_load_after time queue).length_eq
  obtain ⟨w, hw, hdue⟩ := exists_dueAt h
  obtain ⟨beat, hbeat⟩ := List.exists_mem_of_ne_nil _ (runner_ready_ne_nil hdue)
  have hrunner : w.runner time ∈ runners time queue :=
    List.mem_map_of_mem ((List.mergeSort_perm _ _).mem_iff.mpr (List.mem_filter.mpr ⟨hw, hdue⟩))
  have hmem : beat ∈ (Runner.rounds (runners time queue)).1 :=
    (Runner.perm_rounds _).mem_iff.mpr (List.mem_flatMap.mpr ⟨_, hrunner, hbeat⟩)
  have := List.length_pos_of_mem hmem
  rw [List.length_append] at hlength
  omega

/-- Let the tickers of a queue run, moment by moment. Answers their ticks in order, and the rooms in
the order in which they wait at the end. -/
def inTurn (queue : List Waiter) : List Beat × List RoomId :=
  match h : nextMoment queue with
  | none => ([], queue.map room)
  | some time =>
    have := load_after_lt h
    let later := inTurn (after time queue)
    ((Runner.rounds (runners time queue)).1 ++ later.1, later.2)
termination_by (load queue).length

end Waiter

/-- The rota of the queue. -/
def Rota.inTurn : Rota where
  order queue :=
    let (beats, rooms) := Waiter.inTurn queue
    (beats.filterMap fun b => b.firing.map Firing.room, rooms)

end FrameSync.Room
