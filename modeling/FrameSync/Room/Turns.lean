import FrameSync.Room.Slot

/-!
# Rooms taking turns

Tickers of different rooms know nothing of each other, but they share connections, so the order in
which their ticks fire can be seen. It is not the program's to choose: it is up to the runtime that
the tickers run in. A `Rota` stands for that. It is shown the tickers that wait, each with the ticks
it is going to take, and names the room of one tick after the other. `weave` puts the firings in
this order.

Nothing is asked of a rota. Whatever rooms it names, no firing is lost or added and each room keeps
the order of its own (`perm_weave`, `filter_weave`), and every order that does so is that of some
turns (`weave_rooms`).
-/

set_option autoImplicit false

namespace FrameSync.Room

open Wire Tick

/-- One tick, as a ticker comes to it: when it is taken, when its wait was to end, and what is sent,
which is nothing if the room is not running. -/
structure Beat where
  time : Nat
  due : Nat
  firing : Option Firing
deriving DecidableEq, Repr

/-- A tick that sends a frame. -/
def Firing.beat (f : Firing) : Beat := ⟨f.time, f.due, some f⟩

/-- A ticker in the queue: its room, the ticks it is going to take, in order, and whether it ends
with the last of them. -/
structure Waiter where
  room : RoomId
  beats : List Beat
  ends : Bool
deriving DecidableEq, Repr

/-- The ticker of a room, with its ticks from `now` to `target`. A ticker that ends without sending
anything has come to one tick and found its room not running. -/
def Waiter.ofSlot? (encoder : Encoder) (now target : Nat) (room : RoomId) (s : Slot) : Option Waiter :=
  s.ticker.map fun schedule =>
    let ran := s.runSchedule encoder schedule now target
    let ends := ran.2.ticker.isNone
    { room, ends
      beats :=
        if ends && ran.1.isEmpty then [⟨schedule.wake now, Schedule.wholeMs schedule.next, none⟩]
        else ran.1.map Firing.beat }

/-- How tickers take turns: from those that wait, in the order of their queue, to the rooms of the
ticks in turn, and the rooms in the order in which they wait at the end. -/
structure Rota where
  order : List Waiter → List RoomId × List RoomId

/-- The firings in the order of the turns. A turn is of a room, and takes the next firing that the
room has left; the firings that nobody has named are the last. -/
def weave : List RoomId → List Firing → List Firing
  | [], firings => firings
  | room :: turns, firings =>
    match firings.find? fun f => f.room = room with
    | none => weave turns firings
    | some firing => firing :: weave turns (firings.eraseP fun f => f.room = room)

/-- The next firing of a room stands behind firings of other rooms only. -/
theorem exists_of_find?_room {firings : List Firing} {room : RoomId} {firing : Firing}
    (h : firings.find? (fun f => f.room = room) = some firing) :
    firing.room = room ∧ ∃ before after, (∀ f ∈ before, f.room ≠ room) ∧
      firings = before ++ firing :: after ∧
      firings.eraseP (fun f => f.room = room) = before ++ after := by
  obtain ⟨hroom, before, after, rfl, hbefore⟩ := List.find?_eq_some_iff_append.mp h
  have hothers : ∀ f ∈ before, ¬decide (f.room = room) = true := by
    simpa using hbefore
  refine ⟨of_decide_eq_true hroom, before, after, by simpa using hothers, rfl, ?_⟩
  rw [List.eraseP_append_right _ hothers]
  exact congrArg (before ++ ·) (List.eraseP_cons_of_pos hroom)

/-- Its room has it in front, and the others do not see that it is taken. -/
theorem filter_of_find?_room {firings : List Firing} {room : RoomId} {firing : Firing}
    (h : firings.find? (fun f => f.room = room) = some firing) (id : RoomId) :
    (firings.filter fun f => f.room = id) =
      (if firing.room = id then [firing] else []) ++
        (firings.eraseP fun f => f.room = room).filter fun f => f.room = id := by
  obtain ⟨hroom, before, after, hothers, hfirings, herase⟩ := exists_of_find?_room h
  rw [herase, hfirings, List.filter_append, List.filter_append, List.filter_cons]
  by_cases hid : firing.room = id
  · have hnone : before.filter (fun f => f.room = id) = [] := by
      refine List.filter_eq_nil_iff.mpr fun f hf => ?_
      rw [decide_eq_true_eq, ← hid, hroom]
      exact hothers f hf
    simp [hnone, hid]
  · simp [hid]

/-- **No firing is lost or added.** -/
theorem perm_weave (turns : List RoomId) (firings : List Firing) :
    (weave turns firings).Perm firings := by
  fun_induction weave turns firings with
  | case1 firings => exact .refl firings
  | case2 room turns firings hnone ih => exact ih
  | case3 room turns firings firing hfirst ih =>
    obtain ⟨-, before, after, -, hfirings, herase⟩ := exists_of_find?_room hfirst
    rw [herase] at ih
    rw [herase, hfirings]
    exact (ih.cons firing).trans List.perm_middle.symm

/-- **Each room keeps the order of its firings.** -/
theorem filter_weave (turns : List RoomId) (firings : List Firing) (id : RoomId) :
    ((weave turns firings).filter fun f => f.room = id) = firings.filter fun f => f.room = id := by
  fun_induction weave turns firings with
  | case1 firings => rfl
  | case2 room turns firings hnone ih => exact ih
  | case3 room turns firings firing hfirst ih =>
    rw [filter_of_find?_room hfirst, ← ih, List.filter_cons]
    by_cases hid : firing.room = id
    · simp [hid]
    · simp [hid]

/-- **Every order that keeps that of each room** comes about: let the rooms take the turns in which
they stand in it. -/
theorem weave_rooms {firings ordered : List Firing}
    (h : ∀ id, (ordered.filter fun f => f.room = id) = firings.filter fun f => f.room = id) :
    weave (ordered.map Firing.room) firings = ordered := by
  induction ordered generalizing firings with
  | nil =>
    refine List.eq_nil_iff_forall_not_mem.mpr fun f hf => ?_
    have hmine := List.filter_eq_nil_iff.mp (h f.room).symm f hf
    exact hmine (decide_eq_true rfl)
  | cons first rest ih =>
    -- the first in the order is the first of its room
    have hfirst : firings.find? (fun f => f.room = first.room) = some first := by
      rw [← List.head?_filter, ← h first.room, List.filter_cons]
      simp
    rw [List.map_cons, weave, hfirst]
    refine congrArg (first :: ·) (ih fun id => ?_)
    have hall := h id
    rw [filter_of_find?_room hfirst, List.filter_cons] at hall
    by_cases hid : first.room = id
    · simpa [hid] using hall
    · simpa [hid] using hall

end FrameSync.Room
