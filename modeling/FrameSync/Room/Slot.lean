import FrameSync.Delivery
import FrameSync.Room.Basic
import FrameSync.Tick.Schedule
import FrameSync.Wire.Command

/-!
# A room and its ticker

A slot holds a room, the ticker that broadcasts its frames, and a mark that the ticker has been told
to stop. The ticker is started at most once. It stops when the room closes, when a tick finds the
room not running, or when the slot is stopped; a stopped slot never ticks again.

`runTicker` lets the ticker run from one time to another: each due tick fires when its wait ends,
and the frame goes to the members that are ready at that moment. A clock that has jumped is the
same with both times equal. Operations on the room that go around the slot (`onRoom`) leave the
mark alone; the ticker then notices at its next tick.
-/

set_option autoImplicit false

namespace FrameSync

open Wire Tick

namespace Room

/-- A room with its ticker: whether it has been told to stop, whether it has been started, and its
schedule while it runs. -/
structure Slot where
  room : Room
  stopped : Bool
  tickerStarted : Bool
  ticker : Option Schedule
deriving DecidableEq

/-- What one tick of a room sent, and when. The clock may have jumped past the time `due` at which
its wait was to end. The frame goes to each member that was ready; nothing is sent if it could not
be written. -/
structure Firing where
  room : RoomId
  time : Nat
  due : Nat
  frame : UInt32
  sent : List Delivery
deriving DecidableEq, Repr

/-- A frame, written and addressed. -/
def TickOutput.deliveries (out : TickOutput) (encoder : Encoder) : List Delivery :=
  match encoder.encode out.broadcast with
  | .error _ => []
  | .ok payload => Delivery.toEach out.recipients BattleCommand.frame.toByte payload

namespace Slot

/-- A slot for a new room; `stopped` if the room comes too late to ever tick. -/
def ofRoom (room : Room) (stopped : Bool) : Slot := ⟨room, stopped, false, none⟩

/-- Tell the ticker to stop. -/
def stop (s : Slot) : Slot := { s with stopped := true, ticker := none }

/-- Carry out an operation on the room around the slot. -/
def onRoom (s : Slot) (op : Op) : Answer × Slot :=
  let (answer, room) := s.room.apply op
  (answer, { s with room })

/-- `Room.becomeReady` through the slot. -/
def ready (s : Slot) (player : PlayerId) (conn : ConnId) (now : Nat) :
    Except RoomError (Readied × Slot) :=
  match s.room.becomeReady player conn now with
  | .error e => .error e
  | .ok (outcome, room) => .ok (outcome, { s with room })

/-- `Room.rebind` through the slot. -/
def rebind (s : Slot) (player : PlayerId) (conn : ConnId) : Bool × Slot :=
  let (done, room) := s.room.rebind player conn
  (done, { s with room })

/-- `Room.disconnect` through the slot; a room that closes with it stops ticking. -/
def disconnect (s : Slot) (player : PlayerId) : Left × Slot :=
  let (outcome, room) := s.room.disconnect player
  let s := { s with room }
  (outcome, if outcome.closed then s.stop else s)

/-- Close the room and stop the ticker. -/
def close (s : Slot) : Slot := { s with room := s.room.close }.stop

/-- Start the ticker at `now`, unless it has been started before. In a stopped slot it ends at
once. The delay of the first tick comes from `draw`, a random number. Answers whether the ticker was
started. -/
def spawnTicker (s : Slot) (now draw : Nat) : Bool × Slot :=
  if s.tickerStarted then (false, s)
  else
    (true, { s with
      tickerStarted := true
      ticker := if s.stopped then none else some (Schedule.start s.room.config.tick now draw) })

/-- Let a ticker with the given schedule run from `now` to `target`. -/
def runSchedule (encoder : Encoder) (s : Slot) (schedule : Schedule) (now target : Nat) :
    List Firing × Slot :=
  if h : schedule.wake now ≤ target then
    let fired := schedule.fire (schedule.wake now)
    let ticked := s.room.tick
    let s := { s with room := ticked.2, ticker := some fired.2 }
    match ticked.1 with
    -- Somebody closed the room around the slot, or the battle has not begun.
    | none => ([], s.stop)
    | some out =>
      let firing : Firing :=
        { room := s.room.id
          time := schedule.wake now
          due := Schedule.wholeMs schedule.next
          frame := out.broadcast.frame
          sent := out.deliveries encoder }
      let s := { s with ticker := some fired.2.finish }
      if out.closed then ([firing], s.stop)
      else
        let later := runSchedule encoder s fired.2.finish (schedule.wake now) target
        (firing :: later.1, later.2)
  else ([], { s with ticker := some schedule })
termination_by target + 1 - schedule.next
decreasing_by
  have hnext := schedule.next_le_wake now
  have hlt := schedule.next_lt_fire_next hnext
  rw [Schedule.finish_next]
  omega

/-- Let the ticker run from `now` to `target`. -/
def runTicker (encoder : Encoder) (s : Slot) (now target : Nat) : List Firing × Slot :=
  match s.ticker with
  | none => ([], s)
  | some schedule => s.runSchedule encoder schedule now target

/-! ## Histories -/

/-- An operation on a slot, on the room in it, or the passing of time from `now` to `target` with
the ticker running. -/
inductive Op where
  | ready (player : PlayerId) (conn : ConnId) (now : Nat)
  | rebind (player : PlayerId) (conn : ConnId)
  | disconnect (player : PlayerId)
  | close
  | spawnTicker (now draw : Nat)
  | onRoom (op : Room.Op)
  | advance (now target : Nat)
deriving DecidableEq, Repr

/-- What an operation on a slot answers. -/
inductive Answer where
  | room (answer : Room.Answer)
  | spawned (done : Bool)
  | advanced (firings : List Firing)
deriving DecidableEq, Repr

/-- Carry out one operation. -/
def apply (encoder : Encoder) (s : Slot) : Op → Answer × Slot
  | .ready player conn now =>
    match s.ready player conn now with
    | .error e => (.room (.refused e), s)
    | .ok (outcome, s') => (.room (.readied outcome), s')
  | .rebind player conn => let (done, s') := s.rebind player conn; (.room (.rebound done), s')
  | .disconnect player => let (outcome, s') := s.disconnect player; (.room (.left outcome), s')
  | .close => (.room .closed, s.close)
  | .spawnTicker now draw => let (done, s') := s.spawnTicker now draw; (.spawned done, s')
  | .onRoom op => let (answer, s') := s.onRoom op; (.room answer, s')
  | .advance now target =>
    let (firings, s') := s.runTicker encoder now target; (.advanced firings, s')

/-- Carry out the operations of a history in order. -/
def run (encoder : Encoder) : Slot → List Op → List Answer × Slot
  | s, [] => ([], s)
  | s, op :: ops =>
    let (answer, s') := s.apply encoder op
    let (answers, s'') := run encoder s' ops
    (answer :: answers, s'')

end Slot

end Room

end FrameSync
