import FrameSync.Room.Turns

/-!
# All rooms of a server

The registry numbers rooms upward from a base, keeps the slot of each, and drops the stopped ones
when asked to. Numbers are never used again. After `shutdown` every room is closed and every
ticker stopped, and a room created later is stopped from the start.

`advance` lets the tickers of all rooms run from one time to another. Each room ticks on its own,
and the order of the ticks of different rooms is whatever the `Rota` of the registry makes it. `Op`
and `run` are a history of operations.
-/

set_option autoImplicit false

namespace FrameSync

open Wire Tick

/-- The rooms of a server. The first room gets the number after `base`; `config` is that of every
room, validated; `created` counts the rooms so far, and `rooms` has those that are tracked. `queue`
has the rooms whose tickers wait, in the order in which they began to; a room whose ticker has ended
may stand here until time passes. -/
structure Registry where
  base : UInt32
  config : BattleConfig
  created : Nat
  rooms : Table RoomId Room.Slot
  queue : List RoomId
  rota : Room.Rota
  stopped : Bool

namespace Registry

/-- A registry without rooms. -/
def new (base : UInt32) (config : BattleConfig) (rota : Room.Rota) : Registry :=
  ⟨base, config.validated, 0, Table.empty, [], rota, false⟩

/-- The number of the `n`-th room. -/
def roomId (r : Registry) (n : Nat) : RoomId := ⟨UInt32.ofNat (r.base.toNat + n)⟩

/-- Create an empty room. Answers its number. -/
def create (r : Registry) : RoomId × Registry :=
  let id := r.roomId (r.created + 1)
  (id, { r with
    created := r.created + 1
    rooms := r.rooms.insert id (Room.Slot.ofRoom (Room.new id r.config) r.stopped) })

/-- The slot of a tracked room. -/
def get (r : Registry) (id : RoomId) : Except RoomError Room.Slot :=
  match r.rooms.get? id with
  | none => .error (.notFound id)
  | some slot => .ok slot

/-- The queue, with a room at its end if the ticker of its slot has just begun to wait. -/
def queueWith (r : Registry) (id : RoomId) (slot : Room.Slot) : List RoomId :=
  if slot.ticker.isSome && !r.queue.contains id then r.queue ++ [id] else r.queue

/-- Put back the slot of a tracked room. -/
def put (r : Registry) (id : RoomId) (slot : Room.Slot) : Registry :=
  { r with
    rooms := r.rooms.update id fun _ => slot
    queue := r.queueWith id slot }

/-- Close a room and stop its ticker; it stays tracked. -/
def close (r : Registry) (id : RoomId) : Except RoomError Registry :=
  match r.get id with
  | .error e => .error e
  | .ok slot => .ok (r.put id slot.close)

/-- Drop every stopped slot. Answers what was dropped. -/
def reclaim (r : Registry) : Table RoomId Room.Slot × Registry :=
  (r.rooms.filter fun _ s => s.stopped,
    { r with rooms := r.rooms.filter fun _ s => !s.stopped })

/-- The numbers of the tracked rooms, ascending. -/
def ids (r : Registry) : List RoomId := r.rooms.keys

/-- The number of tracked rooms. -/
def count (r : Registry) : Nat := r.rooms.size

/-- Close every room and stop every ticker, for good. -/
def shutdown (r : Registry) : Registry :=
  { r with rooms := r.rooms.mapValues Room.Slot.close, stopped := true }

/-! ## Time -/

/-- Waiters in the order of the queue; those whose rooms do not stand in it come last. -/
def inQueueOrder (queue : List RoomId) (waiters : List Room.Waiter) : List Room.Waiter :=
  ((waiters.map fun w => (queue.idxOf w.room, w)).mergeSort fun a b => a.1 ≤ b.1).map Prod.snd

/-- The tickers that wait, in the order of the queue, with their ticks from `now` to `target`. -/
def waiters (encoder : Encoder) (r : Registry) (now target : Nat) : List Room.Waiter :=
  inQueueOrder r.queue <|
    r.rooms.entries.filterMap fun e => Room.Waiter.ofSlot? encoder now target e.1 e.2

/-- The ticks from `now` to `target` that send a frame, room by room. -/
def firings (encoder : Encoder) (r : Registry) (now target : Nat) : List Room.Firing :=
  r.rooms.entries.flatMap fun e => (e.2.runTicker encoder now target).1

/-- Let every ticker run from `now` to `target`. Answers the ticks that sent a frame, in the order
in which the tickers take turns. -/
def advance (encoder : Encoder) (r : Registry) (now target : Nat) : List Room.Firing × Registry :=
  let (turns, queue) := r.rota.order (r.waiters encoder now target)
  (Room.weave turns (r.firings encoder now target), { r with
    rooms := r.rooms.mapValues fun s => (s.runTicker encoder now target).2
    queue })

/-! ## Histories -/

/-- An operation on a registry, on the slot of a tracked room, or the passing of time from `now` to
`target`. -/
inductive Op where
  | create
  | get (id : RoomId)
  | close (id : RoomId)
  | reclaim
  | shutdown
  | onSlot (id : RoomId) (op : Room.Slot.Op)
  | advance (now target : Nat)
deriving DecidableEq, Repr

/-- What an operation answers. -/
inductive Answer where
  | created (id : RoomId)
  | refused (error : RoomError)
  | found (slot : Room.Slot)
  | closed
  | reclaimed (removed : Nat)
  | shut
  | onSlot (answer : Room.Slot.Answer)
  | advanced (firings : List Room.Firing)

/-- Carry out one operation. -/
def apply (encoder : Encoder) (r : Registry) : Op → Answer × Registry
  | .create => let (id, r') := r.create; (.created id, r')
  | .get id =>
    match r.get id with
    | .error e => (.refused e, r)
    | .ok slot => (.found slot, r)
  | .close id =>
    match r.close id with
    | .error e => (.refused e, r)
    | .ok r' => (.closed, r')
  | .reclaim => let (dropped, r') := r.reclaim; (.reclaimed dropped.size, r')
  | .shutdown => (.shut, r.shutdown)
  | .onSlot id op =>
    match r.get id with
    | .error e => (.refused e, r)
    | .ok slot => let (answer, slot') := slot.apply encoder op; (.onSlot answer, r.put id slot')
  | .advance now target =>
    let (firings, r') := r.advance encoder now target; (.advanced firings, r')

/-- Carry out the operations of a history in order. -/
def run (encoder : Encoder) : Registry → List Op → List Answer × Registry
  | r, [] => ([], r)
  | r, op :: ops =>
    let (answer, r') := r.apply encoder op
    let (answers, r'') := run encoder r' ops
    (answer :: answers, r'')

end Registry

end FrameSync
