import FrameSync.Room.Registry

/-!
# Rooms under a clock

An arena is a registry with a clock, a way out for the frames, and the slots that somebody still
holds after the registry has dropped them. A step names a tracked room, or any room ever created
when it comes from a holder. `sleep` lets time pass evenly, `jump` moves the clock first and then
lets everything that became due run late.
-/

set_option autoImplicit false

namespace FrameSync

open Wire Tick

namespace Room

/-- A registry of rooms, the slots it has dropped, the time in nanoseconds, what frames are written
with and where they go. -/
structure Arena where
  registry : Registry
  dropped : Table RoomId Slot
  now : Nat
  encoder : Encoder
  sink : Sink

/-- One step in an arena. Sends to a connection that is cut fail from then on. A slot is looked up,
or given an operation that may depend on the time, in the registry or, if it is `kept`, with a
holder of it. -/
inductive ArenaStep where
  | create
  | closeRoom (id : RoomId)
  | reclaim
  | shutdown
  | cut (conn : ConnId)
  | sleep (ms : Nat)
  | jump (ms : Nat)
  | inspect (kept : Bool) (id : RoomId)
  | onSlot (kept : Bool) (id : RoomId) (op : Nat → Slot.Op)

/-- What a step answers. -/
inductive ArenaAnswer where
  | created (id : RoomId)
  | refused (error : RoomError)
  | reclaimed (removed : Nat)
  | found (slot : Slot)
  | onSlot (answer : Slot.Answer)
  | done

namespace Arena

/-- An arena at time zero. -/
def new (base : UInt32) (config : BattleConfig) (rota : Rota) (encoder : Encoder) : Arena :=
  ⟨Registry.new base config rota, Table.empty, 0, encoder, .unbroken⟩

/-- The slots of all rooms ever created, in order of number. -/
def slots (a : Arena) : List Slot :=
  (a.dropped.entries.foldl (fun t e => t.insert e.1 e.2) a.registry.rooms).values

/-- The slot a step names. -/
def find (a : Arena) (kept : Bool) (id : RoomId) : Except RoomError Slot :=
  match a.registry.get id with
  | .ok slot => .ok slot
  | .error e =>
    match if kept then a.dropped.get? id else none with
    | some slot => .ok slot
    | none => .error e

/-- Put back the slot a step named. -/
def put (a : Arena) (id : RoomId) (slot : Slot) : Arena :=
  if a.registry.rooms.contains id then { a with registry := a.registry.put id slot }
  else { a with dropped := a.dropped.update id fun _ => slot }

/-- Let the tickers run from `start` to `target`. Answers the frames that arrive. -/
def advance (a : Arena) (start target : Nat) : List Delivery × Arena :=
  let (firings, registry) := a.registry.advance a.encoder start target
  (a.sink.accept (firings.flatMap Firing.sent), { a with registry, now := target })

/-- Carry out one step. Answers it and the frames sent meanwhile. -/
def step (a : Arena) : ArenaStep → (ArenaAnswer × List Delivery) × Arena
  | .create =>
    let (id, registry) := a.registry.create
    ((.created id, []), { a with registry })
  | .closeRoom id =>
    match a.registry.close id with
    | .error e => ((.refused e, []), a)
    | .ok registry => ((.done, []), { a with registry })
  | .reclaim =>
    let (dropped, registry) := a.registry.reclaim
    ((.reclaimed dropped.size, []),
      { a with
        registry
        dropped := dropped.entries.foldl (fun t e => t.insert e.1 e.2) a.dropped })
  | .shutdown => ((.done, []), { a with registry := a.registry.shutdown })
  | .cut conn => ((.done, []), { a with sink := a.sink.cut conn })
  | .sleep ms =>
    let (sent, a') := a.advance a.now (a.now + ms * millisecond)
    ((.done, sent), a')
  | .jump ms =>
    let (sent, a') := a.advance (a.now + ms * millisecond) (a.now + ms * millisecond)
    ((.done, sent), a')
  | .inspect kept id =>
    match a.find kept id with
    | .error e => ((.refused e, []), a)
    | .ok slot => ((.found slot, []), a)
  | .onSlot kept id op =>
    match a.find kept id with
    | .error e => ((.refused e, []), a)
    | .ok slot =>
      let (answer, slot') := slot.apply a.encoder (op a.now)
      ((.onSlot answer, []), a.put id slot')

end Arena

end Room

end FrameSync
