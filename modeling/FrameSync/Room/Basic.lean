import FrameSync.Room.Config
import FrameSync.Room.Phase
import FrameSync.Room.Error

/-!
# A battle room

One room: its members, who of them is ready, and the inputs of every frame. A member gets a seat
when it is first ready; its position is its rank among the members, and when the battle starts the
seats are put in order of position. From then on each tick broadcasts one frame: for every seat the
input it last recorded for that frame, with the low bit replaced (`Seat.broadcastByte`), and a mask
of the positions that recorded one. Frame 0 reports every position.

A room does nothing by itself. Each operation answers what is to be sent and to whom; a refused
operation answers why and leaves the room as it is. `Op` and `run` are a history of operations.
-/

set_option autoImplicit false

namespace FrameSync

open Wire

namespace Room

/-- A member that is ready, and the battle connection it was ready on or has been moved to. -/
structure ReadyEntry where
  player : PlayerId
  conn : ConnId
deriving DecidableEq, Repr

/-- What a room keeps for one player of the battle: its rank among the members, the last input
recorded for each frame that has one, and the greatest frame an input was recorded for. -/
structure Seat where
  player : PlayerId
  position : Nat
  inputs : Table Nat UInt8
  lastFrame : Option UInt32
deriving DecidableEq, Repr

namespace Seat

/-- A seat without inputs. -/
def vacant (player : PlayerId) (position : Nat) : Seat := ⟨player, position, Table.empty, none⟩

/-- The input last recorded for a frame; zero if there is none. -/
def input (s : Seat) (frame : Nat) : UInt8 := (s.inputs.get? frame).getD 0

/-- Record an input. -/
def record (s : Seat) (i : FrameInput) : Seat :=
  { s with
    inputs := s.inputs.insert i.frame.toNat i.input
    lastFrame := some (match s.lastFrame with
      | none => i.frame
      | some f => max f i.frame) }

/-- The byte broadcast for a frame: the low bit makes room for the position. -/
def broadcastByte (s : Seat) (frame : Nat) : UInt8 :=
  (s.input frame &&& 0xFE) ||| UInt8.ofNat s.position

/-- The bit of the seat in an input mask. -/
def bit (s : Seat) : UInt8 := 1 <<< UInt8.ofNat s.position

end Seat

end Room

/-- A battle room. `config` is validated; `members` is ascending; `ready` is in the order in which
the members became ready, and `seats` in order of position once the battle has started. `nextFrame`
is the next frame to broadcast, `masks` has for each frame the positions that recorded an input for
it, and `startedAt` is in nanoseconds. `checks` are the integrity values that wait for the rest of
their frame, by position. -/
structure Room where
  id : RoomId
  phase : Room.Phase
  config : BattleConfig
  members : List PlayerId
  ready : List Room.ReadyEntry
  seats : List Room.Seat
  nextFrame : Option Nat
  masks : Table Nat UInt8
  startedAt : Option Nat
  checks : Table Nat (List (Nat × Int64))
deriving DecidableEq, Repr

namespace Room

/-! ## Answers -/

/-- What a join answers: the members after it, whether the player was no member before, and whether
it took the last place. -/
structure Joined where
  members : List PlayerId
  joined : Bool
  filled : Bool
deriving DecidableEq, Repr

/-- What becoming ready answers: the position of the player's seat, the ready members in order and
where they are reached, and the announcement, if this was what started the battle. -/
structure Readied where
  position : Nat
  roster : List PlayerId
  recipients : List ConnId
  start : Option StartBroadcast
deriving DecidableEq, Repr

/-- One frame and where it goes; `closed` if this frame used up the room. -/
structure TickOutput where
  broadcast : FrameBroadcast
  recipients : List ConnId
  closed : Bool
deriving DecidableEq, Repr

/-- The verdict on a frame, for every member. -/
structure Verdict where
  reply : CheckReply
  members : List PlayerId
deriving DecidableEq, Repr

/-- What a disconnect answers: whether the player was ready, and whether the room closed with it. -/
structure Left where
  wasReady : Bool
  closed : Bool
deriving DecidableEq, Repr

/-! ## Views -/

/-- An empty room. -/
def new (id : RoomId) (config : BattleConfig) : Room :=
  { id
    phase := .created
    config := config.validated
    members := []
    ready := []
    seats := []
    nextFrame := none
    masks := Table.empty
    startedAt := none
    checks := Table.empty }

/-- Is the player a member? -/
def isMember (r : Room) (player : PlayerId) : Bool := r.members.contains player

/-- Is the player ready? -/
def isReady (r : Room) (player : PlayerId) : Bool := r.ready.any fun e => e.player = player

/-- The ready members in order. -/
def roster (r : Room) : List PlayerId := r.ready.map ReadyEntry.player

/-- Where the ready members are reached. -/
def recipients (r : Room) : List ConnId := r.ready.map ReadyEntry.conn

/-- The seat of a player. -/
def seat? (r : Room) (player : PlayerId) : Option Seat := r.seats.find? fun s => s.player = player

/-- The position of a player's seat. -/
def positionOf (r : Room) (player : PlayerId) : Option Nat := (r.seat? player).map Seat.position

/-- The greatest frame a player recorded an input for. -/
def lastFrameOf (r : Room) (player : PlayerId) : Option UInt32 :=
  (r.seat? player).bind Seat.lastFrame

/-- The rank of a player among the members. -/
def rankOf (r : Room) (player : PlayerId) : Nat :=
  (r.members.filter fun m => m.num < player.num).length

/-- The positions that recorded an input for a frame. -/
def mask (r : Room) (frame : Nat) : UInt8 := (r.masks.get? frame).getD 0

/-- Whole milliseconds since the battle started; zero before. -/
def clockMs (r : Room) (now : Nat) : Nat :=
  match r.startedAt with
  | none => 0
  | some t => (now - t) / Tick.millisecond

/-- The number of frames with some but not all integrity values. -/
def pendingChecks (r : Room) : Nat := r.checks.size

/-! ## Membership -/

/-- Close the room; pending integrity values are dropped. -/
def close (r : Room) : Room :=
  if r.phase = .closed then r else { r with phase := .closed, checks := Table.empty }

/-- Insert a player among ascending members. -/
def insertMember (player : PlayerId) : List PlayerId → List PlayerId
  | [] => [player]
  | m :: rest =>
    if m.num < player.num then m :: insertMember player rest else player :: m :: rest

/-- Add a member. Joining twice changes nothing; the join that takes the last place ends the
joining. -/
def join (r : Room) (player : PlayerId) : Except RoomError (Joined × Room) :=
  if r.phase = .closed then .error (.closed r.id)
  else if r.isMember player then .ok (⟨r.members, false, false⟩, r)
  else if !r.phase.joinable || r.config.maxPlayers ≤ r.members.length then
    .error (.roomFull r.id)
  else
    let members := insertMember player r.members
    let filled : Bool := members.length = r.config.maxPlayers
    .ok (⟨members, true, filled⟩,
      { r with members, phase := if filled then .waitingReady else r.phase })

/-! ## Readiness -/

/-- Move the entry of a ready player to another connection. -/
def moveEntry (player : PlayerId) (conn : ConnId) (ready : List ReadyEntry) : List ReadyEntry :=
  ready.map fun e => if e.player = player then { e with conn } else e

/-- Put a seat behind those whose position is not greater. -/
def insertSeat (s : Seat) : List Seat → List Seat
  | [] => [s]
  | t :: rest => if s.position < t.position then s :: t :: rest else t :: insertSeat s rest

/-- The seats in order of position; seats of one position keep their order. -/
def sortSeats (seats : List Seat) : List Seat := seats.foldl (fun sorted s => insertSeat s sorted) []

/-- Start the battle: every seat takes the rank its player now has, the seats are put in order,
and frame 0 is next. -/
def start (r : Room) (now : Nat) : StartBroadcast × Room :=
  (⟨.ok, 0, 0⟩,
    { r with
      seats := sortSeats (r.seats.map fun s => { s with position := r.rankOf s.player })
      nextFrame := some 0
      startedAt := some now
      phase := .running })

/-- A member is ready on a connection. Being ready again keeps the place in the roster and only
moves the connection; the member that completes the roster starts the battle. -/
def becomeReady (r : Room) (player : PlayerId) (conn : ConnId) (now : Nat) :
    Except RoomError (Readied × Room) :=
  if r.phase = .closed then .error (.closed r.id)
  else if !r.isMember player then .error (.notInRoom player r.id)
  else
    -- A member that comes back keeps its place in the roster, and its seat with all inputs.
    let ready :=
      if r.isReady player then moveEntry player conn r.ready else r.ready ++ [⟨player, conn⟩]
    let seats :=
      if (r.seat? player).isSome then r.seats
      else r.seats ++ [Seat.vacant player (r.rankOf player)]
    let r := { r with ready, seats }
    let (announced, r) : Option StartBroadcast × Room :=
      if r.phase = .waitingReady ∧ r.ready.length = r.config.maxPlayers then
        let (announcement, started) := r.start now
        (some announcement, started)
      else (none, r)
    .ok (⟨(r.positionOf player).getD 0, r.roster, r.recipients, announced⟩, r)

/-- Move a ready player's frames to another connection. Answers whether the player is ready. -/
def rebind (r : Room) (player : PlayerId) (conn : ConnId) : Bool × Room :=
  if r.isReady player then (true, { r with ready := moveEntry player conn r.ready }) else (false, r)

/-! ## Inputs -/

/-- Why a room that has to be running is not. -/
def notRunningError (r : Room) : Option RoomError :=
  match r.phase with
  | .running => none
  | .closed => some (.closed r.id)
  | _ => some (.notRunning r.id)

/-- Record an input for a frame. An input for a frame that has one replaces it, and the seat's bit
is set in the frame's mask. -/
def recordInput (r : Room) (player : PlayerId) (i : FrameInput) : Except RoomError Room :=
  match r.notRunningError with
  | some e => .error e
  | none =>
    if r.config.maxFrames ≤ i.frame.toNat then
      .error (.frameOutOfRange i.frame.toNat r.config.maxFrames)
    else
      match r.seat? player with
      | none => .error (.notReady player r.id)
      | some seat =>
        .ok { r with
          seats := r.seats.map fun s => if s.player = player then s.record i else s
          masks := r.masks.insert i.frame.toNat (r.mask i.frame.toNat ||| seat.bit) }

/-! ## The tick -/

/-- A mask with the low `n` bits set. -/
def fullMask (n : Nat) : UInt8 := UInt8.ofNat (1 <<< n - 1)

/-- The frame with the given number as it stands. -/
def frameAt (r : Room) (frame : Nat) : FrameBroadcast :=
  { frame := UInt32.ofNat frame
    memberCount := UInt8.ofNat r.members.length
    inputMask := r.mask frame
    inputs := r.seats.map fun s => s.broadcastByte frame }

/-- Broadcast the next frame. A room that is not running broadcasts nothing; the last frame closes
the room. -/
def tick (r : Room) : Option TickOutput × Room :=
  if r.phase ≠ .running then (none, r)
  else
    match r.nextFrame with
    | none => (none, r)
    | some frame =>
      if r.config.maxFrames ≤ frame then (none, r.close)
      else
        -- No client can have an input for frame 0 in before the battle starts.
        let r :=
          if frame = 0 then { r with masks := r.masks.insert 0 (fullMask r.seats.length) } else r
        let broadcast := r.frameAt frame
        let r := { r with nextFrame := some (frame + 1) }
        let last : Bool := r.config.maxFrames ≤ frame + 1
        -- Closing leaves the ready members alone, so the last frame still reaches them.
        let r := if last then r.close else r
        (some ⟨broadcast, r.recipients, last⟩, r)

/-! ## The consistency check -/

/-- The values of a frame with one more; a position that reports again replaces its value. -/
def reportValue (position : Nat) (value : Int64) :
    List (Nat × Int64) → List (Nat × Int64)
  | [] => [(position, value)]
  | e :: rest =>
    if e.1 = position then (position, value) :: rest else e :: reportValue position value rest

/-- Do all reported values agree? -/
def agree : List (Nat × Int64) → Bool
  | [] => true
  | e :: rest => rest.all fun x => x.2 = e.2

/-- A player reports its integrity value for a frame. Once every seat has reported the frame, the
verdict is given and the frame's values are forgotten. The seat is the player's own, whatever
position the report claims. -/
def submitCheck (r : Room) (player : PlayerId) (c : CheckRequest) :
    Except RoomError (Option Verdict × Room) :=
  match r.notRunningError with
  | some e => .error e
  | none =>
    if r.config.maxFrames ≤ c.frame.toNat then
      .error (.frameOutOfRange c.frame.toNat r.config.maxFrames)
    else
      match r.positionOf player with
      | none => .error (.notReady player r.id)
      | some position =>
        let values := reportValue position c.value ((r.checks.get? c.frame.toNat).getD [])
        -- A position reports a frame once, so the count tells whether every seat has reported.
        if values.length < r.seats.length then
          .ok (none, { r with checks := r.checks.insert c.frame.toNat values })
        else
          let code : BattleCode := if agree values then .ok else .checkDiverged
          .ok (some ⟨⟨code, c.frame⟩, r.members⟩,
            { r with checks := r.checks.erase c.frame.toNat })

/-! ## Leaving -/

/-- A player's battle connection is gone: it is ready no more, but stays a member with its seat.
A running room without ready members closes. -/
def disconnect (r : Room) (player : PlayerId) : Left × Room :=
  let wasReady := r.isReady player
  let r := { r with ready := r.ready.filter fun e => e.player ≠ player }
  let closed : Bool := wasReady && r.phase.isRunning && r.ready.isEmpty
  (⟨wasReady, closed⟩, if closed then r.close else r)

/-! ## Histories -/

/-- An operation on a room. -/
inductive Op where
  | join (player : PlayerId)
  | ready (player : PlayerId) (conn : ConnId) (now : Nat)
  | rebind (player : PlayerId) (conn : ConnId)
  | input (player : PlayerId) (input : FrameInput)
  | tick
  | check (player : PlayerId) (check : CheckRequest)
  | disconnect (player : PlayerId)
  | close
deriving DecidableEq, Repr

/-- What an operation answers. -/
inductive Answer where
  | refused (error : RoomError)
  | joined (outcome : Joined)
  | readied (outcome : Readied)
  | rebound (done : Bool)
  | recorded
  | ticked (output : Option TickOutput)
  | checked (verdict : Option Verdict)
  | left (outcome : Left)
  | closed
deriving DecidableEq, Repr

/-- Carry out one operation. -/
def apply (r : Room) : Op → Answer × Room
  | .join player =>
    match r.join player with
    | .error e => (.refused e, r)
    | .ok (outcome, r') => (.joined outcome, r')
  | .ready player conn now =>
    match r.becomeReady player conn now with
    | .error e => (.refused e, r)
    | .ok (outcome, r') => (.readied outcome, r')
  | .rebind player conn => let (done, r') := r.rebind player conn; (.rebound done, r')
  | .input player i =>
    match r.recordInput player i with
    | .error e => (.refused e, r)
    | .ok r' => (.recorded, r')
  | .tick => let (output, r') := r.tick; (.ticked output, r')
  | .check player c =>
    match r.submitCheck player c with
    | .error e => (.refused e, r)
    | .ok (verdict, r') => (.checked verdict, r')
  | .disconnect player => let (outcome, r') := r.disconnect player; (.left outcome, r')
  | .close => (.closed, r.close)

/-- Carry out the operations of a history in order. -/
def run : Room → List Op → List Answer × Room
  | r, [] => ([], r)
  | r, op :: ops =>
    let (answer, r') := r.apply op
    let (answers, r'') := run r' ops
    (answer :: answers, r'')

end Room

end FrameSync
