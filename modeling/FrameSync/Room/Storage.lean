import FrameSync.Room.Basic

/-!
# A room in storage

How a room lies in memory. Each seat has a row with one byte for every frame of the battle, and so
has the room itself for the masks; a position is a byte, and the next frame a signed word that is
negative until the battle starts. `Stored` carries out the operations of a room on that.

Nothing is taken for granted here. A place is read or written only in a row that has it, a bit is
shifted only within its word, a number goes into a narrower word only if it fits there, a frame
counts as a place only if it is not negative, and a phase is left only for one that may follow.
Where this fails an operation has no answer, only a `Fault`.
-/

set_option autoImplicit false

namespace FrameSync.Room

open Wire

/-- What storage cannot do: a row has no such place, a bit is shifted out of its word, a number does
not fit the word it is put in, a frame before the first is no place, there is no frame after the
last one of a signed word, or a phase does not follow the other. -/
inductive Fault where
  | outOfBounds (place length : Nat)
  | overshift (distance width : Nat)
  | truncated (value width : Nat)
  | negative (frame : Int)
  | overflow (frame : Int)
  | misstep (source target : Phase)
deriving DecidableEq, Repr

/-- The outcome of something that may be a fault. -/
abbrev Checked (α : Type) := Except Fault α

namespace Checked

variable {α : Type}

/-- Read a place of a row. -/
def read (row : List α) (place : Nat) : Checked α :=
  match row[place]? with
  | some value => .ok value
  | none => .error (.outOfBounds place row.length)

/-- Write a place of a row. -/
def write (row : List α) (place : Nat) (value : α) : Checked (List α) :=
  if place < row.length then .ok (row.set place value)
  else .error (.outOfBounds place row.length)

/-- The bit of a position. -/
def bit (position : UInt8) : Checked UInt8 :=
  if position < 8 then .ok (1 <<< position) else .error (.overshift position.toNat 8)

/-- A number in a byte. -/
def byte (n : Nat) : Checked UInt8 :=
  if n < UInt8.size then .ok (UInt8.ofNat n) else .error (.truncated n 8)

/-- A number in a word. -/
def word (n : Nat) : Checked UInt32 :=
  if n < UInt32.size then .ok (UInt32.ofNat n) else .error (.truncated n 32)

/-- A mask with the low `n` bits set, which is computed in a word of twice its width. -/
def mask (n : Nat) : Checked UInt8 :=
  if n < 16 then byte ((1 : UInt16) <<< UInt16.ofNat n - 1).toNat else .error (.overshift n 16)

/-- A frame as a place. -/
def place (frame : Int) : Checked Nat :=
  if 0 ≤ frame then .ok frame.toNat else .error (.negative frame)

/-- The last frame that a signed word of 64 bits can count. -/
def lastFrame : Int := 0x7FFFFFFFFFFFFFFF

/-- The frame after a frame. -/
def after (frame : Int) : Checked Int :=
  if frame < lastFrame then .ok (frame + 1) else .error (.overflow frame)

end Checked

/-- A seat as it is stored. `inputs` has a byte for every frame, zero where there is none. -/
structure StoredSeat where
  player : PlayerId
  position : UInt8
  inputs : List UInt8
  lastFrame : Option UInt32
deriving DecidableEq, Repr

/-- A room as it is stored. `nextFrame` is negative before the battle, and `masks` has a byte for
every frame. -/
structure Stored where
  id : RoomId
  phase : Phase
  config : BattleConfig
  members : List PlayerId
  ready : List ReadyEntry
  seats : List StoredSeat
  nextFrame : Int
  masks : List UInt8
  startedAt : Option Nat
  checks : Table Nat (List (Nat × Int64))
deriving DecidableEq, Repr

namespace Stored

/-- The frame before the first. -/
def unstarted : Int := -1

/-- An empty room, with a row of masks. -/
def new (id : RoomId) (config : BattleConfig) : Stored :=
  { id
    phase := .created
    config := config.validated
    members := []
    ready := []
    seats := []
    nextFrame := unstarted
    masks := List.replicate config.validated.maxFrames 0
    startedAt := none
    checks := Table.empty }

/-! ## Views -/

/-- Is the player ready? -/
def isReady (s : Stored) (player : PlayerId) : Bool := s.ready.any fun e => e.player = player

/-- The first seat of a player. -/
def seat? (s : Stored) (player : PlayerId) : Option StoredSeat :=
  s.seats.find? fun t => t.player = player

/-- The position of a player's seat. -/
def positionOf (s : Stored) (player : PlayerId) : Option UInt8 :=
  (s.seat? player).map StoredSeat.position

/-- The rank of a player among the members, as a byte. -/
def rankOf (s : Stored) (player : PlayerId) : Checked UInt8 :=
  Checked.byte (s.members.filter fun m => m.num < player.num).length

/-- Where the ready members are reached. -/
def recipients (s : Stored) : List ConnId := s.ready.map ReadyEntry.conn

/-- Why a room that has to be running is not. -/
def notRunningError (s : Stored) : Option RoomError :=
  match s.phase with
  | .running => none
  | .closed => some (.closed s.id)
  | _ => some (.notRunning s.id)

/-! ## Operations -/

/-- Go on to a phase that may follow. -/
def moveTo (s : Stored) (target : Phase) : Checked Stored :=
  if s.phase.canMoveTo target then .ok { s with phase := target }
  else .error (.misstep s.phase target)

/-- Close the room; pending integrity values are dropped. -/
def close (s : Stored) : Checked Stored :=
  if s.phase = .closed then .ok s
  else do
    let s ← s.moveTo .closed
    return { s with checks := Table.empty }

/-- Close the room if this was the end of it. -/
def closeIf (s : Stored) (ends : Bool) : Checked Stored := if ends then s.close else .ok s

/-- Stop the joining once every place is taken. -/
def fill (s : Stored) : Checked Stored :=
  if s.members.length = s.config.maxPlayers then s.moveTo .waitingReady else .ok s

/-- Add a member. -/
def join (s : Stored) (player : PlayerId) : Checked (Answer × Stored) :=
  if s.phase = .closed then .ok (.refused (.closed s.id), s)
  else if s.members.contains player then .ok (.joined ⟨s.members, false, false⟩, s)
  else if !s.phase.joinable || s.config.maxPlayers ≤ s.members.length then
    .ok (.refused (.roomFull s.id), s)
  else do
    let members := insertMember player s.members
    let s ← { s with members }.fill
    return (.joined ⟨members, true, members.length = s.config.maxPlayers⟩, s)

/-- Put a seat behind those whose position is not greater. -/
def insertSeat (s : StoredSeat) : List StoredSeat → List StoredSeat
  | [] => [s]
  | t :: rest => if s.position < t.position then s :: t :: rest else t :: insertSeat s rest

/-- The seats in order of position. -/
def sortSeats (seats : List StoredSeat) : List StoredSeat :=
  seats.foldl (fun sorted s => insertSeat s sorted) []

/-- Give the seat in a place the rank that its player now has. -/
def rerankAt (s : Stored) (seats : List StoredSeat) (i : Nat) : Checked (List StoredSeat) := do
  let seat ← Checked.read seats i
  let position ← s.rankOf seat.player
  Checked.write seats i { seat with position }

/-- Give every seat the rank that its player now has, one place after the other. -/
def rerank (s : Stored) : Checked (List StoredSeat) :=
  (List.range s.seats.length).foldlM (fun seats i => s.rerankAt seats i) s.seats

/-- Start the battle. -/
def start (s : Stored) (now : Nat) : Checked (StartBroadcast × Stored) := do
  let seats ← s.rerank
  let s := { s with seats := sortSeats seats, nextFrame := 0, startedAt := some now }
  let s ← s.moveTo .running
  return (⟨.ok, 0, 0⟩, s)

/-- Start the battle if the room waits for nobody else. -/
def startIfComplete (s : Stored) (now : Nat) : Checked (Option StartBroadcast × Stored) :=
  if s.phase = .waitingReady ∧ s.ready.length = s.config.maxPlayers then do
    let (announcement, s) ← s.start now
    return (some announcement, s)
  else .ok (none, s)

/-- The seats with one for the player, which is a new one with an empty row if it had none. -/
def enrol (s : Stored) (player : PlayerId) : Checked (List StoredSeat) :=
  if (s.seat? player).isSome then .ok s.seats
  else do
    let position ← s.rankOf player
    return s.seats ++ [⟨player, position, List.replicate s.config.maxFrames 0, none⟩]

/-- A member is ready on a connection; the one that completes the roster starts the battle. -/
def becomeReady (s : Stored) (player : PlayerId) (conn : ConnId) (now : Nat) :
    Checked (Answer × Stored) :=
  if s.phase = .closed then .ok (.refused (.closed s.id), s)
  else if !s.members.contains player then .ok (.refused (.notInRoom player s.id), s)
  else do
    let ready :=
      if s.isReady player then moveEntry player conn s.ready else s.ready ++ [⟨player, conn⟩]
    let seats ← s.enrol player
    let s := { s with ready, seats }
    let (announced, s) ← s.startIfComplete now
    return (.readied ⟨((s.positionOf player).getD 0).toNat, s.ready.map ReadyEntry.player,
      s.recipients, announced⟩, s)

/-- Move a ready player's frames to another connection. -/
def rebind (s : Stored) (player : PlayerId) (conn : ConnId) : Answer × Stored :=
  if s.isReady player then (.rebound true, { s with ready := moveEntry player conn s.ready })
  else (.rebound false, s)

/-- Put a seat in the place of the player's first one. -/
def putSeat (seat : StoredSeat) : List StoredSeat → List StoredSeat
  | [] => []
  | t :: rest => if t.player = seat.player then seat :: rest else t :: putSeat seat rest

/-- Record an input for a frame. -/
def recordInput (s : Stored) (player : PlayerId) (i : FrameInput) : Checked (Answer × Stored) :=
  match s.notRunningError with
  | some e => .ok (.refused e, s)
  | none =>
    if s.config.maxFrames ≤ i.frame.toNat then
      .ok (.refused (.frameOutOfRange i.frame.toNat s.config.maxFrames), s)
    else
      match s.seat? player with
      | none => .ok (.refused (.notReady player s.id), s)
      | some seat => do
        let inputs ← Checked.write seat.inputs i.frame.toNat i.input
        let lastFrame := some (match seat.lastFrame with
          | none => i.frame
          | some f => max f i.frame)
        let bit ← Checked.bit seat.position
        let mask ← Checked.read s.masks i.frame.toNat
        let masks ← Checked.write s.masks i.frame.toNat (mask ||| bit)
        return (.recorded,
          { s with seats := putSeat { seat with inputs, lastFrame } s.seats, masks })

/-- The masks when a frame is broadcast: no client can have an input for frame 0 in before the
battle starts. -/
def openMasks (s : Stored) (index : Nat) : Checked (List UInt8) :=
  if index = 0 then do
    let full ← Checked.mask s.seats.length
    Checked.write s.masks 0 full
  else .ok s.masks

/-- The byte that a seat has in a frame. -/
def broadcastByte (index : Nat) (seat : StoredSeat) : Checked UInt8 := do
  let input ← Checked.read seat.inputs index
  return (input &&& 0xFE) ||| seat.position

/-- Broadcast a frame of the room and go on to the next one. -/
def broadcast (s : Stored) (index : Nat) : Checked (Answer × Stored) := do
  let masks ← s.openMasks index
  let inputs ← s.seats.mapM (broadcastByte index)
  let frame ← Checked.word index
  let memberCount ← Checked.byte s.members.length
  let inputMask ← Checked.read masks index
  let nextFrame ← Checked.after s.nextFrame
  let reached ← Checked.place nextFrame
  let last : Bool := s.config.maxFrames ≤ reached
  let s ← { s with masks, nextFrame }.closeIf last
  return (.ticked (some ⟨⟨frame, memberCount, inputMask, inputs⟩, s.recipients, last⟩), s)

/-- Broadcast the next frame. -/
def tick (s : Stored) : Checked (Answer × Stored) :=
  if s.phase ≠ .running then .ok (.ticked none, s)
  else do
    let index ← Checked.place s.nextFrame
    if s.config.maxFrames ≤ index then do
      let s ← s.close
      return (.ticked none, s)
    else s.broadcast index

/-- A player reports its integrity value for a frame. -/
def submitCheck (s : Stored) (player : PlayerId) (c : CheckRequest) : Answer × Stored :=
  match s.notRunningError with
  | some e => (.refused e, s)
  | none =>
    if s.config.maxFrames ≤ c.frame.toNat then
      (.refused (.frameOutOfRange c.frame.toNat s.config.maxFrames), s)
    else
      match s.positionOf player with
      | none => (.refused (.notReady player s.id), s)
      | some position =>
        let values :=
          reportValue position.toNat c.value ((s.checks.get? c.frame.toNat).getD [])
        if values.length < s.seats.length then
          (.checked none, { s with checks := s.checks.insert c.frame.toNat values })
        else
          let code : BattleCode := if agree values then .ok else .checkDiverged
          (.checked (some ⟨⟨code, c.frame⟩, s.members⟩),
            { s with checks := s.checks.erase c.frame.toNat })

/-- A player's battle connection is gone. -/
def disconnect (s : Stored) (player : PlayerId) : Checked (Answer × Stored) := do
  let wasReady := s.isReady player
  let s := { s with ready := s.ready.filter fun e => e.player ≠ player }
  let closed : Bool := wasReady && s.phase.isRunning && s.ready.isEmpty
  let s ← s.closeIf closed
  return (.left ⟨wasReady, closed⟩, s)

/-! ## Histories -/

/-- Carry out one operation. -/
def apply (s : Stored) : Op → Checked (Answer × Stored)
  | .join player => s.join player
  | .ready player conn now => s.becomeReady player conn now
  | .rebind player conn => .ok (s.rebind player conn)
  | .input player i => s.recordInput player i
  | .tick => s.tick
  | .check player c => .ok (s.submitCheck player c)
  | .disconnect player => s.disconnect player
  | .close => do
    let s ← s.close
    return (.closed, s)

/-- Carry out the operations of a history in order; a fault ends it. -/
def run : Stored → List Op → Checked (List Answer × Stored)
  | s, [] => .ok ([], s)
  | s, op :: ops => do
    let (answer, s') ← s.apply op
    let (answers, s'') ← run s' ops
    return (answer :: answers, s'')

end Stored

end FrameSync.Room
