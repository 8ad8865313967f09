import FrameSync.Ids
import FrameSync.Wire.Layout

/-!
# Message bodies

The body of each packet, one type per command and direction, and its layout on the wire: the fields
in order. `encodeBody` and `decodeBody` are the two directions for every body; bytes behind a body
are ignored.

A server reads bodies by these layouts. What it writes goes through its `Encoder`, which may be any
other format, and may fail.
-/

set_option autoImplicit false

namespace FrameSync.Wire

/-! ## Outcome codes -/

/-- The outcome of a lobby request. -/
inductive LobbyCode where
  | ok
  | authFailed
  | playerNotFound
  | roomNotFound
  | roomFull
  | alreadyInRoom
deriving DecidableEq, Repr

/-- The outcome of a battle request. -/
inductive BattleCode where
  | ok
  | playerNotFound
  | roomNotFound
  | notInRoom
  | roomClosed
  | checkDiverged
deriving DecidableEq, Repr

/-- The lobby outcomes in wire order. -/
def LobbyCode.all : List LobbyCode :=
  [ok, authFailed, playerNotFound, roomNotFound, roomFull, alreadyInRoom]

/-- The battle outcomes in wire order. -/
def BattleCode.all : List BattleCode :=
  [ok, playerNotFound, roomNotFound, notInRoom, roomClosed, checkDiverged]

/-- The name of a lobby outcome. -/
def LobbyCode.name : LobbyCode → String
  | ok => "Ok"
  | authFailed => "AuthFailed"
  | playerNotFound => "PlayerNotFound"
  | roomNotFound => "RoomNotFound"
  | roomFull => "RoomFull"
  | alreadyInRoom => "AlreadyInRoom"

/-- The name of a battle outcome. -/
def BattleCode.name : BattleCode → String
  | ok => "Ok"
  | playerNotFound => "PlayerNotFound"
  | roomNotFound => "RoomNotFound"
  | notInRoom => "NotInRoom"
  | roomClosed => "RoomClosed"
  | checkDiverged => "CheckDiverged"

/-! ## Lobby bodies -/

/-- Ask for an identity. -/
structure LoginRequest where
  account : String
  password : String
deriving DecidableEq, Repr

/-- The identity, or why there is none. -/
structure LoginReply where
  code : LobbyCode
  player : PlayerId
deriving DecidableEq, Repr

/-- Ask for a new room. -/
structure CreateRoomRequest where
  player : PlayerId
deriving DecidableEq, Repr

/-- The new room. -/
structure CreateRoomReply where
  code : LobbyCode
  room : RoomId
deriving DecidableEq, Repr

/-- Ask to become a member of a room. -/
structure JoinRoomRequest where
  room : RoomId
  player : PlayerId
deriving DecidableEq, Repr

/-- The members after the join. -/
structure JoinRoomReply where
  code : LobbyCode
  room : RoomId
  members : List PlayerId
deriving DecidableEq, Repr

/-! ## Battle bodies -/

/-- Say which player a battle connection speaks for. -/
structure ConnectRequest where
  player : PlayerId
  season : UInt32
deriving DecidableEq, Repr

/-- The outcome of a `ConnectRequest`. -/
structure ConnectReply where
  code : BattleCode
deriving DecidableEq, Repr

/-- Say that a member is ready to start. -/
structure ReadyRequest where
  player : PlayerId
  room : RoomId
deriving DecidableEq, Repr

/-- The ready members so far. -/
structure ReadyReply where
  code : BattleCode
  room : RoomId
  roster : List PlayerId
deriving DecidableEq, Repr

/-- Ask for a sign of life. -/
structure HeartbeatRequest where
  player : PlayerId
  timestamp : UInt64
deriving DecidableEq, Repr

/-- The sign of life, with the time that was sent. -/
structure HeartbeatReply where
  code : BattleCode
  timestamp : UInt64
deriving DecidableEq, Repr

/-- One player's input for one frame. -/
structure FrameInput where
  frame : UInt32
  input : UInt8
deriving DecidableEq, Repr

/-- The inputs of all players for one frame. -/
structure FrameBroadcast where
  frame : UInt32
  memberCount : UInt8
  inputMask : UInt8
  inputs : List UInt8
deriving DecidableEq, Repr

/-- The battle begins. -/
structure StartBroadcast where
  code : BattleCode
  frame : UInt32
  timestamp : UInt64
deriving DecidableEq, Repr

/-- One player's integrity value for one frame. -/
structure CheckRequest where
  frame : UInt32
  position : UInt8
  value : Int64
deriving DecidableEq, Repr

/-- The verdict on a frame. -/
structure CheckReply where
  code : BattleCode
  frame : UInt32
deriving DecidableEq, Repr

/-! ## Layouts -/

namespace Layout

/-- A player's number. -/
def player : Layout PlayerId := u32.convert PlayerId.mk PlayerId.num

/-- A room's number. -/
def room : Layout RoomId := u32.convert RoomId.mk RoomId.num

/-- A lobby outcome. -/
def lobbyCode : Layout LobbyCode := variant LobbyCode.all

/-- A battle outcome. -/
def battleCode : Layout BattleCode := variant BattleCode.all

end Layout

/-- A message body: a type with a name, and the layout by which it is written and read. -/
class Body (α : Type) where
  name : String
  layout : Layout α

instance : Body LoginRequest where
  name := "LoginRequest"
  layout := (Layout.text.pair Layout.text).convert
    (fun v => ⟨v.1, v.2⟩) fun r => (r.account, r.password)

instance : Body LoginReply where
  name := "LoginReply"
  layout := (Layout.lobbyCode.pair Layout.player).convert
    (fun v => ⟨v.1, v.2⟩) fun r => (r.code, r.player)

instance : Body CreateRoomRequest where
  name := "CreateRoomRequest"
  layout := Layout.player.convert (fun v => ⟨v⟩) fun r => r.player

instance : Body CreateRoomReply where
  name := "CreateRoomReply"
  layout := (Layout.lobbyCode.pair Layout.room).convert
    (fun v => ⟨v.1, v.2⟩) fun r => (r.code, r.room)

instance : Body JoinRoomRequest where
  name := "JoinRoomRequest"
  layout := (Layout.room.pair Layout.player).convert
    (fun v => ⟨v.1, v.2⟩) fun r => (r.room, r.player)

instance : Body JoinRoomReply where
  name := "JoinRoomReply"
  layout := (Layout.lobbyCode.pair (Layout.room.pair Layout.player.list)).convert
    (fun v => ⟨v.1, v.2.1, v.2.2⟩) fun r => (r.code, r.room, r.members)

instance : Body ConnectRequest where
  name := "ConnectRequest"
  layout := (Layout.player.pair Layout.u32).convert
    (fun v => ⟨v.1, v.2⟩) fun r => (r.player, r.season)

instance : Body ConnectReply where
  name := "ConnectReply"
  layout := Layout.battleCode.convert (fun v => ⟨v⟩) fun r => r.code

instance : Body ReadyRequest where
  name := "ReadyRequest"
  layout := (Layout.player.pair Layout.room).convert
    (fun v => ⟨v.1, v.2⟩) fun r => (r.player, r.room)

instance : Body ReadyReply where
  name := "ReadyReply"
  layout := (Layout.battleCode.pair (Layout.room.pair Layout.player.list)).convert
    (fun v => ⟨v.1, v.2.1, v.2.2⟩) fun r => (r.code, r.room, r.roster)

instance : Body HeartbeatRequest where
  name := "HeartbeatRequest"
  layout := (Layout.player.pair Layout.u64).convert
    (fun v => ⟨v.1, v.2⟩) fun r => (r.player, r.timestamp)

instance : Body HeartbeatReply where
  name := "HeartbeatReply"
  layout := (Layout.battleCode.pair Layout.u64).convert
    (fun v => ⟨v.1, v.2⟩) fun r => (r.code, r.timestamp)

instance : Body FrameInput where
  name := "FrameInput"
  layout := (Layout.u32.pair Layout.u8).convert
    (fun v => ⟨v.1, v.2⟩) fun r => (r.frame, r.input)

instance : Body FrameBroadcast where
  name := "FrameBroadcast"
  layout := (Layout.u32.pair (Layout.u8.pair (Layout.u8.pair Layout.u8.list))).convert
    (fun v => ⟨v.1, v.2.1, v.2.2.1, v.2.2.2⟩)
    fun r => (r.frame, r.memberCount, r.inputMask, r.inputs)

instance : Body StartBroadcast where
  name := "StartBroadcast"
  layout := (Layout.battleCode.pair (Layout.u32.pair Layout.u64)).convert
    (fun v => ⟨v.1, v.2.1, v.2.2⟩) fun r => (r.code, r.frame, r.timestamp)

instance : Body CheckRequest where
  name := "CheckRequest"
  layout := (Layout.u32.pair (Layout.u8.pair Layout.i64)).convert
    (fun v => ⟨v.1, v.2.1, v.2.2⟩) fun r => (r.frame, r.position, r.value)

instance : Body CheckReply where
  name := "CheckReply"
  layout := (Layout.battleCode.pair Layout.u32).convert
    (fun v => ⟨v.1, v.2⟩) fun r => (r.code, r.frame)

/-! ## Writing and reading bodies -/

/-- The bytes of a body. -/
def encodeBody {α : Type} [Body α] (v : α) : Bytes := Body.layout.encode v

/-- The body at the start of a byte run; bytes behind it are ignored. -/
def decodeBody {α : Type} [Body α] (bytes : Bytes) : Except DecodeError α :=
  match (Body.layout : Layout α).decode bytes with
  | .error e => .error e
  | .ok (v, _) => .ok v

/-- A body format to write with. A body is given by the name of its type and by its bytes in the
standard layout, so the format may be any function of the body. -/
structure Encoder where
  write : String → Bytes → Except WireError Bytes

namespace Encoder

/-- Every body is written by its layout. -/
def standard : Encoder := ⟨fun _ bytes => .ok bytes⟩

/-- No body can be written, for the given reason. -/
def refusing (reason : String) : Encoder := ⟨fun _ _ => .error (.encode reason)⟩

/-- Write a body, or fail. -/
def encode {α : Type} [Body α] (e : Encoder) (v : α) : Except WireError Bytes :=
  e.write (Body.name α) (encodeBody v)

end Encoder

/-- Read a body, or fail. -/
def readBody (α : Type) [Body α] (bytes : Bytes) : Except WireError α :=
  match decodeBody bytes with
  | .error e => .error (.decode e)
  | .ok v => .ok v

end FrameSync.Wire
