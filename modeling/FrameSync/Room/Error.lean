import FrameSync.Wire.Message

/-!
# Refusals of a room

Why a room refuses a request, the wording, and the code that a client of each channel is told.
-/

set_option autoImplicit false

namespace FrameSync

open Wire

/-- Why a room refuses a request: no room has the number, every place is taken, the player is no
member or has no seat to record anything for, the battle is not on, the room has closed, or the
frame is past its last one. -/
inductive RoomError where
  | notFound (room : RoomId)
  | roomFull (room : RoomId)
  | notInRoom (player : PlayerId) (room : RoomId)
  | notReady (player : PlayerId) (room : RoomId)
  | notRunning (room : RoomId)
  | closed (room : RoomId)
  | frameOutOfRange (frame max : Nat)
deriving DecidableEq, Repr

namespace RoomError

/-- The name of the cause. -/
def name : RoomError → String
  | notFound _ => "NotFound"
  | roomFull _ => "RoomFull"
  | notInRoom _ _ => "NotInRoom"
  | notReady _ _ => "NotReady"
  | notRunning _ => "NotRunning"
  | closed _ => "Closed"
  | frameOutOfRange _ _ => "FrameOutOfRange"

/-- The wording of a refusal. -/
def message : RoomError → String
  | notFound room => "room " ++ room.label ++ " not found"
  | roomFull room => "room " ++ room.label ++ " is full"
  | notInRoom player room => "player " ++ player.label ++ " not in room " ++ room.label
  | notReady player room => "player " ++ player.label ++ " has no seat in room " ++ room.label
  | notRunning room => "room " ++ room.label ++ " is not running"
  | closed room => "room " ++ room.label ++ " is closed"
  | frameOutOfRange frame max =>
    "frame " ++ Nat.repr frame ++ " out of range (max " ++ Nat.repr max ++ ")"

/-- What a lobby client is told. -/
def lobbyCode : RoomError → LobbyCode
  | notFound _ | closed _ | notRunning _ | frameOutOfRange _ _ => .roomNotFound
  | roomFull _ => .roomFull
  | notInRoom _ _ | notReady _ _ => .playerNotFound

/-- What a battle client is told. -/
def battleCode : RoomError → BattleCode
  | notFound _ => .roomNotFound
  | notInRoom _ _ | notReady _ _ | roomFull _ => .notInRoom
  | notRunning _ | closed _ | frameOutOfRange _ _ => .roomClosed

end RoomError

end FrameSync
