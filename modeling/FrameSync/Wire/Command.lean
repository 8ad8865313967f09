import FrameSync.Wire.Error

/-!
# Commands

Each channel has its own commands. A byte that names none is refused with `unknownCommand`.
-/

set_option autoImplicit false

namespace FrameSync.Wire

/-- What a client asks for in the lobby. -/
inductive LobbyCommand where
  | login
  | createRoom
  | joinRoom
deriving DecidableEq, Repr

/-- What is said on the battle channel. -/
inductive BattleCommand where
  | connect
  | ready
  | heartbeat
  | frame
  | start
  | check
deriving DecidableEq, Repr

namespace LobbyCommand

/-- The name of a command. -/
def name : LobbyCommand → String
  | login => "Login"
  | createRoom => "CreateRoom"
  | joinRoom => "JoinRoom"

/-- The command byte. -/
def toByte : LobbyCommand → UInt8
  | login => 1
  | createRoom => 2
  | joinRoom => 3

/-- The command of a byte. -/
def ofByte (b : UInt8) : Except WireError LobbyCommand :=
  if b = 1 then .ok login
  else if b = 2 then .ok createRoom
  else if b = 3 then .ok joinRoom
  else .error (.unknownCommand b)

/-- A command is read back from its byte. -/
theorem ofByte_toByte (c : LobbyCommand) : ofByte c.toByte = .ok c := by
  cases c <;> rfl

end LobbyCommand

namespace BattleCommand

/-- The name of a command. -/
def name : BattleCommand → String
  | connect => "Connect"
  | ready => "Ready"
  | heartbeat => "Heartbeat"
  | frame => "Frame"
  | start => "Start"
  | check => "Check"

/-- The command byte. -/
def toByte : BattleCommand → UInt8
  | connect => 1
  | ready => 2
  | heartbeat => 3
  | frame => 4
  | start => 5
  | check => 6

/-- The command of a byte. -/
def ofByte (b : UInt8) : Except WireError BattleCommand :=
  if b = 1 then .ok connect
  else if b = 2 then .ok ready
  else if b = 3 then .ok heartbeat
  else if b = 4 then .ok frame
  else if b = 5 then .ok start
  else if b = 6 then .ok check
  else .error (.unknownCommand b)

/-- A command is read back from its byte. -/
theorem ofByte_toByte (c : BattleCommand) : ofByte c.toByte = .ok c := by
  cases c <;> rfl

end BattleCommand

end FrameSync.Wire
