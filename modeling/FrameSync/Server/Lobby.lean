import FrameSync.Server.State
import FrameSync.Wire.Command

/-!
# The lobby

Log in, create a room, join a room. A login and every refusal is answered to the sender alone; a
new room and a join are announced on every lobby connection that speaks for a player. The join
that fills a room makes sure that the battle listener runs.
-/

set_option autoImplicit false

namespace FrameSync

open Wire

namespace Server

/-- Send a body on every lobby connection that speaks for a player, in the order in which they are
listed this time. -/
def announce {α : Type} [Body α] (s : Server) (command : LobbyCommand) (body : α) : Handled :=
  let conns := s.chance.listing s.announced s.directory.lobbyConnections
  { s with announced := s.announced + 1 }.sendAll conns command.toByte body

/-- Handle a login. -/
def login (s : Server) (conn : ConnId) (payload : Bytes) : Handled :=
  match readBody LoginRequest payload with
  | .error e => s.fail e
  | .ok request =>
    match s.admission.check request.account request.password with
    | .error _ =>
      s.send conn LobbyCommand.login.toByte (LoginReply.mk .authFailed ⟨0⟩)
    | .ok () =>
      let ((player, _), directory) := s.directory.login request.account conn
      { s with directory }.send conn LobbyCommand.login.toByte (LoginReply.mk .ok player)

/-- Handle the request for a new room. Stopped rooms are dropped first. -/
def createRoom (s : Server) (conn : ConnId) (payload : Bytes) : Handled :=
  match readBody CreateRoomRequest payload with
  | .error e => s.fail e
  | .ok request =>
    if s.directory.contains request.player then
      let (room, registry) := s.registry.reclaim.2.create
      { s with registry }.announce .createRoom (CreateRoomReply.mk .ok room)
    else
      s.send conn LobbyCommand.createRoom.toByte (CreateRoomReply.mk .playerNotFound ⟨0⟩)

/-- Handle a join. -/
def joinRoom (s : Server) (conn : ConnId) (payload : Bytes) : Handled :=
  match readBody JoinRoomRequest payload with
  | .error e => s.fail e
  | .ok request =>
    match join s.directory s.registry request.player request.room with
    | (.error code, directory, registry) =>
      { s with directory, registry }.send conn LobbyCommand.joinRoom.toByte
        (JoinRoomReply.mk code request.room [])
    | (.ok outcome, directory, registry) =>
      let announced := { s with directory, registry }.announce .joinRoom
        (JoinRoomReply.mk .ok request.room outcome.members)
      announced.andThen fun s =>
        if s.registry.config.maxPlayers ≤ outcome.members.length then
          { s with endpoint := s.endpoint.ensureActive }.silent
        else s.silent

/-- Handle a lobby packet. -/
def onLobby (s : Server) (conn : ConnId) (p : Packet) : Handled :=
  match LobbyCommand.ofByte p.command with
  | .error e => s.fail e
  | .ok .login => s.login conn p.payload
  | .ok .createRoom => s.createRoom conn p.payload
  | .ok .joinRoom => s.joinRoom conn p.payload

/-- A lobby connection is gone. -/
def lobbyDisconnected (s : Server) (conn : ConnId) : Server :=
  { s with directory := (s.directory.unbindLobby conn).2 }

end Server

end FrameSync
