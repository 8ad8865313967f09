import FrameSync.Server.State
import FrameSync.Wire.Command

/-!
# The battle channel

A battle connection speaks for the player it was bound to by `connect`; inputs and integrity values
carry no player and are taken for that one. The `ready` that completes a room is answered first,
then the start is announced, then the ticker is started. Inputs that cannot be recorded are dropped
without an answer.
-/

set_option autoImplicit false

namespace FrameSync

open Wire

namespace Server

/-- The player a battle connection speaks for, its room and the slot of that room. -/
def resolve (s : Server) (conn : ConnId) : Option (PlayerId × RoomId × Room.Slot) :=
  match s.directory.playerByBattle conn with
  | none => none
  | some player =>
    match s.directory.roomOf player with
    | none => none
    | some room =>
      match s.registry.get room with
      | .error _ => none
      | .ok slot => some (player, room, slot)

/-- Handle the binding of a battle connection. A player that is ready keeps receiving frames, on
the new connection. -/
def connect (s : Server) (conn : ConnId) (payload : Bytes) : Handled :=
  match readBody ConnectRequest payload with
  | .error e => s.fail e
  | .ok request =>
    match s.directory.bindBattle request.player conn with
    | .error _ => s.send conn BattleCommand.connect.toByte (ConnectReply.mk .playerNotFound)
    | .ok (_, directory) =>
      let registry :=
        match directory.roomOf request.player with
        | none => s.registry
        | some room =>
          match s.registry.get room with
          | .error _ => s.registry
          | .ok slot => s.registry.put room (slot.rebind request.player conn).2
      { s with directory, registry }.send conn BattleCommand.connect.toByte (ConnectReply.mk .ok)

/-- Refuse a `ready`. -/
def refuseReady (s : Server) (conn : ConnId) (room : RoomId) (code : BattleCode) : Handled :=
  s.send conn BattleCommand.ready.toByte (ReadyReply.mk code room [])

/-- Start the ticker of a room, with the number it draws. -/
def spawnTicker (s : Server) (room : RoomId) : Server :=
  match s.registry.get room with
  | .error _ => s
  | .ok slot =>
    { s with registry := s.registry.put room (slot.spawnTicker s.now (s.chance.draw room)).2 }

/-- Handle a `ready`. -/
def ready (s : Server) (conn : ConnId) (payload : Bytes) : Handled :=
  match readBody ReadyRequest payload with
  | .error e => s.fail e
  | .ok request =>
    if s.directory.playerByBattle conn ≠ some request.player then
      s.refuseReady conn request.room .playerNotFound
    else
      match s.registry.get request.room with
      | .error e => s.refuseReady conn request.room e.battleCode
      | .ok slot =>
        match slot.ready request.player conn s.now with
        | .error e => s.refuseReady conn request.room e.battleCode
        | .ok (outcome, slot') =>
          let s := { s with registry := s.registry.put request.room slot' }
          -- The roster reaches everyone before the start is announced; the ticker comes last.
          let replied := s.sendAll outcome.recipients BattleCommand.ready.toByte
            (ReadyReply.mk .ok request.room outcome.roster)
          replied.andThen fun s =>
            match outcome.start with
            | none => s.silent
            | some announcement =>
              (s.sendAll outcome.recipients BattleCommand.start.toByte announcement).andThen
                fun s => (s.spawnTicker request.room).silent

/-- Handle a heartbeat; whoever asks is answered. -/
def heartbeat (s : Server) (conn : ConnId) (payload : Bytes) : Handled :=
  match readBody HeartbeatRequest payload with
  | .error e => s.fail e
  | .ok request =>
    s.send conn BattleCommand.heartbeat.toByte (HeartbeatReply.mk .ok request.timestamp)

/-- Handle an input. -/
def frame (s : Server) (conn : ConnId) (payload : Bytes) : Handled :=
  match readBody FrameInput payload with
  | .error e => s.fail e
  | .ok input =>
    match s.resolve conn with
    | none => s.silent
    | some (player, id, slot) =>
      match slot.room.recordInput player input with
      | .error _ => s.silent
      | .ok room => { s with registry := s.registry.put id { slot with room } }.silent

/-- Handle an integrity value. The verdict goes to the current battle connection of every
member. -/
def check (s : Server) (conn : ConnId) (payload : Bytes) : Handled :=
  match readBody CheckRequest payload with
  | .error e => s.fail e
  | .ok request =>
    match s.resolve conn with
    | none =>
      s.send conn BattleCommand.check.toByte (CheckReply.mk .playerNotFound request.frame)
    | some (player, id, slot) =>
      match slot.room.submitCheck player request with
      | .error e =>
        s.send conn BattleCommand.check.toByte (CheckReply.mk e.battleCode request.frame)
      | .ok (verdict, room) =>
        let s := { s with registry := s.registry.put id { slot with room } }
        match verdict with
        | none => s.silent
        | some verdict =>
          -- Members that are not ready get the verdict too, so the directory is asked for them.
          s.sendAll (verdict.members.filterMap s.directory.battleConn)
            BattleCommand.check.toByte verdict.reply

/-- Handle a battle packet. A client has nothing to start. -/
def onBattle (s : Server) (conn : ConnId) (p : Packet) : Handled :=
  match BattleCommand.ofByte p.command with
  | .error e => s.fail e
  | .ok .connect => s.connect conn p.payload
  | .ok .ready => s.ready conn p.payload
  | .ok .heartbeat => s.heartbeat conn p.payload
  | .ok .frame => s.frame conn p.payload
  | .ok .start => s.silent
  | .ok .check => s.check conn p.payload

/-- A battle connection is gone: its player is ready no more in the room it has joined. -/
def battleDisconnected (s : Server) (conn : ConnId) : Server :=
  match s.directory.unbindBattle conn with
  | (none, _) => s
  | (some player, directory) =>
    let s := { s with directory }
    match directory.roomOf player with
    | none => s
    | some room =>
      match s.registry.get room with
      | .error _ => s
      | .ok slot => { s with registry := s.registry.put room (slot.disconnect player).2 }

end Server

end FrameSync
