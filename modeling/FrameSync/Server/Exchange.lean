import FrameSync.Net.Battle.Exchange
import FrameSync.Net.Lobby.Exchange
import FrameSync.Server.Run

/-!
# A whole server and its clients

A server behind both listeners, with lobby clients and battle clients on one link and one clock. The
listeners number their connections with one counter and share the server's state. The battle
listener starts when the server asks for it, after the step of the lobby that fills a room. Between
steps the tickers run, and what they send goes out through the battle listener.
-/

set_option autoImplicit false

namespace FrameSync

open Wire Net Tick

namespace Server

/-- The server as the handler of the lobby listener. -/
def lobbyHandler : Handler Server where
  packet s conn p :=
    let h := s.onLobby conn p
    ⟨h.server, h.sent, h.error.isNone⟩
  disconnected := lobbyDisconnected

/-- The server as the handler of the battle listener. -/
def battleHandler : Handler Server where
  packet s conn p :=
    let h := s.onBattle conn p
    ⟨h.server, h.sent, h.error.isNone⟩
  disconnected := battleDisconnected

/-- A server, its listeners and their clients. The server's state is that of the battle listener's
handler. -/
structure Exchange where
  lobby : Lobby.Exchange Server
  battle : Battle.Exchange Server
  channel : BattleChannelSettings

/-- What is done in a step: something on one of the channels, the server is told to stop, or nothing
but that time passes. -/
inductive Action where
  | lobby (step : Lobby.Step)
  | battle (step : Battle.Step)
  | shutdown
  | idle
deriving DecidableEq, Repr

/-- What a step answers. -/
inductive Exchange.Answer where
  | done
  | lobby (answer : Lobby.Answer)
  | battle (answer : Battle.Answer)
deriving DecidableEq, Repr

namespace Exchange

/-- What a server starts with under the given settings: everyone may log in, and bodies are written
by their layouts. -/
def setupOf (settings : Settings) : Setup :=
  { playerBase := settings.playerBase
    roomBase := settings.roomBase
    battle := settings.battle
    admission := .everyone
    encoder := .standard
    startFailures := 0 }

/-- A server without clients, at time zero. -/
def new (setup : Setup) (lobby : LobbySettings) (channel : BattleChannelSettings) (link : Link) :
    Exchange :=
  ⟨.new lobby.maxPayload (Server.new setup) link, .new (Server.new setup) link, channel⟩

/-- A server with the given settings, without clients, at time zero. -/
def ofSettings (settings : Settings) (link : Link) : Exchange :=
  new (setupOf settings) settings.lobby settings.channel link

/-- The server's state. -/
def server (x : Exchange) : Server := x.battle.listener.shared.state

/-- Has the server been told to stop? -/
def stopped (x : Exchange) : Bool := x.lobby.listener.stopped

/-- What the battle listener works with. -/
def service (x : Exchange) : Battle.Service Kcp.Peer Server :=
  Battle.Exchange.service x.channel battleHandler

/-- Put another state in. -/
def withServer (x : Exchange) (s : Server) : Exchange :=
  { x with battle.listener.shared.state := s }

/-- Let the lobby do something: it sees the server's state, the counter and whether the battle
listener runs, and leaves what it makes of them. -/
def onLobby {α : Type} (x : Exchange)
    (f : Lobby.Exchange Server → Option (α × Lobby.Exchange Server)) : Option (α × Exchange) :=
  let server := x.server
  let endpoint := { server.endpoint with active := x.battle.listener.isActive }
  let issued := max x.lobby.listener.issued x.battle.listener.shared.issued
  match f { x.lobby with
    listener := { x.lobby.listener with state := { server with endpoint }, issued } } with
  | none => none
  | some (a, lobby) =>
    let x := { x with lobby }.withServer lobby.listener.state
    some (a, { x with battle.listener.shared.issued := lobby.listener.issued })

/-- Start the battle listener if the server has asked for it. -/
def startBattle (x : Exchange) : Exchange :=
  if x.server.endpoint.active && !x.battle.listener.isActive then
    { x with
      battle.listener := (x.battle.listener.start (Battle.Exchange.bound x.service)).2 }
  else x

/-- Carry out the orders on the battle channel. -/
def flush (x : Exchange) : Exchange := { x with battle := x.battle.settle x.service }

/-- A millisecond passes: the tickers run, and the battle listener looks after its sessions. -/
def tick (x : Exchange) : Exchange :=
  let server := x.server
  let (firings, server) := server.advance server.now (server.now + millisecond)
  let x := x.withServer server
  let x := { x with
    battle.listener := x.battle.listener.sendAll (firings.flatMap Room.Firing.sent)
    battle.now := server.now }.flush
  { x with battle := x.battle.update x.service }

/-- `n` milliseconds pass. -/
def pass : Nat → Exchange → Exchange
  | 0, x => x
  | n + 1, x => pass n x.tick

/-- Stop both listeners and every room. -/
def shutdown (x : Exchange) : Exchange :=
  let server := x.server
  let x := x.withServer { server with registry := server.registry.shutdown }
  { x with
    lobby.listener := x.lobby.listener.apply lobbyHandler .shutdown
    battle.listener := x.battle.listener.shutdown }

/-- What is done in a step, without the passing of time. -/
def perform (x : Exchange) : Action → Option (Answer × Exchange)
  | .lobby step =>
    match x.onLobby fun l => l.perform lobbyHandler ⟨l.listener.issued + 1⟩ step with
    | none => none
    | some (a, x) => some (.lobby a, x.startBattle)
  | .battle step =>
    match x.battle.perform x.service step with
    | none => none
    | some (a, battle) => some (.battle a, { x with battle })
  | .shutdown => some (.done, x.shutdown)
  | .idle => some (.done, x)

/-- What the lobby listener does at the end of a step. -/
def conclude (x : Exchange) : Exchange :=
  match x.onLobby fun l => some ((), l.conclude lobbyHandler) with
  | none => x
  | some (_, x) => x

/-- One step from its beginning to its end, with `ms` milliseconds more than usual. -/
def step (x : Exchange) (what : Action) (ms : Nat) : Option (Answer × Exchange) :=
  match { x with lobby := x.lobby.begin, battle := x.battle.begin }.perform what with
  | none => none
  | some (answer, x) =>
    some (answer, pass (Battle.stepTime / millisecond + ms) x.conclude.flush)

end Exchange

end Server

end FrameSync
