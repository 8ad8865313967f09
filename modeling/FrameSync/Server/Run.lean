import FrameSync.Server.Lobby
import FrameSync.Room.Queue
import FrameSync.Server.Battle

/-!
# Runs of a server

Everything that can happen to a server is an event: a packet on either channel, a connection that
comes or goes, an order to the rooms, the passing of time. `step` handles one event to completion
and reports what was sent meanwhile on each channel; `run` handles a sequence.
-/

set_option autoImplicit false

namespace FrameSync

open Wire Tick

namespace Server

/-- What happens to a server. From a `notice` nothing follows: a connection of either channel is
accepted or reports an error. Sends to a connection that is cut fail from then on. Time passes
evenly (`sleep`), or the clock jumps and what became due runs late (`jump`). -/
inductive Event where
  | lobby (conn : ConnId) (packet : Packet)
  | battle (conn : ConnId) (packet : Packet)
  | notice
  | lobbyDisconnected (conn : ConnId)
  | battleDisconnected (conn : ConnId)
  | cut (conn : ConnId)
  | closeRoom (room : RoomId)
  | reclaim
  | shutdownRooms
  | sleep (ms : Nat)
  | jump (ms : Nat)
deriving DecidableEq, Repr

/-- What an event answers. If a packet is refused, the listener closes the connection. -/
inductive Answer where
  | done
  | packetRefused (error : WireError)
  | roomRefused (error : RoomError)
  | reclaimed (removed : Nat)
deriving DecidableEq, Repr

/-- An answer, what was sent meanwhile on either channel, in order, and the ticks that fired. -/
structure Report where
  answer : Answer
  lobby : List Delivery
  battle : List Delivery
  ticks : List Room.Firing
deriving DecidableEq, Repr

/-- The settings a server starts with. The first player and the first room get the number after
their base; `startFailures` attempts to start the battle listener fail; `chance` and `rota` stand
for what is left open. -/
structure Setup where
  playerBase : UInt32
  roomBase : UInt32
  battle : BattleConfig
  admission : Admission
  encoder : Encoder
  startFailures : Nat
  chance : Chance := .plain
  rota : Room.Rota := .inTurn

/-- A server at time zero. -/
def new (setup : Setup) : Server :=
  { directory := Directory.empty setup.playerBase
    registry := Registry.new setup.roomBase setup.battle setup.rota
    admission := setup.admission
    encoder := setup.encoder
    chance := setup.chance
    announced := 0
    endpoint := ⟨false, setup.startFailures, 0⟩
    sink := .unbroken
    now := 0 }

/-- What the listener is told of a handled packet. -/
def Handled.answer (h : Handled) : Answer :=
  match h.error with
  | none => .done
  | some e => .packetRefused e

/-- Let the tickers run from `start` to `target`. Answers the ticks in order. -/
def advance (s : Server) (start target : Nat) : List Room.Firing × Server :=
  let (firings, registry) := s.registry.advance s.encoder start target
  (firings, { s with registry, now := target })

/-- Nothing was sent. -/
def Report.quiet (answer : Answer) : Report := ⟨answer, [], [], []⟩

/-- Time has passed and the given ticks have fired. -/
def Report.passed (sink : Sink) (ticks : List Room.Firing) : Report :=
  ⟨.done, [], sink.accept (ticks.flatMap Room.Firing.sent), ticks⟩

/-- Handle one event. -/
def step (s : Server) : Event → Report × Server
  | .lobby conn p =>
    let h := s.onLobby conn p
    (⟨h.answer, s.sink.accept h.sent, [], []⟩, h.server)
  | .battle conn p =>
    let h := s.onBattle conn p
    (⟨h.answer, [], s.sink.accept h.sent, []⟩, h.server)
  | .notice => (.quiet .done, s)
  | .lobbyDisconnected conn => (.quiet .done, s.lobbyDisconnected conn)
  | .battleDisconnected conn => (.quiet .done, s.battleDisconnected conn)
  | .cut conn => (.quiet .done, { s with sink := s.sink.cut conn })
  | .closeRoom room =>
    match s.registry.close room with
    | .error e => (.quiet (.roomRefused e), s)
    | .ok registry => (.quiet .done, { s with registry })
  | .reclaim =>
    let (dropped, registry) := s.registry.reclaim
    (.quiet (.reclaimed dropped.size), { s with registry })
  | .shutdownRooms => (.quiet .done, { s with registry := s.registry.shutdown })
  | .sleep ms =>
    let (ticks, s') := s.advance s.now (s.now + ms * millisecond)
    (.passed s.sink ticks, s')
  | .jump ms =>
    let target := s.now + ms * millisecond
    let (ticks, s') := s.advance target target
    (.passed s.sink ticks, s')

/-- Handle a sequence of events. -/
def run : Server → List Event → List Report × Server
  | s, [] => ([], s)
  | s, e :: es =>
    let (report, s') := s.step e
    let (reports, s'') := run s' es
    (report :: reports, s'')

/-- The states a server can be in. -/
inductive Reachable (setup : Setup) : Server → Prop where
  | new : Reachable setup (Server.new setup)
  | step {s : Server} (e : Event) : Reachable setup s → Reachable setup (s.step e).2

end Server

end FrameSync
