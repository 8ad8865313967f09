import FrameSync.Net.Address
import FrameSync.Net.Battle.Engine
import FrameSync.Net.Handler

/-!
# The poll task of the battle listener

One task owns the socket and a session for each address it has heard from. It handles datagrams and
commands and looks after the sessions from time to time. `sessions` finds a session by address,
`byConn` its address by connection number, and `peers` is the copy of `byConn` that senders look at.

A new address opens a connection; so does a known address that names another conversation, after
its old connection has been closed. A datagram that the reliable layer refuses, a message that is no
packet and a refused packet close the connection they arrived on and no other. A peer that has been
silent for too long is closed. `Move`, `apply` and `run` are a history of one task; `teardown` ends
it. In which order a task goes through its connections is left open, each time anew. The reliable
layer, the handler and the settings are parameters (`Service`).
-/

set_option autoImplicit false

namespace FrameSync.Net.Battle

open Wire Tick

/-- Fewer bytes name no conversation and are ignored. -/
def leastDatagram : Nat := 24

/-- What a poll task works with. -/
structure Service (κ σ : Type) where
  engine : Engine κ
  handler : Handler σ
  settings : BattleChannelSettings

/-- One open connection: its number, the conversation the peer names, the state of the reliable
layer, and when a datagram came in last, in nanoseconds. -/
structure Session (κ : Type) where
  conn : ConnId
  conv : UInt32
  engine : κ
  lastSeen : Nat
deriving DecidableEq, Repr

/-- What belongs to one poll task: the session of each address, and the address of each connection.
-/
structure Tables (κ : Type) where
  sessions : Table Address (Session κ)
  byConn : Table ConnId Address

/-- What the poll tasks of one listener share: the address of each open connection, the greatest
connection number given out so far, and the handler's state. `log` is what the handler has been
told, `asked` what it has asked to send and `out` the datagrams sent, all in order. -/
structure Shared (σ : Type) where
  peers : Table ConnId Address
  issued : Nat
  state : σ
  log : List Notice
  asked : List Delivery
  out : List (Address × Bytes)

/-- A poll task at work. -/
structure Poller (κ σ : Type) extends Tables κ, Shared σ

/-- What a sender orders. -/
inductive Command where
  | send (delivery : Delivery)
  | disconnect (conn : ConnId)
deriving DecidableEq, Repr

namespace Tables

/-- No sessions. -/
def empty {κ : Type} : Tables κ := ⟨Table.empty, Table.empty⟩

end Tables

namespace Shared

/-- No connections, and a handler in the given state. -/
def new {σ : Type} (state : σ) : Shared σ := ⟨Table.empty, 0, state, [], [], []⟩

end Shared

namespace Poller

variable {κ σ : Type}

/-- A task without sessions. -/
def new (shared : Shared σ) : Poller κ σ := ⟨.empty, shared⟩

/-! ## Connections -/

/-- Tell the handler something, which leaves it in the given state. -/
def tell (p : Poller κ σ) (n : Notice) (state : σ) : Poller κ σ :=
  { p with log := p.log ++ [n], state }

/-- Tell the handler that something went wrong on a connection. -/
def fail (s : Service κ σ) (p : Poller κ σ) (conn : ConnId) (e : TransportError) : Poller κ σ :=
  p.tell (.failed conn e) (s.handler.failed p.state conn e)

/-- Close a connection; one that is not open is left alone. -/
def close (s : Service κ σ) (p : Poller κ σ) (conn : ConnId) : Poller κ σ :=
  match p.byConn.get? conn with
  | none => p
  | some address =>
    { p.tell (.disconnected conn) (s.handler.disconnected p.state conn) with
      byConn := p.byConn.erase conn
      sessions := p.sessions.erase address
      peers := p.peers.erase conn }

/-- Open a connection for an address. -/
def openSession (s : Service κ σ) (p : Poller κ σ) (now : Nat) (address : Address) (conv : UInt32) :
    Poller κ σ :=
  let conn : ConnId := ⟨p.issued + 1⟩
  let home := address.canonical
  { p.tell (.connected conn home) (s.handler.connected p.state conn home) with
    issued := p.issued + 1
    sessions := p.sessions.insert address
      ⟨conn, conv, s.engine.start (.ofSettings s.settings) conv, now⟩
    byConn := p.byConn.insert conn address
    peers := p.peers.insert conn address }

/-- Make sure that the session of an address is one of the given conversation. -/
def ensureSession (s : Service κ σ) (p : Poller κ σ) (now : Nat) (address : Address) (conv : UInt32) :
    Poller κ σ :=
  match p.sessions.get? address with
  | none => p.openSession s now address conv
  | some session =>
    if session.conv = conv then p else (p.close s session.conn).openSession s now address conv

/-- The packet of a completed message, which must be all of it. -/
def unpack : Except String Bytes → Except TransportError Packet
  | .error reason => .error (.kcp reason)
  | .ok bytes =>
    match split bytes with
    | .error e => .error (.wire e)
    | .ok packet => .ok packet

/-- Give messages to the handler one by one. Answers whether all were accepted; the first that is
not ends the giving. -/
def dispatch (s : Service κ σ) (conn : ConnId) :
    Poller κ σ → List (Except String Bytes) → Bool × Poller κ σ
  | p, [] => (true, p)
  | p, message :: rest =>
    match unpack message with
    | .error e => (false, p.fail s conn e)
    | .ok packet =>
      let reaction := s.handler.packet p.state conn packet
      let p := { p.tell (.packet conn packet) reaction.state with
        asked := p.asked ++ reaction.sent }
      if reaction.accepted then dispatch s conn p rest else (false, p)

/-! ## What a task does -/

/-- A datagram comes in. -/
def datagram (s : Service κ σ) (p : Poller κ σ) (now : Nat) (address : Address) (data : Bytes) :
    Poller κ σ :=
  if data.length < leastDatagram then p
  else
    let p := p.ensureSession s now address (s.engine.conversation data)
    match p.sessions.get? address with
    | none => p
    | some session =>
      match s.engine.input session.engine data with
      | .error reason => (p.fail s session.conn (.kcp reason)).close s session.conn
      | .ok (messages, engine) =>
        -- The session is brought up to date first: handling a message may close it.
        let p := { p with
          sessions := p.sessions.insert address { session with engine, lastSeen := now } }
        let (accepted, p) := p.dispatch s session.conn messages
        if accepted then p else p.close s session.conn

/-- Carry out an order. A send to a connection that is gone is dropped. -/
def command (s : Service κ σ) (p : Poller κ σ) : Command → Poller κ σ
  | .disconnect conn => p.close s conn
  | .send d =>
    match p.byConn.get? d.conn with
    | none => p
    | some address =>
      match p.sessions.get? address with
      | none => p
      | some session =>
        let (datagrams, engine) :=
          s.engine.send session.engine (frame d.packet.command d.packet.payload)
        { p with
          sessions := p.sessions.insert address { session with engine }
          out := p.out ++ datagrams.map fun data => (address, data) }

/-- Look after one session: close it if its peer has been silent for too long or the reliable layer
gives up; else send what is due. -/
def tend (s : Service κ σ) (now : Nat) (p : Poller κ σ) (conn : ConnId) : Poller κ σ :=
  match p.byConn.get? conn with
  | none => p
  | some address =>
    match p.sessions.get? address with
    | none => p
    | some session =>
      if s.settings.idleTimeout < now - session.lastSeen then p.close s conn
      else
        match s.engine.update session.engine (now / millisecond) with
        | none => p.close s conn
        | some (datagrams, engine) =>
          { p with
            sessions := p.sessions.insert address { session with engine }
            out := p.out ++ datagrams.map fun data => (address, data) }

/-- Look after every session, in an order of choice. -/
def update (s : Service κ σ) (p : Poller κ σ) (now : Nat) (order : List ConnId) : Poller κ σ :=
  (p.byConn.keysBy order).foldl (tend s now) p

/-- The task ends: every connection of its own is closed, in an order of choice. -/
def teardown (s : Service κ σ) (p : Poller κ σ) (order : List ConnId) : Poller κ σ :=
  (p.byConn.keysBy order).foldl (close s) p

/-! ## Histories -/

/-- What can happen to a task: a datagram comes in, an order is carried out, or the sessions are
looked after in the given order. -/
inductive Move where
  | datagram (now : Nat) (address : Address) (data : Bytes)
  | command (command : Command)
  | update (now : Nat) (order : List ConnId)
deriving DecidableEq, Repr

/-- Make one move. -/
def apply (s : Service κ σ) (p : Poller κ σ) : Move → Poller κ σ
  | .datagram now address data => p.datagram s now address data
  | .command c => p.command s c
  | .update now order => p.update s now order

/-- Make the moves of a history in order. -/
def run (s : Service κ σ) (p : Poller κ σ) (ms : List Move) : Poller κ σ := ms.foldl (apply s) p

end Poller

end FrameSync.Net.Battle
