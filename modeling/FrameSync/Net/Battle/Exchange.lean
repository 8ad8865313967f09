import FrameSync.Net.Battle.Listener
import FrameSync.Net.Kcp.Conversation
import FrameSync.Settings

/-!
# A battle listener and its clients

An exchange is a battle listener over real conversations, its clients, each with an address of its
own, the link between them, and a clock. A step is something a client or the server does, followed
by the passing of time, in which the listener looks after its sessions every millisecond. What
clients send arrives at the start of the step; what the server sends arrives at once and is
acknowledged. On an isolated link no datagram arrives. A step that names a client that does not
exist has no outcome.
-/

set_option autoImplicit false

namespace FrameSync.Net.Battle

open Wire Kcp Tick

/-- A client of the listener, with its conversation and the messages that arrived during the step.
-/
structure Client where
  address : Address
  conversation : Conversation
  received : List Bytes
deriving DecidableEq, Repr

/-- A listener, its clients in order of creation, the link, and the time in nanoseconds. -/
structure Exchange (σ : Type) where
  listener : Listener Peer σ
  clients : List Client
  link : Link
  now : Nat

/-- What is done in a step. A client that is opened sends nothing yet; a client may start a new
conversation, or send a datagram of any content; on `idle` nothing happens but that time passes. -/
inductive Step where
  | start
  | openClient (conv : UInt32)
  | message (client : Nat) (bytes : Bytes)
  | converse (client : Nat) (conv : UInt32)
  | datagram (client : Nat) (bytes : Bytes)
  | send (conn : ConnId) (packet : Packet)
  | disconnect (conn : ConnId)
  | shutdown
  | restart
  | idle
deriving DecidableEq, Repr

/-- What a step answers; `inactive` if there is nothing to open a client for. -/
inductive Answer where
  | done
  | started (alreadyRunning : Bool)
  | opened (client : Nat)
  | inactive
  | failed (error : TransportError)
  | restarted
deriving DecidableEq, Repr

/-- The time that passes at the end of every step. -/
def stepTime : Nat := 50 * millisecond

namespace Exchange

variable {σ : Type}

/-- What a battle listener with the given settings works with. -/
def service (settings : BattleChannelSettings) (h : Handler σ) : Service Peer σ :=
  ⟨Peer.engine, h, settings⟩

/-- An exchange without clients, at time zero. -/
def new (state : σ) (link : Link) : Exchange σ := ⟨.new state, [], link, 0⟩

/-- The port of the listener. -/
def port : UInt16 := 10086

/-- What comes of binding the socket of the listener: there is nothing in its way. -/
def bound (s : Service Peer σ) : Except String Address := .ok (s.settings.bindAddress port)

/-- Datagrams of a client reach the listener, if anything does and it is running. -/
def deliver (s : Service Peer σ) (x : Exchange σ) (address : Address) (datagrams : List Bytes) :
    Exchange σ :=
  match x.link, x.listener.running with
  | .loopback, some r =>
    let move := fun data => Listener.Move.datagram r.generation x.now address data
    { x with listener := x.listener.run s (datagrams.map move) }
  | _, _ => x

/-- A datagram of the server reaches the client at an address. Answers the acknowledgements. -/
def reach (address : Address) (data : Bytes) : List Client → List Bytes × List Client
  | [] => ([], [])
  | c :: rest =>
    if c.address = address then
      let r := c.conversation.receive data
      (r.acks, { c with conversation := r.conversation, received := c.received ++ r.messages } ::
        rest)
    else
      let (acks, rest') := reach address data rest
      (acks, c :: rest')

/-- One datagram of the server arrives and is acknowledged. -/
def arrive (s : Service Peer σ) (x : Exchange σ) (d : Address × Bytes) : Exchange σ :=
  match x.link with
  | .isolated => x
  | .loopback =>
    let (acks, clients) := reach d.1 d.2 x.clients
    { x with clients }.deliver s d.1 acks

/-- The listener carries out its orders, and what it sends arrives. -/
def flush (s : Service Peer σ) (x : Exchange σ) : Exchange σ :=
  let listener := x.listener.serveAll s
  let out := listener.shared.out
  let x := { x with listener := { listener with shared := { listener.shared with out := [] } } }
  out.foldl (arrive s) x

/-- A step begins: what earlier steps told and sent is put away. -/
def begin (x : Exchange σ) : Exchange σ :=
  { x with
    listener := { x.listener with shared := { x.listener.shared with log := [] } }
    clients := x.clients.map fun c => { c with received := [] } }

/-- Datagrams of the client with the given index are sent. -/
def sendFrom (s : Service Peer σ) (x : Exchange σ) (client : Nat) (c : Client)
    (datagrams : List Bytes) : Exchange σ :=
  { x with clients := x.clients.set client c }.deliver s c.address datagrams

/-- What is done in a step, without the passing of time. -/
def perform (s : Service Peer σ) (x : Exchange σ) : Step → Option (Answer × Exchange σ)
  | .start =>
    match x.listener.start (bound s) with
    | (.error e, listener) => some (.failed e, { x with listener })
    | (.ok started, listener) => some (.started started.alreadyRunning, { x with listener })
  | .openClient conv =>
    if x.listener.isActive then
      some (.opened x.clients.length,
        { x with clients := x.clients ++ [⟨clientHome x.clients.length, .start conv, []⟩] })
    else some (.inactive, x)
  | .message client bytes =>
    match x.clients[client]? with
    | none => none
    | some c =>
      let (datagrams, conversation) := c.conversation.send bytes
      some (.done, x.sendFrom s client { c with conversation } datagrams)
  | .converse client conv =>
    match x.clients[client]? with
    | none => none
    | some c => some (.done, x.sendFrom s client { c with conversation := .start conv } [])
  | .datagram client bytes =>
    match x.clients[client]? with
    | none => none
    | some c => some (.done, x.sendFrom s client c [bytes])
  | .send conn packet =>
    match x.listener.send ⟨conn, packet⟩ with
    | .error e => some (.failed e, x)
    | .ok listener => some (.done, { x with listener })
  | .disconnect conn => some (.done, { x with listener := x.listener.disconnect conn })
  | .shutdown => some (.done, { x with listener := x.listener.shutdown })
  | .restart =>
    let (_, listener) := x.listener.shutdown.start (bound s)
    some (.restarted, { x with listener })
  | .idle => some (.done, x)

/-- The tasks that have been told to stop end, and the orders of the step are carried out. -/
def settle (s : Service Peer σ) (x : Exchange σ) : Exchange σ :=
  { x with listener := x.listener.settle s }.flush s

/-- The listener looks after its sessions. -/
def update (s : Service Peer σ) (x : Exchange σ) : Exchange σ :=
  match x.listener.running with
  | none => x
  | some r => { x with listener := x.listener.apply s (.update r.generation x.now []) }

/-- `n` milliseconds pass. -/
def pass (s : Service Peer σ) : Nat → Exchange σ → Exchange σ
  | 0, x => x
  | n + 1, x => pass s n ({ x with now := x.now + millisecond }.update s)

/-- One step from its beginning to its end, with `ms` milliseconds more than usual. -/
def step (s : Service Peer σ) (x : Exchange σ) (what : Step) (ms : Nat) :
    Option (Answer × Exchange σ) :=
  match x.begin.perform s what with
  | none => none
  | some (answer, x) => some (answer, (x.settle s).pass s (stepTime / millisecond + ms))

end Exchange

end FrameSync.Net.Battle
