import FrameSync.Net.Handler
import FrameSync.Net.Reassembly
import FrameSync.Table

/-!
# The lobby listener

Each accepted connection has a reader and a writer. The reader takes whole packets out of the bytes
that have arrived and gives them to the handler one by one; it ends at a framing error, at a refused
packet, at the end of the stream, be it the peer's or a failure of the socket, or when it notices
that the connection has been told to stop. When the reader ends, the connection is listed no more
and the handler is told that it is gone. The writer ends when it notices the stop or when a write
fails, and a failed write stops the connection.

`Move` is everything that can happen, one connection at a time and in any order: `apply` is one
move, `run` a history. A move that cannot happen changes nothing; nor does a connection that cannot
be accepted, which is no move. `log` is what the handler has been told so far.
-/

set_option autoImplicit false

namespace FrameSync.Net.Lobby

open Wire

/-- How a stream ends: the peer closes its side, or a read fails. -/
inductive Ending where
  | closed
  | failed (reason : String)
deriving DecidableEq, Repr

/-- One connection, from its acceptance on: where its peer is, the bytes that have arrived and are
in no packet yet, how the stream has ended if it has, whether the connection has been told to stop,
and whether reader and writer are still there. -/
structure Connection where
  address : Address
  buffer : Bytes
  ending : Option Ending
  cancelled : Bool
  reading : Bool
  writing : Bool
deriving DecidableEq, Repr

namespace Connection

/-- A connection just accepted; `cancelled` if the listener has stopped already. -/
def accepted (address : Address) (cancelled : Bool) : Connection :=
  ⟨address, [], none, cancelled, true, true⟩

/-- Has the stream ended? -/
def ended (c : Connection) : Bool := c.ending.isSome

/-- The stream ends, if it has not ended before. -/
def close (c : Connection) (ending : Ending) : Connection :=
  { c with ending := c.ending.or (some ending) }

/-- What the reader finds when it looks: no whole packet where more bytes may come, a packet and the
bytes behind it, bytes that form no packet or a stream that has failed, or the end of the stream
between two packets. -/
inductive Found where
  | nothing
  | packet (packet : Packet) (rest : Bytes)
  | broken (error : TransportError)
  | over
deriving DecidableEq, Repr

/-- Look at the bytes that have arrived. -/
def look (limit : Nat) (c : Connection) : Found :=
  match Reassembly.next limit c.buffer with
  | .error e => .broken e
  | .ok (some (p, rest)) => .packet p rest
  | .ok none =>
    match c.ending with
    | none => .nothing
    | some .closed => if c.buffer = [] then .over else .broken Reassembly.bytesRemaining
    | some (.failed reason) => .broken (.receiveFailed reason)

end Connection

/-- A lobby listener with its handler's state: the largest payload a client may announce, the
greatest connection number given out so far, every connection ever accepted, and whether the
listener has been shut down. `log` is what the handler has been told and `written` what has been
handed to the writers, in order. -/
structure Listener (σ : Type) where
  limit : Nat
  issued : Nat
  connections : Table ConnId Connection
  stopped : Bool
  state : σ
  log : List Notice
  written : List Delivery

namespace Listener

variable {σ : Type}

/-- A listener that has accepted nothing. -/
def new (limit : Nat) (state : σ) : Listener σ :=
  { limit, issued := 0, connections := Table.empty, stopped := false, state, log := [], written := [] }

/-! ## Views -/

/-- Is the connection listed? -/
def listed (l : Listener σ) (conn : ConnId) : Bool :=
  ((l.connections.get? conn).map Connection.reading).getD false

/-- The listed connections, ascending. -/
def openConns (l : Listener σ) : List ConnId := (l.connections.filter fun _ c => c.reading).keys

/-- Where the peer of a listed connection is. -/
def peerAddress (l : Listener σ) (conn : ConnId) : Option Address :=
  ((l.connections.get? conn).filter Connection.reading).map Connection.address

/-- Can a packet be sent to the connection? -/
def reachable (l : Listener σ) (conn : ConnId) : Bool :=
  ((l.connections.get? conn).map fun c => c.reading && c.writing).getD false

/-! ## Parts of a move -/

/-- Tell the handler something, which leaves it in the given state. -/
def tell (l : Listener σ) (n : Notice) (state : σ) : Listener σ :=
  { l with log := l.log ++ [n], state }

/-- Tell the handler that something went wrong on a connection. -/
def fail (h : Handler σ) (l : Listener σ) (conn : ConnId) (e : TransportError) : Listener σ :=
  l.tell (.failed conn e) (h.failed l.state conn e)

/-- Change a connection. -/
def modify (l : Listener σ) (conn : ConnId) (f : Connection → Connection) : Listener σ :=
  { l with connections := l.connections.update conn f }

/-- Hand packets to the writers; those that cannot be sent are dropped. -/
def write (l : Listener σ) (ds : List Delivery) : Listener σ :=
  { l with written := l.written ++ ds.filter fun d => l.reachable d.conn }

/-- The reader of a connection ends. -/
def finish (h : Handler σ) (l : Listener σ) (conn : ConnId) : Listener σ :=
  let l := l.modify conn fun c => { c with cancelled := true, reading := false }
  l.tell (.disconnected conn) (h.disconnected l.state conn)

/-- Accept a connection of a peer under the given number. -/
def acceptAs (h : Handler σ) (l : Listener σ) (conn : ConnId) (address : Address) : Listener σ :=
  { l.tell (.connected conn address) (h.connected l.state conn address) with
    issued := max l.issued conn.num
    connections := l.connections.insert conn (.accepted address l.stopped) }

/-- The reader takes the next packet, or ends. `none` if there is nothing to take. -/
def read? (h : Handler σ) (l : Listener σ) (conn : ConnId) : Option (Listener σ) :=
  match l.connections.get? conn with
  | none => none
  | some c =>
    if !c.reading then none
    else
      match c.look l.limit with
      | .nothing => none
      | .over => some (l.finish h conn)
      | .broken e => some ((l.fail h conn e).finish h conn)
      | .packet p rest =>
        let reaction := h.packet l.state conn p
        let taken := l.modify conn fun c => { c with buffer := rest }
        let l := taken.tell (.packet conn p) reaction.state
        -- What a refused packet has caused to be sent goes to the writers all the same.
        let l := l.write reaction.sent
        if reaction.accepted then some l else some (l.finish h conn)

/-! ## Moves -/

/-- What can happen to a listener: a client connects; bytes arrive; the peer ends its side of the
stream, or a read fails; the reader takes what it finds; the server tells a connection to stop, or
every connection and accepts no more; reader or writer notice that; a write fails. -/
inductive Move where
  | accept (address : Address)
  | arrive (conn : ConnId) (bytes : Bytes)
  | hangUp (conn : ConnId)
  | readFails (conn : ConnId) (reason : String)
  | read (conn : ConnId)
  | disconnect (conn : ConnId)
  | shutdown
  | readerStops (conn : ConnId)
  | writerStops (conn : ConnId)
  | writeFails (conn : ConnId) (reason : String)
deriving DecidableEq, Repr

/-- Make one move. -/
def apply (h : Handler σ) (l : Listener σ) : Move → Listener σ
  | .accept address => l.acceptAs h ⟨l.issued + 1⟩ address
  | .arrive conn bytes =>
    l.modify conn fun c => if c.ended then c else { c with buffer := c.buffer ++ bytes }
  | .hangUp conn => l.modify conn fun c => c.close .closed
  | .readFails conn reason => l.modify conn fun c => c.close (.failed reason)
  | .read conn => (l.read? h conn).getD l
  | .disconnect conn =>
    l.modify conn fun c => if c.reading then { c with cancelled := true } else c
  | .shutdown =>
    { l with
      stopped := true
      connections := l.connections.mapValues fun c => { c with cancelled := true } }
  | .readerStops conn =>
    match l.connections.get? conn with
    | none => l
    | some c => if c.reading && c.cancelled then l.finish h conn else l
  | .writerStops conn =>
    l.modify conn fun c => if c.cancelled then { c with writing := false } else c
  | .writeFails conn reason =>
    match l.connections.get? conn with
    | none => l
    | some c =>
      if c.writing then
        (l.modify conn fun c => { c with cancelled := true, writing := false }).fail h conn
          (.sendFailed reason)
      else l

/-- Make the moves of a history in order. -/
def run (h : Handler σ) (l : Listener σ) (ms : List Move) : Listener σ := ms.foldl (apply h) l

/-- Send a packet. -/
def send (l : Listener σ) (d : Delivery) : Except TransportError (Listener σ) :=
  if l.reachable d.conn then .ok (l.write [d]) else .error (.unknownConnection d.conn)

/-! ## Settling -/

/-- Let the reader of a connection take up to `n` things. -/
def readUpTo (h : Handler σ) : Nat → Listener σ → ConnId → Listener σ
  | 0, l, _ => l
  | n + 1, l, conn =>
    match l.read? h conn with
    | none => l
    | some l' => readUpTo h n l' conn

/-- Let the reader of a connection take all there is. A packet takes at least one byte of the
buffer, so the buffer's length and one more bound what can be taken. -/
def readAll (h : Handler σ) (l : Listener σ) (conn : ConnId) : Listener σ :=
  match l.connections.get? conn with
  | none => l
  | some c => readUpTo h (c.buffer.length + 1) l conn

/-- Let everyone who has been told to stop notice it. -/
def settle (h : Handler σ) (l : Listener σ) : Listener σ :=
  (l.connections.filter fun _ c => c.cancelled).keys.foldl
    (fun l conn => (l.apply h (.readerStops conn)).apply h (.writerStops conn)) l

end Listener

end FrameSync.Net.Lobby
