import FrameSync.Net.Lobby.Listener

/-!
# A lobby listener and its clients

An exchange is a lobby listener, its clients and the link between them. A step is something a client
or the server does; the step ends when everything sent has arrived and everyone has taken what there
is to take. On an isolated link no client can connect. A step that names a client that does not
exist has no outcome.
-/

set_option autoImplicit false

namespace FrameSync.Net.Lobby

open Wire

/-- A client of the listener, with the bytes that arrived during the step. It is `closed` once it
has seen the server close the connection, and `gone` once it has closed it itself; from then on it
sees nothing. -/
structure Client where
  conn : ConnId
  received : Bytes
  closed : Bool
  gone : Bool
deriving DecidableEq, Repr

/-- A listener, its clients in order of creation, and the link. -/
structure Exchange (σ : Type) where
  listener : Listener σ
  clients : List Client
  link : Link

/-- What is done in a step. A client may end its sending side only, or close the connection. -/
inductive Step where
  | connect
  | write (client : Nat) (bytes : Bytes)
  | halfClose (client : Nat)
  | close (client : Nat)
  | send (conn : ConnId) (packet : Packet)
  | disconnect (conn : ConnId)
  | shutdown
deriving DecidableEq, Repr

/-- What a step answers; `refused` if nobody listens. -/
inductive Answer where
  | done
  | connected (client : Nat)
  | refused
  | failed (error : TransportError)
deriving DecidableEq, Repr

namespace Client

/-- What a client sees at the end of a step: what was written to it, and whether it is still
listed. -/
def observe {σ : Type} (l : Listener σ) (c : Client) : Client :=
  if c.gone then { c with received := [] }
  else
    { c with
      received := (l.written.filter fun d => d.conn = c.conn).flatMap fun d =>
        frame d.packet.command d.packet.payload
      closed := c.closed || !l.listed c.conn }

end Client

namespace Exchange

variable {σ : Type}

/-- An exchange without clients. -/
def new (limit : Nat) (state : σ) (link : Link) : Exchange σ := ⟨.new limit state, [], link⟩

/-- A step begins: what earlier steps told and wrote is put away. -/
def begin (x : Exchange σ) : Exchange σ :=
  { x with listener := { x.listener with log := [], written := [] } }

/-- The step ends: everyone takes what there is, and the clients look. -/
def conclude (h : Handler σ) (x : Exchange σ) : Exchange σ :=
  let listener := x.listener.settle h
  { x with listener, clients := x.clients.map (Client.observe listener) }

/-- Make a move on the listener and let the reader of a connection take what there is. -/
def act (h : Handler σ) (x : Exchange σ) (conn : ConnId) (m : Listener.Move) : Exchange σ :=
  { x with listener := (x.listener.apply h m).readAll h conn }

/-- A client connects under the given number. -/
def connect (h : Handler σ) (x : Exchange σ) (conn : ConnId) : Answer × Exchange σ :=
  match x.link with
  | .isolated => (.refused, x)
  | .loopback =>
    if x.listener.stopped then (.refused, x)
    else
      (.connected x.clients.length,
        { x with
          listener := x.listener.acceptAs h conn (clientHome x.clients.length)
          clients := x.clients ++ [⟨conn, [], false, false⟩] })

/-- What is done in a step, without the end of the step; `conn` is the number for a connection that
is made. -/
def perform (h : Handler σ) (x : Exchange σ) (conn : ConnId) :
    Step → Option (Answer × Exchange σ)
  | .connect => some (x.connect h conn)
  | .write client bytes =>
    match x.clients[client]? with
    | none => none
    | some c => some (.done, x.act h c.conn (.arrive c.conn bytes))
  | .halfClose client =>
    match x.clients[client]? with
    | none => none
    | some c => some (.done, x.act h c.conn (.hangUp c.conn))
  | .close client =>
    match x.clients[client]? with
    | none => none
    | some c =>
      let x := x.act h c.conn (.hangUp c.conn)
      some (.done, { x with clients := x.clients.set client { c with gone := true } })
  | .send conn packet =>
    match x.listener.send ⟨conn, packet⟩ with
    | .error e => some (.failed e, x)
    | .ok listener => some (.done, { x with listener })
  | .disconnect conn => some (.done, { x with listener := x.listener.apply h (.disconnect conn) })
  | .shutdown => some (.done, { x with listener := x.listener.apply h .shutdown })

/-- One step from its beginning to its end. -/
def step (h : Handler σ) (x : Exchange σ) (s : Step) : Option (Answer × Exchange σ) :=
  match x.begin.perform h ⟨x.listener.issued + 1⟩ s with
  | none => none
  | some (answer, x) => some (answer, x.conclude h)

end Exchange

end FrameSync.Net.Lobby
