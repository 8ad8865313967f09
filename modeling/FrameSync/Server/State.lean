import FrameSync.Server.Join

/-!
# The server's state

What both channels share: the directory, the rooms, who may log in, the body format, and what the
lobby knows of the battle listener. What the program leaves open is in `Chance`. `Handled` is what
handling one packet comes to: the state after it, the deliveries in sending order, and the error, if
one was returned, that makes the listener close the connection. An error may come after the state
has changed.
-/

set_option autoImplicit false

namespace FrameSync

open Wire

namespace Server

/-- Who may log in: what comes of checking an account and a password. -/
structure Admission where
  check : String → String → Except DirectoryError Unit

namespace Admission

/-- Every account, with any password. -/
def everyone : Admission := ⟨fun _ _ => .ok ()⟩

/-- The listed accounts, with any password. -/
def only (accounts : List String) : Admission :=
  ⟨fun account _ =>
    if accounts.contains account then .ok () else .error (.authFailed (account ++ " not allowed"))⟩

end Admission

/-- What the program leaves open. The ticker of a room draws a number when it is started, `draw` of
the room. The lobby connections are listed in an order of their own each time, the `n`-th time in
that of `listing n`. -/
structure Chance where
  draw : RoomId → Nat
  listing : Nat → List ConnId → List ConnId
  listing_perm : ∀ n conns, (listing n conns).Perm conns

/-- Every ticker draws 0, and connections are listed upward. -/
def Chance.plain : Chance := ⟨fun _ => 0, fun _ conns => conns, fun _ conns => .refl conns⟩

/-- The battle listener as the lobby sees it, started when the first room fills up: whether it is
running, how many of the next attempts to start it fail, and the attempts so far. -/
structure Endpoint where
  active : Bool
  failures : Nat
  starts : Nat
deriving DecidableEq, Repr

/-- Try to start the listener unless it is running. -/
def Endpoint.ensureActive (e : Endpoint) : Endpoint :=
  if e.active then e
  else
    match e.failures with
    | 0 => { e with active := true, starts := e.starts + 1 }
    | n + 1 => { e with failures := n, starts := e.starts + 1 }

end Server

/-- The state of a server. `announced` counts how many times the lobby connections have been listed,
and `now` is in nanoseconds. -/
structure Server where
  directory : Directory
  registry : Registry
  admission : Server.Admission
  encoder : Encoder
  chance : Server.Chance
  announced : Nat
  endpoint : Server.Endpoint
  sink : Sink
  now : Nat

namespace Server

/-- What handling a packet comes to: the error returned to the listener, if any, what was sent, in
order, and the state afterwards. -/
structure Handled where
  error : Option WireError
  sent : List Delivery
  server : Server

/-- The packet is refused with an error. -/
def fail (s : Server) (e : WireError) : Handled := ⟨some e, [], s⟩

/-- Nothing is to be sent. -/
def silent (s : Server) : Handled := ⟨none, [], s⟩

/-- Send a body to each of several connections; a body that cannot be written goes nowhere and is
an error. -/
def sendAll {α : Type} [Body α] (s : Server) (conns : List ConnId) (command : UInt8) (body : α) :
    Handled :=
  match s.encoder.encode body with
  | .error e => s.fail e
  | .ok payload => ⟨none, Delivery.toEach conns command payload, s⟩

/-- Send a body to one connection. -/
def send {α : Type} [Body α] (s : Server) (conn : ConnId) (command : UInt8) (body : α) : Handled :=
  s.sendAll [conn] command body

/-- Go on after a packet has been handled so far; an error ends the handling. -/
def Handled.andThen (h : Handled) (next : Server → Handled) : Handled :=
  match h.error with
  | some _ => h
  | none =>
    let h' := next h.server
    { h' with sent := h.sent ++ h'.sent }

end Server

end FrameSync
