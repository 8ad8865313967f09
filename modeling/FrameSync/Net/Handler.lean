import FrameSync.Delivery
import FrameSync.Net.Address
import FrameSync.Net.Error

/-!
# What a listener tells its handler

Both listeners report to a handler in the same four words (`Notice`), each of which may change the
handler's state. A packet is accepted or refused besides, and may cause packets to be sent
(`Reaction`). A listener closes the connection whose packet was refused.
-/

set_option autoImplicit false

namespace FrameSync.Net

open Wire

/-- What a handler is told: a connection is open, a packet has come in, something went wrong on a
connection, a connection is gone. -/
inductive Notice where
  | connected (conn : ConnId) (address : Address)
  | packet (conn : ConnId) (packet : Packet)
  | failed (conn : ConnId) (error : TransportError)
  | disconnected (conn : ConnId)
deriving DecidableEq, Repr

/-- The connection a notice is about. -/
def Notice.conn : Notice → ConnId
  | connected conn _ => conn
  | packet conn _ => conn
  | failed conn _ => conn
  | disconnected conn => conn

/-- Notices grouped by connection, ascending; each connection keeps its order. -/
def Notice.byConn (ns : List Notice) : List Notice :=
  ns.mergeSort fun a b => a.conn.num ≤ b.conn.num

/-- What handling a packet comes to: the handler's state, the packets sent meanwhile, in order, and
whether the packet is accepted. -/
structure Reaction (σ : Type) where
  state : σ
  sent : List Delivery
  accepted : Bool

/-- The handler of a listener: what becomes of its state when it is told something. A handler need
only say what it does with packets. What it sends or closes on other occasions stands in a history
as a move of its own. -/
structure Handler (σ : Type) where
  connected : σ → ConnId → Address → σ := fun state _ _ => state
  packet : σ → ConnId → Packet → Reaction σ
  failed : σ → ConnId → TransportError → σ := fun state _ _ => state
  disconnected : σ → ConnId → σ := fun state _ => state

/-- A handler without state that refuses some commands and sends packets of some back. -/
def Handler.echo (echoed refused : List UInt8) : Handler Unit where
  packet _ conn p :=
    if refused.contains p.command then ⟨(), [], false⟩
    else ⟨(), if echoed.contains p.command then [⟨conn, p⟩] else [], true⟩

/-- The link between clients and listeners. Everything sent arrives, in order; or nothing arrives,
and no connection can be made. -/
inductive Link where
  | loopback
  | isolated
deriving DecidableEq, Repr

/-- Where the `n`-th client of a listener is. -/
def clientHome (n : Nat) : Address := ⟨.localhost, UInt16.ofNat (20000 + n)⟩

end FrameSync.Net
