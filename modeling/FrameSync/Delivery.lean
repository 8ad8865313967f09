import FrameSync.Ids
import FrameSync.Wire.Header

/-!
# Packets on their way out

Nothing in the server writes to a socket. What it sends is a list of deliveries, in sending order;
a delivery to a connection that cannot be reached is dropped without further effect
(`Sink.accept`).
-/

set_option autoImplicit false

namespace FrameSync

open Wire

/-- A packet and the connection it is for. -/
structure Delivery where
  conn : ConnId
  packet : Packet
deriving DecidableEq, Repr

namespace Delivery

/-- One packet for each of several connections, in their order. -/
def toEach (conns : List ConnId) (command : UInt8) (payload : Bytes) : List Delivery :=
  conns.map fun c => ⟨c, ⟨command, payload⟩⟩

/-- The deliveries grouped by connection, ascending; each connection keeps its order. -/
def byConn (ds : List Delivery) : List Delivery :=
  ds.mergeSort fun a b => a.conn.num ≤ b.conn.num

end Delivery

/-- A channel's way out: every connection is reached but the listed ones. -/
structure Sink where
  unreachable : List ConnId
deriving DecidableEq, Repr

namespace Sink

/-- A sink that reaches every connection. -/
def unbroken : Sink := ⟨[]⟩

/-- From now on, sends to a connection fail. -/
def cut (s : Sink) (conn : ConnId) : Sink := ⟨conn :: s.unreachable⟩

/-- The deliveries that arrive. -/
def accept (s : Sink) (ds : List Delivery) : List Delivery :=
  ds.filter fun d => !s.unreachable.contains d.conn

end Sink

end FrameSync
