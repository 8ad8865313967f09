import FrameSync.Ids
import FrameSync.Wire.Error

/-!
# What can go wrong on a channel

`TransportError` collects the failures of the two listeners: of the socket, of the framing, of the
reliable datagram layer, and sends that have no open connection to go to.
-/

set_option autoImplicit false

namespace FrameSync.Net

open FrameSync.Wire

/-- A failure of a listener or of one of its connections: of the socket when it is bound, written or
read, of the framing, or of the reliable datagram layer; or a send that has no open connection or no
running listener to go to. -/
inductive TransportError where
  | bindFailed (reason : String)
  | sendFailed (reason : String)
  | receiveFailed (reason : String)
  | unknownConnection (conn : ConnId)
  | packetTooLarge (length limit : Nat)
  | wire (error : WireError)
  | kcp (text : String)
  | notRunning
deriving DecidableEq, Repr

/-- The name of the cause; a packet error keeps its own. -/
def TransportError.name : TransportError → String
  | bindFailed _ => "BindFailed"
  | sendFailed _ => "SendFailed"
  | receiveFailed _ => "ReceiveFailed"
  | unknownConnection _ => "UnknownConnection"
  | packetTooLarge _ _ => "PacketTooLarge"
  | wire error => error.name
  | kcp _ => "Kcp"
  | notRunning => "TransportNotRunning"

/-- The wording of a channel error; a packet error keeps its own. -/
def TransportError.message : TransportError → String
  | bindFailed reason => "bind failed: " ++ reason
  | sendFailed reason => "send failed: " ++ reason
  | receiveFailed reason => "receive failed: " ++ reason
  | unknownConnection conn => "unknown connection " ++ conn.label
  | packetTooLarge length limit =>
    "packet of " ++ Nat.repr length ++ " bytes exceeds limit of " ++ Nat.repr limit
  | wire error => error.message
  | kcp text => "kcp: " ++ text
  | notRunning => "transport not running"

end FrameSync.Net
