import FrameSync.Net.Kcp.Peer

/-!
# The client's end of a conversation

A plain client: it cuts messages into segments of 1000 bytes, numbers them upward and never sends
one again; it takes data segments as they come, skips those it has passed, and acknowledges each.
-/

set_option autoImplicit false

namespace FrameSync.Net.Kcp

/-- A conversation as its client sees it: the number of the next segment to send, the number below
which all have been passed, and the data of a message that is not whole yet. -/
structure Conversation where
  conv : UInt32
  sent : Nat
  expected : Nat
  pending : Bytes
deriving DecidableEq, Repr

namespace Conversation

/-- A new conversation. -/
def start (conv : UInt32) : Conversation := ⟨conv, 0, 0, []⟩

/-- The largest piece a client sends. -/
def pieceSize : Nat := 1000

/-- Send a message. Answers the datagrams. -/
def send (c : Conversation) (message : Bytes) : List Bytes × Conversation :=
  let parts := cut pieceSize (by decide) message
  ((segments c.conv c.sent parts).map Segment.toBytes, { c with sent := c.sent + parts.length })

/-- The datagram that acknowledges a data segment. -/
def acknowledge (c : Conversation) (s : Segment) : Bytes :=
  Segment.toBytes { s with
    command := Segment.ack, fragment := 0, una := UInt32.ofNat c.expected, data := [] }

/-- A data segment comes in. Answers the message it completes, if any. -/
def take (c : Conversation) (s : Segment) : Option Bytes × Conversation :=
  if s.number.toNat < c.expected then (none, c)
  else
    let c := { c with expected := s.number.toNat + 1, pending := c.pending ++ s.data }
    if s.fragment = 0 then (some c.pending, { c with pending := [] }) else (none, c)

/-- What comes of a datagram: the messages it completes, the acknowledgements to send, one datagram
each, and the conversation afterwards. -/
structure Received where
  messages : List Bytes
  acks : List Bytes
  conversation : Conversation

/-- A segment comes in behind others. -/
def Received.next (r : Received) (s : Segment) : Received :=
  if s.command = Segment.push then
    let (message, conversation) := r.conversation.take s
    ⟨r.messages ++ message.toList, r.acks ++ [conversation.acknowledge s], conversation⟩
  else r

/-- A datagram comes in; one that is not of this conversation is ignored. -/
def receive (c : Conversation) (datagram : Bytes) : Received :=
  match Segment.readAll c.conv datagram with
  | .error _ => ⟨[], [], c⟩
  | .ok segments => segments.foldl Received.next ⟨[], [], c⟩

end Conversation

end FrameSync.Net.Kcp
