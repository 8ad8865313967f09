import FrameSync.Net.Battle.Engine
import FrameSync.Net.Kcp.Segment
import FrameSync.Table

/-!
# One end of a conversation

Incoming data segments are put in order of number (`Inbox.take`) and joined into messages: the
fragment of a segment counts how many of its message follow (`Inbox.pop`). A segment that has been
passed, is held already, or lies beyond the window is dropped. An outgoing message is cut into
segments that fit a datagram; one that needs too many is not sent at all. Nothing is ever sent
again, so of the profile of a conversation only the size of a datagram counts.
-/

set_option autoImplicit false

namespace FrameSync.Net.Kcp

/-- How far ahead of the next expected number a segment may be, and how many may wait in order. -/
def receiveWindow : Nat := 1024

/-- A message of this many segments is not sent. -/
def tooManySegments : Nat := 128

/-- The data of a segment and how many segments of its message follow. -/
structure Piece where
  fragment : Nat
  data : Bytes
deriving DecidableEq, Repr

/-- The receiving half of an end: the next expected number, the pieces that came too early, by
number, and the pieces in order that are in no message yet. -/
structure Inbox where
  next : Nat
  held : Table Nat Piece
  queue : List Piece
deriving DecidableEq, Repr

namespace Inbox

/-- Nothing has come in. -/
def empty : Inbox := ⟨0, Table.empty, []⟩

/-- Move up to `n` held pieces whose turn it is into the queue. -/
def advance : Nat → Inbox → Inbox
  | 0, b => b
  | n + 1, b =>
    match b.held.get? b.next with
    | none => b
    | some piece =>
      if receiveWindow ≤ b.queue.length then b
      else advance n ⟨b.next + 1, b.held.erase b.next, b.queue ++ [piece]⟩

/-- A piece comes in under a number. -/
def take (b : Inbox) (number : Nat) (piece : Piece) : Inbox :=
  if number < b.next ∨ b.next + receiveWindow ≤ number ∨ b.held.contains number then b
  else
    let b := { b with held := b.held.insert number piece }
    b.advance b.held.size

/-- The data of a message's pieces, up to the one that none follows, and the pieces behind it. -/
def join : List Piece → Bytes × List Piece
  | [] => ([], [])
  | piece :: rest =>
    if piece.fragment = 0 then (piece.data, rest)
    else
      let (data, rest') := join rest
      (piece.data ++ data, rest')

/-- The next whole message. -/
def pop (b : Inbox) : Option (Bytes × Inbox) :=
  match b.queue with
  | [] => none
  | piece :: _ =>
    if b.queue.length ≤ piece.fragment then none
    else
      let (message, queue) := join b.queue
      let b := { b with queue }
      some (message, b.advance b.held.size)

/-- Up to `n` whole messages. -/
def popUpTo : Nat → Inbox → List Bytes × Inbox
  | 0, b => ([], b)
  | n + 1, b =>
    match b.pop with
    | none => ([], b)
    | some (message, b') =>
      let (messages, b'') := popUpTo n b'
      (message :: messages, b'')

/-- Every whole message. Each takes at least one piece, so the pieces bound their number. -/
def popAll (b : Inbox) : List Bytes × Inbox := popUpTo (b.queue.length + b.held.size) b

/-- A segment comes in; only those that carry data matter. -/
def accept (b : Inbox) (s : Segment) : Inbox :=
  if s.command = Segment.push then b.take s.number.toNat ⟨s.fragment.toNat, s.data⟩ else b

end Inbox

/-- One end of a conversation, with the largest datagram it may send, its receiving half, and the
number of the next segment to send. -/
structure Peer where
  conv : UInt32
  mtu : Nat
  inbox : Inbox
  sent : Nat
deriving DecidableEq, Repr

/-- The largest datagram: a setting too small for a header and some data is not used. -/
def datagramSize (mtu : Nat) : Nat := if mtu < 50 then 1400 else mtu

/-- Cut data into pieces of at most `size` bytes; no data are one empty piece. -/
def cut (size : Nat) (size_pos : 0 < size) (data : Bytes) : List Bytes :=
  if h : data.drop size = [] then [data]
  else
    have : (data.drop size).length < data.length := by
      rw [List.drop_eq_nil_iff] at h
      rw [List.length_drop]
      omega
    data.take size :: cut size size_pos (data.drop size)
termination_by data.length

/-- Number the parts of a message from `number` on; fragments count down to zero. -/
def segments (conv : UInt32) (number : Nat) : List Bytes → List Segment
  | [] => []
  | data :: rest =>
    { conv
      command := Segment.push
      fragment := UInt8.ofNat rest.length
      window := UInt16.ofNat receiveWindow
      timestamp := 0
      number := UInt32.ofNat number
      una := 0
      data } :: segments conv (number + 1) rest

/-- How much data a segment may carry. -/
def segmentSize (mtu : Nat) : Nat := datagramSize mtu - Segment.headerSize

/-- There is room for data. -/
theorem segmentSize_pos (mtu : Nat) : 0 < segmentSize mtu := by
  unfold segmentSize datagramSize Segment.headerSize
  split <;> omega

namespace Peer

/-- The conversation that a datagram names. -/
def conversation (datagram : Bytes) : UInt32 :=
  UInt32.ofNat (Bytes.ofLittleEndian (datagram.take 4))

/-- A new conversation. -/
def start (profile : Battle.Profile) (conv : UInt32) : Peer := ⟨conv, profile.mtu, .empty, 0⟩

/-- A datagram comes in. -/
def input (p : Peer) (datagram : Bytes) : Except SegmentError (List Bytes × Peer) :=
  match Segment.readAll p.conv datagram with
  | .error e => .error e
  | .ok segments =>
    let (messages, inbox) := (segments.foldl Inbox.accept p.inbox).popAll
    .ok (messages, { p with inbox })

/-- Send a message, one segment in each datagram. -/
def send (p : Peer) (message : Bytes) : List Bytes × Peer :=
  let parts := cut (segmentSize p.mtu) (segmentSize_pos p.mtu) message
  if tooManySegments ≤ parts.length then ([], p)
  else
    ((segments p.conv p.sent parts).map Segment.toBytes, { p with sent := p.sent + parts.length })

/-- The reliable layer made of such ends. Nothing is left to be sent later, and a message that is
there can be taken out. -/
def engine : Battle.Engine Peer where
  conversation := conversation
  start := start
  input p datagram :=
    match p.input datagram with
    | .error e => .error e.message
    | .ok (messages, p) => .ok (messages.map .ok, p)
  send := send
  update p _ := some ([], p)

end Peer

end FrameSync.Net.Kcp
