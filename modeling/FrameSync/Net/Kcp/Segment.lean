import FrameSync.Bytes

/-!
# Segments of the reliable datagram layer

A datagram is a run of segments. A segment has a header of 24 bytes, all numbers little-endian:
conversation, command, fragment, window, timestamp, number, acknowledged number, length; the data
follow. Command 81 carries data; the other three commands carry acknowledgements and window sizes.
`read` checks the conversation first, then the length, then the command.
-/

set_option autoImplicit false

namespace FrameSync.Net.Kcp

/-- One segment. `fragment` counts the segments of the same message that follow, `window` the free
places of the sender's receive window; `timestamp` is the sender's clock, `number` is its number in
the conversation, and below `una` everything has arrived. -/
structure Segment where
  conv : UInt32
  command : UInt8
  fragment : UInt8
  window : UInt16
  timestamp : UInt32
  number : UInt32
  una : UInt32
  data : Bytes
deriving DecidableEq, Repr

/-- Why a segment is refused: it belongs to another conversation, the announced data are not all
there, or there is no such command. -/
inductive SegmentError where
  | otherConversation (expected found : UInt32)
  | shortData (expected found : Nat)
  | unknownCommand (command : UInt8)
deriving DecidableEq, Repr

/-- The wording of a refusal. -/
def SegmentError.message : SegmentError → String
  | otherConversation expected found =>
    "conv inconsistent, expected " ++ Nat.repr expected.toNat ++ ", found " ++
      Nat.repr found.toNat
  | shortData expected found =>
    "invalid segment data size, expected " ++ Nat.repr expected ++ ", found " ++ Nat.repr found
  | unknownCommand command => "command " ++ Nat.repr command.toNat ++ " is not supported"

namespace Segment

/-- The number of bytes of a header. -/
def headerSize : Nat := 24

/-- Carries data. -/
def push : UInt8 := 81

/-- Acknowledges one segment. -/
def ack : UInt8 := 82

/-- The last command. -/
def lastCommand : UInt8 := 84

/-- The bytes of a segment. -/
def toBytes (s : Segment) : Bytes :=
  Bytes.littleEndian 4 s.conv.toNat ++ [s.command, s.fragment] ++
    Bytes.littleEndian 2 s.window.toNat ++ Bytes.littleEndian 4 s.timestamp.toNat ++
    Bytes.littleEndian 4 s.number.toNat ++ Bytes.littleEndian 4 s.una.toNat ++
    Bytes.littleEndian 4 s.data.length ++ s.data

/-- The number in `width` bytes from `offset` on. -/
def field (bytes : Bytes) (offset width : Nat) : Nat :=
  Bytes.ofLittleEndian ((bytes.drop offset).take width)

/-- The conversation a datagram names first. -/
def convOf (bytes : Bytes) : UInt32 := UInt32.ofNat (field bytes 0 4)

/-- The segment at the start of a run of at least `headerSize` bytes, and the bytes behind it. -/
def read (conv : UInt32) (bytes : Bytes) : Except SegmentError (Segment × Bytes) :=
  let found := convOf bytes
  let length := field bytes 20 4
  let body := bytes.drop headerSize
  let command := UInt8.ofNat (field bytes 4 1)
  if found ≠ conv then .error (.otherConversation conv found)
  else if Bytes.fewerThan length body then .error (.shortData length body.length)
  else if command < push ∨ lastCommand < command then .error (.unknownCommand command)
  else
    .ok ({ conv
           command
           fragment := UInt8.ofNat (field bytes 5 1)
           window := UInt16.ofNat (field bytes 6 2)
           timestamp := UInt32.ofNat (field bytes 8 4)
           number := UInt32.ofNat (field bytes 12 4)
           una := UInt32.ofNat (field bytes 16 4)
           data := body.take length }, body.drop length)

/-- A segment takes at least its header off the bytes. -/
theorem length_rest_lt {conv : UInt32} {bytes rest : Bytes} {s : Segment}
    (hsize : headerSize ≤ bytes.length) (h : read conv bytes = .ok (s, rest)) :
    rest.length < bytes.length := by
  unfold read at h
  simp only at h
  split at h
  · cases h
  · split at h
    · cases h
    · split at h
      · cases h
      · cases h
        simp only [List.length_drop, headerSize] at *
        omega

/-- The segments of a datagram. Fewer bytes than a header at its end are ignored. -/
def readAll (conv : UInt32) (bytes : Bytes) : Except SegmentError (List Segment) :=
  if hsize : Bytes.fewerThan headerSize bytes then .ok []
  else
    match h : read conv bytes with
    | .error e => .error e
    | .ok (s, rest) =>
      have := length_rest_lt (Nat.le_of_not_lt (mt Bytes.fewerThan_eq_true_iff.mpr hsize)) h
      match readAll conv rest with
      | .error e => .error e
      | .ok segments => .ok (s :: segments)
termination_by bytes.length

end Segment

end FrameSync.Net.Kcp
