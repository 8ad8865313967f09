import FrameSync.Wire.Error

/-!
# Packet framing

Both channels frame a packet the same way: one command byte, the payload length as a signed
little-endian word, the payload. `frame` writes a packet, `split` reads one off the front of a byte
run, and `frameInto` writes it over the start of a buffer that may be longer. A header that
announces a negative length is refused before anything else is looked at.
-/

set_option autoImplicit false

namespace FrameSync.Wire

/-- One packet of either channel. What its command asks for depends on the channel. -/
structure Packet where
  command : UInt8
  payload : Bytes
deriving DecidableEq, Repr

/-- The start of a packet: the command byte and the announced length of the payload. -/
structure Header where
  command : UInt8
  length : Int32
deriving DecidableEq, Repr

namespace Header

/-- The number of bytes of a header. -/
def size : Nat := 5

/-- The header of a packet with a payload of `n` bytes; the length wraps to a signed word. -/
def ofLength (command : UInt8) (n : Nat) : Header := ⟨command, ⟨UInt32.ofNat n⟩⟩

/-- The five bytes of a header. -/
def toBytes (h : Header) : Bytes :=
  h.command :: Bytes.littleEndian 4 h.length.toUInt32.toNat

/-- The announced payload length, for a header that `read` accepts. -/
def payloadLength (h : Header) : Nat := h.length.toInt.toNat

/-- The length of the whole packet, header included. -/
def packetLength (h : Header) : Nat := size + h.payloadLength

/-- The header at the start of a byte run. -/
def read (bytes : Bytes) : Except WireError Header :=
  match bytes with
  | command :: b₀ :: b₁ :: b₂ :: b₃ :: _ =>
    let length : Int32 := ⟨UInt32.ofNat (Bytes.ofLittleEndian [b₀, b₁, b₂, b₃])⟩
    if length.toInt < 0 then .error (.negativeLength length.toInt)
    else .ok ⟨command, length⟩
  | _ => .error (.truncated size bytes.length)

/-- Write the header over the start of a buffer; a buffer shorter than a header takes none. -/
def write? (h : Header) (buffer : Bytes) : Option Bytes :=
  if buffer.length < size then none else some (h.toBytes ++ buffer.drop size)

end Header

/-- The bytes of a packet. -/
def frame (command : UInt8) (payload : Bytes) : Bytes :=
  (Header.ofLength command payload.length).toBytes ++ payload

/-- Write a packet over the start of a buffer, first the header and then the payload behind it.
Answers the number of bytes written and the whole buffer; a buffer shorter than the packet takes
none. -/
def frameInto? (command : UInt8) (payload buffer : Bytes) : Option (Nat × Bytes) :=
  match (Header.ofLength command payload.length).write? buffer with
  | none => none
  | some headed =>
    let n := Header.size + payload.length
    if headed.length < n then none
    else some (n, headed.take Header.size ++ payload ++ headed.drop n)

/-- Where the payload of a packet lies: its announced length and the index of its first byte. -/
structure Extent where
  command : UInt8
  payloadLength : Nat
  payloadOffset : Nat
deriving DecidableEq, Repr

/-- Read the header only; the payload need not be there. -/
def extent (bytes : Bytes) : Except WireError Extent :=
  match Header.read bytes with
  | .error e => .error e
  | .ok h => .ok ⟨h.command, h.payloadLength, Header.size⟩

/-- The packet at the start of a byte run; bytes behind it are left alone. -/
def split (bytes : Bytes) : Except WireError Packet :=
  match Header.read bytes with
  | .error e => .error e
  | .ok h =>
    if bytes.length < h.packetLength then .error (.truncated h.packetLength bytes.length)
    else .ok ⟨h.command, (bytes.drop Header.size).take h.payloadLength⟩

end FrameSync.Wire
