import FrameSync.Net.Error
import FrameSync.Wire.Header

/-!
# Packets out of a byte stream

A stream delivers bytes in chunks that know nothing of packets. `next` takes one whole packet off
the front of what has arrived, waits if it is not all there, and refuses a header that is negative
or above the limit without consuming anything. `drain` repeats `next`; `feed` appends a chunk and
drains; `finish` is the last look once the stream has ended, when left-over bytes are an error.
-/

set_option autoImplicit false

namespace FrameSync.Net.Reassembly

open FrameSync.Wire

/-- The first packet of a buffer and the bytes behind it, if it is all there. -/
def next (limit : Nat) (buffer : Bytes) : Except TransportError (Option (Packet × Bytes)) :=
  if Bytes.fewerThan Header.size buffer then .ok none
  else
    match Header.read buffer with
    | .error e => .error (.wire e)
    | .ok h =>
      if limit < h.payloadLength then .error (.packetTooLarge h.payloadLength limit)
      else if Bytes.fewerThan h.packetLength buffer then .ok none
      else
        .ok (some (⟨h.command, (buffer.drop Header.size).take h.payloadLength⟩,
          buffer.drop h.packetLength))

/-- A packet takes at least its header off the buffer. -/
theorem length_rest_lt {limit : Nat} {buffer rest : Bytes} {p : Packet}
    (h : next limit buffer = .ok (some (p, rest))) : rest.length < buffer.length := by
  unfold next at h
  split at h
  · cases h
  · rename_i hsize
    split at h
    · cases h
    · rename_i header _
      split at h
      · cases h
      · split at h
        · cases h
        · cases h
          simp only [Bytes.fewerThan_eq_true_iff, List.length_drop, Header.packetLength,
            Header.size] at *
          omega

/-- What one round of decoding gives: the packets in order, the error that ended the round, if one
did, and the bytes that stay in the buffer. -/
structure Round where
  packets : List Packet
  error : Option TransportError
  rest : Bytes
deriving DecidableEq, Repr

/-- Take packets off the buffer until none is left whole or one is refused. -/
def drain (limit : Nat) (buffer : Bytes) : Round :=
  match h : next limit buffer with
  | .error e => ⟨[], some e, buffer⟩
  | .ok none => ⟨[], none, buffer⟩
  | .ok (some (p, rest)) =>
    have := length_rest_lt h
    let round := drain limit rest
    ⟨p :: round.packets, round.error, round.rest⟩
termination_by buffer.length

/-- A chunk arrives behind the bytes that are waiting. -/
def feed (limit : Nat) (waiting chunk : Bytes) : Round := drain limit (waiting ++ chunk)

/-- The reason given when a stream ends inside a packet. -/
def bytesRemaining : TransportError := .receiveFailed "bytes remaining on stream"

/-- The stream has ended: whole packets are taken, and left-over bytes are an error. -/
def finish (limit : Nat) (waiting : Bytes) : Round :=
  let round := drain limit waiting
  match round.error with
  | some _ => round
  | none => if round.rest = [] then round else { round with error := some bytesRemaining }

/-- Feed the chunks one by one, keeping what each round left for the next. Answers the rounds. -/
def feedAll (limit : Nat) : Bytes → List Bytes → List Round
  | _, [] => []
  | waiting, chunk :: chunks =>
    let round := feed limit waiting chunk
    round :: feedAll limit round.rest chunks

/-- The bytes left after feeding the chunks. -/
def leftover (limit : Nat) : Bytes → List Bytes → Bytes
  | waiting, [] => waiting
  | waiting, chunk :: chunks => leftover limit (feed limit waiting chunk).rest chunks

end FrameSync.Net.Reassembly
