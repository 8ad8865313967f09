import FrameSync.Proofs.Buffer.Classes
import FrameSync.Proofs.Wire.Framing

/-!
# Sends from pooled buffers

A packet is sent from a buffer of the pool that may be longer than the packet and may hold anything:
what its last user left there, or what a stranger brought in. Two facts make this the same as
framing the packet on its own. The buffer is long enough, because the class of a request is
(`Filed.le_length_get`), and the frame covers all of its length with bytes of its own
(`frameInto?_of_le`), so that nothing of the old content is among the bytes that go out.
-/

set_option autoImplicit false

namespace FrameSync.Buffer.Pool

open Wire

variable {p : Pool}

/-- A pool at its start: of any layout, or without classes. -/
inductive Built : Pool → Prop where
  | ofConfig (config : PoolConfig) : Built (ofConfig config)
  | unpooled : Built unpooled

/-- No queue has been touched yet. -/
theorem Built.filed (h : Built p) : p.Filed := by
  cases h with
  | ofConfig config => exact filed_untouched rfl
  | unpooled => exact filed_untouched rfl

/-- A send takes one buffer off the pool and frames the packet in it. -/
theorem send_eq (p : Pool) (command : UInt8) (payload : Bytes) : p.send command payload =
    (frameInto? command payload (p.get (Header.size + payload.length)).1,
      (p.get (Header.size + payload.length)).2) := rfl

/-- A packet framed in a buffer of its own fills that buffer. -/
theorem frameInto?_zeros (command : UInt8) (payload : Bytes) :
    frameInto? command payload (zeros (Header.size + payload.length)) =
      some (Header.size + payload.length, frame command payload) := by
  rw [frameInto?_eq, length_zeros, if_neg (Nat.lt_irrefl _),
    List.drop_eq_nil_of_le (Nat.le_of_eq (length_zeros _)), List.append_nil]

/-- **A send from the pool is a plain framing.** Whatever has been asked of a pool and returned to
it, the buffer that it hands out for a packet takes the packet; the bytes that go out are the packet
framed in a buffer of its own, the bytes behind them stay as they were, and the packet can be split
off what goes out. -/
theorem send_frames {pool : Pool} (hbuilt : Built pool) (ops : List Op) (command : UInt8)
    (payload : Bytes) (hfits : payload.length ≤ 2 ^ 31 - 1) :
    let p := (pool.run ops).2
    let n := Header.size + payload.length
    let buffer := (p.get n).1
    n ≤ buffer.length ∧ ∃ written,
      p.send command payload = (some (n, written), (p.get n).2) ∧
      written.length = buffer.length ∧
      frameInto? command payload (zeros n) = some (n, written.take n) ∧
      written.take n = frame command payload ∧
      written.drop n = buffer.drop n ∧
      split (written.take n) = .ok ⟨command, payload⟩ := by
  intro p n buffer
  have hspace : n ≤ buffer.length := (hbuilt.filed.run ops).le_length_get n
  obtain ⟨written, hwritten, hlength, hfront, hback⟩ := frameInto?_of_le command hspace
  refine ⟨hspace, written, ?_, hlength, ?_, hfront, hback, ?_⟩
  · rw [send_eq]
    exact congrArg (·, (p.get n).2) hwritten
  · rw [hfront]
    exact frameInto?_zeros command payload
  · have hsplit : split (frame command payload ++ []) = .ok ⟨command, payload⟩ :=
      split_frame_append (by omega) []
    rwa [List.append_nil, ← hfront] at hsplit

/-- Two bytes are sent from a returned buffer that is all ones. -/
theorem send_frames_dirty :
    let pool := ofConfig ⟨16, 64, 4, 0⟩
    let dirty : Bytes := List.replicate 16 0xFF
    let p := (pool.run [.release dirty]).2
    Built pool ∧ [5, 6].length ≤ 2 ^ 31 - 1 ∧ (p.get 7).1 = dirty ∧
      (∃ written, p.send 2 [5, 6] = (some (7, written), (p.get 7).2) ∧
        written.take 7 = frame 2 [5, 6] ∧ written.drop 7 = dirty.drop 7) := by
  intro pool dirty p
  have hbuffer : (p.get 7).1 = dirty := by decide
  obtain ⟨-, written, hsend, -, -, hfront, hback, -⟩ :=
    send_frames (.ofConfig ⟨16, 64, 4, 0⟩) [.release dirty] 2 [5, 6] (by decide)
  exact ⟨.ofConfig _, by decide, hbuffer, written, hsend, hfront, hbuffer ▸ hback⟩

end FrameSync.Buffer.Pool
