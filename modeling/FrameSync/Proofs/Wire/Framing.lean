import FrameSync.Wire.Header
import Mathlib.Algebra.Group.Int.Defs
import Mathlib.Algebra.Group.Nat.Defs

/-!
# Framing accepts exactly the frames

A header is read as a command byte and a signed number (`announced`), and everything `split` does
follows from that number and the length of the byte run (`split_of_announced`).

- `split_frame_append`: a frame is split off whatever comes behind it, by the round trip of the length
  through four bytes.
- `eq_frame_append`: conversely, the bytes in front of a packet that was split off are those that it
  is written as, so there is one frame for each packet.
- `split_cases`: every byte run either starts with a frame or fails for one of three reasons
  (`Unframed`), which do not overlap.

`framing_exact` is assembled from these. `frameInto?_of_le` says that a frame written over a buffer
is the same frame, and that the rest of the buffer is left alone.
-/

set_option autoImplicit false

namespace FrameSync.Wire

/-! ## Reading a header -/

/-- The number in bytes 1 to 4 of a byte run, lowest byte first, in two's complement. -/
def announced (bytes : Bytes) : Int :=
  let n := Bytes.ofLittleEndian ((bytes.drop 1).take 4)
  if n < 2 ^ 31 then n else n - 2 ^ 32

/-- The command byte and the four bytes of the length. -/
theorem exists_header_bytes {s : Bytes} (hsize : ¬s.length < Header.size) :
    ∃ command b₀ b₁ b₂ b₃ rest, s = command :: b₀ :: b₁ :: b₂ :: b₃ :: rest := by
  match s with
  | command :: b₀ :: b₁ :: b₂ :: b₃ :: rest => exact ⟨command, b₀, b₁, b₂, b₃, rest, rfl⟩
  | [] | [_] | [_, _] | [_, _, _] | [_, _, _, _] => simp [Header.size] at hsize

/-- A header is read off the first bytes alone. -/
theorem read_append {s : Bytes} (hsize : ¬s.length < Header.size) (t : Bytes) :
    Header.read (s ++ t) = Header.read s := by
  obtain ⟨command, b₀, b₁, b₂, b₃, rest, rfl⟩ := exists_header_bytes hsize
  rfl

/-- Fewer bytes than a header are no header. -/
theorem read_of_lt {s : Bytes} (hsize : s.length < Header.size) :
    Header.read s = .error (.truncated Header.size s.length) := by
  unfold Header.read
  split
  · simp only [List.length_cons, Header.size] at hsize
    omega
  · rfl

/-- A word read as a signed number is its two's complement. -/
theorem toInt_word {n : Nat} (hn : n < 2 ^ 32) :
    (Int32.ofUInt32 (UInt32.ofNat n)).toInt = if n < 2 ^ 31 then (n : Int) else n - 2 ^ 32 := by
  have hbits : (Int32.ofUInt32 (UInt32.ofNat n)).toInt = (BitVec.ofNat 32 n).toInt := rfl
  rw [hbits, BitVec.toInt_eq_toNat_cond, BitVec.toNat_ofNat, Nat.mod_eq_of_lt hn]
  split <;> split <;> omega

/-- **A whole header is read** as its command byte and the announced length, if that is one. -/
theorem read_eq {s : Bytes} (hsize : ¬s.length < Header.size) :
    (announced s < 0 ∧ Header.read s = .error (.negativeLength (announced s))) ∨
      ∃ h, Header.read s = .ok h ∧ s.head? = some h.command ∧ announced s = h.payloadLength := by
  obtain ⟨command, b₀, b₁, b₂, b₃, rest, rfl⟩ := exists_header_bytes hsize
  have hlt : Bytes.ofLittleEndian [b₀, b₁, b₂, b₃] < Nat.pow 256 4 := Bytes.ofLittleEndian_lt _
  have hannounced : announced (command :: b₀ :: b₁ :: b₂ :: b₃ :: rest) =
      (Int32.ofUInt32 (UInt32.ofNat (Bytes.ofLittleEndian [b₀, b₁, b₂, b₃]))).toInt :=
    (toInt_word hlt).symm
  rw [hannounced]
  simp only [Header.read]
  split
  · rename_i hneg
    exact Or.inl ⟨hneg, rfl⟩
  · rename_i hneg
    exact Or.inr ⟨_, rfl, rfl, (Int.toNat_of_nonneg (Int.not_lt.mp hneg)).symm⟩

/-! ## Frames -/

section Frames

variable {s tail tail' : Bytes} {command : UInt8} {payload : Bytes} {p p' : Packet} {n : Nat}

/-- A length below the limit is written as it is. -/
theorem toBytes_ofLength (command : UInt8) (hn : n < 2 ^ 32) :
    (Header.ofLength command n).toBytes = command :: Bytes.littleEndian 4 n := by
  show command :: Bytes.littleEndian 4 (UInt32.ofNat n).toNat = _
  rw [UInt32.toNat_ofNat_of_lt' hn]

theorem length_toBytes (h : Header) : h.toBytes.length = Header.size := by
  rw [Header.toBytes, List.length_cons, Bytes.length_littleEndian, Header.size]

@[simp] theorem length_frame (command : UInt8) (payload : Bytes) :
    (frame command payload).length = Header.size + payload.length := by
  rw [frame, List.length_append, length_toBytes]

/-- A frame announces the length of its payload, whatever comes behind it. -/
theorem announced_frame_append (hfits : payload.length < 2 ^ 31) (tail : Bytes) :
    announced (frame command payload ++ tail) = payload.length := by
  have hword : ((frame command payload ++ tail).drop 1).take 4 =
      Bytes.littleEndian 4 payload.length := by
    rw [frame, toBytes_ofLength command (by omega), List.append_assoc, List.cons_append]
    exact List.take_left' (Bytes.length_littleEndian 4 _)
  have hvalue : Bytes.ofLittleEndian (Bytes.littleEndian 4 payload.length) = payload.length := by
    rw [Bytes.ofLittleEndian_littleEndian]
    exact Nat.mod_eq_of_lt (Nat.lt_of_lt_of_le hfits (by decide))
  simp only [announced, hword, hvalue, if_pos hfits]

/-- An announced length that is not negative is the number in the four bytes. -/
theorem ofLittleEndian_of_announced (hannounced : announced s = n) :
    n < 2 ^ 31 ∧ Bytes.ofLittleEndian ((s.drop 1).take 4) = n := by
  have hlength : ((s.drop 1).take 4).length ≤ 4 := List.length_take_le 4 _
  have hlt : Bytes.ofLittleEndian ((s.drop 1).take 4) < 2 ^ 32 :=
    Nat.lt_of_lt_of_le (Bytes.ofLittleEndian_lt _) (Nat.pow_le_pow_right (by decide) hlength)
  simp only [announced] at hannounced
  split at hannounced <;> omega

/-- **Behind a header with a length that is all there** stands a frame, and then the rest. -/
theorem eq_frame_append (hcommand : s.head? = some command) (hannounced : announced s = n)
    (hwhole : Header.size + n ≤ s.length) :
    s = frame command ((s.drop Header.size).take n) ++ s.drop (Header.size + n) := by
  obtain ⟨hn, hvalue⟩ := ofLittleEndian_of_announced hannounced
  have hpayload : ((s.drop Header.size).take n).length = n := by
    rw [List.length_take, List.length_drop]
    omega
  have hlength : ((s.drop 1).take 4).length = 4 := by
    rw [List.length_take, List.length_drop]
    simp only [Header.size] at hwhole
    omega
  -- the four bytes are those that the length is written as
  have hword : Bytes.littleEndian 4 n = (s.drop 1).take 4 := by
    have hwritten := Bytes.littleEndian_ofLittleEndian ((s.drop 1).take 4)
    rwa [hlength, hvalue] at hwritten
  calc s = command :: s.drop 1 := by
        obtain ⟨rest, rfl⟩ := List.head?_eq_some_iff.mp hcommand
        rfl
    _ = command :: ((s.drop 1).take 4 ++ s.drop Header.size) := by
        rw [Header.size, ← List.drop_drop (i := 4) (j := 1), List.take_append_drop]
    _ = command :: ((s.drop 1).take 4 ++
          ((s.drop Header.size).take n ++ s.drop (Header.size + n))) := by
        rw [← List.drop_drop, List.take_append_drop]
    _ = frame command ((s.drop Header.size).take n) ++ s.drop (Header.size + n) := by
        rw [frame, hpayload, toBytes_ofLength command (by omega), hword]
        simp only [List.cons_append, List.append_assoc]

/-- **A frame written over a buffer** is the frame, with the rest of the buffer behind it. -/
theorem frameInto?_eq (command : UInt8) (payload buffer : Bytes) :
    frameInto? command payload buffer =
      if buffer.length < Header.size + payload.length then none
      else some (Header.size + payload.length,
        frame command payload ++ buffer.drop (Header.size + payload.length)) := by
  simp only [frameInto?, Header.write?]
  by_cases hheader : buffer.length < Header.size
  · rw [if_pos hheader, if_pos (by omega)]
  · -- the header leaves the buffer as long as it was, so the payload finds the same space
    have hheaded : ((Header.ofLength command payload.length).toBytes ++
        buffer.drop Header.size).length = buffer.length := by
      rw [List.length_append, length_toBytes, List.length_drop]
      omega
    simp only [if_neg hheader, hheaded]
    split
    · rfl
    · rw [List.take_left' (length_toBytes _), List.drop_append, length_toBytes,
        List.drop_eq_nil_of_le (by rw [length_toBytes]; omega), List.nil_append, List.drop_drop,
        Nat.add_sub_cancel_left, frame]

/-- **A buffer that is long enough takes a frame**, and keeps its length and what lies behind. -/
theorem frameInto?_of_le (command : UInt8) {payload buffer : Bytes}
    (hspace : Header.size + payload.length ≤ buffer.length) :
    ∃ written, frameInto? command payload buffer = some (Header.size + payload.length, written) ∧
      written.length = buffer.length ∧
      written.take (Header.size + payload.length) = frame command payload ∧
      written.drop (Header.size + payload.length) =
        buffer.drop (Header.size + payload.length) := by
  have hframe : (frame command payload).length = Header.size + payload.length :=
    length_frame command payload
  refine ⟨frame command payload ++ buffer.drop (Header.size + payload.length), ?_, ?_,
    List.take_left' hframe, List.drop_left' hframe⟩
  · rw [frameInto?_eq, if_neg (Nat.not_lt.mpr hspace)]
  · rw [List.length_append, hframe, List.length_drop]
    omega

/-! ## Splitting -/

/-- A payload that is all there has the length that is announced. -/
theorem length_payload {h : Header} (hshort : ¬s.length < h.packetLength) :
    ((s.drop Header.size).take h.payloadLength).length = h.payloadLength := by
  rw [List.length_take, List.length_drop]
  rw [Header.packetLength] at hshort
  omega

theorem split_of_lt (hsize : s.length < Header.size) :
    split s = .error (.truncated Header.size s.length) := by
  rw [split, read_of_lt hsize]

theorem split_of_negative (hsize : ¬s.length < Header.size) (hneg : announced s < 0) :
    split s = .error (.negativeLength (announced s)) := by
  rcases read_eq hsize with ⟨-, hread⟩ | ⟨h, -, -, hlength⟩
  · rw [split, hread]
  · omega

/-- Behind a header that can be read, only the length of the byte run matters. -/
theorem split_of_announced (hsize : ¬s.length < Header.size) (hannounced : announced s = n) :
    ∃ command, s.head? = some command ∧ split s =
      if s.length < Header.size + n then .error (.truncated (Header.size + n) s.length)
      else .ok ⟨command, (s.drop Header.size).take n⟩ := by
  rcases read_eq hsize with ⟨hneg, -⟩ | ⟨h, hread, hcommand, hlength⟩
  · omega
  · have hn : h.payloadLength = n := by omega
    refine ⟨h.command, hcommand, ?_⟩
    rw [split, hread]
    simp only [Header.packetLength, hn]

/-- **A frame is taken off** whatever it stands in front of. -/
theorem split_frame_append (hfits : payload.length < 2 ^ 31) (tail : Bytes) :
    split (frame command payload ++ tail) = .ok ⟨command, payload⟩ := by
  have hlength : (frame command payload ++ tail).length =
      Header.size + payload.length + tail.length := by
    rw [List.length_append, length_frame]
  obtain ⟨first, hfirst, hsplit⟩ := split_of_announced (s := frame command payload ++ tail)
    (by omega) (announced_frame_append hfits tail)
  have hcommand : command = first := Option.some.inj hfirst
  have hdrop : (frame command payload ++ tail).drop Header.size = payload ++ tail := by
    rw [frame, List.append_assoc]
    exact List.drop_left' (length_toBytes _)
  rw [hsplit, if_neg (by omega), hdrop, List.take_left' rfl, hcommand]

/-- Why a byte run does not begin with a frame: the header is not all there, the announced length is
negative, or the payload is not all there. -/
inductive Unframed (s : Bytes) : WireError → Prop where
  | header (hsize : s.length < Header.size) : Unframed s (.truncated Header.size s.length)
  | negative (hsize : ¬s.length < Header.size) (hneg : announced s < 0) :
      Unframed s (.negativeLength (announced s))
  | payload (n : Nat) (hsize : ¬s.length < Header.size) (hannounced : announced s = n)
      (hshort : s.length < Header.size + n) :
      Unframed s (.truncated (Header.size + n) s.length)

/-- Bytes are missing from the header, or from the payload that it announces. -/
theorem Unframed.truncated {need available : Nat} (h : Unframed s (.truncated need available)) :
    (s.length < Header.size ∧ need = Header.size) ∨
      (¬s.length < Header.size ∧ announced s = (need - Header.size : Nat) ∧ s.length < need) := by
  cases h with
  | header hsize => exact Or.inl ⟨hsize, rfl⟩
  | payload n hsize hannounced hshort =>
    exact Or.inr ⟨hsize, by rwa [Nat.add_sub_cancel_left], hshort⟩

/-- A byte run begins with a frame, or there is a reason why not. -/
theorem split_cases (s : Bytes) :
    (∃ p tail, split s = .ok p ∧ p.payload.length < 2 ^ 31 ∧
      s = frame p.command p.payload ++ tail) ∨ ∃ e, split s = .error e ∧ Unframed s e := by
  -- in the order in which the header, its sign and the payload are looked at
  by_cases hsize : s.length < Header.size
  · exact Or.inr ⟨_, split_of_lt hsize, .header hsize⟩
  · by_cases hneg : announced s < 0
    · exact Or.inr ⟨_, split_of_negative hsize hneg, .negative hsize hneg⟩
    · obtain ⟨n, hannounced⟩ := Int.eq_ofNat_of_zero_le (Int.not_lt.mp hneg)
      obtain ⟨command, hcommand, hsplit⟩ := split_of_announced hsize hannounced
      by_cases hshort : s.length < Header.size + n
      · rw [if_pos hshort] at hsplit
        exact Or.inr ⟨_, hsplit, .payload n hsize hannounced hshort⟩
      · rw [if_neg hshort] at hsplit
        refine Or.inl ⟨_, _, hsplit, ?_,
          eq_frame_append hcommand hannounced (Nat.not_lt.mp hshort)⟩
        exact Nat.lt_of_le_of_lt (List.length_take_le n _)
          (ofLittleEndian_of_announced hannounced).1

/-- **What is split off** is a packet whose frame stands in front. -/
theorem split_eq_ok_iff : split s = .ok p ↔
    p.payload.length < 2 ^ 31 ∧ ∃ tail, s = frame p.command p.payload ++ tail := by
  constructor
  · intro hsplit
    rcases split_cases s with ⟨p', tail, heq, hfits, hframe⟩ | ⟨e, heq, -⟩
    · cases hsplit.symm.trans heq
      exact ⟨hfits, tail, hframe⟩
    · cases hsplit.symm.trans heq
  · rintro ⟨hfits, tail, rfl⟩
    exact split_frame_append hfits tail

/-- **What is refused** is refused for the first reason that applies. -/
theorem split_eq_error_iff {e : WireError} : split s = .error e ↔ Unframed s e := by
  constructor
  · intro hsplit
    rcases split_cases s with ⟨p', tail, heq, -⟩ | ⟨e', heq, hwhy⟩
    · cases hsplit.symm.trans heq
    · cases hsplit.symm.trans heq
      exact hwhy
  · rintro (hsize | ⟨hsize, hneg⟩ | ⟨n, hsize, hannounced, hshort⟩)
    · exact split_of_lt hsize
    · exact split_of_negative hsize hneg
    · obtain ⟨command, -, hsplit⟩ := split_of_announced hsize hannounced
      rw [hsplit, if_pos hshort]

/-- **Frames can be told apart:** a byte run begins with one at most. -/
theorem frame_append_inj (hfits : p.payload.length < 2 ^ 31) (hfits' : p'.payload.length < 2 ^ 31)
    (h : frame p.command p.payload ++ tail = frame p'.command p'.payload ++ tail') :
    p = p' ∧ tail = tail' := by
  have hsplit : split (frame p.command p.payload ++ tail) = .ok p := split_frame_append hfits tail
  rw [h, split_frame_append hfits' tail'] at hsplit
  cases hsplit
  exact ⟨rfl, List.append_cancel_left h⟩

/-- What is split off lies where the header alone says it does. -/
theorem extent_of_split (hsplit : split s = .ok p) :
    ∃ x, extent s = .ok x ∧ x.command = p.command ∧ x.payloadLength = p.payload.length ∧
      (s.drop x.payloadOffset).take x.payloadLength = p.payload := by
  rw [split] at hsplit
  split at hsplit
  · cases hsplit
  · rename_i h hread
    split at hsplit
    · cases hsplit
    · rename_i hwhole
      cases hsplit
      exact ⟨⟨h.command, h.payloadLength, Header.size⟩, by rw [extent, hread], rfl,
        (length_payload hwhole).symm, rfl⟩

/-- **Framing accepts exactly the frames.** A packet is split off a byte run if and only if its
payload is at most 2^31 - 1 bytes long and the run is its frame and a tail; the packet and the tail
are then determined by the run. Otherwise the run is shorter than a header, or the number in bytes 1
to 4 is negative, or the payload that it announces is not all there, and the error is the one that
says so. Where a packet is split off, `extent` finds its payload by looking at the header alone. -/
theorem framing_exact (bytes : Bytes) :
    (∀ p : Packet, split bytes = .ok p ↔ p.payload.length ≤ 2 ^ 31 - 1 ∧
      ∃ tail, bytes = frame p.command p.payload ++ tail) ∧
    (∀ (p p' : Packet) (tail tail' : Bytes), p.payload.length ≤ 2 ^ 31 - 1 →
      p'.payload.length ≤ 2 ^ 31 - 1 → bytes = frame p.command p.payload ++ tail →
      bytes = frame p'.command p'.payload ++ tail' → p = p' ∧ tail = tail') ∧
    (split bytes = .error (.truncated 5 bytes.length) ↔ bytes.length < 5) ∧
    (∀ v, split bytes = .error (.negativeLength v) ↔
      5 ≤ bytes.length ∧ announced bytes = v ∧ v < 0) ∧
    (∀ n : Nat, 5 ≤ bytes.length → announced bytes = n →
      (split bytes = .error (.truncated (5 + n) bytes.length) ↔ bytes.length < 5 + n)) ∧
    (∀ e, split bytes = .error e ↔ Unframed bytes e) ∧
    ∀ p, split bytes = .ok p → ∃ x, extent bytes = .ok x ∧ x.command = p.command ∧
      x.payloadLength = p.payload.length ∧
      (bytes.drop x.payloadOffset).take x.payloadLength = p.payload := by
  have hlimit : ∀ k : Nat, k ≤ 2 ^ 31 - 1 ↔ k < 2 ^ 31 := by omega
  refine ⟨fun p => ?_, ?_, ?_, fun v => ?_, fun n hsize hannounced => ?_,
    fun e => split_eq_error_iff, fun p => extent_of_split⟩
  · rw [hlimit]
    exact split_eq_ok_iff
  · intro p p' tail tail' hfits hfits' hp hp'
    exact frame_append_inj ((hlimit _).mp hfits) ((hlimit _).mp hfits') (hp.symm.trans hp')
  · constructor
    · intro hsplit
      rcases (split_eq_error_iff.mp hsplit).truncated with ⟨hsize, -⟩ | ⟨-, -, hshort⟩
      · exact hsize
      · exact hshort
    · exact split_of_lt
  · rw [split_eq_error_iff]
    constructor
    · rintro (_ | ⟨hsize, hneg⟩)
      exact ⟨Nat.not_lt.mp hsize, rfl, hneg⟩
    · rintro ⟨hsize, rfl, hneg⟩
      exact .negative (Nat.not_lt.mpr hsize) hneg
  · rw [split_eq_error_iff]
    constructor
    · intro hwhy
      rcases hwhy.truncated with ⟨hshort, -⟩ | ⟨-, -, hshort⟩
      · exact Nat.lt_add_right n hshort
      · exact hshort
    · exact .payload n (Nat.not_lt.mpr hsize) hannounced

/-- The sign of the length is looked at before the payload is missed. -/
example : split [7, 0, 0, 0, 0x80] = .error (.negativeLength (-2147483648)) := rfl

end Frames

end FrameSync.Wire
