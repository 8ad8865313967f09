import FrameSync.Bytes

/-!
# Where a byte run stops being UTF-8

Texts travel as UTF-8. A run that is not valid text is reported by position: the index at which
the longest valid start ends, and how many bytes from there form a sequence that can never be
completed, or that the run ends inside a sequence that is valid so far. `locate` walks the bytes
once; the allowed second to fourth bytes of a sequence are fixed by its first byte
(`followers`).
-/

set_option autoImplicit false

namespace FrameSync.Utf8

/-- The first place at which a byte run is not UTF-8: the number of valid bytes before it, and the
length of the sequence that cannot be completed, absent if the run ends too early. -/
structure Fault where
  index : Nat
  badLength : Option Nat
deriving DecidableEq, Repr

/-- An inclusive range of byte values. -/
structure ByteRange where
  low : UInt8
  high : UInt8
deriving DecidableEq, Repr

/-- Is the byte in the range? -/
def ByteRange.has (r : ByteRange) (b : UInt8) : Bool := r.low ≤ b && b ≤ r.high

/-- The range of a byte that continues a sequence without further restriction. -/
def continuation : ByteRange := ⟨0x80, 0xBF⟩

/-- The ranges of the bytes that follow a first byte; absent if no sequence starts with it. The
second byte is restricted where overlong forms, surrogates and numbers above the last code point
would begin. -/
def followers (b : UInt8) : Option (List ByteRange) :=
  if b < 0x80 then some []
  else if b < 0xC2 then none
  else if b < 0xE0 then some [continuation]
  else if b = 0xE0 then some [⟨0xA0, 0xBF⟩, continuation]
  else if b = 0xED then some [⟨0x80, 0x9F⟩, continuation]
  else if b < 0xF0 then some [continuation, continuation]
  else if b = 0xF0 then some [⟨0x90, 0xBF⟩, continuation, continuation]
  else if b < 0xF4 then some [continuation, continuation, continuation]
  else if b = 0xF4 then some [⟨0x80, 0x8F⟩, continuation, continuation]
  else none

/-- Walk the bytes. `start` is the index of the current sequence, `seen` the number of its bytes
already read, and `pending` what its remaining bytes have to satisfy. -/
def locateFrom (start seen : Nat) : List ByteRange → Bytes → Option Fault
  | [], [] => none
  | _ :: _, [] => some ⟨start, none⟩
  | [], b :: rest =>
    match followers b with
    | none => some ⟨start, some 1⟩
    | some [] => locateFrom (start + 1) 0 [] rest
    | some (r :: rs) => locateFrom start 1 (r :: rs) rest
  | r :: rs, b :: rest =>
    if r.has b then
      match rs with
      | [] => locateFrom (start + seen + 1) 0 [] rest
      | next :: later => locateFrom start (seen + 1) (next :: later) rest
    else some ⟨start, some seen⟩

/-- The first fault of a byte run, if it has one. -/
def locate (bytes : Bytes) : Option Fault := locateFrom 0 0 [] bytes

/-- The bytes of a text. -/
def encode (s : String) : Bytes := s.toUTF8.data.toList

/-- The text with the given bytes, or the first fault. -/
def decode (bytes : Bytes) : Except Fault String :=
  match String.fromUTF8? ⟨bytes.toArray⟩ with
  | some s => .ok s
  | none => .error ((locate bytes).getD ⟨bytes.length, none⟩)

/-- The report of a fault. -/
def Fault.message (f : Fault) : String :=
  match f.badLength with
  | some k =>
    "invalid utf-8 sequence of " ++ Nat.repr k ++ " bytes from index " ++ Nat.repr f.index
  | none => "incomplete utf-8 byte sequence from index " ++ Nat.repr f.index

/-- **A text is read back from its bytes.** -/
theorem decode_encode (s : String) : decode (encode s) = .ok s := by
  have hb : (⟨(encode s).toArray⟩ : ByteArray) = s.toByteArray := by
    simp [encode, String.toUTF8]
  rw [decode, hb, String.fromUTF8?, dif_pos s.isValidUTF8]
  rfl

/-- **Bytes that read as a text are the bytes of that text.** -/
theorem encode_of_decode {bytes : Bytes} {s : String} (h : decode bytes = .ok s) :
    encode s = bytes := by
  unfold decode at h
  split at h
  · rename_i t ht
    cases h
    rw [String.fromUTF8?] at ht
    split at ht
    · cases ht
      simp [encode, String.toUTF8, String.fromUTF8]
    · cases ht
  · cases h

end FrameSync.Utf8
