import FrameSync.Bytes

/-!
# Bytes as hexadecimal text

Two digits for each byte, the high one first. Writing uses small letters, reading takes both.
`decode_encode` says that what was written is read back.
-/

set_option autoImplicit false

namespace FrameSync.Hex

/-- The digit of a number below 16. -/
def digit (n : Nat) : Char := if n < 10 then Char.ofNat (48 + n) else Char.ofNat (87 + n)

/-- The number of a digit. -/
def value (c : Char) : Option Nat :=
  if '0' ≤ c ∧ c ≤ '9' then some (c.toNat - 48)
  else if 'a' ≤ c ∧ c ≤ 'f' then some (c.toNat - 87)
  else if 'A' ≤ c ∧ c ≤ 'F' then some (c.toNat - 55)
  else none

/-- The digits of a run of bytes. -/
def encode (bytes : Bytes) : List Char :=
  bytes.flatMap fun b => [digit (b.toNat / 16), digit (b.toNat % 16)]

/-- The bytes of a run of digits: pairs of digits and nothing else. -/
def decode : List Char → Option Bytes
  | [] => some []
  | [_] => none
  | high :: low :: rest =>
    match value high, value low, decode rest with
    | some h, some l, some bytes => some (UInt8.ofNat (16 * h + l) :: bytes)
    | _, _, _ => none

/-- A digit has its number. -/
theorem value_digit : ∀ n : Nat, n < 16 → value (digit n) = some n := by
  decide

/-- **What was written is read back.** -/
theorem decode_encode (bytes : Bytes) : decode (encode bytes) = some bytes := by
  induction bytes with
  | nil => rfl
  | cons b rest ih =>
    have hb : b.toNat < 256 := b.toNat_lt
    have hsplit : 16 * (b.toNat / 16) + b.toNat % 16 = b.toNat := by omega
    rw [encode, List.flatMap_cons, ← encode, List.cons_append, List.cons_append,
      List.nil_append, decode, value_digit _ (by omega), value_digit _ (by omega), ih]
    simp only [hsplit, UInt8.ofNat_toNat]

/-- The text of a run of bytes. -/
def text (bytes : Bytes) : String := String.ofList (encode bytes)

/-- The bytes of a text. -/
def ofText (s : String) : Option Bytes := decode s.toList

end FrameSync.Hex
