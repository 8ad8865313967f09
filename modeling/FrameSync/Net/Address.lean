import FrameSync.Bytes
import FrameSync.Table

/-!
# Addresses

An address of either version and a port. An address of version 6 that stands for one of version 4
(`::ffff:a.b.c.d`) is the same peer as that one; `canonical` is the shorter form. An address has a
place in a `Table`.
-/

set_option autoImplicit false

namespace FrameSync.Net

/-- An address without a port: four bytes of version 4, or sixteen of version 6. -/
inductive Host where
  | v4 (a b c d : UInt8)
  | v6 (bytes : Bytes)
deriving DecidableEq, Repr

namespace Host

/-- The bytes of an address. -/
def toBytes : Host → Bytes
  | v4 a b c d => [a, b, c, d]
  | v6 bytes => bytes

/-- The address with the given bytes. -/
def ofBytes? (bytes : Bytes) : Option Host :=
  match bytes with
  | [a, b, c, d] => some (v4 a b c d)
  | _ => if bytes.length = 16 then some (v6 bytes) else none

/-- The first twelve bytes of an address of version 6 that stands for one of version 4. -/
def mappedStart : Bytes := [0, 0, 0, 0, 0, 0, 0, 0, 0, 0, 0xFF, 0xFF]

/-- The version 4 form, if the address stands for one. -/
def canonical : Host → Host
  | v4 a b c d => v4 a b c d
  | v6 bytes =>
    if bytes.take 12 = mappedStart then
      match bytes.drop 12 with
      | [a, b, c, d] => v4 a b c d
      | _ => v6 bytes
    else v6 bytes

/-- The local host. -/
def localhost : Host := v4 127 0 0 1

/-- Every host of version 4, as a place to listen. -/
def everyV4 : Host := v4 0 0 0 0

/-- Every host of either version, as a place to listen. -/
def everyV6 : Host := v6 (List.replicate 16 0)

/-- Two bytes as one number in hexadecimal. -/
def groups : Bytes → List String
  | a :: b :: rest =>
    String.ofList (Nat.toDigits 16 (a.toNat * 256 + b.toNat)) :: groups rest
  | _ => []

/-- The text form: four decimal numbers, or eight hexadecimal ones in brackets. -/
def text : Host → String
  | v4 a b c d => ".".intercalate ([a, b, c, d].map fun x => Nat.repr x.toNat)
  | v6 bytes => "[" ++ ":".intercalate (groups bytes) ++ "]"

end Host

/-- An address with a port. -/
structure Address where
  host : Host
  port : UInt16
deriving DecidableEq, Repr

namespace Address

/-- The same peer with the shorter form of its host. -/
def canonical (a : Address) : Address := { a with host := a.host.canonical }

/-- The bytes that tell an address from every other: port, version, host. -/
def identity (a : Address) : Bytes :=
  Bytes.littleEndian 2 a.port.toNat ++
    match a.host with
    | .v4 b₀ b₁ b₂ b₃ => [4, b₀, b₁, b₂, b₃]
    | .v6 bytes => 6 :: bytes

/-- Distinct addresses have distinct identities. -/
theorem identity_inj {a b : Address} (h : a.identity = b.identity) : a = b := by
  obtain ⟨hostA, portA⟩ := a
  obtain ⟨hostB, portB⟩ := b
  unfold identity at h
  obtain ⟨hport, hhost⟩ := List.append_inj h (by simp)
  have hport : portA = portB := by
    have hval := congrArg Bytes.ofLittleEndian hport
    simp only [Bytes.ofLittleEndian_littleEndian, Nat.pow_eq] at hval
    have hA : portA.toNat < 65536 := portA.toNat_lt
    have hB : portB.toNat < 65536 := portB.toNat_lt
    exact UInt16.toNat_inj.mp (by omega)
  cases hostA <;> cases hostB <;> simp_all

/-- Addresses are ordered by the number of their identity. -/
instance : Key Address where
  code a := Bytes.ofLittleEndian (a.identity ++ [1])
  code_inj _ _ h := identity_inj (Bytes.ofLittleEndian_closed_inj h)

/-- The text form, host and port. -/
def text (a : Address) : String := a.host.text ++ ":" ++ Nat.repr a.port.toNat

end Address

end FrameSync.Net
