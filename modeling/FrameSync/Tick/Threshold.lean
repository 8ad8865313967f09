/-!
# Budget thresholds

A threshold is a binary floating-point number kept as its 64 bits: one sign bit, eleven of
exponent, fifty-two of fraction. Comparing and clamping need no arithmetic on it. Among numbers
that are not NaN the order is that of the magnitudes with their signs (`rank`), so the two zeros
are equal; every comparison with a NaN is false, so clamping leaves a NaN as it is.
-/

set_option autoImplicit false

namespace FrameSync.Tick

/-- A binary64 number by its bits: sign, exponent and fraction. -/
structure Threshold where
  bits : UInt64
deriving DecidableEq, Repr

namespace Threshold

/-- The bits without the sign. -/
def magnitude (t : Threshold) : Nat := t.bits.toNat % 0x8000000000000000

/-- Is the sign bit set? -/
def negative (t : Threshold) : Bool := 0x8000000000000000 ≤ t.bits.toNat

/-- All exponent bits set and a fraction: not a number. -/
def isNaN (t : Threshold) : Bool := 0x7FF0000000000000 < t.magnitude

/-- The place of a number in the order of all numbers that are not NaN. -/
def rank (t : Threshold) : Int :=
  if t.negative then -(t.magnitude : Int) else (t.magnitude : Int)

/-- Is the first number below the second? False if either is NaN. -/
def below (s t : Threshold) : Bool := !s.isNaN && !t.isNaN && s.rank < t.rank

/-- The number 0. -/
def zero : Threshold := ⟨0⟩

/-- The number 1. -/
def one : Threshold := ⟨0x3FF0000000000000⟩

/-- Four fifths, as near as it can be written. -/
def fourFifths : Threshold := ⟨0x3FE999999999999A⟩

/-- Raise to 0 and lower to 1; NaN and negative zero stay. -/
def clamp (t : Threshold) : Threshold :=
  if t.below zero then zero else if one.below t then one else t

end Threshold

end FrameSync.Tick
