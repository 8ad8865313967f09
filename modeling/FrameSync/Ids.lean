import FrameSync.Table

/-!
# Identities

Players and rooms are numbered by the server, connections by the listeners. Each number has a type
of its own, so that none is used for another, a text form for messages, and a place in a `Table`.
-/

set_option autoImplicit false

namespace FrameSync

/-- A player, numbered at its first login. -/
structure PlayerId where
  num : UInt32
deriving DecidableEq, Repr, Inhabited

/-- A battle room, numbered at its creation. -/
structure RoomId where
  num : UInt32
deriving DecidableEq, Repr, Inhabited

/-- A connection of either channel, numbered when it is accepted. The number never goes over the
wire. -/
structure ConnId where
  num : Nat
deriving DecidableEq, Repr, Inhabited

namespace PlayerId

/-- The text form, as in `P-101`. -/
def label (p : PlayerId) : String := "P-" ++ Nat.repr p.num.toNat

/-- Players are ordered by number. -/
instance : Key PlayerId where
  code p := p.num.toNat
  code_inj a b h := by
    cases a
    cases b
    exact congrArg PlayerId.mk (UInt32.toNat_inj.mp h)

end PlayerId

namespace RoomId

/-- The text form, as in `R-10001`. -/
def label (r : RoomId) : String := "R-" ++ Nat.repr r.num.toNat

/-- Rooms are ordered by number. -/
instance : Key RoomId where
  code r := r.num.toNat
  code_inj a b h := by
    cases a
    cases b
    exact congrArg RoomId.mk (UInt32.toNat_inj.mp h)

end RoomId

namespace ConnId

/-- The text form, as in `conn-7`. -/
def label (c : ConnId) : String := "conn-" ++ Nat.repr c.num

/-- Connections are ordered by number. -/
instance : Key ConnId where
  code c := c.num
  code_inj a b h := by
    cases a
    cases b
    exact congrArg ConnId.mk h

end ConnId

end FrameSync
