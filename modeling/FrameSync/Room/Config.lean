import FrameSync.Tick.Config

/-!
# Battle settings

What every room of a server has in common: how many players it seats, how many frames it can play,
and how it ticks. `BattleConfig.validated` brings the numbers into range; an input mask is one
byte, so a room seats at most eight players.
-/

set_option autoImplicit false

namespace FrameSync

open Tick

/-- The settings of a battle room: the members of a full room, the frames it can play before it
closes, and their cadence. -/
structure BattleConfig where
  maxPlayers : Nat
  maxFrames : Nat
  tick : TickConfig
deriving DecidableEq, Repr

namespace BattleConfig

/-- The most players a room can seat. -/
def maxSeats : Nat := 8

/-- The settings of the stock server. -/
def standard : BattleConfig := ⟨2, 10000, TickConfig.standard⟩

/-- The settings brought into range: one to eight players, at least one frame. -/
def validated (c : BattleConfig) : BattleConfig :=
  { maxPlayers := min (max c.maxPlayers 1) maxSeats
    maxFrames := max c.maxFrames 1
    tick := c.tick.validated }

end BattleConfig

end FrameSync
