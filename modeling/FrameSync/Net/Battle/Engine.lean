import FrameSync.Settings

/-!
# The reliable layer under a battle connection

A battle connection turns datagrams into messages and messages into datagrams. `Engine` is all that
a listener asks of the layer that does it: which conversation a datagram names; what a datagram
completes, if it is not refused; which datagrams a message becomes; and which are due at a time. A
completed message that cannot be taken out comes with the reason instead.
-/

set_option autoImplicit false

namespace FrameSync.Net.Battle

open Tick

/-- What a conversation is told of the settings. The time between updates is in milliseconds, and
windows are counted in segments. -/
structure Profile where
  noDelay : Bool
  interval : Int32
  fastResend : Nat
  ignoresLosses : Bool
  sendWindow : Nat
  receiveWindow : Nat
  mtu : Nat
deriving DecidableEq, Repr

/-- The profile of the conversations of a listener. -/
def Profile.ofSettings (c : BattleChannelSettings) : Profile where
  noDelay := c.noDelay
  interval := Int32.ofNat (c.interval / millisecond)
  fastResend := c.fastResend
  ignoresLosses := !c.congestionControl
  sendWindow := c.sendWindow
  receiveWindow := c.receiveWindow
  mtu := c.mtu

/-- A reliable layer with a state of type `κ` for each connection. `update` is given the time in
milliseconds, and answers nothing if the layer gives up. -/
structure Engine (κ : Type) where
  conversation : Bytes → UInt32
  start : Profile → UInt32 → κ
  input : κ → Bytes → Except String (List (Except String Bytes) × κ)
  send : κ → Bytes → List Bytes × κ
  update : κ → Nat → Option (List Bytes × κ)

end FrameSync.Net.Battle
