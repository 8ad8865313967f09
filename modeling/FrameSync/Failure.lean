import FrameSync.Directory
import FrameSync.Net.Error
import FrameSync.Room.Error

/-!
# Failures of any layer

One type for the failures of all layers. The wording is that of the layer.
-/

set_option autoImplicit false

namespace FrameSync

/-- A failure and the layer it comes from. -/
inductive Failure where
  | transport (error : Net.TransportError)
  | protocol (error : Wire.WireError)
  | session (error : DirectoryError)
  | room (error : RoomError)
deriving DecidableEq, Repr

/-- The name of the layer. -/
def Failure.layer : Failure → String
  | transport _ => "Transport"
  | protocol _ => "Protocol"
  | session _ => "Session"
  | room _ => "Room"

/-- The wording of a failure. -/
def Failure.message : Failure → String
  | transport error => error.message
  | protocol error => error.message
  | session error => error.message
  | room error => error.message

end FrameSync
