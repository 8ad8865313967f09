import FrameSync.Text.Utf8

/-!
# What can be wrong with a packet

`DecodeError` says why a message body cannot be read, `WireError` why a packet is refused as a
whole. Each cause has one constructor; the wording is in `DecodeError.reason` and
`WireError.message`.
-/

set_option autoImplicit false

namespace FrameSync.Wire

/-- Why a message body cannot be read: a number or an announced text goes past its end, a text is
not UTF-8, a choice among `count` variants names none of them, or another body format gives a reason
of its own. -/
inductive DecodeError where
  | endOfBody
  | textPastEnd
  | badText (fault : Utf8.Fault)
  | unknownVariant (index count : Nat)
  | stated (reason : String)
deriving DecidableEq, Repr

/-- The wording of a body error. -/
def DecodeError.reason : DecodeError → String
  | endOfBody => "io error: unexpected end of file"
  | textPastEnd => "io error: "
  | badText fault => "string is not valid utf8: " ++ fault.message
  | unknownVariant index count =>
    "invalid value: integer `" ++ Nat.repr index ++ "`, expected variant index 0 <= i < " ++
      Nat.repr count
  | stated reason => reason

/-- Why a packet is refused: fewer bytes are there than it needs, the header announces a negative
length, the channel has no such command, or a body cannot be written, cannot be read or makes no
sense. -/
inductive WireError where
  | truncated (need available : Nat)
  | negativeLength (length : Int)
  | unknownCommand (value : UInt8)
  | encode (reason : String)
  | decode (cause : DecodeError)
  | invalidMessage (text : String)
deriving DecidableEq, Repr

/-- The name of the cause. -/
def WireError.name : WireError → String
  | truncated _ _ => "Truncated"
  | negativeLength _ => "NegativeLength"
  | unknownCommand _ => "UnknownCommand"
  | encode _ => "Encode"
  | decode _ => "Decode"
  | invalidMessage _ => "InvalidMessage"

/-- The wording of a packet error. -/
def WireError.message : WireError → String
  | truncated need available =>
    "truncated packet: need " ++ Nat.repr need ++ " bytes, have " ++ Nat.repr available
  | negativeLength length => "negative payload length " ++ Int.repr length
  | unknownCommand value => "unknown command " ++ Nat.repr value.toNat
  | encode reason => "encode failed: " ++ reason
  | decode cause => "decode failed: " ++ cause.reason
  | invalidMessage text => "invalid message: " ++ text

end FrameSync.Wire
