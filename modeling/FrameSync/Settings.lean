import FrameSync.Buffer.Pool
import FrameSync.Net.Address
import FrameSync.Room.Config

/-!
# Server settings

Everything a server needs to start, with the values of the stock server.
-/

set_option autoImplicit false

namespace FrameSync

open Buffer Net Tick

/-- Settings of the lobby listener: the largest payload a client may announce. -/
structure LobbySettings where
  maxPayload : Nat
deriving DecidableEq, Repr

/-- The stock lobby listener. -/
def LobbySettings.standard : LobbySettings := ⟨64 * 1024⟩

/-- Settings of the battle listener and of its reliable datagram layer: whether one socket accepts
both address versions, whether to send without waiting, the time between updates, the duplicate
acknowledgements before a quick resend, whether the send window adapts to losses, the windows in
segments, the largest datagram, and how long a peer may be silent. Times are in nanoseconds. -/
structure BattleChannelSettings where
  dualStack : Bool
  noDelay : Bool
  interval : Nat
  fastResend : Nat
  congestionControl : Bool
  sendWindow : Nat
  receiveWindow : Nat
  mtu : Nat
  idleTimeout : Nat
deriving DecidableEq, Repr

/-- The stock battle listener. -/
def BattleChannelSettings.standard : BattleChannelSettings :=
  { dualStack := true
    noDelay := true
    interval := millisecond
    fastResend := 2
    congestionControl := false
    sendWindow := 1024
    receiveWindow := 1024
    mtu := 1200
    idleTimeout := 10000 * millisecond }

/-- Where the battle listener binds its socket. -/
def BattleChannelSettings.bindAddress (c : BattleChannelSettings) (port : UInt16) : Address :=
  ⟨if c.dualStack then .everyV6 else .everyV4, port⟩

/-- Everything a server needs to start. The first player and the first room get the number after
their base; `pool` is shared by both listeners, and `battle` is for every room. -/
structure Settings where
  listen : Host
  lobbyPort : UInt16
  battlePort : UInt16
  playerBase : UInt32
  roomBase : UInt32
  lobby : LobbySettings
  pool : PoolConfig
  channel : BattleChannelSettings
  battle : BattleConfig
deriving DecidableEq, Repr

namespace Settings

/-- The stock server. -/
def standard : Settings :=
  { listen := .localhost
    lobbyPort := 10085
    battlePort := 10086
    playerBase := 100
    roomBase := 10000
    lobby := .standard
    pool := .standard
    channel := .standard
    battle := .standard }

/-- The address of the lobby. -/
def lobbyAddress (s : Settings) : Address := ⟨s.listen, s.lobbyPort⟩

/-- The address of the battle channel. -/
def battleAddress (s : Settings) : Address := s.channel.bindAddress s.battlePort

end Settings

end FrameSync
