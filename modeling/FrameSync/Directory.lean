import FrameSync.Ids

/-!
# The player directory

Who is who and how to reach them. Each account that has logged in has one record with its lobby and
battle connections, either of which may be absent, and the room it has joined. Three indexes beside
the records answer the reverse questions: which player an account is, and which player a connection
speaks for on each channel. `login`, `bindBattle`, `unbindLobby` and `unbindBattle` keep records
and indexes in step; `setRoom` touches a record only.
-/

set_option autoImplicit false

namespace FrameSync

/-- What can go wrong in the directory or at login: the credentials are refused, no player has the
number, or the connection speaks for nobody. -/
inductive DirectoryError where
  | authFailed (text : String)
  | playerNotFound (player : PlayerId)
  | unboundConnection (conn : ConnId)
deriving DecidableEq, Repr

/-- The name of the cause. -/
def DirectoryError.name : DirectoryError → String
  | authFailed _ => "AuthFailed"
  | playerNotFound _ => "PlayerNotFound"
  | unboundConnection _ => "UnboundConnection"

/-- The wording of a directory error. -/
def DirectoryError.message : DirectoryError → String
  | authFailed text => "authentication failed: " ++ text
  | playerNotFound player => "player " ++ player.label ++ " not found"
  | unboundConnection conn => "no player bound to " ++ conn.label

/-- What is known about one player: its number and account, the lobby connection while one is open,
the battle connection once one has been bound, and the room it has joined. -/
structure PlayerRecord where
  id : PlayerId
  account : String
  lobby : Option ConnId
  battle : Option ConnId
  room : Option RoomId
deriving DecidableEq, Repr

/-- The records and their indexes. The first player gets the number after `base`; `accounts` is in
order of first login; `lobbyConns` and `battleConns` say which player a connection speaks for. -/
structure Directory where
  base : UInt32
  players : Table PlayerId PlayerRecord
  accounts : List (String × PlayerId)
  lobbyConns : Table ConnId PlayerId
  battleConns : Table ConnId PlayerId
deriving DecidableEq, Repr

namespace Directory

/-- The directory in which nobody has logged in. -/
def empty (base : UInt32) : Directory := ⟨base, Table.empty, [], Table.empty, Table.empty⟩

/-- Is the player registered? -/
def contains (d : Directory) (player : PlayerId) : Bool := d.players.contains player

/-- The player of an account. -/
def playerByAccount (d : Directory) (account : String) : Option PlayerId :=
  d.accounts.lookup account

/-- The player a lobby connection speaks for. -/
def playerByLobby (d : Directory) (conn : ConnId) : Option PlayerId := d.lobbyConns.get? conn

/-- The player a battle connection speaks for. -/
def playerByBattle (d : Directory) (conn : ConnId) : Option PlayerId := d.battleConns.get? conn

/-- The room a player has joined. -/
def roomOf (d : Directory) (player : PlayerId) : Option RoomId :=
  (d.players.get? player).bind PlayerRecord.room

/-- The battle connection of a player. -/
def battleConn (d : Directory) (player : PlayerId) : Option ConnId :=
  (d.players.get? player).bind PlayerRecord.battle

/-- The lobby connection of a player. -/
def lobbyConn (d : Directory) (player : PlayerId) : Option ConnId :=
  (d.players.get? player).bind PlayerRecord.lobby

/-- The lobby connections that speak for somebody, ascending. -/
def lobbyConnections (d : Directory) : List ConnId := d.lobbyConns.keys

/-- The number the next new account gets. -/
def nextPlayer (d : Directory) : PlayerId :=
  ⟨UInt32.ofNat (d.base.toNat + d.players.size + 1)⟩

/-- Add a player without connections for a new account. -/
def register (d : Directory) (account : String) : PlayerId × Directory :=
  let id := d.nextPlayer
  (id, { d with
    accounts := d.accounts ++ [(account, id)]
    players := d.players.insert id ⟨id, account, none, none, none⟩ })

/-- Let a lobby connection speak for a registered player. A player that held the connection before
loses it, and the player's own earlier connection stops speaking for it. -/
def bindLobby (d : Directory) (player : PlayerId) (conn : ConnId) : Directory :=
  let players :=
    match d.lobbyConns.get? conn with
    | some previous =>
      if previous = player then d.players
      else d.players.update previous fun r => { r with lobby := none }
    | none => d.players
  let lobbyConns := d.lobbyConns.insert conn player
  -- The player's earlier connection must not speak for it any more, unless it is this one.
  let lobbyConns :=
    match (players.get? player).bind PlayerRecord.lobby with
    | some old => if old = conn then lobbyConns else lobbyConns.erase old
    | none => lobbyConns
  { d with
    players := players.update player fun r => { r with lobby := some conn }
    lobbyConns }

/-- Log an account in on a lobby connection. A known account keeps its number. Answers the player
and whether it is new. -/
def login (d : Directory) (account : String) (conn : ConnId) : (PlayerId × Bool) × Directory :=
  match d.playerByAccount account with
  | some id => ((id, false), d.bindLobby id conn)
  | none =>
    let (id, d') := d.register account
    ((id, true), d'.bindLobby id conn)

/-- Let a battle connection speak for a player. The player's earlier connection stops speaking for
it, and a player that held the connection before loses it. Answers the replaced connection. -/
def bindBattle (d : Directory) (player : PlayerId) (conn : ConnId) :
    Except DirectoryError (Option ConnId × Directory) :=
  match d.players.get? player with
  | none => .error (.playerNotFound player)
  | some record =>
    let players := d.players.insert player { record with battle := some conn }
    -- First the earlier connection goes, so that what is left of `conn` belongs to another player.
    let battleConns :=
      match record.battle with
      | some old => d.battleConns.erase old
      | none => d.battleConns
    let players :=
      match battleConns.get? conn with
      | some other =>
        if other = player then players
        else players.update other fun r => { r with battle := none }
      | none => players
    .ok (record.battle.filter (· ≠ conn),
      { d with players, battleConns := battleConns.insert conn player })

/-- A lobby connection is gone. Answers the player it spoke for. -/
def unbindLobby (d : Directory) (conn : ConnId) : Option PlayerId × Directory :=
  match d.lobbyConns.get? conn with
  | none => (none, d)
  | some player =>
    (some player, { d with
      lobbyConns := d.lobbyConns.erase conn
      players := d.players.update player fun r => { r with lobby := none } })

/-- A battle connection is gone. Answers the player it spoke for. -/
def unbindBattle (d : Directory) (conn : ConnId) : Option PlayerId × Directory :=
  match d.battleConns.get? conn with
  | none => (none, d)
  | some player =>
    (some player, { d with
      battleConns := d.battleConns.erase conn
      players := d.players.update player fun r => { r with battle := none } })

/-- Record which room a player has joined. -/
def setRoom (d : Directory) (player : PlayerId) (room : Option RoomId) :
    Except DirectoryError Directory :=
  match d.players.get? player with
  | none => .error (.playerNotFound player)
  | some record => .ok { d with players := d.players.insert player { record with room } }

/-! ## Histories -/

/-- A change of the directory. -/
inductive Op where
  | login (account : String) (conn : ConnId)
  | bindBattle (player : PlayerId) (conn : ConnId)
  | unbindLobby (conn : ConnId)
  | unbindBattle (conn : ConnId)
  | setRoom (player : PlayerId) (room : Option RoomId)
deriving DecidableEq, Repr

/-- The directory after one change; a refused change leaves it as it is. -/
def apply (d : Directory) : Op → Directory
  | .login account conn => (d.login account conn).2
  | .bindBattle player conn =>
    match d.bindBattle player conn with
    | .ok (_, d') => d'
    | .error _ => d
  | .unbindLobby conn => (d.unbindLobby conn).2
  | .unbindBattle conn => (d.unbindBattle conn).2
  | .setRoom player room =>
    match d.setRoom player room with
    | .ok d' => d'
    | .error _ => d

/-- The directory after a history of changes. -/
def run (d : Directory) (ops : List Op) : Directory := ops.foldl apply d

end Directory

end FrameSync
