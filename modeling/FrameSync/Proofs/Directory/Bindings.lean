import FrameSync.Proofs.Directory.Indexes

/-!
# What a login and a connect move

A login binds a player and a lobby connection to each other, a connect a player and a battle
connection. Either of the two may have been bound to another one before, so that up to two players
and two connections are let go on the way. `Moved` says what that does to the two questions of a
channel: what was bound before to one of the two named is bound to nothing, and nobody else notices.
It is the same for both channels, because both keep their records and their index inverse to each
other (`Inverse.moved`).

`bindings_moved` adds what else a directory keeps: the other channel, the rooms, the accounts and
their players. To do either twice is to do it once.
-/

set_option autoImplicit false

namespace FrameSync.Directory

variable {d d' : Directory} {base : UInt32} {accounts : List String} {account : String}
  {player p : PlayerId} {conn : ConnId} {replaced : Option ConnId}

/-! ## One channel -/

/-- A player and a connection have been bound to each other, and nothing else has moved. Another
connection that was the player's speaks for nobody, and another player that had the connection has
none; all other players have what they had, and all other connections speak for whom they did. -/
structure Moved (speaks speaks' : ConnId → Option PlayerId)
    (reaches reaches' : PlayerId → Option ConnId) (player : PlayerId) (conn : ConnId) : Prop where
  reached : reaches' player = some conn
  spoken : speaks' conn = some player
  earlier : ∀ c, reaches player = some c → c ≠ conn → speaks' c = none
  holder : ∀ p, reaches p = some conn → p ≠ player → reaches' p = none
  players : ∀ p, p ≠ player → reaches p ≠ some conn → reaches' p = reaches p
  conns : ∀ c, c ≠ conn → reaches player ≠ some c → speaks' c = speaks c

/-- **A binding moves what it names**: the index knows everybody who had the connection. -/
theorem Inverse.moved {speaks speaks' : ConnId → Option PlayerId}
    {reaches reaches' : PlayerId → Option ConnId} (h : Inverse speaks reaches)
    (hreaches : ∀ p, reaches' p =
      if p = player then some conn else if speaks conn = some p then none else reaches p)
    (hspeaks : ∀ c, speaks' c =
      if c = conn then some player else if reaches player = some c then none else speaks c) :
    Moved speaks speaks' reaches reaches' player conn where
  reached := (hreaches player).trans (if_pos rfl)
  spoken := (hspeaks conn).trans (if_pos rfl)
  earlier := by
    intro c hearlier hc
    rw [hspeaks, if_neg hc, if_pos hearlier]
  holder := by
    intro p hheld hp
    rw [hreaches, if_neg hp, if_pos ((h conn p).mpr hheld)]
  players := by
    intro p hp hnot
    -- whoever the index names has the connection, so it does not name this player
    have hspoke : speaks conn ≠ some p := mt (h conn p).mp hnot
    rw [hreaches, if_neg hp, if_neg hspoke]
  conns := by
    intro c hc hnot
    rw [hspeaks, if_neg hc, if_neg hnot]

/-! ## Logins -/

/-- There is a number left for an account that has none. -/
theorem Indexed.fresh_of_login (h : Indexed base accounts d)
    (haccount : d.playerByAccount account = none)
    (hspace : (enlist accounts (.login account conn)).length ≤ UInt32.size) :
    d.accounts.length < UInt32.size ∧ d.players.get? d.nextPlayer = none := by
  rw [h.enlist_of_none haccount, List.length_append, List.length_singleton] at hspace
  have hfree : d.accounts.length < UInt32.size := by
    rw [h.listed]
    exact hspace
  exact ⟨hfree, nextPlayer_fresh h.consistent hfree⟩

/-- **The lobby connections after a login**, whether the account is new or not. -/
theorem Indexed.lobby_login (h : Indexed base accounts d) (account : String) (conn : ConnId)
    (hspace : (enlist accounts (.login account conn)).length ≤ UInt32.size) :
    (∀ p, (d.login account conn).2.lobbyConn p =
      if p = (d.login account conn).1.1 then some conn
      else if d.playerByLobby conn = some p then none else d.lobbyConn p) ∧
    ∀ c, (d.login account conn).2.playerByLobby c =
      if c = conn then some (d.login account conn).1.1
      else if d.lobbyConn (d.login account conn).1.1 = some c then none else d.playerByLobby c := by
  cases haccount : d.playerByAccount account with
  | some player =>
    rw [login_of_some haccount]
    exact ⟨lobbyConn_bindLobby (h.contains_of_account haccount) conn,
      playerByLobby_bindLobby d player conn⟩
  | none =>
    obtain ⟨hfree, -⟩ := h.fresh_of_login haccount hspace
    -- a new record has no lobby connection, and none is taken from the others
    have hlobby : ∀ p, (d.register account).2.lobbyConn p = d.lobbyConn p :=
      bind_register h.consistent hfree account PlayerRecord.lobby rfl
    have hregistered : (d.register account).2.contains d.nextPlayer = true := by
      show ((d.players.insert d.nextPlayer _).get? d.nextPlayer).isSome = true
      rw [Table.get?_insert_self]
      rfl
    rw [login_of_none haccount]
    constructor
    · intro p
      refine (lobbyConn_bindLobby hregistered conn p).trans ?_
      rw [hlobby]
      rfl
    · intro c
      refine (playerByLobby_bindLobby (d.register account).2 d.nextPlayer conn c).trans ?_
      rw [hlobby]
      rfl

/-- The accounts after a login. -/
theorem playerByAccount_login (d : Directory) (account : String) (conn : ConnId) (a : String) :
    (d.login account conn).2.playerByAccount a =
      if a = account then some (d.login account conn).1.1 else d.playerByAccount a := by
  cases haccount : d.playerByAccount account with
  | some player =>
    rw [login_of_some haccount]
    show d.playerByAccount a = _
    by_cases ha : a = account
    · rw [if_pos ha, ha, haccount]
    · rw [if_neg ha]
  | none =>
    rw [login_of_none haccount]
    show (d.register account).2.playerByAccount a = _
    refine Option.ext fun p => ?_
    rw [playerByAccount_register haccount]
    by_cases ha : a = account
    · rw [if_pos ha, ha, haccount]
      simp [eq_comm]
    · simp [ha]

/-- A record that looks the same but for its lobby connection. -/
theorem exists_of_sameView {t t' : Table PlayerId PlayerRecord} {record : PlayerRecord}
    (hview : SameView (fun r => (r.id, r.account, r.battle, r.room)) t t')
    (hget : t.get? p = some record) : ∃ lobby, t'.get? p = some { record with lobby } := by
  have hsame := hview.view p
  rw [hget, Option.map_some] at hsame
  obtain ⟨record', hget', hfields⟩ := Option.map_eq_some_iff.mp hsame
  obtain ⟨id, account, lobby, battle, room⟩ := record'
  simp only [Prod.mk.injEq] at hfields
  obtain ⟨rfl, rfl, rfl, rfl⟩ := hfields
  exact ⟨lobby, hget'⟩

/-- A new account leaves the records of the others alone. -/
theorem get?_register (d : Directory) (account : String) (hp : p ≠ d.nextPlayer) :
    (d.register account).2.players.get? p = d.players.get? p :=
  Table.get?_insert_of_ne _ _ (Ne.symm hp)

/-- **The records after a login** are those before it, but for their lobby connections. -/
theorem Indexed.records_login (h : Indexed base accounts d) (account : String) (conn : ConnId)
    (hspace : (enlist accounts (.login account conn)).length ≤ UInt32.size) {record : PlayerRecord}
    (hget : d.players.get? p = some record) :
    ∃ lobby, (d.login account conn).2.players.get? p = some { record with lobby } := by
  cases haccount : d.playerByAccount account with
  | some player =>
    rw [login_of_some haccount]
    exact exists_of_sameView (view_bindLobby (fun _ _ => rfl) d player conn) hget
  | none =>
    obtain ⟨-, hfresh⟩ := h.fresh_of_login haccount hspace
    have hp : p ≠ d.nextPlayer := by
      rintro rfl
      rw [hfresh] at hget
      cases hget
    rw [login_of_none haccount]
    refine exists_of_sameView (view_bindLobby (fun _ _ => rfl) _ _ conn) ?_
    exact (get?_register d account hp).trans hget

/-- Nobody but the player of the account is registered by a login. -/
theorem contains_login (hp : p ≠ (d.login account conn).1.1) :
    (d.login account conn).2.contains p = d.contains p := by
  have hbind : ∀ (d : Directory) (player : PlayerId),
      (d.bindLobby player conn).contains p = d.contains p := fun d player =>
    (view_bindLobby (v := fun r => r.id) (fun _ _ => rfl) d player conn).contains p
  cases haccount : d.playerByAccount account with
  | some player =>
    rw [login_of_some haccount]
    exact hbind d player
  | none =>
    rw [login_of_none haccount] at hp ⊢
    refine (hbind _ _).trans ?_
    exact congrArg Option.isSome (get?_register d account hp)

/-- **To bind again who is bound changes nothing.** -/
theorem bindLobby_of_bound (hspoken : d.playerByLobby conn = some player)
    (hreached : d.lobbyConn player = some conn) : d.bindLobby player conn = d := by
  obtain ⟨hplayers, hconns⟩ := bindLobby_eq d player conn
  have hindex : d.lobbyConns.insert conn player = d.lobbyConns := by
    refine Table.ext_get? fun c => ?_
    rw [Table.get?_insert_ite]
    split
    · rename_i hc
      exact hc ▸ hspoken.symm
    · rfl
  -- the record has the connection, so that writing it there again is no change
  have hrecords : d.players.update player (fun r => { r with lobby := some conn }) = d.players := by
    refine Table.ext_get? fun p => ?_
    rw [Table.get?_update_ite]
    split
    · rename_i hp
      obtain ⟨record, hget, hlobby⟩ := Option.bind_eq_some_iff.mp hreached
      rw [hp, hget, Option.map_some, ← hlobby]
    · rfl
  rw [hspoken, takeFrom, if_pos rfl, hrecords] at hplayers
  simp only [hreached, if_true, hindex] at hconns
  calc d.bindLobby player conn
      = { d with
          players := (d.bindLobby player conn).players
          lobbyConns := (d.bindLobby player conn).lobbyConns } := rfl
    _ = d := by rw [hplayers, hconns]

/-- What a login does to a directory. The player is the account's, which may have had none, and the
other accounts have whom they had. Among the lobby connections the binding of the two moves and no
other. Whoever was there has all else that it had, number, account, battle connection and room;
nobody else has come, and the battle connections speak for whom they did. The same login again is
answered alike and changes nothing. -/
structure LoggedIn (d : Directory) (account : String) (conn : ConnId) (player : PlayerId)
    (created : Bool) (d' : Directory) : Prop where
  created : created = (d.playerByAccount account).isNone
  accounts : ∀ a, d'.playerByAccount a = if a = account then some player else d.playerByAccount a
  lobby : Moved d.playerByLobby d'.playerByLobby d.lobbyConn d'.lobbyConn player conn
  records : ∀ p record, d.players.get? p = some record →
    ∃ lobby, d'.players.get? p = some { record with lobby }
  registered : ∀ p, p ≠ player → d'.contains p = d.contains p
  battle : ∀ c, d'.playerByBattle c = d.playerByBattle c
  again : d'.login account conn = ((player, false), d')

/-- **A login.** -/
theorem Indexed.loggedIn (h : Indexed base accounts d) (account : String) (conn : ConnId)
    (hspace : (enlist accounts (.login account conn)).length ≤ UInt32.size) :
    LoggedIn d account conn (d.login account conn).1.1 (d.login account conn).1.2
      (d.login account conn).2 := by
  obtain ⟨hreaches, hspeaks⟩ := h.lobby_login account conn hspace
  have hmoved := h.lobby.moved hreaches hspeaks
  have haccounts := playerByAccount_login d account conn
  refine ⟨?_, haccounts, hmoved, ?_, ?_, ?_, ?_⟩
  · cases haccount : d.playerByAccount account with
    | some player => rw [login_of_some haccount]; rfl
    | none => rw [login_of_none haccount]; rfl
  · intro p record hget
    exact h.records_login account conn hspace hget
  · intro p hp
    exact contains_login hp
  · intro c
    rw [Directory.login]
    split <;> rfl
  · -- the account is known by now, and has the connection
    have hknown := (haccounts account).trans (if_pos rfl)
    rw [login_of_some hknown, bindLobby_of_bound hmoved.spoken hmoved.reached]

/-! ## Battle connections -/

/-- The answer is the earlier connection of the player, unless it is this one. -/
theorem replaced_of_bindBattle (h : d.bindBattle player conn = .ok (replaced, d')) :
    replaced = (d.battleConn player).filter (· ≠ conn) := by
  rw [bindBattle] at h
  cases hget : d.players.get? player with
  | none =>
    rw [hget] at h
    cases h
  | some record =>
    rw [hget] at h
    rw [battleConn, hget]
    exact (Prod.mk.inj (Except.ok.inj h)).1.symm

/-- Nobody is bound who is not registered. -/
theorem bindBattle_of_not_contains (h : d.contains player = false) (conn : ConnId) :
    d.bindBattle player conn = .error (.playerNotFound player) := by
  rw [bindBattle]
  cases hget : d.players.get? player with
  | none => rfl
  | some record =>
    rw [contains, Table.contains, hget] at h
    cases h

/-- **To bind again who is bound changes nothing**, and replaces nothing. -/
theorem bindBattle_of_bound (hspoken : d.playerByBattle conn = some player)
    (hreached : d.battleConn player = some conn) :
    d.bindBattle player conn = .ok (none, d) := by
  obtain ⟨record, hget, hbattle⟩ := Option.bind_eq_some_iff.mp hreached
  obtain ⟨replaced, d', hbind⟩ := bindBattle_of_contains (congrArg Option.isSome hget) conn
  have hreplaced := replaced_of_bindBattle hbind
  obtain ⟨record', hget', hd'⟩ := bindBattle_eq_ok hbind
  cases hget.symm.trans hget'
  have hrecord : d.players.insert player { record with battle := some conn } = d.players := by
    refine Table.ext_get? fun p => ?_
    rw [Table.get?_insert_ite]
    split
    · rename_i hp
      rw [hp, hget, ← hbattle]
    · rfl
  -- the connection is taken out of the index and put back
  have hindex : (d.connsWithout player).insert conn player = d.battleConns := by
    refine Table.ext_get? fun c => ?_
    rw [Table.get?_insert_ite, get?_connsWithout]
    split
    · rename_i hc
      exact hc ▸ hspoken.symm
    · rename_i hc
      rw [hreached, if_neg fun heq => hc (Option.some.inj heq).symm]
      rfl
  have hnobody : (d.connsWithout player).get? conn = none := by
    rw [get?_connsWithout, if_pos hreached]
  rw [hindex, hnobody, takeFrom, hrecord] at hd'
  rw [hbind, hreplaced, hreached, hd']
  simp

/-- What binding a battle connection does to a directory. Among the battle connections the binding
of the two moves and no other; the answer is the player's earlier connection if it had another one.
Whoever was there has all else that it had, number, account, lobby connection and room; nobody has
come, the accounts have whom they had, and the lobby connections speak for whom they did. The same
again changes nothing, and replaces nothing. -/
structure Connected (d : Directory) (player : PlayerId) (conn : ConnId) (replaced : Option ConnId)
    (d' : Directory) : Prop where
  battle : Moved d.playerByBattle d'.playerByBattle d.battleConn d'.battleConn player conn
  replaced : ∀ c, replaced = some c ↔ d.battleConn player = some c ∧ c ≠ conn
  records : ∀ p record, d.players.get? p = some record →
    ∃ battle, d'.players.get? p = some { record with battle }
  registered : ∀ p, d'.contains p = d.contains p
  accounts : ∀ a, d'.playerByAccount a = d.playerByAccount a
  lobby : ∀ c, d'.playerByLobby c = d.playerByLobby c
  again : d'.bindBattle player conn = .ok (none, d')

/-- **A connect.** -/
theorem Consistent.connected (h : Consistent d)
    (hbind : d.bindBattle player conn = .ok (replaced, d')) :
    Connected d player conn replaced d' := by
  have hbound := bound_of_bindBattle h hbind
  have hbattle : Inverse d.playerByBattle d.battleConn := h.battle
  have hmoved := hbattle.moved hbound.battleConn hbound.playerByBattle
  have hview := view_bindBattle (v := fun r => (r.id, r.account, r.lobby, r.room))
    (fun _ _ => rfl) hbind
  obtain ⟨record, -, hd'⟩ := bindBattle_eq_ok hbind
  refine ⟨hmoved, ?_, ?_, hview.contains, ?_, ?_,
    bindBattle_of_bound hmoved.spoken hmoved.reached⟩
  · intro c
    rw [replaced_of_bindBattle hbind, Option.filter_eq_some_iff, decide_eq_true_eq]
  · intro p record hget
    have hsame := hview.view p
    rw [hget, Option.map_some] at hsame
    obtain ⟨record', hget', hfields⟩ := Option.map_eq_some_iff.mp hsame
    obtain ⟨id, account, lobby, battle, room⟩ := record'
    simp only [Prod.mk.injEq] at hfields
    obtain ⟨rfl, rfl, rfl, rfl⟩ := hfields
    exact ⟨battle, hget'⟩
  · intro a
    rw [hd']
    rfl
  · intro c
    rw [hd']
    rfl

/-! ## Every directory -/

/-- **Logins and connects move the bindings that they name**, in every directory that a history
leads to, as long as there is a number for each account. A login gives the account's player the
lobby connection. A connect is refused to players that are not registered, and gives the others the
battle connection. In either case what was bound before to one of the two is bound to nothing, every
other binding and all else in the records stays, and to do the same again is to do nothing. -/
theorem bindings_moved (base : UInt32) (ops : List Op)
    (hspace : (firstLogins ops).length ≤ UInt32.size) :
    let d := run (empty base) ops
    (∀ account conn, (firstLogins (ops ++ [.login account conn])).length ≤ UInt32.size →
      LoggedIn d account conn (d.login account conn).1.1 (d.login account conn).1.2
        (d.login account conn).2) ∧
    ∀ player conn,
      (d.contains player = false → d.bindBattle player conn = .error (.playerNotFound player)) ∧
      (d.contains player = true → ∃ replaced d', d.bindBattle player conn = .ok (replaced, d') ∧
        Connected d player conn replaced d') := by
  intro d
  have h : Indexed base (firstLogins ops) d := indexed_of_le base ops hspace
  constructor
  · intro account conn hlogin
    rw [firstLogins_snoc] at hlogin
    exact h.loggedIn account conn hlogin
  · intro player conn
    refine ⟨fun hnobody => bindBattle_of_not_contains hnobody conn, ?_⟩
    intro hcontains
    obtain ⟨replaced, d', hbind⟩ := bindBattle_of_contains hcontains conn
    exact ⟨replaced, d', hbind, h.consistent.connected hbind⟩

/-- After `takeover` both connections are 101's. Then `b` logs in on the one, which 101 has no more,
while its battle connection stays; and 102 is bound to the other, which replaces nothing of its own.
-/
theorem bindings_moved_takeover :
    (firstLogins takeover).length ≤ UInt32.size ∧
      (firstLogins (takeover ++ [.login "b" ⟨2⟩])).length ≤ UInt32.size ∧
      (run (empty 100) takeover).contains ⟨102⟩ = true ∧
      ((run (empty 100) takeover).login "b" ⟨2⟩).1 = (⟨102⟩, false) ∧
      ((run (empty 100) takeover).login "b" ⟨2⟩).2.lobbyConn ⟨102⟩ = some ⟨2⟩ ∧
      ((run (empty 100) takeover).login "b" ⟨2⟩).2.lobbyConn ⟨101⟩ = none ∧
      ((run (empty 100) takeover).login "b" ⟨2⟩).2.battleConn ⟨101⟩ = some ⟨12⟩ ∧
      ∃ d', (run (empty 100) takeover).bindBattle ⟨102⟩ ⟨12⟩ = .ok (none, d') ∧
        d'.battleConn ⟨102⟩ = some ⟨12⟩ ∧ d'.battleConn ⟨101⟩ = none ∧
        d'.bindBattle ⟨102⟩ ⟨12⟩ = .ok (none, d') := by
  have hspace : (firstLogins takeover).length ≤ UInt32.size := by decide +kernel
  have hlogin : (firstLogins (takeover ++ [.login "b" ⟨2⟩])).length ≤ UInt32.size := by
    decide +kernel
  have hcontains : (run (empty 100) takeover).contains ⟨102⟩ = true := by decide +kernel
  have hholder : (run (empty 100) takeover).lobbyConn ⟨101⟩ = some ⟨2⟩ := by decide +kernel
  have hrival : (run (empty 100) takeover).battleConn ⟨101⟩ = some ⟨12⟩ := by decide +kernel
  have hanswer : ((run (empty 100) takeover).login "b" ⟨2⟩).1 = (⟨102⟩, false) := by decide +kernel
  obtain ⟨hlogins, hconnects⟩ := bindings_moved 100 takeover hspace
  have hloggedIn := hlogins "b" ⟨2⟩ hlogin
  rw [hanswer] at hloggedIn
  obtain ⟨replaced, d', hbind, hconnected⟩ := (hconnects ⟨102⟩ ⟨12⟩).2 hcontains
  have hnone : replaced = none := by
    refine Option.eq_none_iff_forall_ne_some.mpr fun c hc => ?_
    have hearlier := ((hconnected.replaced c).mp hc).1
    have hfree : (run (empty 100) takeover).battleConn ⟨102⟩ = none := by decide +kernel
    rw [hfree] at hearlier
    cases hearlier
  have hother : (⟨101⟩ : PlayerId) ≠ ⟨102⟩ := by decide
  refine ⟨hspace, hlogin, hcontains, hanswer, hloggedIn.lobby.reached,
    hloggedIn.lobby.holder ⟨101⟩ hholder hother, by decide +kernel, d', hnone ▸ hbind,
    hconnected.battle.reached, hconnected.battle.holder ⟨101⟩ hrival hother, hconnected.again⟩

end FrameSync.Directory
