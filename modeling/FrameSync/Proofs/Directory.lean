import FrameSync.Directory

/-!
# The battle index of the directory

A directory keeps two answers to one question: the record of a player names its battle connection,
and the index of battle connections names the player. `Consistent` says that they agree, and that no
two accounts have been given one number. Every change keeps it, `bindBattle` in particular, which
has up to three players' bindings to put in order.

Each operation has one lemma that says what it does to the four questions the rooms depend on: who
is registered, where a player has joined, and the two about battle connections.
-/

set_option autoImplicit false

namespace FrameSync.Directory

/-! ## Tables of records -/

section View

variable {β γ : Type} {t t' t'' : Table PlayerId PlayerRecord} {v : PlayerRecord → β}
  {p player : PlayerId} {record : PlayerRecord}

/-- Two tables have the same players, and these the same under a view of their records. -/
structure SameView (v : PlayerRecord → β) (t t' : Table PlayerId PlayerRecord) : Prop where
  size : t'.size = t.size
  view : ∀ p, (t'.get? p).map v = (t.get? p).map v

namespace SameView

theorem refl (v : PlayerRecord → β) (t : Table PlayerId PlayerRecord) : SameView v t t :=
  ⟨rfl, fun _ => rfl⟩

theorem trans (h : SameView v t t') (h' : SameView v t' t'') : SameView v t t'' :=
  ⟨h'.size.trans h.size, fun p => (h'.view p).trans (h.view p)⟩

/-- An update that the view does not see. -/
theorem update (player : PlayerId) (f : PlayerRecord → PlayerRecord) (hf : ∀ r, v (f r) = v r) :
    SameView v t (t.update player f) := by
  refine ⟨Table.size_update t player f, fun p => ?_⟩
  rw [Table.get?_update]
  split
  · rw [Option.map_map]
    congr 1
    exact funext hf
  · rfl

/-- A record put in the place of one that looks the same. -/
theorem insert (hget : t.get? player = some record) {record' : PlayerRecord}
    (hview : v record' = v record) : SameView v t (t.insert player record') := by
  refine ⟨by rw [Table.size_insert, hget]; rfl, fun p => ?_⟩
  rw [Table.get?_insert_ite]
  split
  · rename_i hp
    rw [hp, hget, Option.map_some, Option.map_some, hview]
  · rfl

/-- What depends on the view alone is the same. -/
theorem bind (h : SameView v t t') (g : β → Option γ) (p : PlayerId) :
    (t'.get? p).bind (fun r => g (v r)) = (t.get? p).bind fun r => g (v r) := by
  have hview := congrArg (Option.bind · g) (h.view p)
  simp only [Option.bind_map] at hview
  exact hview

theorem contains (h : SameView v t t') (p : PlayerId) : t'.contains p = t.contains p := by
  have hview := congrArg Option.isSome (h.view p)
  rw [Option.isSome_map, Option.isSome_map] at hview
  exact hview

end SameView

/-- An update that takes from a player what `g` reads takes it from nobody else. -/
theorem bind_update_none {g : PlayerRecord → Option γ} {f : PlayerRecord → PlayerRecord}
    (t : Table PlayerId PlayerRecord) (hf : ∀ r, g (f r) = none) (p : PlayerId) :
    ((t.update player f).get? p).bind g = if p = player then none else (t.get? p).bind g := by
  rw [Table.get?_update_ite]
  split
  · cases t.get? p with
    | none => rfl
    | some record => exact hf record
  · rfl

end View

/-! ## Two answers to one question -/

/-- A connection speaks for the player that it reaches. -/
def Inverse (speaks : ConnId → Option PlayerId) (reaches : PlayerId → Option ConnId) : Prop :=
  ∀ conn player, speaks conn = some player ↔ reaches player = some conn

section Inverse

variable {speaks speaks' : ConnId → Option PlayerId} {reaches reaches' : PlayerId → Option ConnId}
  {player p q : PlayerId} {conn c c' : ConnId}

/-- No connection reaches two players. -/
theorem Inverse.player_eq (h : Inverse speaks reaches) (hp : reaches p = some c)
    (hq : reaches q = some c) : p = q :=
  Option.some.inj (((h c p).mpr hp).symm.trans ((h c q).mpr hq))

/-- No player is spoken for on two connections. -/
theorem Inverse.conn_eq (h : Inverse speaks reaches) (hc : speaks c = some p)
    (hc' : speaks c' = some p) : c = c' :=
  Option.some.inj (((h c p).mp hc).symm.trans ((h c' p).mp hc'))

/-- **A player is given a connection**, which may have been another one's. -/
theorem Inverse.bind (h : Inverse speaks reaches)
    (hreaches : ∀ p, reaches' p =
      if p = player then some conn else if speaks conn = some p then none else reaches p)
    (hspeaks : ∀ c, speaks' c =
      if c = conn then some player else if reaches player = some c then none else speaks c) :
    Inverse speaks' reaches' := by
  intro c p
  have hold := h c p
  rw [hspeaks, hreaches]
  by_cases hc : c = conn <;> by_cases hp : p = player
  · -- the new binding itself
    rw [if_pos hc, if_pos hp, hc, hp]
    exact iff_of_true rfl rfl
  · -- whom the connection spoke for has lost it
    subst hc
    rw [if_pos rfl, if_neg hp]
    refine iff_of_false (fun e => hp (Option.some.inj e).symm) ?_
    intro e
    split at e
    · cases e
    · exact absurd (hold.mpr e) ‹_›
  · -- the player's earlier connection speaks for nobody
    subst hp
    rw [if_neg hc, if_pos rfl]
    refine iff_of_false ?_ fun e => hc (Option.some.inj e).symm
    intro e
    split at e
    · cases e
    · exact absurd (hold.mp e) ‹_›
  · rw [if_neg hc, if_neg hp]
    by_cases hspoke : speaks conn = some p
    · -- what the player spoke on is not `c`, so `c` does not speak for it either
      rw [if_pos hspoke]
      refine iff_of_false ?_ nofun
      intro e
      split at e
      · cases e
      · exact hc (h.conn_eq e hspoke)
    · rw [if_neg hspoke]
      by_cases hearlier : reaches player = some c
      · -- `c` was the other player's, so it is not the earlier connection of this one
        rw [if_pos hearlier]
        refine iff_of_false nofun ?_
        intro e
        exact hp (h.player_eq e hearlier)
      · rw [if_neg hearlier]
        exact hold

/-- **A connection is gone**, and its player has none. -/
theorem Inverse.unbind (h : Inverse speaks reaches) (hconn : speaks conn = some player)
    (hreaches : ∀ p, reaches' p = if p = player then none else reaches p)
    (hspeaks : ∀ c, speaks' c = if c = conn then none else speaks c) :
    Inverse speaks' reaches' := by
  intro c p
  have hold := h c p
  rw [hspeaks, hreaches]
  by_cases hc : c = conn <;> by_cases hp : p = player
  · rw [if_pos hc, if_pos hp]
    exact iff_of_false nofun nofun
  · -- no other player spoke on the connection
    rw [if_pos hc, if_neg hp]
    refine iff_of_false nofun ?_
    intro e
    rw [hc] at hold
    rw [hc] at e
    exact hp (Option.some.inj ((hold.mpr e).symm.trans hconn))
  · -- no other connection spoke for the player
    rw [if_neg hc, if_pos hp]
    refine iff_of_false ?_ nofun
    intro e
    rw [hp] at e
    exact hc (h.conn_eq e hconn)
  · rw [if_neg hc, if_neg hp]
    exact hold

end Inverse

/-! ## Numbers and bindings -/

/-- What a directory keeps through every change. A battle connection speaks for the player whose it
is; the players have the numbers after the base; and there is an account for each of them. -/
structure Consistent (d : Directory) : Prop where
  battle : ∀ conn player, d.playerByBattle conn = some player ↔ d.battleConn player = some conn
  numbered : ∀ player, d.contains player = true →
    ∃ n < d.players.size, player = ⟨UInt32.ofNat (d.base.toNat + n + 1)⟩
  size_le : d.players.size ≤ d.accounts.length

variable {d d' : Directory} {player p : PlayerId} {conn : ConnId} {account : String}

theorem consistent_empty (base : UInt32) : Consistent (empty base) where
  battle := fun _ _ => ⟨nofun, nofun⟩
  numbered := nofun
  size_le := Nat.le_refl 0

/-- **The next number is free** as long as there are fewer accounts than numbers. -/
theorem nextPlayer_fresh (hd : Consistent d) (hspace : d.accounts.length < UInt32.size) :
    d.players.get? d.nextPlayer = none := by
  cases hget : d.players.get? d.nextPlayer with
  | none => rfl
  | some record =>
    obtain ⟨n, hn, hnumber⟩ := hd.numbered d.nextPlayer (congrArg Option.isSome hget)
    have hnat := congrArg UInt32.toNat (PlayerId.mk.inj hnumber)
    rw [UInt32.toNat_ofNat', UInt32.toNat_ofNat'] at hnat
    have hle := hd.size_le
    have hsize : UInt32.size = 4294967296 := rfl
    omega

/-- Two directories answer alike where players have joined and who speaks on which battle
connection. -/
structure SameBattle (d d' : Directory) : Prop where
  roomOf : ∀ p, d'.roomOf p = d.roomOf p
  battleConn : ∀ p, d'.battleConn p = d.battleConn p
  playerByBattle : ∀ conn, d'.playerByBattle conn = d.playerByBattle conn

theorem SameBattle.trans {d'' : Directory} (h : SameBattle d d') (h' : SameBattle d' d'') :
    SameBattle d d'' :=
  ⟨fun p => (h'.roomOf p).trans (h.roomOf p), fun p => (h'.battleConn p).trans (h.battleConn p),
    fun c => (h'.playerByBattle c).trans (h.playerByBattle c)⟩

/-- A change of what the view on battle connections and rooms does not see. -/
theorem sameBattle_of_view
    (hview : SameView (fun r => (r.battle, r.room)) d.players d'.players)
    (hconns : d'.battleConns = d.battleConns) : SameBattle d d' where
  roomOf := hview.bind Prod.snd
  battleConn := hview.bind Prod.fst
  playerByBattle := fun conn => by rw [playerByBattle, hconns]; rfl

/-- With the same players and accounts, only the bindings have to be put in order. -/
theorem Consistent.of_view (hd : Consistent d) {β : Type} {v : PlayerRecord → β}
    (hview : SameView v d.players d'.players) (hbase : d'.base = d.base)
    (haccounts : d'.accounts = d.accounts)
    (hbattle : ∀ conn player, d'.playerByBattle conn = some player ↔
      d'.battleConn player = some conn) : Consistent d' where
  battle := hbattle
  numbered := by
    intro player hcontains
    rw [Directory.contains, hview.contains] at hcontains
    rw [hview.size, hbase]
    exact hd.numbered player hcontains
  size_le := by
    rw [hview.size, haccounts]
    exact hd.size_le

/-- Consistency depends on the bindings, the numbers and the accounts only. -/
theorem Consistent.of_same (hd : Consistent d) (hsame : SameBattle d d') {β : Type}
    {v : PlayerRecord → β} (hview : SameView v d.players d'.players) (hbase : d'.base = d.base)
    (haccounts : d'.accounts = d.accounts) : Consistent d' := by
  refine hd.of_view hview hbase haccounts ?_
  intro conn player
  rw [hsame.playerByBattle, hsame.battleConn]
  exact hd.battle conn player

/-- The records once a player has been given what another one may have held. -/
def takeFrom (release : PlayerRecord → PlayerRecord) (players : Table PlayerId PlayerRecord)
    (player : PlayerId) (other : Option PlayerId) : Table PlayerId PlayerRecord :=
  match other with
  | some other => if other = player then players else players.update other release
  | none => players

/-- Only another player's record is touched. -/
theorem get?_takeFrom (release : PlayerRecord → PlayerRecord)
    (players : Table PlayerId PlayerRecord) (other : Option PlayerId) :
    (takeFrom release players player other).get? p =
      if p ≠ player ∧ other = some p then (players.get? p).map release else players.get? p := by
  cases other with
  | none => rw [takeFrom, if_neg fun h => (Option.some_ne_none p).symm h.2]
  | some other =>
    rw [takeFrom]
    by_cases hother : other = player
    · rw [if_pos hother, hother, if_neg fun h => h.1 (Option.some.inj h.2).symm]
    · rw [if_neg hother, Table.get?_update_ite]
      by_cases hp : p = other
      · rw [if_pos hp, if_pos ⟨fun e => hother (hp.symm.trans e), congrArg some hp.symm⟩]
      · rw [if_neg hp, if_neg fun h => hp (Option.some.inj h.2).symm]

/-! ## Changes on the lobby side -/

/-- What a record without bindings does not show is as it was before an account is added. -/
theorem bind_register (hd : Consistent d) (hspace : d.accounts.length < UInt32.size)
    (account : String) {γ : Type} (g : PlayerRecord → Option γ)
    (hg : g ⟨d.nextPlayer, account, none, none, none⟩ = none) (p : PlayerId) :
    ((d.register account).2.players.get? p).bind g = (d.players.get? p).bind g := by
  have hfresh := nextPlayer_fresh hd hspace
  show ((d.players.insert d.nextPlayer _).get? p).bind g = _
  by_cases hp : d.nextPlayer = p
  · subst hp
    rw [Table.get?_insert_self, hfresh, Option.bind_some, hg]
    rfl
  · rw [Table.get?_insert_of_ne _ _ hp]

/-- **A new account** gets a record without bindings. -/
theorem sameBattle_register (hd : Consistent d) (hspace : d.accounts.length < UInt32.size)
    (account : String) : SameBattle d (d.register account).2 where
  roomOf := bind_register hd hspace account PlayerRecord.room rfl
  battleConn := bind_register hd hspace account PlayerRecord.battle rfl
  playerByBattle := fun _ => rfl

theorem consistent_register (hd : Consistent d) (hspace : d.accounts.length < UInt32.size)
    (account : String) : Consistent (d.register account).2 := by
  have hfresh := nextPlayer_fresh hd hspace
  have hsame := sameBattle_register hd hspace account
  have hsize : (d.register account).2.players.size = d.players.size + 1 := by
    show (d.players.insert d.nextPlayer _).size = _
    rw [Table.size_insert, hfresh]
    rfl
  refine ⟨fun conn player => ?_, fun player hcontains => ?_, ?_⟩
  · rw [hsame.playerByBattle, hsame.battleConn]
    exact hd.battle conn player
  · rw [hsize]
    by_cases hp : d.nextPlayer = player
    · exact ⟨d.players.size, Nat.lt_succ_self _, hp.symm⟩
    · have hold : d.contains player = true := by
        change ((d.players.insert d.nextPlayer _).get? player).isSome = true at hcontains
        rwa [Table.get?_insert_of_ne _ _ hp] at hcontains
      obtain ⟨n, hn, hnumber⟩ := hd.numbered player hold
      exact ⟨n, Nat.lt_succ_of_lt hn, hnumber⟩
  · rw [hsize]
    show _ ≤ (d.accounts ++ [_]).length
    rw [List.length_append, List.length_singleton]
    exact Nat.succ_le_succ hd.size_le

section LobbyView

variable {β : Type} {v : PlayerRecord → β}

/-- What a lobby binding leaves alone. -/
theorem view_bindLobby (hv : ∀ r lobby, v { r with lobby } = v r) (d : Directory)
    (player : PlayerId) (conn : ConnId) :
    SameView v d.players (d.bindLobby player conn).players := by
  rw [bindLobby]
  simp only
  refine SameView.trans ?_ (SameView.update player _ fun r => hv r _)
  cases d.lobbyConns.get? conn with
  | none => exact SameView.refl _ _
  | some previous =>
    simp only
    split
    · exact SameView.refl _ _
    · exact SameView.update previous _ fun r => hv r _

theorem view_unbindLobby (hv : ∀ r lobby, v { r with lobby } = v r) (d : Directory)
    (conn : ConnId) : SameView v d.players (d.unbindLobby conn).2.players := by
  rw [unbindLobby]
  cases d.lobbyConns.get? conn with
  | none => exact SameView.refl _ _
  | some player => exact SameView.update player _ fun r => hv r _

end LobbyView

/-- **A login leaves all battle bindings alone.** -/
theorem login_spec (hd : Consistent d)
    (hspace : (d.login account conn).2.accounts.length ≤ UInt32.size) :
    SameBattle d (d.login account conn).2 ∧ Consistent (d.login account conn).2 := by
  unfold login at hspace ⊢
  cases haccount : d.playerByAccount account with
  | some id =>
    have hview := view_bindLobby (v := fun r => (r.battle, r.room)) (fun _ _ => rfl) d id conn
    have hsame : SameBattle d (d.bindLobby id conn) := sameBattle_of_view hview rfl
    exact ⟨hsame, hd.of_same hsame hview rfl rfl⟩
  | none =>
    rw [haccount] at hspace
    have hfree : d.accounts.length < UInt32.size := by
      change (d.accounts ++ [_]).length ≤ _ at hspace
      rw [List.length_append, List.length_singleton] at hspace
      exact hspace
    have hview := view_bindLobby (v := fun r => (r.battle, r.room)) (fun _ _ => rfl)
      (d.register account).2 (d.register account).1 conn
    have hsame : SameBattle (d.register account).2
      ((d.register account).2.bindLobby (d.register account).1 conn) := sameBattle_of_view hview rfl
    exact ⟨(sameBattle_register hd hfree account).trans hsame,
      (consistent_register hd hfree account).of_same hsame hview rfl rfl⟩

/-- A login adds an account, or none. -/
theorem accounts_login_le (d : Directory) (account : String) (conn : ConnId) :
    d.accounts.length ≤ (d.login account conn).2.accounts.length := by
  rw [login]
  split
  · exact Nat.le_refl _
  · show d.accounts.length ≤ (d.accounts ++ [_]).length
    rw [List.length_append]
    exact Nat.le_add_right _ _

theorem unbindLobby_spec (hd : Consistent d) (conn : ConnId) :
    SameBattle d (d.unbindLobby conn).2 ∧ Consistent (d.unbindLobby conn).2 := by
  have hview := view_unbindLobby (v := fun r => (r.battle, r.room)) (fun _ _ => rfl) d conn
  have hconns : (d.unbindLobby conn).2.battleConns = d.battleConns := by
    rw [unbindLobby]; split <;> rfl
  have hsame := sameBattle_of_view hview hconns
  refine ⟨hsame, hd.of_same hsame hview ?_ ?_⟩
  · rw [unbindLobby]; split <;> rfl
  · rw [unbindLobby]; split <;> rfl

/-! ## Changes on the battle side -/

/-- What binding a registered player to a battle connection does. The accounts and the rooms are as
they were. The connection is the player's and nobody else's; it speaks for the player, and the
player's earlier one for nobody. -/
structure Bound (d : Directory) (player : PlayerId) (conn : ConnId) (d' : Directory) : Prop where
  registered : d.contains player = true
  accounts : d'.accounts = d.accounts
  roomOf : ∀ p, d'.roomOf p = d.roomOf p
  battleConn : ∀ p, d'.battleConn p =
    if p = player then some conn
    else if d.playerByBattle conn = some p then none else d.battleConn p
  playerByBattle : ∀ c, d'.playerByBattle c =
    if c = conn then some player
    else if d.battleConn player = some c then none else d.playerByBattle c

/-- The index without the player's earlier connection. -/
def connsWithout (d : Directory) (player : PlayerId) : Table ConnId PlayerId :=
  match d.battleConn player with
  | some old => d.battleConns.erase old
  | none => d.battleConns

theorem get?_connsWithout (d : Directory) (player : PlayerId) (c : ConnId) :
    (d.connsWithout player).get? c =
      if d.battleConn player = some c then none else d.playerByBattle c := by
  rw [connsWithout]
  cases d.battleConn player with
  | none => rw [if_neg (Option.some_ne_none c).symm]; rfl
  | some old =>
    by_cases hc : old = c
    · rw [if_pos (congrArg some hc), hc, Table.get?_erase_self]
    · rw [if_neg fun e => hc (Option.some.inj e), Table.get?_erase_of_ne _ hc]
      rfl

/-- **Binding, when it succeeds,** writes the player's record and its place in the index, and takes
the connection off the record of the player it spoke for. -/
theorem bindBattle_eq_ok {replaced : Option ConnId}
    (h : d.bindBattle player conn = .ok (replaced, d')) :
    ∃ record, d.players.get? player = some record ∧
      d' = { d with
        players := takeFrom (fun r => { r with battle := none })
          (d.players.insert player { record with battle := some conn }) player
          ((d.connsWithout player).get? conn)
        battleConns := (d.connsWithout player).insert conn player } := by
  rw [bindBattle] at h
  cases hget : d.players.get? player with
  | none =>
    rw [hget] at h
    cases h
  | some record =>
    have hold : d.battleConn player = record.battle := by
      rw [Directory.battleConn, hget, Option.bind_some]
    rw [hget] at h
    refine ⟨record, rfl, ?_⟩
    unfold connsWithout takeFrom
    rw [hold]
    exact (Prod.mk.inj (Except.ok.inj h)).2.symm

/-- A registered player can be bound. -/
theorem bindBattle_of_contains (h : d.contains player = true) (conn : ConnId) :
    ∃ replaced d', d.bindBattle player conn = .ok (replaced, d') := by
  obtain ⟨record, hget⟩ := Option.isSome_iff_exists.mp h
  rw [bindBattle]
  rw [hget]
  exact ⟨_, _, rfl⟩

/-- What a battle binding leaves alone. -/
theorem view_bindBattle {β : Type} {v : PlayerRecord → β}
    (hv : ∀ r battle, v { r with battle } = v r) {replaced : Option ConnId}
    (h : d.bindBattle player conn = .ok (replaced, d')) : SameView v d.players d'.players := by
  obtain ⟨record, hget, rfl⟩ := bindBattle_eq_ok h
  have hinsert : SameView v d.players
      (d.players.insert player { record with battle := some conn }) := .insert hget (hv record _)
  refine hinsert.trans ?_
  cases (d.connsWithout player).get? conn with
  | none => exact SameView.refl _ _
  | some other =>
    simp only [takeFrom]
    split
    · exact SameView.refl _ _
    · exact SameView.update other _ fun r => hv r _

/-- **A binding puts up to three players in order.** -/
theorem bound_of_bindBattle (hd : Consistent d) {replaced : Option ConnId}
    (h : d.bindBattle player conn = .ok (replaced, d')) : Bound d player conn d' := by
  have hview := view_bindBattle (v := fun r => r.room) (fun _ _ => rfl) h
  obtain ⟨record, hget, rfl⟩ := bindBattle_eq_ok h
  refine ⟨congrArg Option.isSome hget, rfl, hview.bind id, fun p => ?_, fun c => ?_⟩
  · show ((takeFrom _ _ player _).get? p).bind PlayerRecord.battle = _
    rw [get?_takeFrom, get?_connsWithout]
    by_cases hp : p = player
    · subst hp
      rw [if_neg fun h => h.1 rfl, if_pos rfl, Table.get?_insert_self, Option.bind_some]
    · -- The connection cannot be another player's and this player's earlier one at once.
      have hheld : (if d.battleConn player = some conn then none else d.playerByBattle conn) =
          some p ↔ d.playerByBattle conn = some p := by
        refine ⟨fun h => ?_, fun h => ?_⟩
        · split at h
          · cases h
          · exact h
        · refine (if_neg fun hown => hp ?_).trans h
          exact Option.some.inj (h.symm.trans ((hd.battle conn player).mpr hown))
      rw [if_neg hp, Table.get?_insert_of_ne _ _ (Ne.symm hp)]
      by_cases hspoke : d.playerByBattle conn = some p
      · rw [if_pos ⟨hp, hheld.mpr hspoke⟩, if_pos hspoke]
        cases d.players.get? p <;> rfl
      · rw [if_neg fun h => hspoke (hheld.mp h.2), if_neg hspoke]
        rfl
  · show ((d.connsWithout player).insert conn player).get? c = _
    rw [Table.get?_insert_ite, get?_connsWithout]

/-- **Binding keeps the index in step with the records.** -/
theorem consistent_bindBattle (hd : Consistent d) {replaced : Option ConnId}
    (h : d.bindBattle player conn = .ok (replaced, d')) : Consistent d' := by
  have hbound := bound_of_bindBattle hd h
  have hview := view_bindBattle (v := fun r => r.room) (fun _ _ => rfl) h
  have hbase : d'.base = d.base := by
    obtain ⟨record, -, rfl⟩ := bindBattle_eq_ok h
    rfl
  have hbattle : Inverse d.playerByBattle d.battleConn := hd.battle
  exact hd.of_view hview hbase hbound.accounts
    (hbattle.bind hbound.battleConn hbound.playerByBattle)

/-- A connection that speaks for nobody takes nobody with it. -/
theorem unbindBattle_of_none (hconn : d.playerByBattle conn = none) :
    d.unbindBattle conn = (none, d) := by
  rw [unbindBattle]
  rw [show d.battleConns.get? conn = none from hconn]

theorem unbindBattle_of_some (hconn : d.playerByBattle conn = some player) :
    d.unbindBattle conn = (some player, { d with
      battleConns := d.battleConns.erase conn
      players := d.players.update player fun r => { r with battle := none } }) := by
  rw [unbindBattle]
  rw [show d.battleConns.get? conn = some player from hconn]

theorem view_unbindBattle {β : Type} {v : PlayerRecord → β}
    (hv : ∀ r battle, v { r with battle } = v r) (d : Directory) (conn : ConnId) :
    SameView v d.players (d.unbindBattle conn).2.players := by
  rw [unbindBattle]
  cases d.battleConns.get? conn with
  | none => exact SameView.refl _ _
  | some player => exact SameView.update player _ fun r => hv r _

/-- **A battle connection that is gone** speaks for nobody, and its player has none. -/
theorem unbindBattle_spec (hd : Consistent d) (hconn : d.playerByBattle conn = some player) :
    (d.unbindBattle conn).1 = some player ∧
      (d.unbindBattle conn).2.accounts = d.accounts ∧
      (∀ p, (d.unbindBattle conn).2.roomOf p = d.roomOf p) ∧
      (∀ p, (d.unbindBattle conn).2.battleConn p =
        if p = player then none else d.battleConn p) ∧
      (∀ c, (d.unbindBattle conn).2.playerByBattle c =
        if c = conn then none else d.playerByBattle c) ∧
      Consistent (d.unbindBattle conn).2 := by
  have hunbind := unbindBattle_of_some hconn
  have hview := view_unbindBattle (v := fun r => r.room) (fun _ _ => rfl) d conn
  have hbattle : ∀ p, (d.unbindBattle conn).2.battleConn p =
      if p = player then none else d.battleConn p := by
    intro p
    rw [hunbind]
    exact bind_update_none _ (fun _ => rfl) p
  have hspeaks : ∀ c, (d.unbindBattle conn).2.playerByBattle c =
      if c = conn then none else d.playerByBattle c := by
    intro c
    rw [hunbind]
    exact Table.get?_erase_ite _ conn c
  have hinverse : Inverse d.playerByBattle d.battleConn := hd.battle
  have hconsistent : Consistent (d.unbindBattle conn).2 :=
    hd.of_view hview (by rw [hunbind]) (by rw [hunbind]) (hinverse.unbind hconn hbattle hspeaks)
  exact ⟨by rw [hunbind], by rw [hunbind], hview.bind id, hbattle, hspeaks, hconsistent⟩

/-- **Recording a room** changes the room of one player, and nobody's connections. -/
theorem setRoom_spec (hd : Consistent d) (hcontains : d.contains player = true)
    (room : Option RoomId) :
    ∃ d', d.setRoom player room = .ok d' ∧ d'.accounts = d.accounts ∧
      (∀ p, d'.roomOf p = if p = player then room else d.roomOf p) ∧
      (∀ p, d'.battleConn p = d.battleConn p) ∧
      (∀ c, d'.playerByBattle c = d.playerByBattle c) ∧ Consistent d' := by
  obtain ⟨record, hget⟩ := Option.isSome_iff_exists.mp hcontains
  have hview : SameView (fun r => r.battle) d.players
      (d.players.insert player { record with room }) := SameView.insert hget rfl
  have hbattle : ∀ p, ({ d with players := d.players.insert player { record with room } } :
      Directory).battleConn p = d.battleConn p := hview.bind id
  refine ⟨{ d with players := d.players.insert player { record with room } }, ?_, rfl, ?_, hbattle,
    fun _ => rfl, ?_⟩
  · rw [setRoom, hget]
  · intro p
    show ((d.players.insert player _).get? p).bind PlayerRecord.room = _
    by_cases hp : p = player
    · rw [if_pos hp, hp, Table.get?_insert_self, Option.bind_some]
    · rw [if_neg hp, Table.get?_insert_of_ne _ _ (Ne.symm hp)]
      rfl
  · refine hd.of_view hview rfl rfl ?_
    intro c p
    rw [hbattle]
    exact hd.battle c p

end FrameSync.Directory
