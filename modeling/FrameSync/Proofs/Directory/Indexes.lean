import FrameSync.Proofs.Directory
import Mathlib.Data.List.Induction

/-!
# The indexes of the directory

A directory answers three questions both ways: which player a lobby connection speaks for, which one
a battle connection speaks for, and which one an account is. `Indexed` says that the indexes and the
records give the same answers, and that the players have the numbers after the base in the order in
which their accounts logged in first (`firstLogins`). Every change keeps it (`Indexed.apply`), a
login by adding its account to the list if it is not on it. As the list only grows at its end, an
account has the number of its first login for good (`indexes_agree`).

The numbers have 32 bits; the directory has to run out of accounts before it runs out of them.
-/

set_option autoImplicit false

namespace FrameSync.Directory

/-! ## Accounts in order -/

/-- The account that logs in with a change. -/
def Op.account? : Op → Option String
  | .login account _ => some account
  | _ => none

/-- The accounts that log in, in the order of their first logins. -/
def firstLogins (ops : List Op) : List String := (ops.filterMap Op.account?).eraseDups

/-- What comes later is put at the end. -/
theorem firstLogins_mono (ops ops' : List Op) : firstLogins ops <+: firstLogins (ops ++ ops') := by
  rw [firstLogins, firstLogins, List.filterMap_append, List.eraseDups_append]
  exact List.prefix_append _ _

/-- The list of accounts after one more change. -/
def enlist (accounts : List String) (op : Op) : List String :=
  match op.account? with
  | none => accounts
  | some account => if account ∈ accounts then accounts else accounts ++ [account]

theorem firstLogins_snoc (ops : List Op) (op : Op) :
    firstLogins (ops ++ [op]) = enlist (firstLogins ops) op := by
  rw [firstLogins, List.filterMap_append, List.eraseDups_append, ← firstLogins, enlist]
  cases haccount : op.account? with
  | none => simp [haccount, List.removeAll]
  | some account =>
    have hlast : [op].filterMap Op.account? = [account] := by simp [haccount]
    rw [hlast]
    by_cases hmem : account ∈ ops.filterMap Op.account?
    · -- the account has logged in before
      have hold : account ∈ firstLogins ops := List.mem_eraseDups.mpr hmem
      have hrest : [account].removeAll (ops.filterMap Op.account?) = [] := by
        rw [List.removeAll, List.filter_cons_of_neg (by simp [hmem]), List.filter_nil]
      rw [hrest, List.eraseDups_nil, List.append_nil]
      exact (if_pos hold).symm
    · have hnew : account ∉ firstLogins ops := fun h => hmem (List.mem_eraseDups.mp h)
      have hrest : [account].removeAll (ops.filterMap Op.account?) = [account] := by
        rw [List.removeAll, List.filter_cons_of_pos (by simp [hmem]), List.filter_nil]
      rw [hrest, List.eraseDups_cons, List.filter_nil, List.eraseDups_nil]
      exact (if_neg hnew).symm

/-- The number of a player with `n` others before it. -/
def number (base : UInt32) (n : Nat) : PlayerId := ⟨UInt32.ofNat (base.toNat + n + 1)⟩

theorem toNat_number {base : UInt32} {n : Nat} (h : base.toNat + n + 1 < UInt32.size) :
    (number base n).num.toNat = base.toNat + n + 1 := UInt32.toNat_ofNat_of_lt' h

/-! ## The invariant -/

/-- The indexes of a directory in which the given accounts have logged in. There is a player for
each account, and each account is listed; a lobby connection speaks for the player whose it is. The
accounts have the numbers after the base, in their order, and a record is the one of its player and
of the account that has this player. -/
structure Indexed (base : UInt32) (accounts : List String) (d : Directory) : Prop where
  consistent : d.Consistent
  base_eq : d.base = base
  size : d.players.size = accounts.length
  listed : d.accounts.length = accounts.length
  lobby : Inverse d.playerByLobby d.lobbyConn
  assigned : ∀ account player, d.playerByAccount account = some player ↔
    ∃ n, accounts[n]? = some account ∧ player = number base n
  identity : ∀ player id account,
    (d.players.get? player).map (fun r => (r.id, r.account)) = some (id, account) ↔
      id = player ∧ d.playerByAccount account = some player

section Changes

variable {base : UInt32} {accounts : List String} {d d' : Directory} {account : String}
  {player : PlayerId} {conn : ConnId}

theorem indexed_empty (base : UInt32) : Indexed base [] (empty base) where
  consistent := consistent_empty base
  base_eq := rfl
  size := rfl
  listed := rfl
  lobby := fun _ _ => ⟨nofun, nofun⟩
  assigned := by
    intro account player
    constructor
    · intro h
      cases h
    · rintro ⟨n, hn, -⟩
      cases hn
  identity := by
    intro player id account
    constructor
    · intro h
      cases h
    · rintro ⟨-, h⟩
      cases h

/-- Whoever is an account's player is registered. -/
theorem Indexed.contains_of_account (h : Indexed base accounts d)
    (haccount : d.playerByAccount account = some player) : d.contains player = true := by
  have hrecord := (h.identity player player account).mpr ⟨rfl, haccount⟩
  obtain ⟨record, hget, -⟩ := Option.map_eq_some_iff.mp hrecord
  exact congrArg Option.isSome hget

/-- An account that has a player is one of the list. -/
theorem Indexed.mem_iff (h : Indexed base accounts d) :
    account ∈ accounts ↔ ∃ player, d.playerByAccount account = some player := by
  constructor
  · intro hmem
    obtain ⟨n, hn⟩ := List.mem_iff_getElem?.mp hmem
    exact ⟨number base n, (h.assigned account _).mpr ⟨n, hn, rfl⟩⟩
  · rintro ⟨player, hplayer⟩
    obtain ⟨n, hn, -⟩ := (h.assigned account player).mp hplayer
    exact List.mem_iff_getElem?.mpr ⟨n, hn⟩

/-- A login of a known account adds none to the list, -/
theorem Indexed.enlist_of_some (h : Indexed base accounts d)
    (haccount : d.playerByAccount account = some player) (conn : ConnId) :
    enlist accounts (.login account conn) = accounts := if_pos (h.mem_iff.mpr ⟨player, haccount⟩)

theorem Indexed.not_mem_of_none (h : Indexed base accounts d)
    (haccount : d.playerByAccount account = none) : account ∉ accounts := by
  intro hmem
  obtain ⟨player, hplayer⟩ := h.mem_iff.mp hmem
  rw [haccount] at hplayer
  cases hplayer

/-- and that of a new one adds it at the end. -/
theorem Indexed.enlist_of_none (h : Indexed base accounts d)
    (haccount : d.playerByAccount account = none) (conn : ConnId) :
    enlist accounts (.login account conn) = accounts ++ [account] :=
  if_neg (h.not_mem_of_none haccount)

/-- Changes of bindings and rooms leave the numbers alone. -/
theorem Indexed.of_view (h : Indexed base accounts d) (hd : d'.Consistent)
    (hbase : d'.base = d.base) (haccounts : d'.accounts = d.accounts)
    (hview : SameView (fun r => (r.id, r.account)) d.players d'.players)
    (hlobby : Inverse d'.playerByLobby d'.lobbyConn) : Indexed base accounts d' where
  consistent := hd
  base_eq := hbase.trans h.base_eq
  size := hview.size.trans h.size
  listed := (congrArg List.length haccounts).trans h.listed
  lobby := hlobby
  assigned := by
    intro account player
    rw [playerByAccount, haccounts]
    exact h.assigned account player
  identity := by
    intro player id account
    rw [hview.view, playerByAccount, haccounts]
    exact h.identity player id account

/-- So do those on the battle side, which touch no lobby connection either. -/
theorem Indexed.of_lobbyView (h : Indexed base accounts d) (hd : d'.Consistent)
    (hbase : d'.base = d.base) (haccounts : d'.accounts = d.accounts)
    (hconns : d'.lobbyConns = d.lobbyConns)
    (hview : SameView (fun r => (r.id, r.account, r.lobby)) d.players d'.players) :
    Indexed base accounts d' := by
  have hlobby : ∀ p, d'.lobbyConn p = d.lobbyConn p := hview.bind fun v => v.2.2
  refine h.of_view hd hbase haccounts ⟨hview.size, fun p => ?_⟩ fun conn player => ?_
  · -- the view without the lobby connections
    have hsame := congrArg (Option.map fun v => (v.1, v.2.1)) (hview.view p)
    rwa [Option.map_map, Option.map_map] at hsame
  · rw [hlobby, playerByLobby, hconns]
    exact h.lobby conn player

/-! ## Logins -/

/-- What a lobby binding writes. -/
theorem bindLobby_eq (d : Directory) (player : PlayerId) (conn : ConnId) :
    (d.bindLobby player conn).players =
        (takeFrom (fun r => { r with lobby := none }) d.players player
          (d.playerByLobby conn)).update player (fun r => { r with lobby := some conn }) ∧
      (d.bindLobby player conn).lobbyConns =
        match d.lobbyConn player with
        | some old =>
          if old = conn then d.lobbyConns.insert conn player
          else (d.lobbyConns.insert conn player).erase old
        | none => d.lobbyConns.insert conn player := by
  refine ⟨rfl, ?_⟩
  -- the player's own record is not the one that lost the connection
  have hown : (takeFrom (fun r => { r with lobby := none }) d.players player
      (d.playerByLobby conn)).get? player = d.players.get? player := by
    rw [get?_takeFrom]
    exact if_neg fun h => h.1 rfl
  have hearlier : (d.bindLobby player conn).lobbyConns =
      match ((takeFrom (fun r => { r with lobby := none }) d.players player
        (d.playerByLobby conn)).get? player).bind PlayerRecord.lobby with
      | some old =>
        if old = conn then d.lobbyConns.insert conn player
        else (d.lobbyConns.insert conn player).erase old
      | none => d.lobbyConns.insert conn player := rfl
  rw [hearlier, hown]
  rfl

theorem lobbyConn_bindLobby (hplayer : d.contains player = true) (conn : ConnId) (p : PlayerId) :
    (d.bindLobby player conn).lobbyConn p =
      if p = player then some conn
      else if d.playerByLobby conn = some p then none else d.lobbyConn p := by
  rw [lobbyConn, (bindLobby_eq d player conn).1, Table.get?_update_ite, get?_takeFrom]
  by_cases hp : p = player
  · -- the player's own record is written last, and there is one
    subst hp
    obtain ⟨record, hget⟩ := Option.isSome_iff_exists.mp hplayer
    simp [hget]
  · -- another record is touched only if it had the connection
    rw [if_neg hp, if_neg hp]
    by_cases hspoke : d.playerByLobby conn = some p
    · rw [if_pos ⟨hp, hspoke⟩, if_pos hspoke]
      cases d.players.get? p <;> rfl
    · rw [if_neg fun h => hspoke h.2, if_neg hspoke]
      rfl

theorem playerByLobby_bindLobby (d : Directory) (player : PlayerId) (conn c : ConnId) :
    (d.bindLobby player conn).playerByLobby c =
      if c = conn then some player
      else if d.lobbyConn player = some c then none else d.playerByLobby c := by
  have hinsert : (d.lobbyConns.insert conn player).get? c =
      if c = conn then some player else d.playerByLobby c :=
    Table.get?_insert_ite _ conn c player
  rw [playerByLobby, (bindLobby_eq d player conn).2]
  cases hold : d.lobbyConn player with
  | none => simpa using hinsert
  | some old =>
    by_cases hsame : old = conn
    · -- the player is bound to this connection already
      subst hsame
      simp only [if_true, hinsert, Option.some.injEq]
      by_cases hc : c = old
      · rw [if_pos hc, if_pos hc]
      · rw [if_neg hc, if_neg hc, if_neg fun h => hc h.symm]
    · -- its earlier connection speaks for nobody any more
      simp only [if_neg hsame, Option.some.injEq]
      rw [Table.get?_erase_ite, hinsert]
      by_cases hc : c = old
      · rw [if_pos hc, if_neg fun e => hsame (hc.symm.trans e), if_pos hc.symm]
      · rw [if_neg hc, if_neg (Ne.symm hc)]

/-- **A player that logs in** has the connection, and the connection speaks for it alone. -/
theorem Indexed.bindLobby (h : Indexed base accounts d) (hplayer : d.contains player = true)
    (conn : ConnId) : Indexed base accounts (d.bindLobby player conn) := by
  have hview := view_bindLobby (v := fun r => (r.battle, r.room)) (fun _ _ => rfl) d player conn
  have hsame : SameBattle d (d.bindLobby player conn) := sameBattle_of_view hview rfl
  refine h.of_view (h.consistent.of_same hsame hview rfl rfl) rfl rfl ?_ ?_
  · exact view_bindLobby (fun _ _ => rfl) d player conn
  · exact h.lobby.bind (lobbyConn_bindLobby hplayer conn) (playerByLobby_bindLobby d player conn)

/-- A new account gets the next player, and all the others keep theirs. -/
theorem playerByAccount_register (hnew : d.playerByAccount account = none) (a : String)
    (p : PlayerId) : (d.register account).2.playerByAccount a = some p ↔
      d.playerByAccount a = some p ∨ (a = account ∧ p = d.nextPlayer) := by
  -- it is put behind the others, so that an account that is listed already is found first
  have happend : (d.register account).2.playerByAccount a =
      (d.playerByAccount a).or (if a = account then some d.nextPlayer else none) := by
    show List.lookup a (d.accounts ++ [(account, d.nextPlayer)]) = _
    rw [List.lookup_append, playerByAccount]
    by_cases ha : a = account
    · simp [ha]
    · simp [List.lookup_cons, ha, beq_eq_false_iff_ne.mpr ha]
  rw [happend]
  by_cases ha : a = account
  · subst ha
    simp [hnew, eq_comm]
  · simp [ha]

/-- The place of one that is put at the end is the one behind all others. -/
theorem getElem?_concat_eq_some {α : Type} {l : List α} {a b : α} {n : Nat} :
    (l ++ [b])[n]? = some a ↔ l[n]? = some a ∨ (a = b ∧ n = l.length) := by
  rcases Nat.lt_trichotomy n l.length with hlt | rfl | hgt
  · rw [List.getElem?_append_left hlt]
    simp [Nat.ne_of_lt hlt]
  · simp [eq_comm]
  · -- there is nothing behind it
    have hout : (l ++ [b])[n]? = none := by
      rw [List.getElem?_eq_none_iff, List.length_append, List.length_singleton]
      exact hgt
    rw [hout, List.getElem?_eq_none (Nat.le_of_lt hgt)]
    simp [Nat.ne_of_gt hgt]

/-- **A new account** has the next number. -/
theorem Indexed.register (h : Indexed base accounts d) (hnew : account ∉ accounts)
    (hspace : (accounts ++ [account]).length ≤ UInt32.size) :
    (d.register account).1 = number base accounts.length ∧
      Indexed base (accounts ++ [account]) (d.register account).2 := by
  rw [List.length_append, List.length_singleton] at hspace
  have hnumber : d.nextPlayer = number base accounts.length := by
    rw [nextPlayer, number, h.base_eq, h.size]
  have hfree : d.accounts.length < UInt32.size := by
    rw [h.listed]
    omega
  have hfresh := nextPlayer_fresh h.consistent hfree
  have hlobby := bind_register h.consistent hfree account PlayerRecord.lobby rfl
  have hunknown : d.playerByAccount account = none :=
    Option.eq_none_iff_forall_ne_some.mpr fun q hq => hnew (h.mem_iff.mpr ⟨q, hq⟩)
  have hlookup := playerByAccount_register hunknown
  refine ⟨hnumber, consistent_register h.consistent hfree account, h.base_eq, ?_, ?_, ?_, ?_, ?_⟩
  · -- the number was free, so that there is one record more
    show (d.players.insert d.nextPlayer _).size = _
    rw [Table.size_insert, hfresh, List.length_append, List.length_singleton, ← h.size]
    rfl
  · show (d.accounts ++ [_]).length = _
    rw [List.length_append, List.length_append, h.listed]
    rfl
  · -- the new record has no lobby connection yet
    intro c p
    rw [lobbyConn, hlobby p]
    exact h.lobby c p
  · intro a p
    rw [hlookup, h.assigned, hnumber]
    simp only [getElem?_concat_eq_some]
    constructor
    · rintro (⟨n, hn, rfl⟩ | ⟨rfl, rfl⟩)
      · exact ⟨n, Or.inl hn, rfl⟩
      · exact ⟨accounts.length, Or.inr ⟨rfl, rfl⟩, rfl⟩
    · rintro ⟨n, hn | ⟨rfl, rfl⟩, rfl⟩
      · exact Or.inl ⟨n, hn, rfl⟩
      · exact Or.inr ⟨rfl, rfl⟩
  · intro p id a
    show ((d.players.insert d.nextPlayer ⟨d.nextPlayer, account, none, none, none⟩).get? p).map _ =
      some (id, a) ↔ _
    rw [hlookup]
    by_cases hp : d.nextPlayer = p
    · -- nobody had the number of the new account
      subst hp
      have hnobody : d.playerByAccount a ≠ some d.nextPlayer := by
        intro ha
        have hcontains := h.contains_of_account ha
        rw [contains, Table.contains, hfresh] at hcontains
        cases hcontains
      rw [Table.get?_insert_self]
      simp [hnobody, eq_comm]
    · rw [Table.get?_insert_of_ne _ _ hp, h.identity]
      simp [Ne.symm hp]

theorem login_of_some (haccount : d.playerByAccount account = some player) (conn : ConnId) :
    d.login account conn = ((player, false), d.bindLobby player conn) := by
  simp only [login, haccount]

theorem login_of_none (haccount : d.playerByAccount account = none) (conn : ConnId) :
    d.login account conn =
      ((d.nextPlayer, true), (d.register account).2.bindLobby d.nextPlayer conn) := by
  simp only [login, haccount]
  rfl

theorem Indexed.login (h : Indexed base accounts d) (account : String) (conn : ConnId)
    (hspace : (enlist accounts (.login account conn)).length ≤ UInt32.size) :
    (d.login account conn).2.playerByAccount account = some (d.login account conn).1.1 ∧
      Indexed base (enlist accounts (.login account conn)) (d.login account conn).2 := by
  cases hplayer : d.playerByAccount account with
  | some player =>
    rw [login_of_some hplayer, h.enlist_of_some hplayer]
    exact ⟨hplayer, h.bindLobby (h.contains_of_account hplayer) conn⟩
  | none =>
    rw [h.enlist_of_none hplayer] at hspace ⊢
    obtain ⟨hnumber, hindexed⟩ := h.register (h.not_mem_of_none hplayer) hspace
    have haccount : (d.register account).2.playerByAccount account =
        some (d.register account).1 := by
      refine (hindexed.assigned account _).mpr ⟨accounts.length, ?_, hnumber⟩
      simp
    rw [login_of_none hplayer]
    exact ⟨haccount, hindexed.bindLobby (hindexed.contains_of_account haccount) conn⟩

/-! ## Histories -/

theorem Indexed.unbindLobby (h : Indexed base accounts d) (conn : ConnId) :
    Indexed base accounts (d.unbindLobby conn).2 := by
  have hd := (unbindLobby_spec h.consistent conn).2
  cases hconn : d.playerByLobby conn with
  | none =>
    have hsame : (d.unbindLobby conn).2 = d := by
      rw [Directory.unbindLobby]
      rw [show d.lobbyConns.get? conn = none from hconn]
    rw [hsame]
    exact h
  | some player =>
    have hunbind : (d.unbindLobby conn).2 = { d with
        lobbyConns := d.lobbyConns.erase conn
        players := d.players.update player fun r => { r with lobby := none } } := by
      rw [Directory.unbindLobby]
      rw [show d.lobbyConns.get? conn = some player from hconn]
    have hview := view_unbindLobby (v := fun r => (r.id, r.account)) (fun _ _ => rfl) d conn
    rw [hunbind] at hd hview ⊢
    refine h.of_view hd rfl rfl hview (h.lobby.unbind hconn ?_ ?_)
    · intro p
      exact bind_update_none _ (fun _ => rfl) p
    · intro c
      exact Table.get?_erase_ite _ conn c

theorem Indexed.unbindBattle (h : Indexed base accounts d) (conn : ConnId) :
    Indexed base accounts (d.unbindBattle conn).2 := by
  have hview := view_unbindBattle (v := fun r => (r.id, r.account, r.lobby)) (fun _ _ => rfl) d conn
  cases hconn : d.playerByBattle conn with
  | none =>
    rw [unbindBattle_of_none hconn]
    exact h
  | some player =>
    obtain ⟨-, -, -, -, -, hd⟩ := unbindBattle_spec h.consistent hconn
    rw [unbindBattle_of_some hconn] at hview hd ⊢
    exact h.of_lobbyView hd rfl rfl rfl hview

theorem Indexed.bindBattle (h : Indexed base accounts d) {replaced : Option ConnId}
    (hbind : d.bindBattle player conn = .ok (replaced, d')) : Indexed base accounts d' := by
  have hview := view_bindBattle (v := fun r => (r.id, r.account, r.lobby)) (fun _ _ => rfl) hbind
  have hd := consistent_bindBattle h.consistent hbind
  obtain ⟨record, -, rfl⟩ := bindBattle_eq_ok hbind
  exact h.of_lobbyView hd rfl rfl rfl hview

theorem Indexed.setRoom (h : Indexed base accounts d) {room : Option RoomId}
    (hset : d.setRoom player room = .ok d') : Indexed base accounts d' := by
  rw [Directory.setRoom] at hset
  split at hset
  · cases hset
  · rename_i record hget
    have hcontains : d.contains player = true := congrArg Option.isSome hget
    obtain ⟨d₁, hset₁, -, -, -, -, hd⟩ := setRoom_spec h.consistent hcontains room
    rw [Directory.setRoom] at hset₁
    simp only [hget] at hset₁
    cases hset₁
    cases hset
    exact h.of_lobbyView hd rfl rfl rfl (.insert hget rfl)

/-- **Every change keeps the indexes.** -/
theorem Indexed.apply (h : Indexed base accounts d) (op : Op)
    (hspace : (enlist accounts op).length ≤ UInt32.size) :
    Indexed base (enlist accounts op) (d.apply op) := by
  cases op with
  | login account conn => exact (h.login account conn hspace).2
  | bindBattle player conn =>
    rw [Directory.apply]
    split
    · exact h.bindBattle ‹_›
    · exact h
  | unbindLobby conn => exact h.unbindLobby conn
  | unbindBattle conn => exact h.unbindBattle conn
  | setRoom player room =>
    rw [Directory.apply]
    split
    · exact h.setRoom ‹_›
    · exact h

theorem run_snoc (d : Directory) (ops : List Op) (op : Op) :
    d.run (ops ++ [op]) = (d.run ops).apply op := by
  rw [run, run, List.foldl_append]
  rfl

/-- A history that is cut off earlier has no more accounts. -/
theorem length_firstLogins_le (ops ops' : List Op) :
    (firstLogins ops).length ≤ (firstLogins (ops ++ ops')).length :=
  (firstLogins_mono ops ops').length_le

theorem space_before {ops ops' : List Op}
    (hspace : base.toNat + (firstLogins (ops ++ ops')).length < UInt32.size) :
    base.toNat + (firstLogins ops).length < UInt32.size := by
  have hle := length_firstLogins_le ops ops'
  omega

/-- **Every history** gives numbers in the order of first logins, and indexes that agree with the
records. There may be as many accounts as there are numbers, wherever these begin. -/
theorem indexed_of_le (base : UInt32) (ops : List Op)
    (hspace : (firstLogins ops).length ≤ UInt32.size) :
    Indexed base (firstLogins ops) (run (empty base) ops) := by
  -- from the end, because what a login does to the list depends on the logins before it
  induction ops using List.reverseRecOn with
  | nil => exact indexed_empty base
  | append_singleton ops op ih =>
    have hbefore := ih (Nat.le_trans (length_firstLogins_le ops [op]) hspace)
    rw [firstLogins_snoc] at hspace ⊢
    rw [run_snoc]
    exact hbefore.apply op hspace

/-- So does one that stays below the end of the numbers. -/
theorem indexed_run (base : UInt32) (ops : List Op)
    (hspace : base.toNat + (firstLogins ops).length < UInt32.size) :
    Indexed base (firstLogins ops) (run (empty base) ops) :=
  indexed_of_le base ops (by omega)

/-- The account of a record is the one that has its player. -/
theorem Indexed.playerByAccount_iff (h : Indexed base accounts d) :
    d.playerByAccount account = some player ↔
      (d.players.get? player).map PlayerRecord.account = some account := by
  constructor
  · intro haccount
    have hrecord := (h.identity player player account).mpr ⟨rfl, haccount⟩
    have hsecond := congrArg (Option.map Prod.snd) hrecord
    rwa [Option.map_map] at hsecond
  · intro hrecord
    obtain ⟨record, hget, rfl⟩ := Option.map_eq_some_iff.mp hrecord
    exact ((h.identity player record.id record.account).mp (by rw [hget]; rfl)).2

/-- The players are those with the numbers after the base. -/
theorem Indexed.contains_iff (h : Indexed base accounts d)
    (hspace : base.toNat + accounts.length < UInt32.size) :
    d.contains player = true ↔
      base.toNat < player.num.toNat ∧ player.num.toNat ≤ base.toNat + accounts.length := by
  constructor
  · intro hcontains
    -- no number is passed over, because it is below 2 ^ 32
    obtain ⟨n, hn, hplayer⟩ := h.consistent.numbered player hcontains
    rw [h.size] at hn
    rw [h.base_eq] at hplayer
    have hnum : player.num.toNat = base.toNat + n + 1 :=
      (congrArg (fun p : PlayerId => p.num.toNat) hplayer).trans (toNat_number (by omega))
    omega
  · rintro ⟨hlow, hhigh⟩
    have hn : player.num.toNat - base.toNat - 1 < accounts.length := by omega
    -- the number is the one of the account in this place
    refine h.contains_of_account ((h.assigned accounts[player.num.toNat - base.toNat - 1] player).mpr
      ⟨_, List.getElem?_eq_getElem hn, ?_⟩)
    have hnat : player.num.toNat =
        (number base (player.num.toNat - base.toNat - 1)).num.toNat := by
      rw [toNat_number (by omega)]
      omega
    exact congrArg PlayerId.mk (UInt32.toNat_inj.mp hnat)

end Changes

/-- A player that an account has once is the one it has for good. -/
theorem account_kept (base : UInt32) (before after : List Op)
    (hspace : base.toNat + (firstLogins (before ++ after)).length < UInt32.size) {account : String}
    {player : PlayerId} (h : (run (empty base) before).playerByAccount account = some player) :
    (run (empty base) (before ++ after)).playerByAccount account = some player := by
  have hbefore := indexed_run base before (space_before hspace)
  have hafter := indexed_run base (before ++ after) hspace
  -- the account keeps its place in the list, and the place is the number
  obtain ⟨n, hn, hplayer⟩ := (hbefore.assigned account player).mp h
  obtain ⟨later, hlater⟩ := firstLogins_mono before after
  refine (hafter.assigned account player).mpr ⟨n, ?_, hplayer⟩
  rw [← hlater, List.getElem?_append_left (List.getElem?_eq_some_iff.mp hn).1]
  exact hn

/-- Whom a login answers is whom the account has from then on. -/
theorem login_kept (base : UInt32) (before after : List Op) (account : String) (conn : ConnId)
    (hspace : base.toNat + (firstLogins (before ++ .login account conn :: after)).length <
      UInt32.size) :
    (run (empty base) (before ++ .login account conn :: after)).playerByAccount account =
      some ((run (empty base) before).login account conn).1.1 := by
  -- the login is the last change of the shorter history
  rw [List.append_cons] at hspace ⊢
  refine account_kept base _ after hspace ?_
  have hlogin := space_before hspace
  have hbefore := indexed_run base before (space_before hlogin)
  rw [firstLogins_snoc] at hlogin
  rw [run_snoc]
  exact (hbefore.login account conn (by omega)).1

/-- **The indexes and the records agree** after every history that stays within the numbers. A lobby
or battle connection speaks for the player whose record has it, so it is in one record and a
record's player has no other; an account has the player whose record has it; and a record is the one
of its player. The players have the numbers after the base, one for each account, in the order of
first logins, and whom a login answers is whom the account has from then on. -/
theorem indexes_agree (base : UInt32) (ops : List Op)
    (hspace : base.toNat + (firstLogins ops).length < UInt32.size) :
    let d := run (empty base) ops
    ((∀ conn player, d.playerByLobby conn = some player ↔ d.lobbyConn player = some conn) ∧
      (∀ conn player, d.playerByBattle conn = some player ↔ d.battleConn player = some conn) ∧
      (∀ account player, d.playerByAccount account = some player ↔
        (d.players.get? player).map PlayerRecord.account = some account) ∧
      ∀ player record, d.players.get? player = some record → record.id = player) ∧
    ((∀ player, d.contains player = true ↔
        base.toNat < player.num.toNat ∧ player.num.toNat ≤ base.toNat + (firstLogins ops).length) ∧
      (∀ account player, d.playerByAccount account = some player ↔
        ∃ i, (firstLogins ops)[i]? = some account ∧ player.num.toNat = base.toNat + i + 1) ∧
      (∀ before after, ops = before ++ after → ∀ account player,
        (run (empty base) before).playerByAccount account = some player →
          d.playerByAccount account = some player) ∧
      ∀ before account conn after, ops = before ++ .login account conn :: after →
        d.playerByAccount account = some ((run (empty base) before).login account conn).1.1) ∧
    ((∀ conn p q, d.lobbyConn p = some conn → d.lobbyConn q = some conn → p = q) ∧
      (∀ player c c', d.playerByLobby c = some player → d.playerByLobby c' = some player → c = c') ∧
      (∀ conn p q, d.battleConn p = some conn → d.battleConn q = some conn → p = q) ∧
      ∀ player c c', d.playerByBattle c = some player → d.playerByBattle c' = some player →
        c = c') := by
  intro d
  have h : Indexed base (firstLogins ops) d := indexed_run base ops hspace
  have hbattle : Inverse d.playerByBattle d.battleConn := h.consistent.battle
  refine ⟨⟨h.lobby, hbattle, fun _ _ => h.playerByAccount_iff, ?_⟩,
    ⟨fun _ => h.contains_iff hspace, ?_, ?_, ?_⟩,
    fun _ _ _ => h.lobby.player_eq, fun _ _ _ => h.lobby.conn_eq,
    fun _ _ _ => hbattle.player_eq, fun _ _ _ => hbattle.conn_eq⟩
  · intro player record hget
    exact ((h.identity player record.id record.account).mp (by rw [hget]; rfl)).1
  · -- the places in the list are the numbers, as long as there are enough of these
    intro account player
    rw [h.assigned]
    refine exists_congr fun i => and_congr_right fun hi => ?_
    have hlt := (List.getElem?_eq_some_iff.mp hi).1
    have hnumber : (number base i).num.toNat = base.toNat + i + 1 := toNat_number (by omega)
    constructor
    · rintro rfl
      exact hnumber
    · intro hplayer
      exact congrArg PlayerId.mk (UInt32.toNat_inj.mp (hplayer.trans hnumber.symm))
  · intro before after heq account player hbefore
    subst heq
    exact account_kept base before after hspace hbefore
  · intro before account conn after heq
    subst heq
    exact login_kept base before after account conn hspace

/-- Account `a` logs in anew on the lobby connection of `b`, and takes its battle connection too. -/
def takeover : List Op :=
  [.login "a" ⟨1⟩, .bindBattle ⟨101⟩ ⟨11⟩, .login "b" ⟨2⟩, .bindBattle ⟨102⟩ ⟨12⟩,
    .login "a" ⟨2⟩, .bindBattle ⟨101⟩ ⟨12⟩, .bindBattle ⟨103⟩ ⟨11⟩]

/-- Player 101 has both connections then, and 102 has none; the earlier ones of 101 speak for
nobody. -/
theorem indexes_agree_takeover :
    (100 : UInt32).toNat + (firstLogins takeover).length < UInt32.size ∧
      (run (empty 100) takeover).lobbyConn ⟨101⟩ = some ⟨2⟩ ∧
      (run (empty 100) takeover).battleConn ⟨101⟩ = some ⟨12⟩ ∧
      (run (empty 100) takeover).lobbyConn ⟨102⟩ = none ∧
      (run (empty 100) takeover).battleConn ⟨102⟩ = none ∧
      (∀ player, (run (empty 100) takeover).lobbyConn player ≠ some ⟨1⟩) ∧
      ∀ player, (run (empty 100) takeover).contains player = true ↔
        100 < player.num.toNat ∧ player.num.toNat ≤ 102 := by
  have hspace : (100 : UInt32).toNat + (firstLogins takeover).length < UInt32.size := by
    decide +kernel
  obtain ⟨⟨hlobby, -, -, -⟩, ⟨hplayers, -, -, -⟩, -⟩ := indexes_agree 100 takeover hspace
  refine ⟨hspace, by decide +kernel, by decide +kernel, by decide +kernel, by decide +kernel, ?_,
    hplayers⟩
  intro player hconn
  have hspeaks := (hlobby ⟨1⟩ player).mpr hconn
  have hnobody : (run (empty 100) takeover).playerByLobby ⟨1⟩ = none := by
    decide +kernel
  rw [hnobody] at hspeaks
  cases hspeaks

end FrameSync.Directory
