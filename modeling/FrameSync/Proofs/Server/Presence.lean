import FrameSync.Proofs.Directory.Bindings
import FrameSync.Proofs.Server.Steps

/-!
# Who is in the lobby

A connection gets into the lobby by a login that is granted, and stays there for the account that
has logged in. It gets out when it is reported gone, when the account logs in on another connection,
and when another account logs in on it. `InLobby` reads this off the events, without looking at the
server; `inLobby_iff` says that the lobby index of the directory comes to the same after every run.

One event does one of three things to the lobby side of the directory (`LobbySide`): it logs an
account in, it takes a connection out, or it leaves the index and the accounts alone.
-/

set_option autoImplicit false

namespace FrameSync

open Wire

namespace Directory

variable {d d' : Directory} {base : UInt32} {accounts : List String} {account : String}
  {player : PlayerId} {conn c : ConnId}

/-! ## The lobby side of the directory -/

/-- The lobby connections of two directories speak for the same players, and the accounts have the
same. -/
structure SameLobby (d d' : Directory) : Prop where
  lobbyConns : d'.lobbyConns = d.lobbyConns
  accounts : d'.accounts = d.accounts

theorem SameLobby.refl (d : Directory) : SameLobby d d := ⟨rfl, rfl⟩

theorem SameLobby.playerByLobby (h : SameLobby d d') (conn : ConnId) :
    d'.playerByLobby conn = d.playerByLobby conn := by
  rw [Directory.playerByLobby, h.lobbyConns]
  rfl

theorem SameLobby.playerByAccount (h : SameLobby d d') (account : String) :
    d'.playerByAccount account = d.playerByAccount account := by
  rw [Directory.playerByAccount, h.accounts]
  rfl

theorem SameLobby.lobbyConnections (h : SameLobby d d') :
    d'.lobbyConnections = d.lobbyConnections := by
  rw [Directory.lobbyConnections, h.lobbyConns]
  rfl

theorem sameLobby_setRoom {room : Option RoomId} (h : d.setRoom player room = .ok d') :
    SameLobby d d' := by
  rw [setRoom] at h
  split at h
  · cases h
  · cases h
    exact ⟨rfl, rfl⟩

theorem sameLobby_bindBattle {replaced : Option ConnId}
    (h : d.bindBattle player conn = .ok (replaced, d')) : SameLobby d d' := by
  obtain ⟨record, -, rfl⟩ := bindBattle_eq_ok h
  exact ⟨rfl, rfl⟩

theorem sameLobby_unbindBattle (d : Directory) (conn : ConnId) :
    SameLobby d (d.unbindBattle conn).2 := by
  rw [unbindBattle]
  split <;> exact ⟨rfl, rfl⟩

/-- **A lobby connection that is gone** speaks for nobody, and every account has its player. -/
theorem playerByLobby_unbindLobby (d : Directory) (conn c : ConnId) :
    (d.unbindLobby conn).2.playerByLobby c = if c = conn then none else d.playerByLobby c := by
  rw [unbindLobby]
  cases hspeaks : d.lobbyConns.get? conn with
  | some player => exact Table.get?_erase_ite _ conn c
  | none =>
    show d.playerByLobby c = _
    by_cases hc : c = conn
    · rw [if_pos hc, hc]
      exact hspeaks
    · rw [if_neg hc]

theorem playerByAccount_unbindLobby (d : Directory) (conn : ConnId) (account : String) :
    (d.unbindLobby conn).2.playerByAccount account = d.playerByAccount account := by
  rw [unbindLobby]
  split <;> rfl

/-- No player has two accounts. -/
theorem Indexed.account_eq (h : Indexed base accounts d) {a b : String}
    (ha : d.playerByAccount a = some player) (hb : d.playerByAccount b = some player) : a = b := by
  have hrecord := (h.identity player player a).mpr ⟨rfl, ha⟩
  rw [(h.identity player player b).mpr ⟨rfl, hb⟩] at hrecord
  exact (Prod.mk.inj (Option.some.inj hrecord)).2.symm

/-- The list of accounts grows as the directory does. -/
theorem Indexed.length_enlist (h : Indexed base accounts d) (account : String) (conn : ConnId) :
    (enlist accounts (.login account conn)).length = (d.login account conn).2.accounts.length := by
  cases haccount : d.playerByAccount account with
  | some player =>
    rw [login_of_some haccount, h.enlist_of_some haccount]
    exact h.listed.symm
  | none =>
    rw [login_of_none haccount, h.enlist_of_none haccount]
    show (accounts ++ [account]).length = (d.accounts ++ [_]).length
    rw [List.length_append, List.length_append, h.listed]
    rfl

/-- **The index after a login**: the connection speaks for the account's player, and no other one
does. -/
theorem Indexed.playerByLobby_login (h : Indexed base accounts d) (account : String) (conn : ConnId)
    (hspace : (enlist accounts (.login account conn)).length ≤ UInt32.size) :
    (d.login account conn).2.playerByLobby c = some player ↔
      (c = conn ∧ player = (d.login account conn).1.1) ∨
        (c ≠ conn ∧ player ≠ (d.login account conn).1.1 ∧ d.playerByLobby c = some player) := by
  rw [(h.lobby_login account conn hspace).2 c]
  by_cases hc : c = conn
  · simp [hc, eq_comm]
  · rw [if_neg hc]
    simp only [hc, false_and, false_or, ne_eq, not_false_eq_true, true_and]
    -- the earlier connection of the player is the one that speaks for it
    by_cases hearlier : d.lobbyConn (d.login account conn).1.1 = some c
    · rw [if_pos hearlier, (h.lobby c _).mpr hearlier]
      simp [eq_comm]
    · rw [if_neg hearlier]
      refine ⟨fun hspeaks => ⟨?_, hspeaks⟩, And.right⟩
      rintro rfl
      exact hearlier ((h.lobby c _).mp hspeaks)

/-- A connection is listed if it speaks for somebody. -/
theorem mem_lobbyConnections_iff :
    conn ∈ d.lobbyConnections ↔ ∃ player, d.playerByLobby conn = some player := Table.mem_keys_iff

theorem lobbyConnections_nodup (d : Directory) : d.lobbyConnections.Nodup := by
  refine (Table.keys_ascending d.lobbyConns).imp ?_
  rintro a b hlt rfl
  exact Nat.lt_irrefl _ hlt

/-- A player whose connection is known is registered. -/
theorem contains_of_lobbyConn (h : d.lobbyConn player = some conn) : d.contains player = true := by
  obtain ⟨record, hget, -⟩ := Option.bind_eq_some_iff.mp h
  exact congrArg Option.isSome hget

/-- A player that is registered has an account. -/
theorem Indexed.exists_account (h : Indexed base accounts d) (hplayer : d.contains player = true) :
    ∃ account, d.playerByAccount account = some player := by
  obtain ⟨record, hget⟩ := Option.isSome_iff_exists.mp hplayer
  refine ⟨record.account, h.playerByAccount_iff.mpr ?_⟩
  rw [hget, Option.map_some]

/-- **The listed connections** are the lobby connections of the registered players. -/
theorem Indexed.mem_lobbyConnections_iff_lobbyConn (h : Indexed base accounts d) :
    conn ∈ d.lobbyConnections ↔
      ∃ player, d.contains player = true ∧ d.lobbyConn player = some conn := by
  rw [mem_lobbyConnections_iff]
  constructor
  · rintro ⟨player, hspeaks⟩
    have hconn := (h.lobby conn player).mp hspeaks
    exact ⟨player, contains_of_lobbyConn hconn, hconn⟩
  · rintro ⟨player, -, hconn⟩
    exact ⟨player, (h.lobby conn player).mpr hconn⟩

end Directory

namespace Server

/-! ## Logins as events -/

/-- The connection and the account of a login that is granted. -/
def Event.login? (admission : Admission) : Event → Option (ConnId × String)
  | .lobby conn p =>
    match LobbyCommand.ofByte p.command, readBody LoginRequest p.payload with
    | .ok .login, .ok request =>
      match admission.check request.account request.password with
      | .ok () => some (conn, request.account)
      | .error _ => none
    | _, _ => none
  | _ => none

/-- An event leaves the connection to the account that has logged in on it: nobody logs in on the
connection, it is not reported gone, and the account does not log in elsewhere. -/
structure Event.Spares (admission : Admission) (conn : ConnId) (account : String) (e : Event) :
    Prop where
  login : ∀ a, e.login? admission ≠ some (conn, a)
  disconnect : e ≠ .lobbyDisconnected conn
  elsewhere : ∀ c, c ≠ conn → e.login? admission ≠ some (c, account)

/-- After these events, a connection is in the lobby for an account: the last login on it was the
account's, and since then it has not been reported gone, and the account has not logged in
elsewhere. -/
def InLobby (admission : Admission) (es : List Event) (conn : ConnId) (account : String) : Prop :=
  ∃ before e after, es = before ++ e :: after ∧ e.login? admission = some (conn, account) ∧
    ∀ e' ∈ after, e'.Spares admission conn account

variable {admission : Admission} {setup : Setup} {s : Server} {e : Event} {es : List Event}
  {conn : ConnId} {account : String} {base : UInt32} {accounts : List String} {d : Directory}
  {rooms : Table RoomId Room.Slot}

theorem not_inLobby_nil : ¬InLobby admission [] conn account := by
  rintro ⟨before, e, after, heq, -⟩
  exact List.append_ne_nil_of_right_ne_nil before (List.cons_ne_nil e after) heq.symm

/-- **One more event** puts a connection into the lobby, or leaves it there. -/
theorem inLobby_snoc : InLobby admission (es ++ [e]) conn account ↔
    e.login? admission = some (conn, account) ∨
      (InLobby admission es conn account ∧ e.Spares admission conn account) := by
  constructor
  · rintro ⟨before, first, after, heq, hlogin, hspares⟩
    rcases List.eq_nil_or_concat after with rfl | ⟨after', last, rfl⟩
    · -- the login is the last event
      obtain ⟨-, hlast⟩ := List.append_inj' heq rfl
      cases hlast
      exact Or.inl hlogin
    · rw [List.concat_eq_append, ← List.cons_append, ← List.append_assoc] at heq
      obtain ⟨rfl, hlast⟩ := List.append_inj' heq rfl
      cases hlast
      refine Or.inr ⟨⟨before, first, after', rfl, hlogin, ?_⟩, ?_⟩
      · intro e' he'
        exact hspares e' (by simp [he'])
      · exact hspares e (by simp)
  · rintro (hlogin | ⟨⟨before, first, after, rfl, hlogin, hspares⟩, hlast⟩)
    · exact ⟨es, e, [], rfl, hlogin, fun _ he' => absurd he' List.not_mem_nil⟩
    · refine ⟨before, first, after ++ [e], by simp, hlogin, ?_⟩
      intro e' he'
      -- the new event is the last one after the login
      rcases List.mem_append.mp he' with he' | he'
      · exact hspares e' he'
      · rw [List.mem_singleton.mp he']
        exact hlast

/-! ## What an event does to the lobby side -/

/-- What an event makes of the lobby side of the directory: an account logs in on a connection, a
connection is gone, or nothing changes. -/
inductive LobbySide (s : Server) (e : Event) (d : Directory) : Prop where
  | login (conn : ConnId) (account : String) : e.login? s.admission = some (conn, account) →
    d = (s.directory.login account conn).2 → LobbySide s e d
  | left (conn : ConnId) : e = .lobbyDisconnected conn →
    d = (s.directory.unbindLobby conn).2 → LobbySide s e d
  | same : e.login? s.admission = none → (∀ conn, e ≠ .lobbyDisconnected conn) →
    Directory.SameLobby s.directory d → LobbySide s e d

theorem directory_createRoom (s : Server) (conn : ConnId) (payload : Bytes) :
    (s.createRoom conn payload).server.directory = s.directory := by
  rw [createRoom]
  split
  · rfl
  · split
    · rw [announce_server]
    · rw [send_server]

/-- A join records a room, at most. -/
theorem sameLobby_joinRoom (s : Server) (conn : ConnId) (payload : Bytes) :
    Directory.SameLobby s.directory (s.joinRoom conn payload).server.directory := by
  cases hrequest : readBody JoinRoomRequest payload with
  | error e =>
    simp only [joinRoom, hrequest]
    exact .refl _
  | ok request =>
    rcases join_cases request.player request.room s.directory s.registry with ⟨code, hjoin⟩ |
      ⟨slot, room, outcome, d', -, -, -, -, hset, hjoin⟩
    · rw [(joinRoom_stores s conn hrequest hjoin).1]
      exact .refl _
    · rw [(joinRoom_stores s conn hrequest hjoin).1]
      exact Directory.sameLobby_setRoom hset

/-- A packet of the lobby logs an account in, or leaves the lobby side alone. -/
theorem lobbySide_onLobby (s : Server) (conn : ConnId) (p : Packet) :
    LobbySide s (.lobby conn p) (s.onLobby conn p).server.directory := by
  have hstays : ∀ c, Event.lobby conn p ≠ .lobbyDisconnected c := by
    rintro c ⟨⟩
  rw [onLobby]
  cases hcommand : LobbyCommand.ofByte p.command with
  | error e => exact .same (by simp only [Event.login?, hcommand]) hstays (.refl _)
  | ok command =>
    cases command with
    | createRoom =>
      refine .same (by simp only [Event.login?, hcommand]) hstays ?_
      rw [directory_createRoom]
      exact .refl _
    | joinRoom =>
      exact .same (by simp only [Event.login?, hcommand]) hstays (sameLobby_joinRoom s conn _)
    | login =>
      cases hrequest : readBody LoginRequest p.payload with
      | error e =>
        refine .same (by simp only [Event.login?, hcommand, hrequest]) hstays ?_
        simp only [login, hrequest]
        exact .refl _
      | ok request =>
        cases hcheck : s.admission.check request.account request.password with
        | error e =>
          refine .same (by simp only [Event.login?, hcommand, hrequest, hcheck]) hstays ?_
          simp only [login, hrequest, hcheck, send_server]
          exact .refl _
        | ok granted =>
          refine .login conn request.account ?_ ?_
          · simp only [Event.login?, hcommand, hrequest, hcheck]
          · simp only [login, hrequest, hcheck, send_server]

/-- What is not about the lobby leaves its side alone. -/
theorem Change.sameLobby (h : Change s e d rooms) (hlobby : ∀ conn p, e ≠ .lobby conn p)
    (hleft : ∀ conn, e ≠ .lobbyDisconnected conn) : Directory.SameLobby s.directory d := by
  cases h with
  | loggedIn conn p account => exact absurd rfl (hlobby conn p)
  | joined conn p => exact absurd rfl (hlobby conn p)
  | lobbyLeft conn => exact absurd rfl (hleft conn)
  | bound conn p request replaced d hconnect hbind => exact Directory.sameLobby_bindBattle hbind
  | battleLeft conn player hplayer => exact Directory.sameLobby_unbindBattle s.directory conn
  | _ => exact .refl _

/-- **Every event** does one of these to the lobby side. -/
theorem lobbySide_step (s : Server) (e : Event) : LobbySide s e (s.step e).2.directory := by
  cases e with
  | lobby conn p => exact lobbySide_onLobby s conn p
  | lobbyDisconnected conn => exact .left conn rfl rfl
  | _ =>
    -- it is not about the lobby at all
    refine .same rfl ?_ ((change_step s _).sameLobby ?_ ?_)
    · rintro conn ⟨⟩
    · rintro conn p ⟨⟩
    · rintro conn ⟨⟩

/-! ## Every run -/

/-- The indexes stay in order, whatever happens. -/
theorem Change.indexed (h : Directory.Indexed base accounts s.directory)
    (hchange : Change s e d rooms) (hspace : d.accounts.length ≤ UInt32.size) :
    ∃ accounts', Directory.Indexed base accounts' d := by
  cases hchange with
  | loggedIn conn p account =>
    rw [← h.length_enlist] at hspace
    exact ⟨_, (h.login account conn hspace).2⟩
  | joined conn p player id slot room outcome d hcontains hfree hget hjoin hset =>
    exact ⟨accounts, h.setRoom hset⟩
  | lobbyLeft conn => exact ⟨accounts, h.unbindLobby conn⟩
  | bound conn p request replaced d hconnect hbind => exact ⟨accounts, h.bindBattle hbind⟩
  | battleLeft conn player hplayer => exact ⟨accounts, h.unbindBattle conn⟩
  | _ => exact ⟨accounts, h⟩

theorem indexed_after (setup : Setup) (es : List Event)
    (haccounts : (stateAfter setup es).directory.accounts.length ≤ UInt32.size) :
    ∃ accounts, Directory.Indexed setup.playerBase accounts (stateAfter setup es).directory := by
  -- accounts are never forgotten, so before the last event there was a number for each as well
  induction es using List.reverseRecOn with
  | nil => exact ⟨[], Directory.indexed_empty setup.playerBase⟩
  | append_singleton es e ih =>
    rw [stateAfter_snoc] at haccounts ⊢
    have hchange := change_step (stateAfter setup es) e
    obtain ⟨accounts, hbefore⟩ := ih (Nat.le_trans hchange.accounts_le haccounts)
    exact hchange.indexed hbefore haccounts

/-- The directory knows who is in the lobby. -/
def KnowsLobby (admission : Admission) (es : List Event) (d : Directory) : Prop :=
  ∀ conn account, InLobby admission es conn account ↔
    ∃ player, d.playerByAccount account = some player ∧ d.playerByLobby conn = some player

/-- A login brings the connection in for its account, and takes out whoever had either. -/
theorem KnowsLobby.login (h : KnowsLobby admission es d)
    (hindexed : Directory.Indexed base accounts d)
    (hspace : (d.login account conn).2.accounts.length ≤ UInt32.size)
    (hlogin : e.login? admission = some (conn, account)) :
    KnowsLobby admission (es ++ [e]) (d.login account conn).2 := by
  rw [← hindexed.length_enlist] at hspace
  obtain ⟨hown, hindexed'⟩ := hindexed.login account conn hspace
  intro c a
  rw [inLobby_snoc, h c a]
  simp only [hindexed.playerByLobby_login account conn hspace]
  constructor
  · rintro (heq | ⟨⟨player, hplayer, hspeaks⟩, hspares⟩)
    · rw [hlogin] at heq
      cases heq
      exact ⟨_, hown, Or.inl ⟨rfl, rfl⟩⟩
    · -- who stays has another connection and another account, and so another player
      have hc : c ≠ conn := by
        rintro rfl
        exact hspares.login account hlogin
      have ha : a ≠ account := by
        rintro rfl
        exact hspares.elsewhere conn hc.symm hlogin
      have hkept : (d.login account conn).2.playerByAccount a = some player := by
        rw [Directory.playerByAccount_login, if_neg ha]
        exact hplayer
      refine ⟨player, hkept, Or.inr ⟨hc, ?_, hspeaks⟩⟩
      rintro rfl
      exact ha (hindexed'.account_eq hkept hown)
  · rintro ⟨player, hplayer, ⟨rfl, rfl⟩ | ⟨hc, hother, hspeaks⟩⟩
    · rw [hindexed'.account_eq hplayer hown]
      exact Or.inl hlogin
    · -- a connection that speaks for another player did so before, and the login is not its own
      have ha : a ≠ account := by
        rintro rfl
        exact hother (Option.some.inj (hplayer.symm.trans hown))
      rw [Directory.playerByAccount_login, if_neg ha] at hplayer
      refine Or.inr ⟨⟨player, hplayer, hspeaks⟩, ?_, ?_, ?_⟩
      · intro a' heq
        rw [hlogin] at heq
        cases heq
        exact hc rfl
      · rintro rfl
        cases hlogin
      · intro c' _ heq
        rw [hlogin] at heq
        cases heq
        exact ha rfl

/-- A connection that is gone is out, and the others stay. -/
theorem KnowsLobby.left (h : KnowsLobby admission es d) (conn : ConnId) :
    KnowsLobby admission (es ++ [.lobbyDisconnected conn]) (d.unbindLobby conn).2 := by
  intro c a
  rw [inLobby_snoc, h c a]
  simp only [Directory.playerByAccount_unbindLobby, Directory.playerByLobby_unbindLobby]
  by_cases hc : c = conn
  · subst hc
    simp only [if_true]
    constructor
    · rintro (hlogin | ⟨-, hspares⟩)
      · cases hlogin
      · exact absurd rfl hspares.disconnect
    · rintro ⟨player, -, hspeaks⟩
      cases hspeaks
  · simp only [if_neg hc]
    constructor
    · rintro (hlogin | ⟨hin, -⟩)
      · cases hlogin
      · exact hin
    · intro hin
      refine Or.inr ⟨hin, ?_, ?_, ?_⟩
      · rintro a' ⟨⟩
      · rintro ⟨⟩
        exact hc rfl
      · rintro c' - ⟨⟩

/-- What does not concern the lobby leaves everybody where they are. -/
theorem KnowsLobby.same {d' : Directory} (h : KnowsLobby admission es d)
    (hsame : Directory.SameLobby d d') (hlogin : e.login? admission = none)
    (hleft : ∀ conn, e ≠ .lobbyDisconnected conn) : KnowsLobby admission (es ++ [e]) d' := by
  intro c a
  rw [inLobby_snoc, h c a]
  simp only [hsame.playerByAccount, hsame.playerByLobby, hlogin]
  constructor
  · rintro (heq | ⟨hin, -⟩)
    · cases heq
    · exact hin
  · intro hin
    refine Or.inr ⟨hin, ?_, hleft c, ?_⟩
    · simp [hlogin]
    · simp [hlogin]

/-- **The index and the history agree** after every run of a server whose accounts all have numbers
of their own: a connection is in the lobby for an account if it speaks for the account's player. -/
theorem inLobby_iff (setup : Setup) (es : List Event)
    (haccounts : (stateAfter setup es).directory.accounts.length ≤ UInt32.size) :
    KnowsLobby setup.admission es (stateAfter setup es).directory := by
  -- from the end, because an event takes out whom the events before it brought in
  induction es using List.reverseRecOn with
  | nil =>
    intro conn account
    refine iff_of_false not_inLobby_nil ?_
    rintro ⟨player, hplayer, -⟩
    cases hplayer
  | append_singleton es e ih =>
    have hspace := Nat.le_trans (accounts_mono setup (List.prefix_append es [e])) haccounts
    obtain ⟨accounts, hindexed⟩ := indexed_after setup es hspace
    have hbefore := ih hspace
    rw [stateAfter_snoc] at haccounts ⊢
    have hadmission := (settings_after setup es).1
    cases lobbySide_step (stateAfter setup es) e with
    | login conn account hlogin hd =>
      rw [hd] at haccounts ⊢
      exact hbefore.login hindexed haccounts (hadmission ▸ hlogin)
    | left conn he hd =>
      subst he
      exact hbefore.left conn
    | same hlogin hleft hsame => exact hbefore.same hsame (hadmission ▸ hlogin) hleft

/-- **The connections that are listed** are those in the lobby. -/
theorem mem_lobbyConnections_iff_inLobby (setup : Setup) (es : List Event)
    (haccounts : (stateAfter setup es).directory.accounts.length ≤ UInt32.size) (conn : ConnId) :
    conn ∈ (stateAfter setup es).directory.lobbyConnections ↔
      ∃ account, InLobby setup.admission es conn account := by
  obtain ⟨accounts, hindexed⟩ := indexed_after setup es haccounts
  have hknows := inLobby_iff setup es haccounts
  constructor
  · intro hmem
    obtain ⟨player, hcontains, hconn⟩ := hindexed.mem_lobbyConnections_iff_lobbyConn.mp hmem
    obtain ⟨account, haccount⟩ := hindexed.exists_account hcontains
    exact ⟨account, (hknows conn account).mpr
      ⟨player, haccount, (hindexed.lobby conn player).mpr hconn⟩⟩
  · rintro ⟨account, hin⟩
    obtain ⟨player, -, hspeaks⟩ := (hknows conn account).mp hin
    exact Directory.mem_lobbyConnections_iff.mpr ⟨player, hspeaks⟩

end Server

end FrameSync
