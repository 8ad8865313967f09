import FrameSync.Proofs.Room.Verdicts
import FrameSync.Proofs.Server.Agreement

/-!
# Verdicts reach the members

An integrity value comes in on a battle connection, and the verdict it may complete goes out to the
members of the room, on whatever connection each of them has by then. Three things meet here: the
room judges by the latest values (`Room.judged_by_latest`); a tracked room has come from a new one
by operations of its own, so that this applies to it (`lived_run`); and no connection is that of two
players, so that none gets the verdict twice (`reached_run`). The last holds of every run, also of
one with more accounts than there are numbers.
-/

set_option autoImplicit false

namespace FrameSync

open Wire

namespace Directory

/-! ## Whose connection it is -/

/-- The battle connection of a player speaks for that player. -/
def Reached (d : Directory) : Prop :=
  ∀ player conn, d.battleConn player = some conn → d.playerByBattle conn = some player

section Reached

variable {d d' : Directory} {player : PlayerId} {conn : ConnId}

/-- No two players have one connection. -/
theorem Reached.inj (h : d.Reached) {p q : PlayerId} (hp : d.battleConn p = some conn)
    (hq : d.battleConn q = some conn) : p = q :=
  Option.some.inj ((h p conn hp).symm.trans (h q conn hq))

/-- Players may lose connections, as long as the connections speak for whom they did. -/
theorem Reached.of_le (h : d.Reached)
    (hbattle : ∀ p c, d'.battleConn p = some c → d.battleConn p = some c)
    (hspeaks : ∀ c, d'.playerByBattle c = d.playerByBattle c) : d'.Reached := by
  intro p c hp
  rw [hspeaks]
  exact h p c (hbattle p c hp)

theorem Reached.of_same (h : d.Reached) (hsame : SameBattle d d') : d'.Reached :=
  h.of_le (fun p _ hp => (hsame.battleConn p).symm.trans hp) hsame.playerByBattle

/-- A new account has no battle connection, whatever number it gets. -/
theorem Reached.register (h : d.Reached) (account : String) : (d.register account).2.Reached := by
  refine h.of_le (fun p c hp => ?_) fun _ => rfl
  change ((d.players.insert d.nextPlayer _).get? p).bind PlayerRecord.battle = some c at hp
  rw [Table.get?_insert_ite] at hp
  split at hp
  · cases hp
  · exact hp

theorem Reached.login (h : d.Reached) (account : String) (conn : ConnId) :
    (d.login account conn).2.Reached := by
  have hbind : ∀ (d : Directory) player, SameBattle d (d.bindLobby player conn) :=
    fun d player => sameBattle_of_view
      (view_bindLobby (v := fun r => (r.battle, r.room)) (fun _ _ => rfl) d player conn) rfl
  rw [Directory.login]
  split
  · exact h.of_same (hbind d _)
  · exact (h.register account).of_same (hbind _ _)

/-- **A binding** takes the connection from whom it spoke for, and the player's earlier one out of
the index. -/
theorem Reached.bindBattle (h : d.Reached) {replaced : Option ConnId}
    (hbind : d.bindBattle player conn = .ok (replaced, d')) : d'.Reached := by
  obtain ⟨record, -, rfl⟩ := bindBattle_eq_ok hbind
  intro p c hp
  show ((d.connsWithout player).insert conn player).get? c = some p
  rw [Table.get?_insert_ite, get?_connsWithout]
  change ((takeFrom _ _ player _).get? p).bind PlayerRecord.battle = some c at hp
  rw [get?_takeFrom, get?_connsWithout] at hp
  by_cases hplayer : p = player
  · -- the new binding itself
    rw [hplayer, if_neg fun hne => hne.1 rfl, Table.get?_insert_self, Option.bind_some] at hp
    rw [if_pos (Option.some.inj hp).symm, hplayer]
  · rw [Table.get?_insert_of_ne _ _ (Ne.symm hplayer)] at hp
    by_cases hheld : (if d.battleConn player = some conn then none else d.playerByBattle conn) =
        some p
    · -- whom the connection spoke for has lost it
      rw [if_pos ⟨hplayer, hheld⟩, Option.bind_map] at hp
      obtain ⟨record, -, hnone⟩ := Option.bind_eq_some_iff.mp hp
      cases hnone
    · rw [if_neg fun hlost => hheld hlost.2] at hp
      have hspoke : d.playerByBattle c = some p := h p c hp
      -- the player has never had the connection of another one
      have hother : d.battleConn player ≠ some c := fun hown => hplayer (h.inj hp hown)
      have hc : c ≠ conn := by
        rintro rfl
        exact hheld ((if_neg hother).trans hspoke)
      rw [if_neg hc, if_neg hother, hspoke]

theorem Reached.unbindBattle (h : d.Reached) (conn : ConnId) : (d.unbindBattle conn).2.Reached := by
  cases hconn : d.playerByBattle conn with
  | none =>
    rw [unbindBattle_of_none hconn]
    exact h
  | some player =>
    rw [unbindBattle_of_some hconn]
    intro p c hp
    change ((d.players.update player _).get? p).bind PlayerRecord.battle = some c at hp
    rw [bind_update_none _ fun _ => rfl] at hp
    split at hp
    · cases hp
    · rename_i hplayer
      have hspoke : d.playerByBattle c = some p := h p c hp
      have hc : c ≠ conn := by
        rintro rfl
        exact hplayer (Option.some.inj (hspoke.symm.trans hconn))
      exact (Table.get?_erase_ite _ conn c).trans ((if_neg hc).trans hspoke)

theorem Reached.setRoom (h : d.Reached) {room : Option RoomId}
    (hset : d.setRoom player room = .ok d') : d'.Reached := by
  rw [Directory.setRoom] at hset
  split at hset
  · cases hset
  · rename_i record hget
    cases hset
    have hview : SameView (fun r => r.battle) d.players
        (d.players.insert player { record with room }) := SameView.insert hget rfl
    exact h.of_le (fun p c hp => (hview.bind id p).symm.trans hp) fun _ => rfl

end Reached

end Directory

namespace Server

/-- **In every run** the battle connection of a player speaks for that player. -/
theorem reached_run (setup : Setup) (es : List Event) : (stateAfter setup es).directory.Reached := by
  -- of the events only those that bind or drop a battle connection touch either table
  induction es using List.reverseRecOn with
  | nil => exact fun player conn h => by cases h
  | append_singleton es e ih =>
    rw [stateAfter_snoc]
    have hchange := change_step (stateAfter setup es) e
    revert hchange
    generalize (step (stateAfter setup es) e).2.directory = d
    generalize (step (stateAfter setup es) e).2.registry.rooms = rooms
    intro hchange
    cases hchange with
    | loggedIn conn p account => exact ih.login account conn
    | joined conn p player id slot room outcome d hcontains hfree hget hjoin hset =>
      exact ih.setRoom hset
    | lobbyLeft conn =>
      refine ih.of_same (Directory.sameBattle_of_view
        (Directory.view_unbindLobby (v := fun r => (r.battle, r.room)) (fun _ _ => rfl) _ conn) ?_)
      rw [Directory.unbindLobby]
      split <;> rfl
    | bound conn p request replaced d hconnect hbind => exact ih.bindBattle hbind
    | battleLeft conn player hplayer => exact ih.unbindBattle conn
    | _ => exact ih

/-! ## Where a tracked room comes from -/

/-- Each tracked room is what some history has made of a new room. -/
def Lived (config : BattleConfig) (rooms : Table RoomId Room.Slot) : Prop :=
  ∀ id slot, rooms.get? id = some slot → ∃ ops, slot.room = (Room.run (Room.new id config) ops).2

section Lived

variable {s : Server} {e : Event} {config : BattleConfig} {d : Directory}
  {rooms rooms' : Table RoomId Room.Slot}

/-- A history goes on. -/
theorem Lived.goneOn (h : Lived config rooms) (hrooms : GoneOn rooms rooms') :
    Lived config rooms' := by
  intro id slot' hget
  obtain ⟨slot, ops, hslot, hroom, -⟩ := hrooms id slot' hget
  obtain ⟨before, hbefore⟩ := h id slot hslot
  exact ⟨before ++ ops, by rw [hroom, hbefore, Room.run_append]⟩

theorem Lived.join (h : Lived config rooms) {player : PlayerId} {id : RoomId} {slot : Room.Slot}
    {room : Room} {outcome : Room.Joined} (hget : rooms.get? id = some slot)
    (hjoin : slot.room.join player = .ok (outcome, room)) :
    Lived config (rooms.update id fun _ => { slot with room }) := by
  intro id' slot' hget'
  rw [Table.get?_update_ite] at hget'
  split at hget'
  · rename_i hid
    obtain ⟨-, -, rfl⟩ := Option.map_eq_some_iff.mp hget'
    obtain ⟨before, hbefore⟩ := h id slot hget
    refine ⟨before ++ [.join player], ?_⟩
    rw [hid, Room.run_append, ← hbefore, Room.run_cons, Room.apply, hjoin]
    rfl
  · exact h id' slot' hget'

theorem Lived.create (h : Lived config rooms) (id : RoomId) (stopped : Bool) :
    Lived config (rooms.insert id (.ofRoom (Room.new id config) stopped)) := by
  intro id' slot hget
  rw [Table.get?_insert_ite] at hget
  split at hget
  · rename_i hid
    rw [← Option.some.inj hget, hid]
    exact ⟨[], rfl⟩
  · exact h id' slot hget

theorem Lived.change (h : Lived s.registry.config s.registry.rooms) (hchange : Change s e d rooms) :
    Lived s.registry.config rooms := by
  cases hchange with
  | idle => exact h
  | loggedIn => exact h
  | lobbyLeft => exact h
  | created =>
    exact (h.goneOn (.of_subset fun _ _ => mem_reclaim)).create _ _
  | joined conn p player id slot room outcome d hcontains hfree hget hjoin => exact h.join hget hjoin
  | bound conn p request =>
    refine h.goneOn (.onRoomOf (.rebind request.player conn) (fun _ => rfl) ?_)
    rintro _ ⟨⟩
  | readied conn p player id slot slot' outcome hasks hplayer hget hready =>
    refine h.goneOn (.update (.ready player conn s.now) (fun slot₁ hget₁ => ?_) ?_)
    · rw [Option.some.inj (hget₁.symm.trans hget), Room.apply, hready]
    · rintro _ ⟨⟩
  | played conn p player id slot op hplayer hroom hget hop =>
    refine h.goneOn (.update op (fun slot₁ hget₁ => ?_) ?_)
    · rw [Option.some.inj (hget₁.symm.trans hget)]
    · rcases hop with ⟨i, rfl⟩ | ⟨c, rfl⟩ <;> rintro _ ⟨⟩
  | battleLeft conn player =>
    refine h.goneOn (.onRoomOf (.disconnect player) (slot_disconnect_room · player) ?_)
    rintro _ ⟨⟩
  | closed id =>
    refine h.goneOn (.update .close (fun _ _ => rfl) ?_)
    rintro _ ⟨⟩
  | reclaimed => exact h.goneOn (.of_subset fun _ _ => mem_reclaim)
  | shut =>
    refine h.goneOn (.mapValues fun slot => ⟨[.close], rfl, fun p hp => ?_⟩)
    cases List.mem_singleton.mp hp
  | passed e start target =>
    -- a ticker adds its ticks to the history of its room
    refine h.goneOn (.mapValues fun slot => ?_)
    obtain ⟨n, hroom, -⟩ := Room.Slot.runTicker_spec s.encoder slot start target
    refine ⟨List.replicate n .tick, hroom, fun p hp => ?_⟩
    cases List.eq_of_mem_replicate hp

/-- **In every run** the tracked rooms have come from new ones. -/
theorem lived_run (setup : Setup) (es : List Event) :
    (stateAfter setup es).registry.config = setup.battle.validated ∧
      Lived setup.battle.validated (stateAfter setup es).registry.rooms := by
  induction es using List.reverseRecOn with
  | nil => exact ⟨rfl, fun id slot hget => by cases hget⟩
  | append_singleton es e ih =>
    obtain ⟨hconfig, hrooms⟩ := ih
    rw [stateAfter_snoc]
    refine ⟨(settings_step _ e).2.trans hconfig, ?_⟩
    rw [← hconfig] at hrooms ⊢
    exact hrooms.change (change_step _ e)

end Lived

/-! ## The handling of a report -/

/-- One packet for each of several connections is one for each of them and none for any other. -/
theorem filter_toEach {conns : List ConnId} (hnodup : conns.Nodup) (command : UInt8)
    (payload : Bytes) (c : ConnId) :
    (Delivery.toEach conns command payload).filter (fun d => d.conn = c) =
      if c ∈ conns then [⟨c, ⟨command, payload⟩⟩] else [] := by
  induction conns with
  | nil => rfl
  | cons first rest ih =>
    rw [List.nodup_cons] at hnodup
    have hrest := ih hnodup.2
    rw [Delivery.toEach] at hrest ⊢
    rw [List.map_cons, List.filter_cons]
    by_cases hfirst : first = c
    · subst hfirst
      rw [if_neg hnodup.1] at hrest
      simp [hrest]
    · simp [hrest, hfirst, Ne.symm hfirst]

/-- The packet is not refused, and the verdict is sent once to each connection of a member, and
nothing to any other. -/
structure Announced (s : Server) (verdict : Room.Verdict) (payload : Bytes) (h : Handled) :
    Prop where
  error : h.error = none
  sent : ∀ c, h.sent.filter (fun d => d.conn = c) =
    if ∃ p ∈ verdict.members, s.directory.battleConn p = some c then
      [⟨c, ⟨BattleCommand.check.toByte, payload⟩⟩]
    else []

section Report

variable {s : Server} {conn : ConnId} {p : Packet} {request : CheckRequest} {player : PlayerId}
  {id : RoomId} {slot : Room.Slot} {room : Room}

/-- A report that is taken and leaves its frame open is not answered. -/
theorem onBattle_of_waiting (hcommand : BattleCommand.ofByte p.command = .ok .check)
    (hrequest : readBody CheckRequest p.payload = .ok request)
    (hresolve : s.resolve conn = some (player, id, slot))
    (hcheck : slot.room.submitCheck player request = .ok (none, room)) :
    s.onBattle conn p = { s with registry := s.registry.put id { slot with room } }.silent := by
  simp only [onBattle, hcommand, check, hrequest, hresolve, hcheck]

/-- A report that settles its frame is answered to the connections of the members. -/
theorem onBattle_of_verdict {verdict : Room.Verdict}
    (hcommand : BattleCommand.ofByte p.command = .ok .check)
    (hrequest : readBody CheckRequest p.payload = .ok request)
    (hresolve : s.resolve conn = some (player, id, slot))
    (hcheck : slot.room.submitCheck player request = .ok (some verdict, room)) :
    s.onBattle conn p = { s with registry := s.registry.put id { slot with room } }.sendAll
      (verdict.members.filterMap s.directory.battleConn) BattleCommand.check.toByte
      verdict.reply := by
  simp only [onBattle, hcommand, check, hrequest, hresolve, hcheck]

/-- The room of the sender is left as the report leaves it. -/
theorem room_onBattle_of_check {verdict : Option Room.Verdict}
    (hcommand : BattleCommand.ofByte p.command = .ok .check)
    (hrequest : readBody CheckRequest p.payload = .ok request)
    (hresolve : s.resolve conn = some (player, id, slot))
    (hcheck : slot.room.submitCheck player request = .ok (verdict, room)) :
    (s.onBattle conn p).server.registry.rooms.get? id = some { slot with room } := by
  have hget := (resolve_eq_some s conn hresolve).2.2
  have hput : (s.registry.put id { slot with room }).rooms.get? id = some { slot with room } := by
    rw [put_rooms, Table.get?_update_ite, if_pos rfl, hget, Option.map_some]
  cases verdict with
  | none =>
    rw [onBattle_of_waiting hcommand hrequest hresolve hcheck]
    exact hput
  | some verdict =>
    rw [onBattle_of_verdict hcommand hrequest hresolve hcheck, sendAll_server]
    exact hput

/-- Members whose connections are different get the verdict once each. -/
theorem announced_sendAll (hreached : s.directory.Reached) {verdict : Room.Verdict}
    (hmembers : verdict.members.Nodup) {payload : Bytes}
    (hpayload : s.encoder.encode verdict.reply = .ok payload) (registry : Registry) :
    Announced s verdict payload ({ s with registry }.sendAll
      (verdict.members.filterMap s.directory.battleConn) BattleCommand.check.toByte
      verdict.reply) := by
  have hconns : (verdict.members.filterMap s.directory.battleConn).Nodup :=
    List.Nodup.filterMap (fun _ _ _ hp hq => hreached.inj hp hq) hmembers
  rw [sendAll]
  simp only [hpayload]
  refine ⟨rfl, fun c => ?_⟩
  simp only [filter_toEach hconns, List.mem_filterMap]

end Report

/-- **Verdicts follow the latest values, and reach the members.**

In every history of a room, a report is taken exactly if it comes from a member, during the battle,
for a frame that the room has; it is then answered by what the latest values of the members call for
(`Room.Judged`). So the order in which the others have reported does not matter.

In every run of a server, the room of a sender has such a history. Where the report completes a
verdict, each connection on which a member speaks at that moment is sent the verdict once, whether
the member is ready or not, and no other connection is sent anything. -/
theorem verdicts_follow_latest :
    (∀ (id : RoomId) (config : BattleConfig) (ops : List Room.Op) (player : PlayerId)
        (c : CheckRequest),
      let r := (Room.run (Room.new id config) ops).2
      ((∃ verdict r', r.submitCheck player c = .ok (verdict, r')) ↔
        r.phase = .running ∧ c.frame.toNat < r.config.maxFrames ∧ player ∈ r.members) ∧
      ∀ verdict r', r.submitCheck player c = .ok (verdict, r') →
        Room.Judged (Room.history (Room.new id config) ops) r player c verdict r') ∧
    (∀ (id : RoomId) (config : BattleConfig) (ops ops' : List Room.Op) (player : PlayerId)
        (c : CheckRequest) (verdict verdict' : Option Room.Verdict) (r r' : Room),
      (Room.run (Room.new id config) ops).2.submitCheck player c = .ok (verdict, r) →
      (Room.run (Room.new id config) ops').2.submitCheck player c = .ok (verdict', r') →
      (Room.run (Room.new id config) ops).2.members =
        (Room.run (Room.new id config) ops').2.members →
      (∀ p, p ≠ player →
        Room.latestValue p c.frame.toNat (Room.history (Room.new id config) ops) =
          Room.latestValue p c.frame.toNat (Room.history (Room.new id config) ops')) →
      verdict = verdict') ∧
    ∀ (setup : Setup) (es : List Event) (conn : ConnId) (p : Packet) (request : CheckRequest)
      (player : PlayerId) (id : RoomId) (slot : Room.Slot) (verdict : Option Room.Verdict)
      (room : Room),
      let s := stateAfter setup es
      let handled := s.onBattle conn p
      BattleCommand.ofByte p.command = .ok .check →
      readBody CheckRequest p.payload = .ok request →
      s.resolve conn = some (player, id, slot) →
      slot.room.submitCheck player request = .ok (verdict, room) →
      (∃ ops, slot.room = (Room.run (Room.new id setup.battle.validated) ops).2) ∧
        handled.server.registry.rooms.get? id = some { slot with room } ∧
        (verdict = none → handled.error = none ∧ handled.sent = []) ∧
        ∀ v, verdict = some v →
          (∀ payload, s.encoder.encode v.reply = .ok payload → Announced s v payload handled) ∧
          ∀ e, s.encoder.encode v.reply = .error e → handled.error = some e ∧ handled.sent = [] := by
  refine ⟨Room.judged_by_latest, ?_, ?_⟩
  · intro id config ops ops' player c verdict verdict' r r' hcheck hcheck' hmembers hlatest
    have hjudged := (Room.judged_by_latest id config ops player c).2 verdict r hcheck
    have hjudged' := (Room.judged_by_latest id config ops' player c).2 verdict' r' hcheck'
    rw [hjudged.verdict_eq, hjudged'.verdict_eq, hmembers]
    congr 1
    funext p
    by_cases hp : p = player
    · rw [hp, Function.update_self, Function.update_self]
    · rw [Function.update_of_ne hp, Function.update_of_ne hp, hlatest p hp]
  · intro setup es conn p request player id slot verdict room s handled hcommand hrequest hresolve
      hcheck
    have hget := (resolve_eq_some s conn hresolve).2.2
    obtain ⟨ops, hops⟩ := (lived_run setup es).2 id slot hget
    have hwell : slot.room.WellFormed := hops ▸ Room.wellFormed_run (Room.wellFormed_new id _) ops
    refine ⟨⟨ops, hops⟩, room_onBattle_of_check hcommand hrequest hresolve hcheck, ?_, ?_⟩
    · rintro rfl
      have hhandled : handled = _ := onBattle_of_waiting hcommand hrequest hresolve hcheck
      rw [hhandled]
      exact ⟨rfl, rfl⟩
    · rintro v rfl
      have hhandled : handled = _ := onBattle_of_verdict hcommand hrequest hresolve hcheck
      have hmembers : v.members.Nodup := by
        obtain ⟨-, -, position, -, ⟨-, hnone, -⟩ | ⟨-, hverdict, -⟩⟩ :=
          Room.submitCheck_eq_ok hcheck
        · cases hnone
        · cases hverdict
          exact hwell.members_nodup
      rw [hhandled]
      refine ⟨fun payload hpayload => announced_sendAll (reached_run setup es) hmembers hpayload _,
        fun e he => ?_⟩
      rw [sendAll]
      simp only [he]
      exact ⟨rfl, rfl⟩

/-- Player 101 reports twice for frame 0, and then comes back on connection 14 without being ready
there. -/
def reportRun : List Event :=
  pairRun 13 ++ [.ofBattle 11 .check (CheckRequest.mk 0 0 7),
    .ofBattle 11 .check (CheckRequest.mk 0 0 8), .battleDisconnected ⟨11⟩,
    .ofBattle 14 .connect (ConnectRequest.mk ⟨101⟩ 0)]

/-- The value of player 102 agrees with the latest one of 101, and both are sent the verdict, though
only 102 is ready. -/
theorem verdicts_follow_latest_reconnected :
    let s := stateAfter pairSetup reportRun
    let c : CheckRequest := ⟨0, 1, 8⟩
    let agreed : Room.Verdict := ⟨⟨.ok, 0⟩, [⟨101⟩, ⟨102⟩]⟩
    let handled := s.onBattle ⟨13⟩ ⟨BattleCommand.check.toByte, encodeBody c⟩
    ∃ slot room, s.resolve ⟨13⟩ = some (⟨102⟩, ⟨10001⟩, slot) ∧ slot.room.roster = [⟨102⟩] ∧
      slot.room.submitCheck ⟨102⟩ c = .ok (some agreed, room) ∧
      (∃ ops, slot.room =
        (Room.run (Room.new ⟨10001⟩ BattleConfig.standard.validated) ops).2) ∧
      Announced s agreed (encodeBody agreed.reply) handled ∧
      handled.sent.map Delivery.conn = [⟨14⟩, ⟨13⟩] := by
  intro s c agreed handled
  have hread : (s.resolve ⟨13⟩).map (fun x => (x.1, x.2.1, x.2.2.room.roster,
      (x.2.2.room.submitCheck ⟨102⟩ c).toOption.map Prod.fst)) =
      some (⟨102⟩, ⟨10001⟩, [⟨102⟩], some (some agreed)) := by
    decide +kernel
  obtain ⟨⟨player, id, slot⟩, hresolve, hseen⟩ := Option.map_eq_some_iff.mp hread
  simp only [Prod.mk.injEq] at hseen
  obtain ⟨rfl, rfl, hroster, hanswer⟩ := hseen
  obtain ⟨⟨verdict, room⟩, htaken, rfl⟩ := Option.map_eq_some_iff.mp hanswer
  have hcheck : slot.room.submitCheck ⟨102⟩ c = .ok (some agreed, room) := by
    cases hsubmit : slot.room.submitCheck ⟨102⟩ c with
    | error e =>
      rw [hsubmit] at htaken
      cases htaken
    | ok taken =>
      rw [hsubmit] at htaken
      exact congrArg Except.ok (Option.some.inj htaken)
  obtain ⟨hlived, -, -, hsent⟩ := verdicts_follow_latest.2.2 pairSetup reportRun ⟨13⟩
    ⟨BattleCommand.check.toByte, encodeBody c⟩ c ⟨102⟩ ⟨10001⟩ slot (some agreed) room
    (by decide) (by decide +kernel) hresolve hcheck
  exact ⟨slot, room, hresolve, hroster, hcheck, hlived, (hsent agreed rfl).1 _ (by decide +kernel),
    by decide +kernel⟩

end Server

end FrameSync
