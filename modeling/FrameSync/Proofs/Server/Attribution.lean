import FrameSync.Proofs.Room.Confinement
import FrameSync.Proofs.Server.Routing
import FrameSync.Proofs.Server.Verdicts

/-!
# Inputs and reports are taken for the bound player

Inputs and integrity values come without a sender. The server takes them for the player that the
connection speaks for, in the room that is recorded for it (`resolve`). `TakenFor` lists the ways in
which such a packet can go once a room has been found, with how little of that room each can touch;
where none is found, nothing happens at all (`onBattle_of_unresolved`).

`attributed_to_bound` puts these together for every state that can be reached. The rooms of such a
state have come from new ones by operations of their own, so they are well formed
(`wellFormed_of_reachable`), and the others in a room are spared (`Room.Spared`).
-/

set_option autoImplicit false

namespace FrameSync.Server

open Wire

variable {setup : Setup} {s : Server} {conn : ConnId} {p : Packet} {player : PlayerId} {id : RoomId}
  {slot : Room.Slot}

/-- The tracked rooms of a state that can be reached are well formed. -/
theorem wellFormed_of_reachable (hs : Reachable setup s)
    (hget : s.registry.rooms.get? id = some slot) : slot.room.WellFormed := by
  obtain ⟨es, rfl⟩ := reachable_iff.mp hs
  obtain ⟨ops, hops⟩ := (lived_run setup es).2 id slot hget
  exact hops ▸ Room.wellFormed_run (Room.wellFormed_new id _) ops

/-- The battle connection of a player speaks for that player. -/
theorem reached_of_reachable (hs : Reachable setup s) : s.directory.Reached := by
  obtain ⟨es, rfl⟩ := reachable_iff.mp hs
  exact reached_run setup es

/-! ## One packet -/

/-- The packet is an input or an integrity value. -/
def IsPlay (p : Packet) : Prop :=
  BattleCommand.ofByte p.command = .ok .frame ∨ BattleCommand.ofByte p.command = .ok .check

/-- Without a room nothing happens. -/
theorem onBattle_of_unresolved (hplay : IsPlay p) (hnone : s.resolve conn = none) :
    (s.onBattle conn p).server = s := by
  rcases hplay with hframe | hcheck
  · simp only [onBattle, hframe, frame, hnone]
    split <;> rfl
  · simp only [onBattle, hcheck, check, hnone]
    split
    · rfl
    · exact send_server s conn _ _

/-! ## How it is taken -/

/-- **How a packet is taken for a player** in a room, and what becomes of the room. A body that
cannot be read is refused. An input of the player touches the player's own. A report of the player
touches the values for its frame: what another player has reported stays unless there is a verdict,
and that is sent to every member. -/
inductive TakenFor (s : Server) (conn : ConnId) (p : Packet) (player : PlayerId) (room : Room) :
    Room → Prop where
  | unread (e : WireError) (hfails : s.onBattle conn p = s.fail e) : TakenFor s conn p player room room
  | input (i : FrameInput) (hasks : Asks s player (.battle conn p) (.input player i))
      (htouches : Room.InputTouches room player i.frame.toNat (room.apply (.input player i)).2) :
      TakenFor s conn p player room (room.apply (.input player i)).2
  | report (c : CheckRequest) (hasks : Asks s player (.battle conn p) (.check player c))
      (htouches : Room.ReportTouches room player c.frame.toNat (room.apply (.check player c)).1
        (room.apply (.check player c)).2)
      (hothers : ∀ q, q ≠ player → ∀ f position, room.positionOf q = some position →
        ((room.apply (.check player c)).2.waiting f).lookup position =
            (room.waiting f).lookup position ∨
          f = c.frame.toNat ∧ ∃ verdict, (room.apply (.check player c)).1 = .checked (some verdict))
      (hsent : ∀ verdict payload, (room.apply (.check player c)).1 = .checked (some verdict) →
        s.encoder.encode verdict.reply = .ok payload →
        Announced s verdict payload (s.onBattle conn p)) :
      TakenFor s conn p player room (room.apply (.check player c)).2

/-- However a packet is taken, the other players are spared. -/
theorem TakenFor.spared {room room' : Room} (h : TakenFor s conn p player room room')
    (hroom : room.WellFormed) {q : PlayerId} (hq : q ≠ player) : Room.Spared q room room' := by
  cases h with
  | unread e hfails => exact .refl q room
  | input i hasks htouches => exact htouches.spared hroom hq
  | report c hasks htouches hothers hsent => exact htouches.spared q

/-- A verdict that is given is sent to the members. -/
theorem announced_onBattle (hs : Reachable setup s) {c : CheckRequest}
    (hcommand : BattleCommand.ofByte p.command = .ok .check)
    (hread : readBody CheckRequest p.payload = .ok c)
    (hresolve : s.resolve conn = some (player, id, slot)) {verdict : Room.Verdict} {payload : Bytes}
    (hanswer : (slot.room.apply (.check player c)).1 = .checked (some verdict))
    (hpayload : s.encoder.encode verdict.reply = .ok payload) :
    Announced s verdict payload (s.onBattle conn p) := by
  have hcheck := Room.submitCheck_of_answer hanswer
  have hroom := wellFormed_of_reachable hs (resolve_eq_some s conn hresolve).2.2
  have hmembers : verdict.members.Nodup := by
    rw [Room.members_of_verdict hcheck]
    exact hroom.members_nodup
  rw [onBattle_of_verdict hcommand hread hresolve hcheck]
  exact announced_sendAll (reached_of_reachable hs) hmembers hpayload _

/-- A packet is taken for a player in one room, and all else is as it was. -/
def TakenIn (s : Server) (conn : ConnId) (p : Packet) (player : PlayerId) (id : RoomId)
    (slot : Room.Slot) : Prop :=
  (s.onBattle conn p).server.directory = s.directory ∧
    ∃ room, TakenFor s conn p player slot.room room ∧ ∀ other,
      (s.onBattle conn p).server.registry.rooms.get? other =
        if other = id then some { slot with room } else s.registry.rooms.get? other

theorem takenIn_of_fail (hget : s.registry.rooms.get? id = some slot) {e : WireError}
    (hfails : s.onBattle conn p = s.fail e) : TakenIn s conn p player id slot := by
  refine ⟨by rw [hfails]; rfl, slot.room, .unread e hfails, fun other => ?_⟩
  rw [hfails]
  split
  · rename_i hother
    exact hother ▸ hget
  · rfl

theorem Applied.takenIn {op : Room.Op} (h : Applied s id slot op (s.onBattle conn p).server)
    (hget : s.registry.rooms.get? id = some slot)
    (htaken : TakenFor s conn p player slot.room (slot.room.apply op).2) :
    TakenIn s conn p player id slot :=
  ⟨h.directory, _, htaken, h.get? hget⟩

/-- **A packet is taken for the player of its connection** in the room of that player. -/
theorem takenIn_of_resolve (hs : Reachable setup s) (hplay : IsPlay p)
    (hresolve : s.resolve conn = some (player, id, slot)) : TakenIn s conn p player id slot := by
  obtain ⟨hplayer, -, hget⟩ := resolve_eq_some s conn hresolve
  have hroom := wellFormed_of_reachable hs hget
  -- an input or a report, each of which may also be unreadable
  rcases hplay with hcommand | hcommand
  · cases hread : readBody FrameInput p.payload with
    | error e =>
      have hfails : s.onBattle conn p = s.fail e := by simp only [onBattle, hcommand, frame, hread]
      exact takenIn_of_fail hget hfails
    | ok i =>
      refine (applied_frame hcommand hread hresolve).takenIn hget ?_
      exact .input i (.frame conn p i hplayer hcommand hread) (Room.inputTouches_apply hroom player i)
  · cases hread : readBody CheckRequest p.payload with
    | error e =>
      have hfails : s.onBattle conn p = s.fail e := by simp only [onBattle, hcommand, check, hread]
      exact takenIn_of_fail hget hfails
    | ok c =>
      have htouches := Room.reportTouches_apply slot.room player c
      refine (applied_check hcommand hread hresolve).takenIn hget ?_
      refine .report c (.check conn p c hplayer hcommand hread) htouches ?_ ?_
      · intro q hq f position
        exact htouches.lookup_of_ne hroom hq
      · intro verdict payload
        exact announced_onBattle hs hcommand hread hresolve

/-- **Inputs and reports are attributed to the bound player only.** In every state that can be
reached, a packet that is an input or an integrity value leaves the directory as it is, and:

- a connection that speaks for nobody, or for a player without a tracked room, changes nothing;
- otherwise the room recorded for the player is the only one that can change, and there the packet is
  taken for that player (`TakenFor`), which touches the player's own seat and bit at the frame of an
  input, or the values waiting for the frame of a report;
- in every room, all that any other player has is spared.

A player with this battle connection is the one that the connection speaks for, so the others are
all those without it. -/
theorem attributed_to_bound {setup : Setup} {s : Server} (hs : Reachable setup s) (conn : ConnId)
    (p : Packet) (hplay : IsPlay p) :
    let s' := (s.onBattle conn p).server
    s'.directory = s.directory ∧
    ((∀ player id, s.directory.playerByBattle conn = some player →
        s.directory.roomOf player = some id → s.registry.rooms.get? id = none) → s' = s) ∧
    (∀ player id slot, s.directory.playerByBattle conn = some player →
      s.directory.roomOf player = some id → s.registry.rooms.get? id = some slot →
        (∀ other, other ≠ id → s'.registry.rooms.get? other = s.registry.rooms.get? other) ∧
        ∃ room, s'.registry.rooms.get? id = some { slot with room } ∧
          TakenFor s conn p player slot.room room) ∧
    (∀ id slot, s.registry.rooms.get? id = some slot →
      ∃ slot', s'.registry.rooms.get? id = some slot' ∧
        ∀ q, s.directory.playerByBattle conn ≠ some q → Room.Spared q slot.room slot'.room) ∧
    ∀ q, s.directory.battleConn q = some conn → s.directory.playerByBattle conn = some q := by
  intro s'
  have hreached : ∀ q, s.directory.battleConn q = some conn →
      s.directory.playerByBattle conn = some q :=
    fun q hq => reached_of_reachable hs q conn hq
  cases hresolve : s.resolve conn with
  | none =>
    have hsame : s' = s := onBattle_of_unresolved hplay hresolve
    rw [hsame]
    refine ⟨rfl, fun _ => rfl, fun player id slot hplayer hroom hget => ?_,
      fun id slot hget => ⟨slot, hget, fun q _ => .refl q slot.room⟩, hreached⟩
    rw [resolve_of_joined hplayer hroom hget] at hresolve
    cases hresolve
  | some resolved =>
    obtain ⟨player, id, slot⟩ := resolved
    obtain ⟨hplayer, hroom, hget⟩ := resolve_eq_some s conn hresolve
    obtain ⟨hdirectory, room, htaken, hrooms⟩ := takenIn_of_resolve hs hplay hresolve
    refine ⟨hdirectory, fun hnowhere => ?_, fun player' id' slot' hplayer' hroom' hget' => ?_,
      fun id' slot' hget' => ?_, hreached⟩
    · -- there is a room, so the connection does lead somewhere
      rw [hnowhere player id hplayer hroom] at hget
      cases hget
    · rw [resolve_of_joined hplayer' hroom' hget'] at hresolve
      cases hresolve
      exact ⟨fun other hother => (hrooms other).trans (if_neg hother), room,
        (hrooms id).trans (if_pos rfl), htaken⟩
    · by_cases hid : id' = id
      · subst hid
        cases hget.symm.trans hget'
        refine ⟨{ slot with room }, (hrooms id').trans (if_pos rfl), fun q hq => ?_⟩
        refine htaken.spared (wellFormed_of_reachable hs hget) fun hsame => hq ?_
        rw [hsame, hplayer]
      · -- the slot of another room is the one from before
        exact ⟨slot', (hrooms id').trans ((if_neg hid).trans hget'), fun q _ => .refl q slot'.room⟩

/-- Player 102 has reconnected on 13. An input that comes on 12 then changes nothing; on 13 it is
recorded for 102, and what 101 has is spared. -/
theorem attributed_to_bound_reconnected :
    let s := stateAfter pairSetup (pairRun 13)
    let input : Packet := ⟨BattleCommand.frame.toByte, encodeBody (FrameInput.mk 3 0x42)⟩
    Reachable pairSetup s ∧ IsPlay input ∧ (s.onBattle ⟨12⟩ input).server = s ∧
      ∃ slot room, s.registry.rooms.get? ⟨10001⟩ = some slot ∧
        (s.onBattle ⟨13⟩ input).server.registry.rooms.get? ⟨10001⟩ = some { slot with room } ∧
        TakenFor s ⟨13⟩ input ⟨102⟩ slot.room room ∧ Room.Spared ⟨101⟩ slot.room room ∧
        (slot.room.seat? ⟨102⟩).map (·.input 3) = some 0 ∧
        (room.seat? ⟨102⟩).map (·.input 3) = some 0x42 := by
  intro s input
  have hs : Reachable pairSetup s := reachable_iff.mpr ⟨pairRun 13, rfl⟩
  have hplay : IsPlay input := Or.inl (by decide +kernel)
  have hunbound : s.directory.playerByBattle ⟨12⟩ = none := by decide +kernel
  obtain ⟨-, hnowhere, -⟩ := attributed_to_bound hs ⟨12⟩ input hplay
  obtain ⟨-, -, hroom, hspared, -⟩ := attributed_to_bound hs ⟨13⟩ input hplay
  have hsome : (s.registry.rooms.get? ⟨10001⟩).isSome = true := by decide +kernel
  obtain ⟨slot, hget⟩ := Option.isSome_iff_exists.mp hsome
  obtain ⟨-, room, hafter, htaken⟩ :=
    hroom ⟨102⟩ ⟨10001⟩ slot (by decide +kernel) (by decide +kernel) hget
  obtain ⟨slot', hafter', hothers⟩ := hspared ⟨10001⟩ slot hget
  rw [hafter, Option.some.injEq] at hafter'
  subst hafter'
  -- the byte for frame 3 before and after
  have hbefore : ((s.registry.rooms.get? ⟨10001⟩).bind fun slot =>
      (slot.room.seat? ⟨102⟩).map (·.input 3)) = some 0 := by
    decide +kernel
  have hrecorded : (((s.onBattle ⟨13⟩ input).server.registry.rooms.get? ⟨10001⟩).bind fun slot =>
      (slot.room.seat? ⟨102⟩).map (·.input 3)) = some 0x42 := by
    decide +kernel
  rw [hget, Option.bind_some] at hbefore
  rw [hafter, Option.bind_some] at hrecorded
  refine ⟨hs, hplay, hnowhere fun player id hplayer => ?_, slot, room, hget, hafter, htaken,
    hothers ⟨101⟩ (by decide +kernel), hbefore, hrecorded⟩
  rw [hunbound] at hplayer
  cases hplayer

end FrameSync.Server
