import FrameSync.Proofs.Server.Agreement
import FrameSync.Proofs.Wire.Canonical

/-!
# Refusals

A packet can be refused in three ways. One that cannot be read is an error, for which the listener
closes the connection. A request that cannot be granted is answered with a code that says why. And
an input that cannot be recorded is dropped without an answer, as a `start` is, which is not for
clients to say. None of these leaves a trace in the server, however far the handler had come, and
nobody but the sender is told (`refusals_leave_state`).

Handling a packet `Ends` in one of three ways: it cannot be read, the sender alone is answered, or
all that is said grants the request. A handler goes through several stages, and whichever is the
last one, it ends so.

An answer that cannot be written is an error too, but one of the body format and not of the packet.
It may come after the request has been granted.
-/

set_option autoImplicit false

namespace FrameSync.Server

open Wire

/-! ## What a client reads -/

section Codes

variable {γ α : Type} [Body α] {layout : Layout γ}

/-- The code that an answer begins with. -/
def answerCode? (layout : Layout γ) (p : Packet) : Option γ :=
  match layout.decode p.payload with
  | .error _ => none
  | .ok (code, _) => some code

/-- The code in front of a body is the one that is read. -/
theorem answerCode?_eq (hlayout : layout.Canonical) {code : γ}
    (hsize : (layout.encode code).length < sizeLimit) {body : α}
    (hbody : layout.encode code <+: encodeBody body) (command : UInt8) :
    answerCode? layout ⟨command, encodeBody body⟩ = some code := by
  obtain ⟨rest, hrest⟩ := hbody
  have hread := hlayout.decode_append code rest hsize
  simp only [answerCode?, ← hrest, hread]

theorem lobbyCode_short (code : LobbyCode) :
    (Layout.lobbyCode.encode code).length < sizeLimit := by
  cases code <;> decide

theorem battleCode_short (code : BattleCode) :
    (Layout.battleCode.encode code).length < sizeLimit := by
  cases code <;> decide

/-- A body that cannot be read is an error of its own kind. -/
theorem readBody_eq_error {bytes : Bytes} {e : WireError} (h : readBody α bytes = .error e) :
    ∃ cause, e = .decode cause := by
  rw [readBody] at h
  split at h
  · rename_i cause _
    cases h
    exact ⟨cause, rfl⟩
  · cases h

end Codes

/-- A byte that names no command of the lobby is given back in the error. -/
theorem lobbyCommand_eq_error {b : UInt8} {e : WireError} (h : LobbyCommand.ofByte b = .error e) :
    e = .unknownCommand b := by
  unfold LobbyCommand.ofByte at h
  repeat' split at h
  all_goals cases h
  rfl

theorem battleCommand_eq_error {b : UInt8} {e : WireError} (h : BattleCommand.ofByte b = .error e) :
    e = .unknownCommand b := by
  unfold BattleCommand.ofByte at h
  repeat' split at h
  all_goals cases h
  rfl

/-! ## How handling a packet ends -/

/-- What the format writes, it writes by the layouts; it need not write every body. -/
def ByLayout (encoder : Encoder) : Prop :=
  ∀ name bytes payload, encoder.write name bytes = .ok payload → payload = bytes

/-- The format fails with the error on some body. -/
def FailsWith (encoder : Encoder) (e : WireError) : Prop :=
  ∃ name bytes, encoder.write name bytes = .error e

section Ends

variable {γ α : Type} [Body α] {layout : Layout γ} {grants : γ → Prop} {s s' : Server}
  {conn : ConnId} {p : Packet} {h : Handled}

/-- All that is said grants the request: no code in an answer refuses it, and whatever could be
written has been. -/
structure Granting (layout : Layout γ) (grants : γ → Prop) (s : Server) (h : Handled) : Prop where
  said : ByLayout s.encoder → ∀ d ∈ h.sent, ∀ code,
    answerCode? layout d.packet = some code → grants code
  unwritten : ∀ e, h.error = some e → FailsWith s.encoder e

/-- How handling a packet can end. The channel has no such command, or the body cannot be read; the
sender is answered, and that is all; or the request is granted, or nobody is told. -/
inductive Ends (layout : Layout γ) (grants : γ → Prop) (s : Server) (conn : ConnId) (p : Packet) :
    Handled → Prop where
  | unread (e : WireError) : (e = .unknownCommand p.command ∨ ∃ cause, e = .decode cause) →
    Ends layout grants s conn p (s.fail e)
  | answered (packet : Packet) : Ends layout grants s conn p ⟨none, [⟨conn, packet⟩], s⟩
  | granted (h : Handled) : Granting layout grants s h → Ends layout grants s conn p h

/-- What a refusal leaves behind: the server as it was, and no more than one answer. An error is of
the packet, which has done nothing, or of the body format. A code that refuses, as the layouts read
it, is in the only answer, which goes to the sender. -/
structure Harmless (layout : Layout γ) (grants : γ → Prop) (s : Server) (conn : ConnId) (p : Packet)
    (h : Handled) : Prop where
  error : ∀ e, h.error = some e →
    ((e = .unknownCommand p.command ∨ ∃ cause, e = .decode cause) ∧ h.sent = [] ∧ h.server = s) ∨
      FailsWith s.encoder e
  refusal : ByLayout s.encoder → ∀ d ∈ h.sent, ∀ code,
    answerCode? layout d.packet = some code → ¬grants code →
      h.error = none ∧ h.sent = [d] ∧ d.conn = conn ∧ h.server = s

theorem Ends.harmless (hends : Ends layout grants s conn p h) :
    Harmless layout grants s conn p h := by
  cases hends with
  | unread e hcause =>
    refine ⟨?_, fun _ d hd => absurd hd List.not_mem_nil⟩
    intro e' he
    cases he
    exact Or.inl ⟨hcause, rfl, rfl⟩
  | answered packet =>
    refine ⟨nofun, ?_⟩
    intro _ d hd code _ _
    rw [List.mem_singleton.mp hd]
    exact ⟨rfl, rfl, rfl, rfl⟩
  | granted h hgrants =>
    -- there is no code that refuses, and an error can only be of the body format
    constructor
    · intro e he
      exact Or.inr (hgrants.unwritten e he)
    · intro hlayout d hd code hcode hrefused
      exact absurd (hgrants.said hlayout d hd code hcode) hrefused

/-- Without an answer, there is none that refuses. -/
theorem granting_silent (s s' : Server) : Granting layout grants s s'.silent where
  said := fun _ _ hd => absurd hd List.not_mem_nil
  unwritten := nofun

/-- What is said in one stage after the other grants the request if each of them does. -/
theorem Granting.andThen {next : Server → Handled} (hfirst : Granting layout grants s h)
    (hnext : Granting layout grants s (next h.server)) :
    Granting layout grants s (h.andThen next) := by
  rw [Handled.andThen]
  split
  · exact hfirst
  · refine ⟨?_, hnext.unwritten⟩
    intro hlayout d hd code hcode
    rcases List.mem_append.mp hd with hd | hd
    · exact hfirst.said hlayout d hd code hcode
    · exact hnext.said hlayout d hd code hcode

/-- A body is written for everybody, or it cannot be written. -/
theorem sendAll_cases (s : Server) (conns : List ConnId) (command : UInt8) (body : α) :
    (∃ e, s.encoder.encode body = .error e ∧ s.sendAll conns command body = s.fail e) ∨
      ∃ payload, s.encoder.encode body = .ok payload ∧
        s.sendAll conns command body = ⟨none, Delivery.toEach conns command payload, s⟩ := by
  rw [sendAll]
  cases s.encoder.encode body with
  | error e => exact Or.inl ⟨e, rfl, rfl⟩
  | ok payload => exact Or.inr ⟨payload, rfl, rfl⟩

theorem granting_fail {e : WireError} (hfails : FailsWith s.encoder e) (s' : Server) :
    Granting layout grants s (s'.fail e) := by
  refine ⟨fun _ d hd => absurd hd List.not_mem_nil, ?_⟩
  intro e' he
  cases he
  exact hfails

/-- **What is said to several** is said with one code. -/
theorem granting_sendAll {body : α} {code : γ}
    (hcode : ∀ command, answerCode? layout ⟨command, encodeBody body⟩ = some code)
    (hgrants : grants code) (hencoder : s'.encoder = s.encoder) (conns : List ConnId)
    (command : UInt8) : Granting layout grants s (s'.sendAll conns command body) := by
  rcases sendAll_cases s' conns command body with ⟨e, hfails, hsent⟩ | ⟨payload, hwritten, hsent⟩
  · rw [hencoder] at hfails
    rw [hsent]
    exact granting_fail ⟨_, _, hfails⟩ s'
  · rw [hencoder] at hwritten
    rw [hsent]
    refine ⟨?_, nofun⟩
    intro hlayout d hd code' hcode'
    obtain ⟨c, -, rfl⟩ := List.mem_map.mp hd
    rw [hlayout _ _ _ hwritten, hcode] at hcode'
    cases hcode'
    exact hgrants

/-- A body that cannot be read is not looked at any further. -/
theorem ends_unread {bytes : Bytes} {e : WireError} (hread : readBody α bytes = .error e) :
    Ends layout grants s conn p (s.fail e) :=
  .unread e (Or.inr (readBody_eq_error hread))

/-- **What is said to the sender alone**, with nothing done, ends the handling whatever it says. -/
theorem ends_send (command : UInt8) (body : α) :
    Ends layout grants s conn p (s.send conn command body) := by
  rw [send]
  rcases sendAll_cases s [conn] command body with ⟨e, hfails, hsent⟩ | ⟨payload, -, hsent⟩
  · rw [hsent]
    exact .granted _ (granting_fail ⟨_, _, hfails⟩ s)
  · rw [hsent]
    exact .answered _

end Ends

/-! ## The lobby -/

section Lobby

variable (s : Server) (conn : ConnId) (p : Packet)

/-- How the lobby ends the handling of a packet. -/
abbrev LobbyEnds (h : Handled) : Prop := Ends Layout.lobbyCode (· = .ok) s conn p h

/-- A reply that says `ok` in front grants the request. -/
theorem granting_lobby {α : Type} [Body α] {s s' : Server} {body : α}
    (hbody : Layout.lobbyCode.encode .ok <+: encodeBody body) (hencoder : s'.encoder = s.encoder)
    (conns : List ConnId) (command : UInt8) :
    Granting Layout.lobbyCode (· = .ok) s (s'.sendAll conns command body) := by
  have hcode := answerCode?_eq Layout.canonical_lobbyCode (lobbyCode_short .ok) hbody
  exact granting_sendAll hcode (by rfl) hencoder conns command

theorem login_ends : LobbyEnds s conn p (s.login conn p.payload) := by
  rw [login]
  split
  · exact ends_unread ‹_›
  · split
    · exact ends_send _ _
    · refine .granted _ (granting_lobby ?_ ?_ _ _)
      · exact List.prefix_append _ _
      · rfl

theorem createRoom_ends : LobbyEnds s conn p (s.createRoom conn p.payload) := by
  rw [createRoom]
  split
  · exact ends_unread ‹_›
  · split
    · refine .granted _ (granting_lobby ?_ ?_ _ _)
      · exact List.prefix_append _ _
      · rfl
    · -- no room has been dropped yet
      exact ends_send _ _

theorem joinRoom_ends : LobbyEnds s conn p (s.joinRoom conn p.payload) := by
  rw [joinRoom]
  split
  · exact ends_unread ‹_›
  · rename_i request _
    rcases join_cases request.player request.room s.directory s.registry with ⟨code, hjoin⟩ |
      ⟨slot, room, outcome, d', -, -, -, -, -, hjoin⟩
    · rw [hjoin]
      exact ends_send _ _
    · -- a player that has entered the room is not refused any more
      rw [hjoin]
      refine .granted _ (.andThen (granting_lobby ?_ ?_ _ _) ?_)
      · exact List.prefix_append _ _
      · rfl
      · split <;> exact granting_silent s _

/-- **Every lobby packet** ends in one of these ways. -/
theorem onLobby_ends : LobbyEnds s conn p (s.onLobby conn p) := by
  rw [onLobby]
  split
  · rename_i hcommand
    exact .unread _ (Or.inl (lobbyCommand_eq_error hcommand))
  · exact login_ends s conn p
  · exact createRoom_ends s conn p
  · exact joinRoom_ends s conn p

end Lobby

/-! ## The battle channel -/

/-- The verdict that values differ is an answer, not a refusal. -/
def Accepts (code : BattleCode) : Prop := code = .ok ∨ code = .checkDiverged

theorem accepts_verdict {room room' : Room} {player : PlayerId} {c : CheckRequest}
    {verdict : Room.Verdict} (h : room.submitCheck player c = .ok (some verdict, room')) :
    Accepts verdict.reply.code := by
  obtain ⟨-, -, position, -, hverdict⟩ := Room.submitCheck_eq_ok h
  rcases hverdict with ⟨-, hnone, -⟩ | ⟨-, hgiven, -⟩
  · cases hnone
  · cases hgiven
    show Accepts (if _ then .ok else .checkDiverged)
    split
    · exact Or.inl rfl
    · exact Or.inr rfl

section Battle

variable (s : Server) (conn : ConnId) (p : Packet)

/-- How the battle channel ends the handling of a packet. -/
abbrev BattleEnds (h : Handled) : Prop := Ends Layout.battleCode Accepts s conn p h

theorem granting_battle {α : Type} [Body α] {s s' : Server} {body : α} {code : BattleCode}
    (haccepts : Accepts code) (hbody : Layout.battleCode.encode code <+: encodeBody body)
    (hencoder : s'.encoder = s.encoder) (conns : List ConnId) (command : UInt8) :
    Granting Layout.battleCode Accepts s (s'.sendAll conns command body) := by
  have hcode := answerCode?_eq Layout.canonical_battleCode (battleCode_short code) hbody
  exact granting_sendAll hcode haccepts hencoder conns command

theorem connect_ends : BattleEnds s conn p (s.connect conn p.payload) := by
  rw [connect]
  split
  · exact ends_unread ‹_›
  · split
    · exact ends_send _ _
    · refine .granted _ (granting_battle (Or.inl rfl) ?_ ?_ _ _)
      · -- the code is all that there is to say
        exact List.prefix_refl _
      · rfl

theorem ready_ends_granted : BattleEnds s conn p (s.ready conn p.payload) := by
  unfold ready refuseReady
  split
  · exact ends_unread ‹_›
  · split
    · exact ends_send _ _
    · split
      · exact ends_send _ _
      · split
        · exact ends_send _ _
        · -- the roster, then the announcement, and the ticker without a word
          rename_i outcome slot' hready
          obtain ⟨hbecome, -⟩ := slot_ready_eq_ok conn hready
          obtain ⟨-, -, -, -, hstart⟩ := Room.becomeReady_eq_ok hbecome
          refine .granted _ (.andThen (granting_battle (Or.inl rfl) ?_ ?_ _ _) ?_)
          · exact List.prefix_append _ _
          · rfl
          · rw [sendAll_server]
            rcases hstart with ⟨-, -, hstart⟩ | ⟨-, -, hstart⟩
            · simp only [hstart]
              refine .andThen (granting_battle (Or.inl rfl) ?_ ?_ _ _) (granting_silent s _)
              · exact List.prefix_append _ _
              · rfl
            · simp only [hstart]
              exact granting_silent s _

theorem heartbeat_ends : BattleEnds s conn p (s.heartbeat conn p.payload) := by
  rw [heartbeat]
  split
  · exact ends_unread ‹_›
  · exact ends_send _ _

theorem frame_ends : BattleEnds s conn p (s.frame conn p.payload) := by
  rw [frame]
  split
  · exact ends_unread ‹_›
  · split
    · exact .granted _ (granting_silent s s)
    · split <;> exact .granted _ (granting_silent s _)

theorem check_ends : BattleEnds s conn p (s.check conn p.payload) := by
  rw [check]
  split
  · exact ends_unread ‹_›
  · split
    · exact ends_send _ _
    · split
      · exact ends_send _ _
      · -- the value has been taken, and all there can be to say is the verdict
        rename_i verdict room hsubmit
        cases verdict with
        | none => exact .granted _ (granting_silent s _)
        | some verdict =>
          refine .granted _ (granting_battle (accepts_verdict hsubmit) ?_ ?_ _ _)
          · exact List.prefix_append _ _
          · rfl

/-- **Every battle packet** ends in one of these ways. -/
theorem onBattle_ends : BattleEnds s conn p (s.onBattle conn p) := by
  rw [onBattle]
  split
  · rename_i hcommand
    exact .unread _ (Or.inl (battleCommand_eq_error hcommand))
  · exact connect_ends s conn p
  · exact ready_ends_granted s conn p
  · exact heartbeat_ends s conn p
  · exact frame_ends s conn p
  · exact .granted _ (granting_silent s s)
  · exact check_ends s conn p

end Battle

/-! ## Inputs -/

/-- Why an input is dropped: its connection speaks for nobody; the player has joined no room, or one
that is gone; the battle is not on yet, or the room has closed; the room has no such frame; or the
player has no seat. -/
inductive FrameDropped (s : Server) (conn : ConnId) (input : FrameInput) : Prop where
  | unbound : s.directory.playerByBattle conn = none → FrameDropped s conn input
  | roomless (player : PlayerId) : s.directory.playerByBattle conn = some player →
    s.directory.roomOf player = none → FrameDropped s conn input
  | untracked (player : PlayerId) (id : RoomId) : s.directory.playerByBattle conn = some player →
    s.directory.roomOf player = some id → s.registry.rooms.get? id = none →
    FrameDropped s conn input
  | notRunning (player : PlayerId) (id : RoomId) (slot : Room.Slot) :
    s.resolve conn = some (player, id, slot) → slot.room.phase ≠ .running →
    FrameDropped s conn input
  | outOfRange (player : PlayerId) (id : RoomId) (slot : Room.Slot) :
    s.resolve conn = some (player, id, slot) → slot.room.config.maxFrames ≤ input.frame.toNat →
    FrameDropped s conn input
  | seatless (player : PlayerId) (id : RoomId) (slot : Room.Slot) :
    s.resolve conn = some (player, id, slot) → slot.room.seat? player = none →
    FrameDropped s conn input

section Inputs

variable {s : Server} {conn : ConnId} {p : Packet} {input : FrameInput} {player : PlayerId}
  {room : Room}

/-- A room records no input that it should not. -/
theorem exists_recordInput_error (h : room.phase ≠ .running ∨
    room.config.maxFrames ≤ input.frame.toNat ∨ room.seat? player = none) :
    ∃ e, room.recordInput player input = .error e := by
  cases hrecord : room.recordInput player input with
  | error e => exact ⟨e, rfl⟩
  | ok room' =>
    obtain ⟨hrunning, hframe, seat, hseat, -⟩ := Room.recordInput_eq_ok hrecord
    rcases h with hphase | hrange | hnone
    · exact absurd hrunning hphase
    · exact absurd hframe (Nat.not_lt.mpr hrange)
    · rw [hnone] at hseat
      cases hseat

/-- And it gives a reason only for these. -/
theorem recordInput_eq_error {e : RoomError} (h : room.recordInput player input = .error e) :
    room.phase ≠ .running ∨ room.config.maxFrames ≤ input.frame.toNat ∨
      room.seat? player = none := by
  rw [Room.recordInput] at h
  split at h
  · rename_i hreason
    refine Or.inl fun hrunning => ?_
    rw [Room.notRunningError_eq_none_iff.mpr hrunning] at hreason
    cases hreason
  · split at h
    · exact Or.inr (Or.inl ‹_›)
    · split at h
      · exact Or.inr (Or.inr ‹_›)
      · cases h

/-- An input that is dropped is not passed on to a room, or not recorded there. -/
theorem FrameDropped.stages (h : FrameDropped s conn input) :
    s.resolve conn = none ∨ ∃ player id slot e, s.resolve conn = some (player, id, slot) ∧
      slot.room.recordInput player input = .error e := by
  cases h with
  | unbound hplayer =>
    left
    simp only [resolve, hplayer]
  | roomless player hplayer hroom =>
    left
    simp only [resolve, hplayer, hroom]
  | untracked player id hplayer hroom hget =>
    left
    simp only [resolve, hplayer, hroom, Registry.get, hget]
  | notRunning player id slot hresolve hphase =>
    obtain ⟨e, he⟩ := exists_recordInput_error (Or.inl hphase)
    exact Or.inr ⟨player, id, slot, e, hresolve, he⟩
  | outOfRange player id slot hresolve hrange =>
    obtain ⟨e, he⟩ := exists_recordInput_error (Or.inr (Or.inl hrange))
    exact Or.inr ⟨player, id, slot, e, hresolve, he⟩
  | seatless player id slot hresolve hnone =>
    obtain ⟨e, he⟩ := exists_recordInput_error (Or.inr (Or.inr hnone))
    exact Or.inr ⟨player, id, slot, e, hresolve, he⟩

/-- A connection that leads to no room drops every input. -/
theorem frameDropped_of_resolve (h : s.resolve conn = none) : FrameDropped s conn input := by
  rw [resolve] at h
  split at h
  · exact .unbound ‹_›
  · rename_i player hplayer
    split at h
    · exact .roomless player hplayer ‹_›
    · rename_i id hroom
      split at h
      · rename_i e hget
        exact .untracked player id hplayer hroom (get_eq_error hget)
      · cases h

/-- **An input** is dropped for one of these reasons, and otherwise recorded; it is not answered. -/
theorem onBattle_frame (hcommand : BattleCommand.ofByte p.command = .ok .frame)
    (hread : readBody FrameInput p.payload = .ok input) :
    (FrameDropped s conn input → s.onBattle conn p = s.silent) ∧
      (¬FrameDropped s conn input → ∃ player id slot room,
        s.resolve conn = some (player, id, slot) ∧ slot.room.recordInput player input = .ok room ∧
          s.onBattle conn p =
            { s with registry := s.registry.put id { slot with room } }.silent) := by
  have hhandled : s.onBattle conn p = s.frame conn p.payload := by
    simp only [onBattle, hcommand]
  rw [hhandled]
  constructor
  · intro hdropped
    rcases hdropped.stages with hnone | ⟨player, id, slot, e, hresolve, hrefused⟩
    · simp only [frame, hread, hnone]
    · simp only [frame, hread, hresolve, hrefused]
  · intro hkept
    -- each stage that gives up has a reason, and there is none
    cases hresolve : s.resolve conn with
    | none => exact absurd (frameDropped_of_resolve hresolve) hkept
    | some resolved =>
      obtain ⟨player, id, slot⟩ := resolved
      cases hrecord : slot.room.recordInput player input with
      | error e =>
        rcases recordInput_eq_error hrecord with hphase | hrange | hseat
        · exact absurd (.notRunning player id slot hresolve hphase) hkept
        · exact absurd (.outOfRange player id slot hresolve hrange) hkept
        · exact absurd (.seatless player id slot hresolve hseat) hkept
      | ok room =>
        refine ⟨player, id, slot, room, rfl, hrecord, ?_⟩
        simp only [frame, hread, hresolve, hrecord]

end Inputs

/-! ## Refusals -/

/-- **A refusal leaves the server as it was**, in every state and whatever the packet is. Either
channel handles every packet harmlessly: an error because of the packet has sent nothing and changed
nothing, and an answer with a code that refuses is the only one, goes to the sender, and has changed
nothing. Any other error is of the format that bodies are written in. An input is not answered, and
changes nothing unless it is recorded, which it is when there is no reason to drop it. A `start`
does nothing. -/
theorem refusals_leave_state (s : Server) (conn : ConnId) (p : Packet) :
    Harmless Layout.lobbyCode (· = .ok) s conn p (s.onLobby conn p) ∧
    Harmless Layout.battleCode Accepts s conn p (s.onBattle conn p) ∧
    (∀ input, BattleCommand.ofByte p.command = .ok .frame →
      readBody FrameInput p.payload = .ok input →
        (FrameDropped s conn input → s.onBattle conn p = s.silent) ∧
        (¬FrameDropped s conn input → ∃ player id slot room,
          s.resolve conn = some (player, id, slot) ∧
            slot.room.recordInput player input = .ok room ∧
            s.onBattle conn p =
              { s with registry := s.registry.put id { slot with room } }.silent)) ∧
    (BattleCommand.ofByte p.command = .ok .start → s.onBattle conn p = s.silent) := by
  refine ⟨(onLobby_ends s conn p).harmless, (onBattle_ends s conn p).harmless, ?_, ?_⟩
  · intro input hcommand hread
    exact onBattle_frame hcommand hread
  · intro hcommand
    simp only [onBattle, hcommand]

/-- Player 103 logs in after 101 and 102 have begun their battle. -/
def pairAndThird : List Event := pairRun 13 ++ [.ofLobby 3 .login (LoginRequest.mk "c" "")]

/-- There is no place for player 103 in the room of the other two. That it is told is all that
happens, and what it sends on a battle connection of its own is dropped. -/
theorem refusals_leave_state_third :
    let s := stateAfter pairSetup pairAndThird
    let wish : Packet :=
      ⟨LobbyCommand.joinRoom.toByte, encodeBody (JoinRoomRequest.mk ⟨10001⟩ ⟨103⟩)⟩
    let input : Packet := ⟨BattleCommand.frame.toByte, encodeBody (FrameInput.mk 7 6)⟩
    (∃ d, (s.onLobby ⟨3⟩ wish).sent = [d] ∧ d.conn = ⟨3⟩ ∧
        answerCode? Layout.lobbyCode d.packet = some .roomFull ∧
        (s.onLobby ⟨3⟩ wish).server = s) ∧
      FrameDropped s ⟨14⟩ ⟨7, 6⟩ ∧ s.onBattle ⟨14⟩ input = s.silent := by
  intro s wish input
  obtain ⟨hlobby, -, -, -⟩ := refusals_leave_state s ⟨3⟩ wish
  obtain ⟨-, -, hinputs, -⟩ := refusals_leave_state s ⟨14⟩ input
  have hanswer : (s.onLobby ⟨3⟩ wish).sent = [⟨⟨3⟩, ⟨LobbyCommand.joinRoom.toByte,
      encodeBody (JoinRoomReply.mk .roomFull ⟨10001⟩ [])⟩⟩] := by
    decide +kernel
  have hdropped : FrameDropped s ⟨14⟩ ⟨7, 6⟩ := .unbound (by decide +kernel)
  refine ⟨⟨_, hanswer, rfl, by decide +kernel, ?_⟩, hdropped, ?_⟩
  · -- that nothing has changed follows from what has been said
    have hlayout : ByLayout s.encoder := by
      rw [show s.encoder = .standard from (settings_after pairSetup pairAndThird).2]
      rintro name bytes payload ⟨⟩
      rfl
    have hrefusal := hlobby.refusal hlayout _ (hanswer ▸ List.mem_singleton_self _) .roomFull
      (by decide +kernel) nofun
    exact hrefusal.2.2.2
  · exact (hinputs ⟨7, 6⟩ (by decide +kernel) (by decide +kernel)).1 hdropped

end FrameSync.Server
