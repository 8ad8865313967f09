import FrameSync.Proofs.Server.Attribution
import FrameSync.Proofs.Server.Presence

/-!
# Who hears what in the lobby

A well-formed packet asks for a login, for a new room or for a place in a room, and is answered with
one reply. What comes of a login concerns nobody but the sender, nor does a refusal. A new room and
a join are told to everybody in the lobby, whether the sender is there or not: to the lobby
connections of the registered players, which are those in the lobby by the history of logins
(`mem_lobbyConnections_iff_inLobby`), and to each of them once, in whatever order they are listed.

The reply to a join has the members of the room, as the room has them after the join. A body that
cannot be written goes nowhere.
-/

set_option autoImplicit false

namespace FrameSync.Server

open Wire

/-! ## Requests and replies -/

/-- What a well-formed packet of the lobby asks for. -/
inductive LobbyRequest where
  | login (request : LoginRequest)
  | createRoom (request : CreateRoomRequest)
  | joinRoom (request : JoinRoomRequest)
deriving DecidableEq, Repr

/-- The request of a packet: the lobby has the command, and the body can be read. -/
def LobbyRequest.ofPacket? (p : Packet) : Option LobbyRequest :=
  match LobbyCommand.ofByte p.command with
  | .error _ => none
  | .ok .login => (readBody LoginRequest p.payload).toOption.map .login
  | .ok .createRoom => (readBody CreateRoomRequest p.payload).toOption.map .createRoom
  | .ok .joinRoom => (readBody JoinRoomRequest p.payload).toOption.map .joinRoom

/-- What the lobby says to a request. -/
inductive LobbyReply where
  | login (reply : LoginReply)
  | createRoom (reply : CreateRoomReply)
  | joinRoom (reply : JoinRoomReply)
deriving DecidableEq, Repr

namespace LobbyReply

/-- The code of a reply. -/
def code : LobbyReply → LobbyCode
  | login r => r.code
  | createRoom r => r.code
  | joinRoom r => r.code

/-- The packet a reply goes out in, if it can be written. -/
def write (encoder : Encoder) : LobbyReply → Except WireError Packet
  | login r => (encoder.encode r).map (Packet.mk LobbyCommand.login.toByte)
  | createRoom r => (encoder.encode r).map (Packet.mk LobbyCommand.createRoom.toByte)
  | joinRoom r => (encoder.encode r).map (Packet.mk LobbyCommand.joinRoom.toByte)

/-- The reply is one to the request: it is of its kind, and a join's names the room. -/
def Answers : LobbyReply → LobbyRequest → Prop
  | login _, .login _ => True
  | createRoom _, .createRoom _ => True
  | joinRoom r, .joinRoom request => r.room = request.room
  | _, _ => False

/-- Is the reply news for everybody: a new room, or a join? -/
def isNews : LobbyReply → Bool
  | login _ => false
  | createRoom r => r.code = .ok
  | joinRoom r => r.code = .ok

/-- The connections a reply to `conn` goes to, in order. -/
def recipients (reply : LobbyReply) (s : Server) (conn : ConnId) : List ConnId :=
  if reply.isNews then s.chance.listing s.announced s.directory.lobbyConnections else [conn]

theorem not_isNews_of_refusal {reply : LobbyReply} (h : reply.code ≠ .ok) :
    reply.isNews = false := by
  cases reply with
  | login r => rfl
  | createRoom r => exact decide_eq_false h
  | joinRoom r => exact decide_eq_false h

end LobbyReply

/-! ## A refused join says why -/

theorem lobbyCode_ne_ok (e : RoomError) : e.lobbyCode ≠ .ok := by
  cases e <;> rintro ⟨⟩

/-- The join has not been refused with the code of success. -/
def JoinTask.SaysWhy (t : JoinTask) : Prop := t.stage ≠ .answered (.error .ok)

theorem saysWhy_refused (player : PlayerId) (id : RoomId) {code : LobbyCode} (h : code ≠ .ok) :
    (JoinTask.mk player id (.answered (.error code))).SaysWhy := by
  intro heq
  cases heq
  exact h rfl

theorem JoinTask.SaysWhy.step {t : JoinTask} (h : t.SaysWhy) (d : Directory) (r : Registry) :
    (t.step d r).1.SaysWhy := by
  obtain ⟨player, id, stage⟩ := t
  cases stage with
  | asked =>
    simp only [JoinTask.step]
    split
    · rintro ⟨⟩
    · exact saysWhy_refused player id (by decide)
  | identified current =>
    -- it goes on, or is refused with the code for a player who is in another room
    simp only [JoinTask.step]
    repeat' split
    all_goals rintro ⟨⟩
  | allowed =>
    simp only [JoinTask.step]
    split
    · exact saysWhy_refused player id (lobbyCode_ne_ok _)
    · rintro ⟨⟩
  | located =>
    simp only [JoinTask.step]
    split
    · exact saysWhy_refused player id (lobbyCode_ne_ok _)
    · split
      · exact saysWhy_refused player id (lobbyCode_ne_ok _)
      · rintro ⟨⟩
  | entered outcome =>
    simp only [JoinTask.step]
    split
    · exact saysWhy_refused player id (by decide)
    · rintro ⟨⟩
  | answered result => exact h

theorem JoinTask.SaysWhy.steps (n : Nat) {t : JoinTask} (h : t.SaysWhy) (d : Directory)
    (r : Registry) : (JoinTask.steps n t d r).1.SaysWhy := by
  induction n generalizing t d r with
  | zero => exact h
  | succ n ih => exact ih (h.step d r) _ _

/-- **The code of a refused join** is not the one of success. -/
theorem ne_ok_of_join {d d' : Directory} {r r' : Registry} {player : PlayerId} {id : RoomId}
    {code : LobbyCode} (h : join d r player id = (.error code, d', r')) : code ≠ .ok := by
  have hwhy : (JoinTask.new player id).SaysWhy := by
    rintro ⟨⟩
  have hend := hwhy.steps JoinTask.parts d r
  have hresult := (Prod.mk.inj h).1
  rw [JoinTask.result?] at hresult
  rintro rfl
  split at hresult
  · rename_i result hstage
    exact hend (hstage.trans (congrArg JoinStage.answered hresult))
  · cases hresult

/-! ## What is granted -/

/-- A join is granted: the player is registered and in no other open room, and the room has it as a
member already, or has a place left while it can be joined. -/
structure MayJoin (s : Server) (request : JoinRoomRequest) : Prop where
  registered : s.directory.contains request.player = true
  free : ∀ other slot, s.directory.roomOf request.player = some other → other ≠ request.room →
    s.registry.rooms.get? other = some slot → slot.room.phase = .closed
  room : ∃ slot, s.registry.rooms.get? request.room = some slot ∧ slot.room.phase ≠ .closed ∧
    (request.player ∈ slot.room.members ∨
      (slot.room.phase = .created ∧ slot.room.members.length < slot.room.config.maxPlayers))

/-- A room takes its members, and others as long as there is a place. -/
theorem exists_join_iff {room : Room} {player : PlayerId} :
    (∃ entered, room.join player = .ok entered) ↔ room.phase ≠ .closed ∧
      (player ∈ room.members ∨
        (room.phase = .created ∧ room.members.length < room.config.maxPlayers)) := by
  constructor
  · rintro ⟨⟨outcome, room'⟩, h⟩
    obtain ⟨hopen, ⟨hmember, -, -⟩ | ⟨-, hcreated, hplace, -, -⟩⟩ := Room.join_eq_ok h
    · exact ⟨hopen, Or.inl hmember⟩
    · exact ⟨hopen, Or.inr ⟨hcreated, hplace⟩⟩
  · rintro ⟨hopen, htakes⟩
    rw [Room.join, if_neg hopen]
    by_cases hmember : room.isMember player = true
    · rw [if_pos hmember]
      exact ⟨_, rfl⟩
    · obtain ⟨hcreated, hplace⟩ := htakes.resolve_left (mt Room.isMember_iff.mpr hmember)
      have hjoinable : ¬(!room.phase.joinable ||
          decide (room.config.maxPlayers ≤ room.members.length)) = true := by
        simp [hcreated, Room.Phase.joinable, hplace]
      rw [if_neg hmember, if_neg hjoinable]
      exact ⟨_, rfl⟩

/-- A player that is free is let through to the wanted room. -/
theorem step_identified_of_free {d : Directory} {r : Registry} {player : PlayerId} {id : RoomId}
    {current : Option RoomId}
    (hfree : ∀ other slot, current = some other → other ≠ id → r.rooms.get? other = some slot →
      slot.room.phase = .closed) :
    (JoinTask.mk player id (.identified current)).step d r = (⟨player, id, .allowed⟩, d, r) := by
  cases current with
  | none => rfl
  | some other =>
    by_cases hsame : other = id
    · simp only [JoinTask.step, if_pos hsame]
    · cases hget : r.get other with
      | error e => simp only [JoinTask.step, if_neg hsame, hget]
      | ok slot =>
        have hclosed := hfree other slot rfl hsame (get_eq_ok_iff.mp hget)
        simp only [JoinTask.step, if_neg hsame, hget, if_pos hclosed]

/-- **Who may join is let in**, and nobody else. -/
theorem join_granted_iff {s : Server} {request : JoinRoomRequest} :
    (∃ outcome d r, join s.directory s.registry request.player request.room = (.ok outcome, d, r)) ↔
      MayJoin s request := by
  constructor
  · rintro ⟨outcome, d, r, hjoin⟩
    rcases join_cases request.player request.room s.directory s.registry with ⟨code, hrefused⟩ |
      ⟨slot, room, outcome', d', hcontains, hfree, hget, hentered, -, -⟩
    · rw [hrefused] at hjoin
      cases hjoin
    · exact ⟨hcontains, hfree, slot, hget, exists_join_iff.mp ⟨_, hentered⟩⟩
  · rintro ⟨hcontains, hfree, slot, hget, htakes⟩
    obtain ⟨⟨outcome, room⟩, hentered⟩ := exists_join_iff.mpr htakes
    obtain ⟨d', hset⟩ := exists_setRoom request.player hcontains (some request.room)
    -- nothing is in the way of the first two parts, the others find the room and enter it
    have hasked : (JoinTask.new request.player request.room).step s.directory s.registry =
        (⟨request.player, request.room, .identified (s.directory.roomOf request.player)⟩,
          s.directory, s.registry) := if_pos hcontains
    have hsteps := (steps_succ 4 hasked).trans (steps_succ 3 (step_identified_of_free hfree))
    refine ⟨outcome, d', s.registry.put request.room { slot with room }, ?_⟩
    rw [join, JoinTask.parts, hsteps]
    simp only [JoinTask.steps, JoinTask.step, get_eq_ok_iff.mpr hget, hentered, hset]
    rfl

/-- The lobby grants the request of a packet. -/
def LobbyRequest.Granted (s : Server) (conn : ConnId) (p : Packet) : LobbyRequest → Prop
  | .login _ => ∃ account, (Event.lobby conn p).login? s.admission = some (conn, account)
  | .createRoom request => s.directory.contains request.player = true
  | .joinRoom request => MayJoin s request

/-! ## What the handlers say -/

section Handlers

variable {α : Type} [Body α] {s s' : Server} {conn : ConnId} {payload : Bytes} {reply : LobbyReply}
  {h : Handled}

/-- A packet is answered with a reply and nothing else. The reply goes to its recipients in their
order, or, if it cannot be written, to nobody, which is an error. -/
structure Replies (s : Server) (conn : ConnId) (reply : LobbyReply) (h : Handled) : Prop where
  written : ∀ packet, reply.write s.encoder = .ok packet →
    h.error = none ∧ h.sent = (reply.recipients s conn).map fun c => ⟨c, packet⟩
  unwritten : ∀ e, reply.write s.encoder = .error e → h.error = some e ∧ h.sent = []

theorem replies_sendAll {conns : List ConnId} {command : UInt8} {body : α}
    (hencoder : s'.encoder = s.encoder)
    (hpacket : reply.write s.encoder = (s.encoder.encode body).map (Packet.mk command))
    (hconns : conns = reply.recipients s conn) :
    Replies s conn reply (s'.sendAll conns command body) := by
  rw [sendAll, hencoder, hconns]
  cases hbody : s.encoder.encode body with
  | error e =>
    rw [hbody] at hpacket
    constructor
    · intro packet hwritten
      cases hpacket.symm.trans hwritten
    · intro e' hfails
      cases hpacket.symm.trans hfails
      exact ⟨rfl, rfl⟩
  | ok payload =>
    rw [hbody] at hpacket
    constructor
    · intro packet hwritten
      cases hpacket.symm.trans hwritten
      exact ⟨rfl, rfl⟩
    · intro e' hfails
      cases hpacket.symm.trans hfails

/-- Work that says nothing may follow. -/
theorem Replies.andThen {next : Server → Handled} (hreplies : Replies s conn reply h)
    (herror : (next h.server).error = none) (hsent : (next h.server).sent = []) :
    Replies s conn reply (h.andThen next) := by
  constructor
  · intro packet hpacket
    obtain ⟨hnone, hwritten⟩ := hreplies.written packet hpacket
    simp only [Handled.andThen, hnone, herror, hsent, List.append_nil]
    exact ⟨trivial, hwritten⟩
  · intro e hfails
    obtain ⟨hsome, hnobody⟩ := hreplies.unwritten e hfails
    simp only [Handled.andThen, hsome]
    exact ⟨trivial, hnobody⟩

/-- **A login** is answered, and granted if the account may log in. -/
theorem login_replies (s : Server) (conn : ConnId) {request : LoginRequest}
    (hrequest : readBody LoginRequest payload = .ok request) :
    ∃ r, Replies s conn (.login r) (s.login conn payload) ∧
      (r.code = .ok ↔ s.admission.check request.account request.password = .ok ()) := by
  cases hcheck : s.admission.check request.account request.password with
  | error e =>
    refine ⟨⟨.authFailed, ⟨0⟩⟩, ?_, ?_⟩
    · simp only [login, hrequest, hcheck]
      exact replies_sendAll rfl rfl rfl
    · simp
  | ok granted =>
    refine ⟨⟨.ok, (s.directory.login request.account conn).1.1⟩, ?_, ?_⟩
    · simp only [login, hrequest, hcheck]
      exact replies_sendAll rfl rfl rfl
    · exact iff_of_true rfl rfl

/-- **The request for a room** is answered, and granted to registered players. -/
theorem createRoom_replies (s : Server) (conn : ConnId) {request : CreateRoomRequest}
    (hrequest : readBody CreateRoomRequest payload = .ok request) :
    ∃ r, Replies s conn (.createRoom r) (s.createRoom conn payload) ∧
      (r.code = .ok ↔ s.directory.contains request.player = true) := by
  by_cases hcontains : s.directory.contains request.player = true
  · refine ⟨⟨.ok, s.registry.reclaim.2.create.1⟩, ?_, ?_⟩
    · simp only [createRoom, hrequest, if_pos hcontains]
      exact replies_sendAll rfl rfl rfl
    · exact iff_of_true rfl hcontains
  · refine ⟨⟨.playerNotFound, ⟨0⟩⟩, ?_, ?_⟩
    · simp only [createRoom, hrequest, if_neg hcontains]
      exact replies_sendAll rfl rfl rfl
    · simp [hcontains]

/-- Who joins is one of the members that are answered, and these are the room's. -/
theorem members_of_join {room room' : Room} {player : PlayerId} {outcome : Room.Joined}
    (h : room.join player = .ok (outcome, room')) :
    outcome.members = room'.members ∧ player ∈ room'.members := by
  obtain ⟨-, ⟨hmember, rfl, rfl⟩ | ⟨-, -, -, rfl, rfl⟩⟩ := Room.join_eq_ok h
  · exact ⟨rfl, hmember⟩
  · exact ⟨rfl, Room.mem_insertMember.mpr (Or.inl rfl)⟩

/-- **A join** is answered, and granted to those who may join, with the members of the room after
it. -/
theorem joinRoom_replies (s : Server) (conn : ConnId) {request : JoinRoomRequest}
    (hrequest : readBody JoinRoomRequest payload = .ok request) :
    ∃ r, Replies s conn (.joinRoom r) (s.joinRoom conn payload) ∧ r.room = request.room ∧
      (r.code = .ok ↔ MayJoin s request) ∧ (r.code = .ok → ∃ slot,
        (s.joinRoom conn payload).server.registry.rooms.get? r.room = some slot ∧
          r.members = slot.room.members ∧ request.player ∈ r.members) := by
  rcases join_cases request.player request.room s.directory s.registry with ⟨code, hjoin⟩ |
    ⟨slot, room, outcome, d', -, -, hget, hentered, hset, hjoin⟩
  · have hcode := ne_ok_of_join hjoin
    have hprivate : (LobbyReply.joinRoom ⟨code, request.room, []⟩).isNews = false :=
      LobbyReply.not_isNews_of_refusal hcode
    refine ⟨⟨code, request.room, []⟩, ?_, rfl, iff_of_false hcode ?_, fun hok => absurd hok hcode⟩
    · -- with a code of success it would have to go to everybody
      simp only [joinRoom, hrequest, hjoin]
      refine replies_sendAll rfl rfl ?_
      rw [LobbyReply.recipients, hprivate]
      rfl
    · rw [← join_granted_iff]
      rintro ⟨outcome, d, r, hgranted⟩
      rw [hjoin] at hgranted
      cases hgranted
  · obtain ⟨hmembers, hplayer⟩ := members_of_join hentered
    have hrooms := congrArg Registry.rooms (joinRoom_stores s conn hrequest hjoin).2
    have hmay : MayJoin s request := join_granted_iff.mp ⟨outcome, d', _, hjoin⟩
    refine ⟨⟨.ok, request.room, outcome.members⟩, ?_, rfl, iff_of_true rfl hmay,
      fun _ => ⟨{ slot with room }, ?_, ?_⟩⟩
    · have hsame := Directory.sameLobby_setRoom hset
      simp only [joinRoom, hrequest, hjoin]
      -- the listener may be started after the answer, of which nobody is told
      have hlisted : s.chance.listing s.announced d'.lobbyConnections =
          s.chance.listing s.announced s.directory.lobbyConnections :=
        congrArg _ hsame.lobbyConnections
      refine Replies.andThen (replies_sendAll rfl rfl hlisted) ?_ ?_
      · simp only [announce_server]
        split <;> rfl
      · simp only [announce_server]
        split <;> rfl
    · rw [hrooms, put_rooms, Table.get?_update, if_pos rfl, hget]
      rfl
    · exact ⟨hmembers, hmembers ▸ hplayer⟩

end Handlers

/-! ## A well-formed packet -/

section Packet

variable {s : Server} {conn : ConnId} {p : Packet} {request : LobbyRequest}

/-- The packet has the command of the request, and its body. -/
inductive LobbyRequest.Reads (p : Packet) : LobbyRequest → Prop where
  | login (r : LoginRequest) : LobbyCommand.ofByte p.command = .ok .login →
    readBody LoginRequest p.payload = .ok r → Reads p (.login r)
  | createRoom (r : CreateRoomRequest) : LobbyCommand.ofByte p.command = .ok .createRoom →
    readBody CreateRoomRequest p.payload = .ok r → Reads p (.createRoom r)
  | joinRoom (r : JoinRoomRequest) : LobbyCommand.ofByte p.command = .ok .joinRoom →
    readBody JoinRoomRequest p.payload = .ok r → Reads p (.joinRoom r)

theorem readBody_of_toOption {α : Type} [Body α] {bytes : Bytes} {body : α}
    (h : (readBody α bytes).toOption = some body) : readBody α bytes = .ok body := by
  cases hread : readBody α bytes with
  | error e =>
    rw [hread] at h
    cases h
  | ok body' =>
    rw [hread] at h
    exact congrArg Except.ok (Option.some.inj h)

theorem LobbyRequest.reads (h : ofPacket? p = some request) : request.Reads p := by
  rw [ofPacket?] at h
  cases hcommand : LobbyCommand.ofByte p.command with
  | error e =>
    rw [hcommand] at h
    cases h
  | ok command =>
    rw [hcommand] at h
    cases command with
    | login =>
      obtain ⟨r, hread, rfl⟩ := Option.map_eq_some_iff.mp h
      exact .login r hcommand (readBody_of_toOption hread)
    | createRoom =>
      obtain ⟨r, hread, rfl⟩ := Option.map_eq_some_iff.mp h
      exact .createRoom r hcommand (readBody_of_toOption hread)
    | joinRoom =>
      obtain ⟨r, hread, rfl⟩ := Option.map_eq_some_iff.mp h
      exact .joinRoom r hcommand (readBody_of_toOption hread)

/-- What a reply has to do with what happens. It has the code of success if the request is granted.
A join that is granted lists the members of the room, and the one who joins is there. -/
structure Truthful (s : Server) (conn : ConnId) (p : Packet) (request : LobbyRequest)
    (reply : LobbyReply) (s' : Server) : Prop where
  granted : reply.code = .ok ↔ request.Granted s conn p
  members : ∀ r, reply = .joinRoom r → r.code = .ok → ∃ asked slot, request = .joinRoom asked ∧
    s'.registry.rooms.get? r.room = some slot ∧ r.members = slot.room.members ∧
      asked.player ∈ r.members

/-- **Every well-formed packet** is answered with a reply to its request. -/
theorem onLobby_replies (s : Server) (conn : ConnId) (hreads : request.Reads p) :
    ∃ reply : LobbyReply, reply.Answers request ∧ Replies s conn reply (s.onLobby conn p) ∧
      Truthful s conn p request reply (s.onLobby conn p).server := by
  cases hreads with
  | login asked hcommand hread =>
    obtain ⟨r, hreplies, hgranted⟩ := login_replies s conn hread
    have hhandled : s.onLobby conn p = s.login conn p.payload := by
      simp only [onLobby, hcommand]
    rw [hhandled]
    refine ⟨.login r, trivial, hreplies, ?_, ?_⟩
    · -- the history takes a login for granted as the handler does, by the same check
      refine hgranted.trans ?_
      simp only [LobbyRequest.Granted, Event.login?, hcommand, hread]
      cases s.admission.check asked.account asked.password with
      | error e => simp
      | ok granted => simp
    · rintro _ ⟨⟩
  | createRoom asked hcommand hread =>
    obtain ⟨r, hreplies, hgranted⟩ := createRoom_replies s conn hread
    have hhandled : s.onLobby conn p = s.createRoom conn p.payload := by
      simp only [onLobby, hcommand]
    rw [hhandled]
    refine ⟨.createRoom r, trivial, hreplies, hgranted, ?_⟩
    rintro _ ⟨⟩
  | joinRoom asked hcommand hread =>
    obtain ⟨r, hreplies, hroom, hgranted, hjoined⟩ := joinRoom_replies s conn hread
    have hhandled : s.onLobby conn p = s.joinRoom conn p.payload := by
      simp only [onLobby, hcommand]
    rw [hhandled]
    refine ⟨.joinRoom r, hroom, hreplies, hgranted, ?_⟩
    rintro _ ⟨⟩ hok
    obtain ⟨slot, hget, hmembers, hplayer⟩ := hjoined hok
    exact ⟨asked, slot, rfl, hget, hmembers, hplayer⟩

end Packet

/-! ## Every run -/

/-- The connections are those in the lobby after a run, each of them once: the lobby connections of
the registered players, or, which comes to the same, those that the history of logins leaves. -/
structure Audience (setup : Setup) (es : List Event) (conns : List ConnId) : Prop where
  once : conns.Nodup
  registered : ∀ c, c ∈ conns ↔ ∃ player, (stateAfter setup es).directory.contains player = true ∧
    (stateAfter setup es).directory.lobbyConn player = some c
  present : ∀ c, c ∈ conns ↔ ∃ account, InLobby setup.admission es c account

/-- The reply to a well-formed packet after a run, and where it goes when it has been written. It is
a reply to the request, and has the code of success if that is granted. The reply to a login goes
once, to the sender, and so does every refusal. A new room and a join go once to everybody in the
lobby, and to nobody else. A join lists the members that the room then has, ascending, the player
among them. -/
structure GoesOut (setup : Setup) (es : List Event) (conn : ConnId) (p : Packet)
    (request : LobbyRequest) (reply : LobbyReply) (packet : Packet) (sent : List Delivery) :
    Prop where
  answers : reply.Answers request
  granted : reply.code = .ok ↔ request.Granted (stateAfter setup es) conn p
  login : ∀ r, reply = .login r → sent = [⟨conn, packet⟩]
  refusal : reply.code ≠ .ok → sent = [⟨conn, packet⟩]
  news : reply.code = .ok → (∀ r, reply ≠ .login r) →
    ∃ conns, Audience setup es conns ∧ sent = conns.map fun c => ⟨c, packet⟩
  members : ∀ r, reply = .joinRoom r → r.code = .ok → ∃ asked slot, request = .joinRoom asked ∧
    (stateAfter setup (es ++ [.lobby conn p])).registry.rooms.get? asked.room = some slot ∧
      r.members = slot.room.members ∧ (r.members.Pairwise fun a b => a.num < b.num) ∧
        asked.player ∈ r.members

section Runs

variable {setup : Setup} {es : List Event} {conn : ConnId} {p : Packet} {request : LobbyRequest}
  {reply : LobbyReply}

theorem audience_lobbyConnections (setup : Setup) (es : List Event)
    (haccounts : (stateAfter setup es).directory.accounts.length ≤ UInt32.size) :
    Audience setup es (stateAfter setup es).directory.lobbyConnections := by
  obtain ⟨accounts, hindexed⟩ := indexed_after setup es haccounts
  have hpresent := mem_lobbyConnections_iff_inLobby setup es haccounts
  refine ⟨Directory.lobbyConnections_nodup _, ?_, hpresent⟩
  intro c
  exact hindexed.mem_lobbyConnections_iff_lobbyConn

/-- In which order they are listed makes no difference. -/
theorem Audience.perm {conns conns' : List ConnId} (h : Audience setup es conns)
    (hperm : conns'.Perm conns) : Audience setup es conns' where
  once := hperm.nodup_iff.mpr h.once
  registered c := hperm.mem_iff.trans (h.registered c)
  present c := hperm.mem_iff.trans (h.present c)

/-- **What is written goes out as it should.** -/
theorem goesOut (haccounts : (stateAfter setup es).directory.accounts.length ≤ UInt32.size)
    (hanswers : reply.Answers request)
    (htruthful : Truthful (stateAfter setup es) conn p request reply
      ((stateAfter setup es).onLobby conn p).server) (packet : Packet) :
    GoesOut setup es conn p request reply packet
      ((reply.recipients (stateAfter setup es) conn).map fun c => ⟨c, packet⟩) where
  answers := hanswers
  granted := htruthful.granted
  login := by
    rintro r rfl
    rfl
  refusal := by
    intro hcode
    rw [LobbyReply.recipients, LobbyReply.not_isNews_of_refusal hcode]
    rfl
  news := by
    intro hcode hnot
    have hnews : reply.isNews = true := by
      cases reply with
      | login r => exact absurd rfl (hnot r)
      | createRoom r => exact decide_eq_true hcode
      | joinRoom r => exact decide_eq_true hcode
    have haudience := (audience_lobbyConnections setup es haccounts).perm
      ((stateAfter setup es).chance.listing_perm (stateAfter setup es).announced _)
    refine ⟨_, haudience, ?_⟩
    rw [LobbyReply.recipients, if_pos hnews]
  members := by
    intro r hr hcode
    obtain ⟨asked, slot, rfl, hget, hmembers, hplayer⟩ := htruthful.members r hr hcode
    subst hr
    -- the room that the reply names is the one that was asked for
    have hroom : r.room = asked.room := hanswers
    have hafter : (stateAfter setup (es ++ [.lobby conn p])).registry.rooms.get? asked.room =
        some slot := by
      rw [stateAfter_snoc, ← hroom]
      exact hget
    have hwell := wellFormed_of_reachable (reachable_iff.mpr ⟨_, rfl⟩) hafter
    exact ⟨asked, slot, rfl, hafter, hmembers, hmembers ▸ hwell.members_ascending, hplayer⟩

end Runs

/-- **Lobby replies reach whom they concern.** After every run of a server whose accounts all have
numbers of their own, a well-formed packet on the lobby channel is answered with one reply, which
says whether the request is granted. The reply to a login and every refusal go to the sender alone.
A new room and a join are told once to each lobby connection of a registered player and to no other,
that is, to the connections on which a login has been granted and which, since the last one, have
not been reported gone, while the account has not logged in elsewhere. A join lists the members of
the room, ascending, with the one who has joined. Of what is sent, all arrives but what goes to
connections that cannot be reached. If the reply cannot be written, nothing is sent. -/
theorem replies_reach_lobby (setup : Setup) (es : List Event)
    (haccounts : (stateAfter setup es).directory.accounts.length ≤ UInt32.size) (conn : ConnId)
    (p : Packet) (request : LobbyRequest) (hrequest : LobbyRequest.ofPacket? p = some request) :
    let s := stateAfter setup es
    let sent := (s.onLobby conn p).sent
    ∃ reply : LobbyReply, reply.Answers request ∧
      (∀ packet, reply.write setup.encoder = .ok packet →
        (s.step (.lobby conn p)).1 = ⟨.done, s.sink.accept sent, [], []⟩ ∧
          GoesOut setup es conn p request reply packet sent) ∧
      ∀ e, reply.write setup.encoder = .error e →
        (s.step (.lobby conn p)).1 = .quiet (.packetRefused e) ∧ sent = [] := by
  intro s sent
  have hencoder : s.encoder = setup.encoder := (settings_after setup es).2
  obtain ⟨reply, hanswers, hreplies, htruthful⟩ :=
    onLobby_replies s conn (LobbyRequest.reads hrequest)
  have hreport : (s.step (.lobby conn p)).1 =
      ⟨(s.onLobby conn p).answer, s.sink.accept sent, [], []⟩ := rfl
  rw [← hencoder]
  refine ⟨reply, hanswers, ?_, ?_⟩
  · intro packet hpacket
    obtain ⟨herror, hwritten⟩ := hreplies.written packet hpacket
    have hdone : (s.onLobby conn p).answer = .done := by
      rw [Handled.answer, herror]
    have hsent : sent = (reply.recipients s conn).map fun c => ⟨c, packet⟩ := hwritten
    rw [hreport, hdone, hsent]
    exact ⟨rfl, goesOut haccounts hanswers htruthful packet⟩
  · intro e hfails
    obtain ⟨herror, hsent⟩ := hreplies.unwritten e hfails
    have hrefused : (s.onLobby conn p).answer = .packetRefused e := by
      rw [Handled.answer, herror]
    have hnothing : sent = [] := hsent
    rw [hreport, hrefused, hnothing]
    exact ⟨rfl, rfl⟩

/-- Account `a` logs in on connections 1 and 3, `b` on 2, and `c` takes 2 over. Then `d` logs in on
4, which is gone after that, and player 101 asks for a room on 1. -/
def lobbyRun : List Event :=
  [.ofLobby 1 .login (LoginRequest.mk "a" ""),
    .ofLobby 2 .login (LoginRequest.mk "b" ""),
    .ofLobby 3 .login (LoginRequest.mk "a" ""),
    .ofLobby 2 .login (LoginRequest.mk "c" ""),
    .ofLobby 4 .login (LoginRequest.mk "d" ""),
    .lobbyDisconnected ⟨4⟩,
    .ofLobby 1 .createRoom (CreateRoomRequest.mk ⟨101⟩)]

/-- Player 102, who has lost connection 2 to `c`, joins the room. -/
def lobbyJoin : Packet :=
  ⟨LobbyCommand.joinRoom.toByte, encodeBody (JoinRoomRequest.mk ⟨10001⟩ ⟨102⟩)⟩

/-- The reply to it. -/
def lobbyJoined : Packet :=
  ⟨LobbyCommand.joinRoom.toByte, encodeBody (JoinRoomReply.mk .ok ⟨10001⟩ [⟨102⟩])⟩

/-- The join comes on connection 5, on which nobody has logged in. It is told on 2 and 3, which are
in the lobby, the last one first; 1, 4 and 5 are not. -/
theorem replies_reach_lobby_join :
    let setup := { pairSetup with chance := lateDownward }
    (stateAfter setup lobbyRun).directory.accounts.length ≤ UInt32.size ∧
      LobbyRequest.ofPacket? lobbyJoin = some (.joinRoom ⟨⟨10001⟩, ⟨102⟩⟩) ∧
      ((stateAfter setup lobbyRun).onLobby ⟨5⟩ lobbyJoin).sent =
        [⟨⟨3⟩, lobbyJoined⟩, ⟨⟨2⟩, lobbyJoined⟩] ∧
      ∃ reply packet, GoesOut setup lobbyRun ⟨5⟩ lobbyJoin (.joinRoom ⟨⟨10001⟩, ⟨102⟩⟩) reply packet
        ((stateAfter setup lobbyRun).onLobby ⟨5⟩ lobbyJoin).sent := by
  intro setup
  have haccounts : (stateAfter setup lobbyRun).directory.accounts.length ≤ UInt32.size := by
    decide +kernel
  have hrequest : LobbyRequest.ofPacket? lobbyJoin = some (.joinRoom ⟨⟨10001⟩, ⟨102⟩⟩) := by
    decide +kernel
  obtain ⟨reply, -, hwritten, -⟩ :=
    replies_reach_lobby setup lobbyRun haccounts ⟨5⟩ lobbyJoin _ hrequest
  -- the standard format writes every reply
  have hpacket : ∃ packet, reply.write setup.encoder = .ok packet := by
    cases reply <;> exact ⟨_, rfl⟩
  obtain ⟨packet, hpacket⟩ := hpacket
  exact ⟨haccounts, hrequest, by decide +kernel, reply, packet, (hwritten packet hpacket).2⟩

end FrameSync.Server
