import FrameSync.Proofs.Server.Agreement

/-!
# Joins that run at the same time

A join looks at the directory and at the room its player is in, enters the wanted room, and records
that in the directory. Each part holds one store alone, so between the look and the record another
join of the same player can do the same for another room. Neither finds the other in its way, and
the player ends up in two open rooms (`joins_race_pair`).

`one_room_iff` says when that happens, over any number of joins and any order of their parts:
exactly if two joins of a player for different rooms are in progress at one time and both get in.
What every order keeps is `Begun`: the members are those of the start and those who got in, and who
was in an open room at the start gets into no other. While no two joins race, `Apart` holds too:
joins of one player that got in are for one room, which is recorded once they are over, and which
any join that could still get in has seen.
-/

set_option autoImplicit false

namespace FrameSync.Server

open Wire

/-- The player is a member of the room, and the room is open. -/
def Plays (rooms : Table RoomId Room.Slot) (player : PlayerId) (id : RoomId) : Prop :=
  ∃ slot ∈ rooms.get? id, slot.room.phase ≠ .closed ∧ player ∈ slot.room.members

instance (rooms : Table RoomId Room.Slot) (player : PlayerId) (id : RoomId) :
    Decidable (Plays rooms player id) :=
  inferInstanceAs (Decidable (∃ slot ∈ rooms.get? id, _))

/-- The members of open rooms are recorded to be there. -/
def Recorded (d : Directory) (rooms : Table RoomId Room.Slot) : Prop :=
  ∀ player id, Plays rooms player id → d.roomOf player = some id

/-- Nobody is a member of two open rooms. -/
def OneRoom (rooms : Table RoomId Room.Slot) : Prop :=
  ∀ player id id', Plays rooms player id → Plays rooms player id' → id = id'

/-- The states of a server that runs its joins one after the other are such. -/
theorem Consistent.recorded {d : Directory} {rooms : Table RoomId Room.Slot}
    (h : Consistent d rooms) : Recorded d rooms := by
  rintro player id ⟨slot, hget, hopen, hmember⟩
  exact h.joined id slot hget hopen player hmember

/-- Has the join looked at the directory, without being over? -/
def JoinStage.inProgress : JoinStage → Bool
  | .asked | .answered _ => false
  | .identified _ | .allowed | .located | .entered _ => true

/-- Has the join found nothing in its way, without having entered the room? -/
def JoinStage.atDoor : JoinStage → Bool
  | .allowed | .located => true
  | .asked | .identified _ | .entered _ | .answered _ => false

/-- Is the player in, because of this join? -/
def JoinStage.isIn : JoinStage → Bool
  | .entered _ | .answered (.ok _) => true
  | .asked | .identified _ | .allowed | .located | .answered (.error _) => false

namespace Joins

/-- The joins of the given players for the given rooms, none of which has begun. -/
def ofRequests (requests : List (PlayerId × RoomId)) (d : Directory) (r : Registry) : Joins :=
  ⟨requests.map fun q => JoinTask.new q.1 q.2, d, r⟩

/-- The `i`-th and the `k`-th join are in progress, for one player and different rooms. -/
def Rivals (j : Joins) (i k : Nat) : Prop :=
  ∃ t ∈ j.tasks[i]?, ∃ u ∈ j.tasks[k]?, t.player = u.player ∧ t.room ≠ u.room ∧
    t.stage.inProgress = true ∧ u.stage.inProgress = true

instance (j : Joins) (i k : Nat) : Decidable (j.Rivals i k) :=
  inferInstanceAs (Decidable (∃ t ∈ j.tasks[i]?, ∃ u ∈ j.tasks[k]?, _))

/-- The `i`-th join has got its player in. -/
def GotIn (j : Joins) (i : Nat) : Prop := ∃ t ∈ j.tasks[i]?, t.stage.isIn = true

/-- Two rivals both get in. -/
def Race (j : Joins) (order : List Nat) : Prop :=
  ∃ before, before <+: order ∧ ∃ i k, (j.run before).Rivals i k ∧
    (j.run order).GotIn i ∧ (j.run order).GotIn k

/-- A player asks for another room while a join of it is in progress. -/
def Overlap (j : Joins) : Prop :=
  ∃ i < j.tasks.length, ∃ k < j.tasks.length, j.Rivals i k

instance (j : Joins) : Decidable j.Overlap :=
  inferInstanceAs (Decidable (∃ i < j.tasks.length, ∃ k < j.tasks.length, _))

end Joins

/-! ## One part of a join -/

section Part

variable {d d' : Directory} {r : Registry} {t : JoinTask} {stage : JoinStage}
  {rooms : Table RoomId Room.Slot} {slot : Room.Slot} {room : Room} {outcome : Room.Joined}

/-- What the next part of a join does: how far the join has then come, and what becomes of the
stores. A join that has ended stays so, and one may be refused before the player is in. Otherwise
the player is looked up; it is found not to play in the room it was in, unless that is the wanted
one; the wanted room is found; the player enters it; and that is recorded. -/
inductive JoinTask.Part (t : JoinTask) (d : Directory) (rooms : Table RoomId Room.Slot) :
    JoinStage → Directory → Table RoomId Room.Slot → Prop where
  | ended (result : Except LobbyCode Room.Joined) :
    t.stage = .answered result → Part t d rooms (.answered result) d rooms
  | refused (code : LobbyCode) : t.stage.isIn = false →
    Part t d rooms (.answered (.error code)) d rooms
  | identified : t.stage = .asked → d.contains t.player = true →
    Part t d rooms (.identified (d.roomOf t.player)) d rooms
  | allowed (current : Option RoomId) : t.stage = .identified current →
    (∀ other, current = some other → other ≠ t.room → ¬Plays rooms t.player other) →
    Part t d rooms .allowed d rooms
  | located : t.stage = .allowed → Part t d rooms .located d rooms
  | entered (slot : Room.Slot) (room : Room) (outcome : Room.Joined) : t.stage = .located →
    rooms.get? t.room = some slot → slot.room.join t.player = .ok (outcome, room) →
    Part t d rooms (.entered outcome) d (rooms.update t.room fun _ => { slot with room })
  | recorded (outcome : Room.Joined) (d' : Directory) : t.stage = .entered outcome →
    d.setRoom t.player (some t.room) = .ok d' →
    Part t d rooms (.answered (.ok outcome)) d' rooms

/-- **The parts of a join are these**, as its player stays registered. -/
theorem part_step (t : JoinTask) (d : Directory) (r : Registry)
    (hregistered : t.stage.inProgress = true → d.contains t.player = true) :
    ∃ stage, (t.step d r).1 = { t with stage } ∧
      t.Part d r.rooms stage (t.step d r).2.1 (t.step d r).2.2.rooms := by
  obtain ⟨player, id, stage⟩ := t
  cases stage with
  | asked =>
    by_cases hcontains : d.contains player = true
    · simp only [JoinTask.step, if_pos hcontains]
      exact ⟨_, rfl, .identified rfl hcontains⟩
    · simp only [JoinTask.step, if_neg hcontains]
      exact ⟨_, rfl, .refused _ rfl⟩
  | identified current =>
    rcases step_identified player id d r current with ⟨code, hrefused⟩ | ⟨hallowed, hfree⟩
    · rw [hrefused]
      exact ⟨_, rfl, .refused code rfl⟩
    · rw [hallowed]
      refine ⟨_, rfl, .allowed current rfl ?_⟩
      rintro other hcurrent hother ⟨slot, hget, hopen, -⟩
      exact hopen (hfree other slot hcurrent hother hget)
  | allowed =>
    cases hget : r.get id with
    | error e =>
      simp only [JoinTask.step, hget]
      exact ⟨_, rfl, .refused _ rfl⟩
    | ok slot =>
      simp only [JoinTask.step, hget]
      exact ⟨_, rfl, .located rfl⟩
  | located =>
    cases hget : r.get id with
    | error e =>
      simp only [JoinTask.step, hget]
      exact ⟨_, rfl, .refused _ rfl⟩
    | ok slot =>
      cases hjoin : slot.room.join player with
      | error e =>
        simp only [JoinTask.step, hget, hjoin]
        exact ⟨_, rfl, .refused _ rfl⟩
      | ok entered =>
        obtain ⟨outcome, room⟩ := entered
        simp only [JoinTask.step, hget, hjoin]
        exact ⟨_, rfl, .entered slot room outcome rfl (get_eq_ok_iff.mp hget) hjoin⟩
  | entered outcome =>
    obtain ⟨record, hrecord⟩ := Option.isSome_iff_exists.mp (hregistered rfl)
    have hset : d.setRoom player (some id) =
        .ok { d with players := d.players.insert player { record with room := some id } } := by
      rw [Directory.setRoom, hrecord]
    simp only [JoinTask.step, hset]
    exact ⟨_, rfl, .recorded outcome _ rfl hset⟩
  | answered result => exact ⟨_, rfl, .ended result rfl⟩

/-- Recording a room says where that player is, and drops nobody. -/
theorem setRoom_ok {player : PlayerId} {id : Option RoomId} (h : d.setRoom player id = .ok d') :
    (∀ p, d.contains p = true → d'.contains p = true) ∧
      ∀ p, d'.roomOf p = if p = player then id else d.roomOf p := by
  rw [Directory.setRoom] at h
  split at h
  · cases h
  · rename_i record hget
    cases h
    refine ⟨fun p hp => ?_, fun p => ?_⟩
    · by_cases heq : p = player
      · rw [heq]
        exact Option.isSome_iff_exists.mpr ⟨_, Table.get?_insert_self _ _ _⟩
      · obtain ⟨record', hp⟩ := Option.isSome_iff_exists.mp hp
        exact Option.isSome_iff_exists.mpr
          ⟨record', (Table.get?_insert_of_ne _ _ (Ne.symm heq)).trans hp⟩
    · rw [Directory.roomOf, Directory.roomOf]
      by_cases heq : p = player
      · rw [if_pos heq, heq, Table.get?_insert_self, Option.bind_some]
      · rw [if_neg heq, Table.get?_insert_of_ne _ _ (Ne.symm heq)]

/-- Who enters a room plays in it, and everybody else plays where it did. -/
theorem plays_enter {id : RoomId} {player : PlayerId} (hget : rooms.get? id = some slot)
    (hjoin : slot.room.join player = .ok (outcome, room)) (p : PlayerId) (id' : RoomId) :
    Plays (rooms.update id fun _ => { slot with room }) p id' ↔
      Plays rooms p id' ∨ p = player ∧ id' = id := by
  have hopen : slot.room.phase ≠ .closed ∧ room.phase ≠ .closed ∧
      (p ∈ room.members ↔ p ∈ slot.room.members ∨ p = player) := by
    obtain ⟨hopen, ⟨hmember, -, rfl⟩ | ⟨-, -, -, -, rfl⟩⟩ := Room.join_eq_ok hjoin
    · exact ⟨hopen, hopen, ⟨Or.inl, fun h => h.elim (fun h => h) fun heq => heq ▸ hmember⟩⟩
    · refine ⟨hopen, ?_, Room.mem_insertMember.trans or_comm⟩
      show (if _ then Room.Phase.waitingReady else Room.Phase.created) ≠ _
      split <;> nofun
  by_cases hid : id' = id
  · rw [Plays, hid, Table.get?_update_ite, if_pos rfl, Plays, hget]
    simp only [Option.map_some, Option.mem_some_iff, exists_eq_left', hopen, ne_eq,
      not_false_eq_true, true_and, and_true]
  · rw [Plays, Table.get?_update_ite, if_neg hid]
    exact ⟨Or.inl, fun h => h.resolve_right fun hid' => hid hid'.2⟩

namespace JoinTask.Part

variable {d₁ : Directory} {rooms₁ : Table RoomId Room.Slot}

/-- Who is in stays in. -/
theorem isIn (h : t.Part d rooms stage d₁ rooms₁) (hin : t.stage.isIn = true) :
    stage.isIn = true := by
  cases h with
  | ended result hended => rwa [hended] at hin
  | refused code hout => rw [hout] at hin; cases hin
  | identified hasked => rw [hasked] at hin; cases hin
  | allowed current hidentified => rw [hidentified] at hin; cases hin
  | located hallowed => rw [hallowed] at hin; cases hin
  | entered slot room outcome hlocated => rfl
  | recorded outcome d' hentered => rfl

/-- Who is registered stays so. -/
theorem contains (h : t.Part d rooms stage d₁ rooms₁) {p : PlayerId} (hp : d.contains p = true) :
    d₁.contains p = true := by
  cases h with
  | recorded outcome d' hentered hset => exact (setRoom_ok hset).1 p hp
  | _ => exact hp

/-- Only the record of a join that got in is changed. -/
theorem roomOf (h : t.Part d rooms stage d₁ rooms₁) (p : PlayerId) :
    d₁.roomOf p = d.roomOf p ∨
      p = t.player ∧ t.stage.isIn = true ∧ d₁.roomOf p = some t.room := by
  cases h with
  | recorded outcome d' hentered hset =>
    rw [(setRoom_ok hset).2 p]
    by_cases hp : p = t.player
    · rw [if_pos hp]
      exact Or.inr ⟨hp, by rw [hentered]; rfl, rfl⟩
    · exact Or.inl (if_neg hp)
  | _ => exact Or.inl rfl

/-- Only the player that gets in by this part plays anywhere it did not. -/
theorem plays (h : t.Part d rooms stage d₁ rooms₁)
    (hin : t.stage.isIn = true → Plays rooms t.player t.room) (p : PlayerId) (id : RoomId) :
    Plays rooms₁ p id ↔
      Plays rooms p id ∨ t.player = p ∧ t.room = id ∧ stage.isIn = true := by
  cases h with
  | entered slot room outcome hlocated hget hjoin =>
    rw [plays_enter hget hjoin]
    refine or_congr_right ⟨?_, ?_⟩
    · rintro ⟨rfl, rfl⟩
      exact ⟨rfl, rfl, rfl⟩
    · rintro ⟨rfl, rfl, -⟩
      exact ⟨rfl, rfl⟩
  | ended result hended =>
    refine ⟨Or.inl, fun h => h.elim (fun h => h) ?_⟩
    rintro ⟨rfl, rfl, hstage⟩
    exact hin (hended ▸ hstage)
  | recorded outcome d' hentered hset =>
    refine ⟨Or.inl, fun h => h.elim (fun h => h) ?_⟩
    rintro ⟨rfl, rfl, -⟩
    exact hin (hentered ▸ rfl)
  | _ =>
    refine ⟨Or.inl, fun h => h.resolve_right ?_⟩
    rintro ⟨-, -, hstage⟩
    cases hstage

end JoinTask.Part

end Part

/-! ## What every order keeps -/

/-- What is kept from the start on, with the rooms as they were then. The players of joins in
progress are registered. Where a player was at the start is still recorded; a join of such a player
has seen that, and gets in only where the player was. Who plays in a room did so at the start, or
has got in. -/
structure Begun (rooms₀ : Table RoomId Room.Slot) (tasks : List JoinTask) (d : Directory)
    (rooms : Table RoomId Room.Slot) : Prop where
  registered : ∀ t ∈ tasks, t.stage.inProgress = true → d.contains t.player = true
  recorded : Recorded d rooms₀
  seen : ∀ player id, Plays rooms₀ player id → ∀ t ∈ tasks, t.player = player →
    ∀ current, t.stage = .identified current → current = some id
  stays : ∀ player id, Plays rooms₀ player id → ∀ t ∈ tasks, t.player = player →
    t.stage.atDoor = true ∨ t.stage.isIn = true → t.room = id
  plays : ∀ player id, Plays rooms player id ↔ Plays rooms₀ player id ∨
    ∃ t ∈ tasks, t.player = player ∧ t.room = id ∧ t.stage.isIn = true

section Begun

variable {rooms₀ rooms rooms₁ : Table RoomId Room.Slot} {tasks : List JoinTask}
  {d d₁ : Directory} {t t' : JoinTask} {stage : JoinStage} {i : Nat}

theorem begun_of_asked (hasked : ∀ t ∈ tasks, t.stage = .asked) (hrecorded : Recorded d rooms) :
    Begun rooms tasks d rooms := by
  refine ⟨?_, hrecorded, ?_, ?_, ?_⟩
  · intro t ht hprogress
    rw [hasked t ht] at hprogress
    cases hprogress
  · intro player id _ t ht _ current hstage
    rw [hasked t ht] at hstage
    cases hstage
  · intro player id _ t ht _ hstage
    rw [hasked t ht] at hstage
    rcases hstage with hstage | hstage <;> cases hstage
  · intro player id
    refine ⟨Or.inl, fun h => h.resolve_right ?_⟩
    rintro ⟨t, ht, -, -, hstage⟩
    rw [hasked t ht] at hstage
    cases hstage

/-- Something of one of the joins, after one of them has gone on. -/
theorem exists_mem_set {P : JoinTask → Prop} (hget : tasks[i]? = some t) (hP : P t → P t') :
    (∃ u ∈ tasks.set i t', P u) ↔ (∃ u ∈ tasks, P u) ∨ P t' := by
  obtain ⟨hlt, -⟩ := List.getElem?_eq_some_iff.mp hget
  constructor
  · rintro ⟨u, hu, hPu⟩
    rcases List.mem_or_eq_of_mem_set hu with hu | rfl
    · exact Or.inl ⟨u, hu, hPu⟩
    · exact Or.inr hPu
  · rintro (⟨u, hu, hPu⟩ | hPt)
    · obtain ⟨k, hk⟩ := List.mem_iff_getElem?.mp hu
      by_cases hki : i = k
      · -- the one that has gone on
        subst hki
        rw [Option.some.inj (hk.symm.trans hget)] at hPu
        exact ⟨t', List.mem_set hlt t', hP hPu⟩
      · exact ⟨u, List.mem_of_getElem? ((List.getElem?_set_ne hki).trans hk), hPu⟩
    · exact ⟨t', List.mem_set hlt t', hPt⟩

/-- Who is in plays in the room. -/
theorem Begun.plays_of_isIn (h : Begun rooms₀ tasks d rooms) (ht : t ∈ tasks)
    (hin : t.stage.isIn = true) : Plays rooms t.player t.room :=
  (h.plays t.player t.room).mpr (Or.inr ⟨t, ht, rfl, rfl, hin⟩)

/-- A player that was in a room at the start gets into that one only, for the join has looked where
the player is. -/
theorem Begun.stays_part (h : Begun rooms₀ tasks d rooms) (ht : t ∈ tasks)
    (hpart : t.Part d rooms stage d₁ rooms₁) {id : RoomId} (hplays : Plays rooms₀ t.player id)
    (hstage : stage.atDoor = true ∨ stage.isIn = true) : t.room = id := by
  have hstays := h.stays t.player id hplays t ht rfl
  cases hpart with
  | ended result hended => exact hstays (by rwa [hended])
  | refused | identified => rcases hstage with hstage | hstage <;> cases hstage
  | allowed current hidentified hfree =>
    have hcurrent := h.seen t.player id hplays t ht rfl current hidentified
    by_contra hroom
    exact hfree id hcurrent (Ne.symm hroom) ((h.plays t.player id).mpr (Or.inl hplays))
  | located hallowed => exact hstays (Or.inl (hallowed ▸ rfl))
  | entered slot room outcome hlocated => exact hstays (Or.inl (hlocated ▸ rfl))
  | recorded outcome d' hentered => exact hstays (Or.inr (hentered ▸ rfl))

/-- **Every part of a join** keeps what is kept from the start on. -/
theorem Begun.part (h : Begun rooms₀ tasks d rooms) (hget : tasks[i]? = some t)
    (hpart : t.Part d rooms stage d₁ rooms₁) :
    Begun rooms₀ (tasks.set i { t with stage }) d₁ rooms₁ := by
  have ht : t ∈ tasks := List.mem_of_getElem? hget
  constructor
  case registered =>
    intro u hu hprogress
    rcases List.mem_or_eq_of_mem_set hu with hu | rfl
    · exact hpart.contains (h.registered u hu hprogress)
    · refine hpart.contains ?_
      cases hpart with
      | identified hasked hcontains => exact hcontains
      | allowed current hstage => exact h.registered t ht (hstage ▸ rfl)
      | located hstage => exact h.registered t ht (hstage ▸ rfl)
      | entered slot room outcome hstage => exact h.registered t ht (hstage ▸ rfl)
      | _ => cases hprogress
  case recorded =>
    intro player id hplays
    rcases hpart.roomOf player with hsame | ⟨rfl, hin, hroom⟩
    · exact hsame.trans (h.recorded player id hplays)
    · -- a join that got in for a player who was in a room before is one for that room
      rw [hroom, h.stays t.player id hplays t ht rfl (Or.inr hin)]
  case seen =>
    intro player id hplays u hu hplayer current hstage
    rcases List.mem_or_eq_of_mem_set hu with hu | rfl
    · exact h.seen player id hplays u hu hplayer current hstage
    · cases hpart with
      | identified hasked hcontains =>
        cases hstage
        cases hplayer
        exact h.recorded t.player id hplays
      | _ => cases hstage
  case stays =>
    intro player id hplays u hu hplayer hstage
    rcases List.mem_or_eq_of_mem_set hu with hu | rfl
    · exact h.stays player id hplays u hu hplayer hstage
    · cases hplayer
      exact h.stays_part ht hpart hplays hstage
  case plays =>
    intro player id
    rw [hpart.plays (h.plays_of_isIn ht), h.plays, exists_mem_set hget, or_assoc]
    exact fun hin => ⟨hin.1, hin.2.1, hpart.isIn hin.2.2⟩

/-! ## What is kept while no two joins race -/

/-- No two joins that get in, `late` or soon, are in progress for one player and different rooms. -/
def Calm (late : Nat → Prop) (tasks : List JoinTask) : Prop :=
  ∀ i k t u, tasks[i]? = some t → tasks[k]? = some u → late i → late k → t.player = u.player →
    t.stage.inProgress = true → u.stage.inProgress = true → t.room = u.room

/-- How the joins of one player hang together then. A join that succeeded is recorded. Joins that
got in are for one room; a late join for another room has seen that one, and is refused. -/
structure Apart (late : Nat → Prop) (tasks : List JoinTask) (d : Directory) : Prop where
  answered : ∀ t ∈ tasks, ∀ outcome, t.stage = .answered (.ok outcome) →
    d.roomOf t.player = some t.room
  agree : ∀ t ∈ tasks, ∀ u ∈ tasks, t.player = u.player → t.stage.isIn = true →
    u.stage.isIn = true → t.room = u.room
  seen : ∀ i t, tasks[i]? = some t → late i → ∀ u ∈ tasks, t.player = u.player →
    u.stage.isIn = true → t.room ≠ u.room →
    ∀ current, t.stage = .identified current → current = some u.room
  atDoor : ∀ i t, tasks[i]? = some t → late i → ∀ u ∈ tasks, t.player = u.player →
    u.stage.isIn = true → t.stage.atDoor = true → t.room = u.room

theorem JoinStage.inProgress_of_isIn {stage : JoinStage} (hin : stage.isIn = true) :
    stage.inProgress = true ∨ ∃ outcome, stage = .answered (.ok outcome) := by
  cases stage with
  | entered outcome => exact Or.inl rfl
  | answered result =>
    cases result with
    | error code => cases hin
    | ok outcome => exact Or.inr ⟨outcome, rfl⟩
  | _ => cases hin

theorem JoinStage.inProgress_of_atDoor {stage : JoinStage} (hdoor : stage.atDoor = true) :
    stage.inProgress = true ∧ stage.isIn = false := by
  cases stage with
  | allowed | located => exact ⟨rfl, rfl⟩
  | _ => cases hdoor

/-- A part of the join of a player that gets in takes it in, or it was in. -/
theorem JoinTask.Part.isIn_cases (hpart : t.Part d rooms stage d₁ rooms₁)
    (hin : stage.isIn = true) : t.stage.isIn = true ∨ t.stage = .located := by
  cases hpart with
  | ended result hended => exact Or.inl (hended ▸ hin)
  | entered slot room outcome hlocated => exact Or.inr hlocated
  | recorded outcome d' hentered => exact Or.inl (hentered ▸ rfl)
  | _ => cases hin

theorem getElem?_set_cases {k : Nat} {u : JoinTask} (h : (tasks.set i t')[k]? = some u) :
    k = i ∧ u = t' ∨ tasks[k]? = some u := by
  by_cases hki : i = k
  · subst hki
    rw [List.getElem?_set_self'] at h
    obtain ⟨-, -, rfl⟩ := Option.map_eq_some_iff.mp h
    exact Or.inl ⟨rfl, rfl⟩
  · rw [List.getElem?_set_ne hki] at h
    exact Or.inr h

section Apart

variable {late : Nat → Prop}

/-- The join that goes on, if it is in then, is for the room of every other that is in. -/
theorem Apart.agree_part (ha : Apart late tasks d) (hget : tasks[i]? = some t)
    (hpart : t.Part d rooms stage d₁ rooms₁)
    (hlate : ∀ k u, (tasks.set i { t with stage })[k]? = some u → u.stage.isIn = true → late k) :
    ∀ u ∈ tasks, t.player = u.player → stage.isIn = true → u.stage.isIn = true →
      t.room = u.room := by
  intro u hu hplayer hin huin
  have ht : t ∈ tasks := List.mem_of_getElem? hget
  obtain ⟨hlt, -⟩ := List.getElem?_eq_some_iff.mp hget
  rcases hpart.isIn_cases hin with hwas | hlocated
  · exact ha.agree t ht u hu hplayer hwas huin
  · have hlatei := hlate i _ (List.getElem?_set_self hlt) hin
    exact ha.atDoor i t hget hlatei u hu hplayer huin (hlocated ▸ rfl)

/-- If it gets in by that, no other that gets in was on its way to another room. -/
theorem Calm.rival_part (hcalm : Calm late tasks) (hget : tasks[i]? = some t)
    (hpart : t.Part d rooms stage d₁ rooms₁)
    (hlate : ∀ k u, (tasks.set i { t with stage })[k]? = some u → u.stage.isIn = true → late k) :
    ∀ k u, tasks[k]? = some u → late k → u.player = t.player → stage.isIn = true →
      u.stage.inProgress = true → t.stage.isIn = true ∨ u.room = t.room := by
  intro k u hk hlatek hplayer hin hprogress
  obtain ⟨hlt, -⟩ := List.getElem?_eq_some_iff.mp hget
  refine (hpart.isIn_cases hin).imp_right fun hlocated => ?_
  have hlatei := hlate i _ (List.getElem?_set_self hlt) hin
  exact hcalm k i u t hk hget hlatek hlatei hplayer hprogress (hlocated ▸ rfl)

/-- What succeeds is recorded, and what was recorded stays so. -/
theorem Apart.answered_part (ha : Apart late tasks d) (hget : tasks[i]? = some t)
    (hpart : t.Part d rooms stage d₁ rooms₁) :
    ∀ u ∈ tasks.set i { t with stage }, ∀ outcome, u.stage = .answered (.ok outcome) →
      d₁.roomOf u.player = some u.room := by
  intro u hu outcome hanswered
  have ht : t ∈ tasks := List.mem_of_getElem? hget
  rcases List.mem_or_eq_of_mem_set hu with hu | rfl
  · rcases hpart.roomOf u.player with hsame | ⟨hplayer, hin, hroom⟩
    · exact hsame.trans (ha.answered u hu outcome hanswered)
    · -- it is recorded anew, for the same room
      rw [hroom, ha.agree t ht u hu hplayer.symm hin (hanswered ▸ rfl)]
  · cases hpart with
    | ended result hended => exact ha.answered t ht outcome (hended.trans hanswered)
    | recorded outcome' d' hentered hset => exact ((setRoom_ok hset).2 t.player).trans (if_pos rfl)
    | _ => cases hanswered

/-- A join that looks at the directory finds the room of one that got in, or they race. -/
theorem Apart.seen_part (ha : Apart late tasks d) (hget : tasks[i]? = some t)
    (hpart : t.Part d rooms stage d₁ rooms₁) (hcalm : Calm late tasks)
    (hcalm' : Calm late (tasks.set i { t with stage }))
    (hlate : ∀ k u, (tasks.set i { t with stage })[k]? = some u → u.stage.isIn = true → late k) :
    ∀ k u, (tasks.set i { t with stage })[k]? = some u → late k →
      ∀ v ∈ tasks.set i { t with stage }, u.player = v.player → v.stage.isIn = true →
        u.room ≠ v.room → ∀ current, u.stage = .identified current → current = some v.room := by
  intro k u hk hlatek v hv hplayer hvin hroom current hstage
  rcases getElem?_set_cases hk with ⟨rfl, rfl⟩ | hold
  · rcases JoinStage.inProgress_of_isIn hvin with hprogress | ⟨outcome, hanswered⟩
    · -- the other is not recorded yet
      obtain ⟨k', hk'⟩ := List.mem_iff_getElem?.mp hv
      exact absurd (hcalm' k k' _ v hk hk' hlatek (hlate k' v hk' hvin) hplayer
        (by rw [hstage]; rfl) hprogress) hroom
    · rcases List.mem_or_eq_of_mem_set hv with hmem | rfl
      · cases hpart with
        | identified hasked hcontains =>
          cases hstage
          exact (congrArg d.roomOf hplayer).trans (ha.answered v hmem outcome hanswered)
        | _ => cases hstage
      · exact absurd rfl hroom
  · rcases List.mem_or_eq_of_mem_set hv with hv | rfl
    · exact ha.seen k u hold hlatek v hv hplayer hvin hroom current hstage
    · rcases hcalm.rival_part hget hpart hlate k u hold hlatek hplayer hvin
        (by rw [hstage]; rfl) with hwas | hsame
      · have ht : t ∈ tasks := List.mem_of_getElem? hget
        exact ha.seen k u hold hlatek t ht hplayer hwas hroom current hstage
      · exact absurd hsame hroom

/-- So it does not come to the door of another room. -/
theorem Apart.atDoor_part (h : Begun rooms₀ tasks d rooms) (ha : Apart late tasks d)
    (hget : tasks[i]? = some t) (hpart : t.Part d rooms stage d₁ rooms₁) (hcalm : Calm late tasks)
    (hlate : ∀ k u, (tasks.set i { t with stage })[k]? = some u → u.stage.isIn = true → late k) :
    ∀ k u, (tasks.set i { t with stage })[k]? = some u → late k →
      ∀ v ∈ tasks.set i { t with stage }, u.player = v.player → v.stage.isIn = true →
        u.stage.atDoor = true → u.room = v.room := by
  intro k u hk hlatek v hv hplayer hvin hdoor
  obtain ⟨hprogress, hout⟩ := JoinStage.inProgress_of_atDoor hdoor
  rcases getElem?_set_cases hk with ⟨rfl, rfl⟩ | hold
  · rcases List.mem_or_eq_of_mem_set hv with hmem | rfl
    · cases hpart with
      | allowed current hidentified hfree =>
        -- it has looked at the room of the other, in which the player is
        by_contra hroom
        have hcurrent := ha.seen k t hget hlatek v hmem hplayer hvin hroom current hidentified
        exact hfree v.room hcurrent (Ne.symm hroom) (hplayer ▸ h.plays_of_isIn hmem hvin)
      | located hallowed => exact ha.atDoor k t hget hlatek v hmem hplayer hvin (hallowed ▸ rfl)
      | _ => cases hdoor
    · rfl
  · rcases List.mem_or_eq_of_mem_set hv with hv | rfl
    · exact ha.atDoor k u hold hlatek v hv hplayer hvin hdoor
    · rcases hcalm.rival_part hget hpart hlate k u hold hlatek hplayer hvin hprogress with
        hwas | hsame
      · exact ha.atDoor k u hold hlatek t (List.mem_of_getElem? hget) hplayer hwas hdoor
      · exact hsame

/-- **A part of a join that does not race** leaves the joins of every player as they should be. -/
theorem Apart.part (h : Begun rooms₀ tasks d rooms) (ha : Apart late tasks d)
    (hget : tasks[i]? = some t) (hpart : t.Part d rooms stage d₁ rooms₁)
    (hcalm : Calm late tasks) (hcalm' : Calm late (tasks.set i { t with stage }))
    (hlate : ∀ k u, (tasks.set i { t with stage })[k]? = some u → u.stage.isIn = true → late k) :
    Apart late (tasks.set i { t with stage }) d₁ where
  answered := ha.answered_part hget hpart
  agree := by
    intro u hu v hv hplayer huin hvin
    have hagree := ha.agree_part hget hpart hlate
    rcases List.mem_or_eq_of_mem_set hu with hu | rfl <;>
      rcases List.mem_or_eq_of_mem_set hv with hv | rfl
    · exact ha.agree u hu v hv hplayer huin hvin
    · exact (hagree u hu hplayer.symm hvin huin).symm
    · exact hagree v hv hplayer huin hvin
    · rfl
  seen := ha.seen_part hget hpart hcalm hcalm' hlate
  atDoor := ha.atDoor_part h hget hpart hcalm hlate

end Apart

end Begun

namespace Joins

variable {j : Joins} {rooms₀ : Table RoomId Room.Slot}

/-- A part of a join is one, as long as the players of joins in progress are registered. -/
theorem step_cases (hbegun : Begun rooms₀ j.tasks j.directory j.registry.rooms) (i : Nat) :
    j.step i = j ∨ ∃ t stage, j.tasks[i]? = some t ∧
      (j.step i).tasks = j.tasks.set i { t with stage } ∧
      t.Part j.directory j.registry.rooms stage (j.step i).directory
        (j.step i).registry.rooms := by
  rw [step]
  cases hget : j.tasks[i]? with
  | none => exact Or.inl rfl
  | some t =>
    obtain ⟨stage, htask, hpart⟩ := part_step t j.directory j.registry
      (hbegun.registered t (List.mem_of_getElem? hget))
    exact Or.inr ⟨t, stage, rfl, congrArg (j.tasks.set i) htask, hpart⟩

/-- What is kept from the start on, of joins. -/
abbrev Begun (rooms₀ : Table RoomId Room.Slot) (j : Joins) : Prop :=
  Server.Begun rooms₀ j.tasks j.directory j.registry.rooms

theorem begun_step (h : j.Begun rooms₀) (i : Nat) : (j.step i).Begun rooms₀ := by
  rcases step_cases h i with hsame | ⟨t, stage, hget, htasks, hpart⟩
  · rwa [hsame]
  · rw [Begun, htasks]
    exact h.part hget hpart

theorem begun_run (h : j.Begun rooms₀) (order : List Nat) : (j.run order).Begun rooms₀ := by
  induction order generalizing j with
  | nil => exact h
  | cons i order ih => exact ih (begun_step h i)

theorem begun_ofRequests {d : Directory} {r : Registry} (requests : List (PlayerId × RoomId))
    (hrecorded : Recorded d r.rooms) : (ofRequests requests d r).Begun r.rooms := by
  refine begun_of_asked (fun t ht => ?_) hrecorded
  obtain ⟨q, -, rfl⟩ := List.mem_map.mp ht
  rfl

theorem run_append (j : Joins) (before after : List Nat) :
    j.run (before ++ after) = (j.run before).run after := List.foldl_append

/-- A join stays a join of its player for its room, and who is in stays in. -/
theorem task_step (h : j.Begun rooms₀) {k : Nat} {u : JoinTask} (hk : j.tasks[k]? = some u)
    (i : Nat) : ∃ stage, (j.step i).tasks[k]? = some { u with stage } ∧
      (u.stage.isIn = true → stage.isIn = true) := by
  rcases step_cases h i with hsame | ⟨t, stage, hget, htasks, hpart⟩
  · rw [hsame]
    exact ⟨u.stage, hk, fun hin => hin⟩
  · rw [htasks]
    by_cases hki : i = k
    · subst hki
      obtain ⟨hlt, -⟩ := List.getElem?_eq_some_iff.mp hget
      cases hget.symm.trans hk
      exact ⟨stage, List.getElem?_set_self hlt, hpart.isIn⟩
    · exact ⟨u.stage, (List.getElem?_set_ne hki).trans hk, fun hin => hin⟩

theorem task_run (h : j.Begun rooms₀) {k : Nat} {u : JoinTask} (hk : j.tasks[k]? = some u)
    (order : List Nat) : ∃ stage, (j.run order).tasks[k]? = some { u with stage } ∧
      (u.stage.isIn = true → stage.isIn = true) := by
  induction order generalizing j u with
  | nil => exact ⟨u.stage, hk, fun hin => hin⟩
  | cons i order ih =>
    obtain ⟨stage, hstep, hin⟩ := task_step h hk i
    obtain ⟨stage', hrun, hin'⟩ := ih (begun_step h i) hstep
    exact ⟨stage', hrun, fun h => hin' (hin h)⟩

theorem overlap_of_rivals {i k : Nat} (h : j.Rivals i k) : j.Overlap := by
  obtain ⟨t, hi, u, hk, hrest⟩ := h
  obtain ⟨hlti, -⟩ := List.getElem?_eq_some_iff.mp hi
  obtain ⟨hltk, -⟩ := List.getElem?_eq_some_iff.mp hk
  exact ⟨i, hlti, k, hltk, t, hi, u, hk, hrest⟩

/-- Joins that do not race are calm at every moment. -/
theorem calm_of_not_race {order before : List Nat} (hrace : ¬j.Race order)
    (hbefore : before <+: order) : Calm (j.run order).GotIn (j.run before).tasks := by
  intro i k t u hi hk hlatei hlatek hplayer hti huk
  by_contra hroom
  exact hrace ⟨before, hbefore, i, k, ⟨t, hi, u, hk, hplayer, hroom, hti, huk⟩, hlatei, hlatek⟩

/-- **Joins that do not race** are as they should be at every moment. -/
theorem apart_run (h : j.Begun rooms₀) (hasked : ∀ t ∈ j.tasks, t.stage = .asked)
    {order : List Nat} (hrace : ¬j.Race order) {before : List Nat} (hbefore : before <+: order) :
    Apart (j.run order).GotIn (j.run before).tasks (j.run before).directory := by
  induction before using List.reverseRecOn with
  | nil =>
    -- no join has begun
    refine ⟨?_, ?_, ?_, ?_⟩
    · intro t ht outcome hstage
      cases (hasked t ht).symm.trans hstage
    · intro t ht u _ _ hin
      rw [hasked t ht] at hin
      cases hin
    · intro i t hi _ u _ _ _ _ current hstage
      cases (hasked t (List.mem_of_getElem? hi)).symm.trans hstage
    · intro i t hi _ u _ _ _ hdoor
      rw [hasked t (List.mem_of_getElem? hi)] at hdoor
      cases hdoor
  | append_singleton before i ih =>
    have hprefix := (List.prefix_append before [i]).trans hbefore
    have hstep : j.run (before ++ [i]) = (j.run before).step i := run_append j before [i]
    have hbegun := begun_run h before
    have hlate : ∀ k u, (j.run (before ++ [i])).tasks[k]? = some u → u.stage.isIn = true →
        (j.run order).GotIn k := by
      intro k u hk hin
      obtain ⟨after, rfl⟩ := hbefore
      obtain ⟨stage, hrun, hstage⟩ := task_run (begun_run h (before ++ [i])) hk after
      rw [← run_append] at hrun
      exact ⟨_, hrun, hstage hin⟩
    have hcalm := calm_of_not_race hrace hbefore
    rw [hstep] at hlate hcalm ⊢
    rcases step_cases hbegun i with hsame | ⟨t, stage, hget, htasks, hpart⟩
    · rw [hsame]
      exact ih hprefix
    · rw [htasks] at hlate hcalm ⊢
      exact (ih hprefix).part hbegun hget hpart (calm_of_not_race hrace hprefix) hcalm hlate

/-- **Joins of one player for one room** leave it in one room. -/
theorem oneRoom_of_agree (h : j.Begun rooms₀)
    (hagree : ∀ t ∈ j.tasks, ∀ u ∈ j.tasks, t.player = u.player → t.stage.isIn = true →
      u.stage.isIn = true → t.room = u.room) : OneRoom j.registry.rooms := by
  intro player id id' hid hid'
  rcases (h.plays player id).mp hid with hstart | ⟨t, ht, hplayer, rfl, hin⟩ <;>
    rcases (h.plays player id').mp hid' with hstart' | ⟨u, hu, hplayer', rfl, hin'⟩
  · exact Option.some.inj ((h.recorded player id hstart).symm.trans
      (h.recorded player id' hstart'))
  · exact (h.stays player id hstart u hu hplayer' (Or.inr hin')).symm
  · exact h.stays player id' hstart' t ht hplayer (Or.inr hin)
  · exact hagree t ht u hu (hplayer.trans hplayer'.symm) hin hin'

/-- **Two rivals that both get in** take their player into two rooms. -/
theorem not_oneRoom_of_race (h : j.Begun rooms₀) {order : List Nat} (hrace : j.Race order) :
    ¬OneRoom (j.run order).registry.rooms := by
  obtain ⟨before, ⟨after, rfl⟩, i, k, ⟨t, hi, u, hk, hplayer, hroom, -, -⟩, hgoti, hgotk⟩ := hrace
  rw [run_append] at hgoti hgotk ⊢
  have hbegun := begun_run h before
  obtain ⟨t', hi', hin⟩ := hgoti
  obtain ⟨u', hk', hin'⟩ := hgotk
  obtain ⟨stage, hruni, -⟩ := task_run hbegun hi after
  obtain ⟨stage', hrunk, -⟩ := task_run hbegun hk after
  cases hi'.symm.trans hruni
  cases hk'.symm.trans hrunk
  have hend := begun_run hbegun after
  have hplays := hend.plays_of_isIn (List.mem_of_getElem? hi') hin
  have hplays' := hend.plays_of_isIn (List.mem_of_getElem? hk') hin'
  exact fun hone => hroom (hone t.player t.room u.room hplays (hplayer ▸ hplays'))

end Joins

/-- **A player ends up in two open rooms exactly if two of its joins race**, whatever the joins are
and in whatever order their parts run, from a state in which the members of open rooms are recorded
to be there. So it does not while no player asks for another room before its last join is over. -/
theorem one_room_iff (requests : List (PlayerId × RoomId)) (d : Directory) (r : Registry)
    (hrecorded : Recorded d r.rooms) (order : List Nat) :
    let j := Joins.ofRequests requests d r
    (OneRoom (j.run order).registry.rooms ↔ ¬j.Race order) ∧
      ((∀ before, before <+: order → ¬(j.run before).Overlap) →
        OneRoom (j.run order).registry.rooms) := by
  intro j
  have hbegun : j.Begun r.rooms := Joins.begun_ofRequests requests hrecorded
  have hasked : ∀ t ∈ j.tasks, t.stage = .asked := by
    intro t ht
    obtain ⟨q, -, rfl⟩ := List.mem_map.mp ht
    rfl
  have hone : ¬j.Race order → OneRoom (j.run order).registry.rooms := fun hrace =>
    Joins.oneRoom_of_agree (Joins.begun_run hbegun order)
      (Joins.apart_run hbegun hasked hrace (List.prefix_refl order)).agree
  refine ⟨⟨fun h hrace => Joins.not_oneRoom_of_race hbegun hrace h, hone⟩, fun hoverlap => ?_⟩
  refine hone ?_
  rintro ⟨before, hbefore, i, k, hrivals, -, -⟩
  exact hoverlap before hbefore (Joins.overlap_of_rivals hrivals)

/-- Player 101 is in no room, and there are the rooms 10001 and 10002. -/
def twoRooms : Server :=
  stateAfter pairSetup [.ofLobby 1 .login (LoginRequest.mk "a" ""),
    .ofLobby 1 .createRoom (CreateRoomRequest.mk ⟨101⟩),
    .ofLobby 1 .createRoom (CreateRoomRequest.mk ⟨101⟩)]

/-- It asks for both of them. -/
def bothRooms : Joins :=
  .ofRequests [(⟨101⟩, ⟨10001⟩), (⟨101⟩, ⟨10002⟩)] twoRooms.directory twoRooms.registry

theorem recorded_twoRooms : Recorded twoRooms.directory twoRooms.registry.rooms :=
  (consistent_run _ _ (by decide +kernel)).recorded

/-- One join after the other: the player is in one of the rooms. -/
theorem one_room_in_turn :
    Recorded twoRooms.directory twoRooms.registry.rooms ∧
      OneRoom (bothRooms.run [0, 0, 0, 0, 0, 1, 1, 1, 1, 1]).registry.rooms ∧
      Plays (bothRooms.run [0, 0, 0, 0, 0, 1, 1, 1, 1, 1]).registry.rooms ⟨101⟩ ⟨10001⟩ := by
  refine ⟨recorded_twoRooms, ?_, by decide +kernel⟩
  refine (one_room_iff _ _ _ recorded_twoRooms [0, 0, 0, 0, 0, 1, 1, 1, 1, 1]).2 ?_
  have hinits : ∀ before ∈ [0, 0, 0, 0, 0, 1, 1, 1, 1, 1].inits,
      ¬(bothRooms.run before).Overlap := by
    decide +kernel
  exact fun before hbefore => hinits before ((List.mem_inits before _).mpr hbefore)

/-- **Part by part in turns** both joins find the player in no room, and it gets into both. -/
theorem joins_race_pair :
    Recorded twoRooms.directory twoRooms.registry.rooms ∧
      ¬OneRoom (bothRooms.run [0, 1, 0, 1, 0, 1, 0, 1, 0, 1]).registry.rooms := by
  refine ⟨recorded_twoRooms, fun hone => ?_⟩
  have hboth : Plays (bothRooms.run [0, 1, 0, 1, 0, 1, 0, 1, 0, 1]).registry.rooms ⟨101⟩ ⟨10001⟩ ∧
      Plays (bothRooms.run [0, 1, 0, 1, 0, 1, 0, 1, 0, 1]).registry.rooms ⟨101⟩ ⟨10002⟩ := by
    decide +kernel
  exact absurd (hone _ _ _ hboth.1 hboth.2) (by decide)

end FrameSync.Server
