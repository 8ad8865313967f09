import FrameSync.Room.Basic
import Mathlib.Data.List.Nodup

/-!
# What one operation does to a room

One statement for each operation: when it succeeds, and which room it leaves. Everything that is
proved about histories of a room goes through these statements, so that no later proof opens an
operation again. `enrol` and `advanceFrom` name the two intermediate rooms of `becomeReady` and
`tick`.

A room that closes keeps everything but its phase and the pending integrity values, and a seat keeps
its player whatever is recorded in it; the lemmas of the first two parts say so field by field.
-/

set_option autoImplicit false

namespace FrameSync.Room

open Wire

variable {r r' : Room} {player : PlayerId} {conn : ConnId} {now : Nat}

/-! ## Views -/

theorem isMember_iff : r.isMember player = true ↔ player ∈ r.members := by
  simp [isMember]

theorem mem_roster_iff : player ∈ r.roster ↔ ∃ e ∈ r.ready, e.player = player := by
  simp [roster]

theorem isReady_iff : r.isReady player = true ↔ player ∈ r.roster := by
  simp only [isReady, List.any_eq_true, decide_eq_true_eq, mem_roster_iff]

/-- A seat that is found is a seat of the player. -/
theorem seat?_eq_some {s : Seat} (h : r.seat? player = some s) : s ∈ r.seats ∧ s.player = player :=
  ⟨List.mem_of_find?_eq_some h, by simpa using List.find?_some h⟩

/-- A player without a seat has none among the seats. -/
theorem seat?_eq_none_iff : r.seat? player = none ↔ player ∉ r.seats.map Seat.player := by
  simp [seat?, List.find?_eq_none]

theorem seat?_isSome_iff : (r.seat? player).isSome = true ↔ player ∈ r.seats.map Seat.player := by
  rw [← Option.ne_none_iff_isSome, ne_eq, seat?_eq_none_iff, Classical.not_not]

/-- When every player has one seat, a seat is found under its player. -/
theorem seat?_of_mem (hnodup : (r.seats.map Seat.player).Nodup) {s : Seat} (hs : s ∈ r.seats) :
    r.seat? s.player = some s := by
  cases h : r.seat? s.player with
  | none => exact absurd (List.mem_map_of_mem hs) (seat?_eq_none_iff.mp h)
  | some t =>
    obtain ⟨ht, hplayer⟩ := seat?_eq_some h
    rw [List.inj_on_of_nodup_map hnodup ht hs hplayer]

/-! ## Members, entries and seats -/

@[simp] theorem mem_insertMember {p : PlayerId} {members : List PlayerId} :
    p ∈ insertMember player members ↔ p = player ∨ p ∈ members := by
  induction members with
  | nil => simp [insertMember]
  | cons m rest ih =>
    rw [insertMember]
    split
    · rw [List.mem_cons, ih, List.mem_cons]
      exact or_left_comm
    · rw [List.mem_cons]

@[simp] theorem length_insertMember (player : PlayerId) (members : List PlayerId) :
    (insertMember player members).length = members.length + 1 := by
  induction members with
  | nil => rfl
  | cons m rest ih =>
    rw [insertMember]
    split
    · rw [List.length_cons, ih, List.length_cons]
    · rfl

/-- Who is no member yet is put where the members ascend. -/
theorem insertMember_ascending {members : List PlayerId}
    (h : members.Pairwise fun a b => a.num < b.num) (hnew : player ∉ members) :
    (insertMember player members).Pairwise fun a b => a.num < b.num := by
  induction members with
  | nil => simp [insertMember]
  | cons m rest ih =>
    rw [List.pairwise_cons] at h
    rw [List.mem_cons, not_or] at hnew
    rw [insertMember]
    split
    · rename_i hlt
      refine List.pairwise_cons.mpr ⟨fun b hb => ?_, ih h.2 hnew.2⟩
      rcases mem_insertMember.mp hb with rfl | hb
      · exact hlt
      · exact h.1 b hb
    · rename_i hle
      have hne : player.num ≠ m.num := fun e =>
        hnew.1 (Key.code_inj player m (congrArg UInt32.toNat e))
      have hlt : player.num < m.num := by
        rw [UInt32.lt_iff_toNat_lt] at hle ⊢
        have := mt UInt32.toNat_inj.mp hne
        omega
      refine List.pairwise_cons.mpr ⟨fun b hb => ?_, List.pairwise_cons.mpr h⟩
      rcases List.mem_cons.mp hb with rfl | hb
      · exact hlt
      · exact UInt32.lt_trans hlt (h.1 b hb)

@[simp] theorem map_player_moveEntry (player : PlayerId) (conn : ConnId) (ready : List ReadyEntry) :
    (moveEntry player conn ready).map ReadyEntry.player = ready.map ReadyEntry.player := by
  rw [moveEntry, List.map_map]
  refine List.map_congr_left fun e _ => ?_
  simp only [Function.comp_apply]
  split <;> rfl

/-- An entry after a move is the moved one or one of another player. -/
theorem mem_moveEntry {e : ReadyEntry} {ready : List ReadyEntry}
    (h : e ∈ moveEntry player conn ready) :
    (e = ⟨player, conn⟩ ∧ player ∈ ready.map ReadyEntry.player) ∨
      (e.player ≠ player ∧ e ∈ ready) := by
  obtain ⟨a, ha, rfl⟩ := List.mem_map.mp h
  by_cases hp : a.player = player
  · rw [if_pos hp]
    exact Or.inl ⟨by rw [hp], hp ▸ List.mem_map_of_mem ha⟩
  · rw [if_neg hp]
    exact Or.inr ⟨hp, ha⟩

/-- Entries of other players stay where they are. -/
theorem mem_moveEntry_of_ne {e : ReadyEntry} {ready : List ReadyEntry} (he : e ∈ ready)
    (hne : e.player ≠ player) : e ∈ moveEntry player conn ready :=
  List.mem_map.mpr ⟨e, he, if_neg hne⟩

namespace Seat

@[simp] theorem record_inputs (s : Seat) (i : FrameInput) :
    (s.record i).inputs = s.inputs.insert i.frame.toNat i.input := rfl

end Seat

/-! ## Closing -/

@[simp] theorem close_phase (r : Room) : r.close.phase = .closed := by
  rw [close]
  split
  · assumption
  · rfl

@[simp] theorem close_id (r : Room) : r.close.id = r.id := by
  rw [close]; split <;> rfl

@[simp] theorem close_config (r : Room) : r.close.config = r.config := by
  rw [close]; split <;> rfl

@[simp] theorem close_members (r : Room) : r.close.members = r.members := by
  rw [close]; split <;> rfl

@[simp] theorem close_ready (r : Room) : r.close.ready = r.ready := by
  rw [close]; split <;> rfl

@[simp] theorem close_seats (r : Room) : r.close.seats = r.seats := by
  rw [close]; split <;> rfl

@[simp] theorem close_nextFrame (r : Room) : r.close.nextFrame = r.nextFrame := by
  rw [close]; split <;> rfl

@[simp] theorem close_masks (r : Room) : r.close.masks = r.masks := by
  rw [close]; split <;> rfl

/-! ## Joining and becoming ready -/

/-- **A join that succeeds** comes from a member, or finds a place left. -/
theorem join_eq_ok {outcome : Joined} (h : r.join player = .ok (outcome, r')) :
    r.phase ≠ .closed ∧
      ((player ∈ r.members ∧ outcome = ⟨r.members, false, false⟩ ∧ r' = r) ∨
        (player ∉ r.members ∧ r.phase = .created ∧ r.members.length < r.config.maxPlayers ∧
          outcome = ⟨insertMember player r.members, true,
            decide (r.members.length + 1 = r.config.maxPlayers)⟩ ∧
          r' = { r with
            members := insertMember player r.members
            phase := if r.members.length + 1 = r.config.maxPlayers then .waitingReady
              else .created })) := by
  rw [join] at h
  split at h
  · cases h
  · rename_i hopen
    refine ⟨hopen, ?_⟩
    split at h
    · rename_i hmember
      cases h
      exact Or.inl ⟨isMember_iff.mp hmember, rfl, rfl⟩
    · rename_i hmember
      split at h
      · cases h
      · rename_i hplace
        simp only [Bool.or_eq_true, Bool.not_eq_true', decide_eq_true_eq, not_or,
          Bool.not_eq_false, Nat.not_le, Phase.joinable] at hplace
        cases h
        refine Or.inr ⟨fun hm => hmember (isMember_iff.mpr hm), hplace.1, hplace.2, ?_, ?_⟩
        · rw [length_insertMember]
        · rw [length_insertMember, hplace.1]
          simp only [decide_eq_true_eq]

/-- The room with a player among the ready and with a seat for it. -/
def enrol (r : Room) (player : PlayerId) (conn : ConnId) : Room :=
  { r with
    ready :=
      if r.isReady player then moveEntry player conn r.ready else r.ready ++ [⟨player, conn⟩]
    seats :=
      if (r.seat? player).isSome then r.seats
      else r.seats ++ [Seat.vacant player (r.rankOf player)] }

/-- Is the room full and everybody ready, and the battle not on? -/
def Complete (r : Room) : Prop := r.phase = .waitingReady ∧ r.ready.length = r.config.maxPlayers

instance (r : Room) : Decidable r.Complete := inferInstanceAs (Decidable (_ ∧ _))

/-- A member of an open room is enrolled, and the battle starts if that makes the room complete. -/
theorem becomeReady_of_member (hopen : r.phase ≠ .closed) (hmember : r.isMember player = true)
    (conn : ConnId) (now : Nat) :
    r.becomeReady player conn now =
      let after : Option StartBroadcast × Room :=
        if (r.enrol player conn).Complete then
          (some ((r.enrol player conn).start now).1, ((r.enrol player conn).start now).2)
        else (none, r.enrol player conn)
      .ok (⟨(after.2.positionOf player).getD 0, after.2.roster, after.2.recipients, after.1⟩,
        after.2) := by
  rw [becomeReady, if_neg hopen, if_neg (by simp [hmember])]
  rfl

/-- **Becoming ready, when it succeeds,** enrols a member, and starts the battle if that makes the
room complete. -/
theorem becomeReady_eq_ok {outcome : Readied}
    (h : r.becomeReady player conn now = .ok (outcome, r')) :
    r.phase ≠ .closed ∧ player ∈ r.members ∧
      outcome.roster = r'.roster ∧ outcome.recipients = r'.recipients ∧
      (((r.enrol player conn).Complete ∧ r' = ((r.enrol player conn).start now).2 ∧
          outcome.start = some ⟨.ok, 0, 0⟩) ∨
        (¬(r.enrol player conn).Complete ∧ r' = r.enrol player conn ∧ outcome.start = none)) := by
  rw [becomeReady] at h
  split at h
  · cases h
  · rename_i hopen
    split at h
    · cases h
    · rename_i hmember
      simp only [Bool.not_eq_true', Bool.not_eq_false] at hmember
      refine ⟨hopen, isMember_iff.mp hmember, ?_⟩
      by_cases hcomplete : (r.enrol player conn).Complete
      · have hstarts := hcomplete
        simp only [Complete, enrol] at hstarts
        simp only [hstarts, and_self, if_true] at h
        cases h
        exact ⟨rfl, rfl, Or.inl ⟨hcomplete, rfl, rfl⟩⟩
      · have hwaits := hcomplete
        simp only [Complete, enrol] at hwaits
        simp only [if_neg hwaits] at h
        cases h
        exact ⟨rfl, rfl, Or.inr ⟨hcomplete, rfl, rfl⟩⟩

/-- The ready players after an enrolment: the player, and who was ready. -/
theorem mem_roster_enrol {p : PlayerId} :
    p ∈ (r.enrol player conn).roster ↔ p = player ∨ p ∈ r.roster := by
  unfold enrol roster
  by_cases h : r.isReady player = true
  · have hin : player ∈ r.ready.map ReadyEntry.player := isReady_iff.mp h
    rw [if_pos h, map_player_moveEntry]
    exact ⟨Or.inr, fun hp => hp.elim (fun e => e ▸ hin) fun hp => hp⟩
  · rw [if_neg h, List.map_append, List.mem_append, List.map_singleton, List.mem_singleton]
    exact or_comm

/-- An entry after an enrolment is the enrolled one or one of another player. -/
theorem mem_ready_enrol {e : ReadyEntry} (h : e ∈ (r.enrol player conn).ready) :
    e = ⟨player, conn⟩ ∨ (e.player ≠ player ∧ e ∈ r.ready) := by
  rw [enrol] at h
  by_cases hready : r.isReady player = true
  · rw [if_pos hready] at h
    exact (mem_moveEntry h).imp And.left fun h => h
  · rw [if_neg hready] at h
    rcases List.mem_append.mp h with h | h
    · refine Or.inr ⟨fun hp => hready (isReady_iff.mpr ?_), h⟩
      exact mem_roster_iff.mpr ⟨e, h, hp⟩
    · exact Or.inl (List.mem_singleton.mp h)

/-- The seats after an enrolment belong to the player and to who had one. -/
theorem mem_seats_enrol {p : PlayerId} :
    p ∈ (r.enrol player conn).seats.map Seat.player ↔ p = player ∨ p ∈ r.seats.map Seat.player := by
  rw [enrol]
  by_cases h : (r.seat? player).isSome = true
  · have hin := seat?_isSome_iff.mp h
    rw [if_pos h]
    exact ⟨Or.inr, fun hp => hp.elim (fun e => e ▸ hin) fun hp => hp⟩
  · rw [if_neg h, List.map_append, List.mem_append, List.map_singleton, List.mem_singleton]
    exact or_comm

/-- **A rebinding** moves the entries of one player and nothing else. -/
theorem rebind_snd (r : Room) (player : PlayerId) (conn : ConnId) :
    (r.rebind player conn).2 = { r with ready := moveEntry player conn r.ready } := by
  rw [rebind]
  split
  · rfl
  · -- a player that is not ready has no entry to move
    rename_i h
    have hmove : moveEntry player conn r.ready = r.ready := by
      refine (List.map_congr_left fun e he => ?_).trans (List.map_id _)
      refine if_neg fun hp => h (isReady_iff.mpr (mem_roster_iff.mpr ⟨e, he, hp⟩))
    rw [hmove]

/-! ## Inputs, ticks and checks -/

theorem notRunningError_eq_none_iff : r.notRunningError = none ↔ r.phase = .running := by
  rw [notRunningError]
  cases r.phase <;> simp

/-- **An input that is recorded** comes from a player with a seat, in a running room, for a frame
that the room has. -/
theorem recordInput_eq_ok {i : FrameInput} (h : r.recordInput player i = .ok r') :
    r.phase = .running ∧ i.frame.toNat < r.config.maxFrames ∧
      ∃ seat, r.seat? player = some seat ∧
        r' = { r with
          seats := r.seats.map fun s => if s.player = player then s.record i else s
          masks := r.masks.insert i.frame.toNat (r.mask i.frame.toNat ||| seat.bit) } := by
  rw [recordInput] at h
  split at h
  · cases h
  · rename_i hrunning
    split at h
    · cases h
    · rename_i hframe
      split at h
      · cases h
      · rename_i seat hseat
        cases h
        exact ⟨notRunningError_eq_none_iff.mp hrunning, Nat.lt_of_not_le hframe, seat, hseat, rfl⟩

/-- The room whose frame `frame` is broadcast: frame 0 reports every seat. -/
def opened (r : Room) (frame : Nat) : Room :=
  if frame = 0 then { r with masks := r.masks.insert 0 (fullMask r.seats.length) } else r

@[simp] theorem opened_phase (r : Room) (frame : Nat) : (r.opened frame).phase = r.phase := by
  rw [opened]; split <;> rfl

@[simp] theorem opened_id (r : Room) (frame : Nat) : (r.opened frame).id = r.id := by
  rw [opened]; split <;> rfl

@[simp] theorem opened_config (r : Room) (frame : Nat) : (r.opened frame).config = r.config := by
  rw [opened]; split <;> rfl

@[simp] theorem opened_members (r : Room) (frame : Nat) : (r.opened frame).members = r.members := by
  rw [opened]; split <;> rfl

@[simp] theorem opened_ready (r : Room) (frame : Nat) : (r.opened frame).ready = r.ready := by
  rw [opened]; split <;> rfl

@[simp] theorem opened_seats (r : Room) (frame : Nat) : (r.opened frame).seats = r.seats := by
  rw [opened]; split <;> rfl

/-- The mask of a frame other than 0 is as it was. -/
theorem opened_mask (r : Room) {frame f : Nat} (hf : f ≠ 0) : (r.opened frame).mask f = r.mask f := by
  rw [opened]
  split
  · exact congrArg (Option.getD · 0) (Table.get?_insert_of_ne _ _ hf.symm)
  · rfl

/-- The room after the broadcast of `frame`. -/
def advanceFrom (r : Room) (frame : Nat) : Room :=
  let next : Room := { r.opened frame with nextFrame := some (frame + 1) }
  if r.config.maxFrames ≤ frame + 1 then next.close else next

@[simp] theorem advanceFrom_id (r : Room) (frame : Nat) : (r.advanceFrom frame).id = r.id := by
  rw [advanceFrom]
  simp only
  split <;> simp

@[simp] theorem advanceFrom_config (r : Room) (frame : Nat) :
    (r.advanceFrom frame).config = r.config := by
  rw [advanceFrom]
  simp only
  split <;> simp

@[simp] theorem advanceFrom_members (r : Room) (frame : Nat) :
    (r.advanceFrom frame).members = r.members := by
  rw [advanceFrom]
  simp only
  split <;> simp

@[simp] theorem advanceFrom_ready (r : Room) (frame : Nat) :
    (r.advanceFrom frame).ready = r.ready := by
  rw [advanceFrom]
  simp only
  split <;> simp

@[simp] theorem advanceFrom_seats (r : Room) (frame : Nat) :
    (r.advanceFrom frame).seats = r.seats := by
  rw [advanceFrom]
  simp only
  split <;> simp

@[simp] theorem advanceFrom_nextFrame (r : Room) (frame : Nat) :
    (r.advanceFrom frame).nextFrame = some (frame + 1) := by
  rw [advanceFrom]
  simp only
  split <;> simp

@[simp] theorem advanceFrom_masks (r : Room) (frame : Nat) :
    (r.advanceFrom frame).masks = (r.opened frame).masks := by
  rw [advanceFrom]
  simp only
  split <;> simp

/-- The last frame closes the room. -/
theorem advanceFrom_phase (r : Room) (frame : Nat) :
    (r.advanceFrom frame).phase =
      if r.config.maxFrames ≤ frame + 1 then .closed else r.phase := by
  rw [advanceFrom]
  simp only
  split <;> simp

theorem tick_of_not_running (h : r.phase ≠ .running) : r.tick = (none, r) := by
  rw [tick, if_pos h]

/-- A room whose tick answers a frame is running. -/
theorem running_of_tick {out : TickOutput} (hout : r.tick.1 = some out) : r.phase = .running := by
  refine Classical.byContradiction fun hnot => ?_
  rw [tick_of_not_running hnot] at hout
  cases hout

/-- **A tick of a running room** broadcasts the next frame to the ready members. -/
theorem tick_of_running {frame : Nat} (h : r.phase = .running) (hnext : r.nextFrame = some frame)
    (hframe : frame < r.config.maxFrames) :
    r.tick = (some ⟨(r.opened frame).frameAt frame, r.recipients,
      decide (r.config.maxFrames ≤ frame + 1)⟩, r.advanceFrom frame) := by
  unfold tick advanceFrom opened
  rw [if_neg (Classical.not_not.mpr h)]
  simp only [hnext, if_neg (Nat.not_le.mpr hframe)]
  by_cases hzero : frame = 0
  · -- the mask of frame 0 is filled in before the frame is read off
    subst hzero
    by_cases hlast : r.config.maxFrames ≤ 0 + 1 <;> simp [hlast, recipients, frameAt, mask]
  · by_cases hlast : r.config.maxFrames ≤ frame + 1 <;>
      simp [hzero, hlast, recipients, frameAt, mask]

/-- **An integrity value that is taken** comes from a player with a seat, in a running room, for a
frame that the room has. -/
theorem submitCheck_eq_ok {c : CheckRequest} {verdict : Option Verdict}
    (h : r.submitCheck player c = .ok (verdict, r')) :
    r.phase = .running ∧ c.frame.toNat < r.config.maxFrames ∧
      ∃ position, r.positionOf player = some position ∧
        let values := reportValue position c.value ((r.checks.get? c.frame.toNat).getD [])
        (values.length < r.seats.length ∧ verdict = none ∧
            r' = { r with checks := r.checks.insert c.frame.toNat values }) ∨
          (r.seats.length ≤ values.length ∧
            verdict = some ⟨⟨if agree values then .ok else .checkDiverged, c.frame⟩, r.members⟩ ∧
            r' = { r with checks := r.checks.erase c.frame.toNat }) := by
  rw [submitCheck] at h
  split at h
  · cases h
  · rename_i hrunning
    split at h
    · cases h
    · rename_i hframe
      split at h
      · cases h
      · rename_i position hposition
        refine ⟨notRunningError_eq_none_iff.mp hrunning, Nat.lt_of_not_le hframe, position,
          hposition, ?_⟩
        simp only at h
        split at h
        · rename_i hlt
          cases h
          exact Or.inl ⟨hlt, rfl, rfl⟩
        · rename_i hlt
          cases h
          exact Or.inr ⟨Nat.le_of_not_lt hlt, rfl, rfl⟩

/-! ## Leaving -/

/-- The room without the entries of one player. -/
def withoutEntry (r : Room) (player : PlayerId) : Room :=
  { r with ready := r.ready.filter fun e => e.player ≠ player }

/-- **A disconnect** drops the player's entry, and closes a running room that has lost its last. -/
theorem disconnect_cases (r : Room) (player : PlayerId) :
    ((r.disconnect player).2 = r.withoutEntry player ∧ (r.disconnect player).1.closed = false ∧
        (r.phase = .running → r.ready ≠ [] → (r.withoutEntry player).ready ≠ [])) ∨
      ((r.disconnect player).2 = (r.withoutEntry player).close ∧
        (r.disconnect player).1.closed = true ∧ r.phase = .running ∧
        (r.withoutEntry player).ready = []) := by
  by_cases h : (r.isReady player && r.phase.isRunning && (r.withoutEntry player).ready.isEmpty) = true
  · refine Or.inr ⟨if_pos h, h, ?_⟩
    simp only [Bool.and_eq_true, Phase.isRunning, decide_eq_true_eq, List.isEmpty_iff] at h
    exact ⟨h.1.2, h.2⟩
  · refine Or.inl ⟨if_neg h, Bool.eq_false_iff.mpr h, ?_⟩
    intro hrunning hready hnone
    -- if nobody else were ready the player would be, and the room would have been closed
    simp only [Bool.and_eq_true, Phase.isRunning, decide_eq_true_eq, List.isEmpty_iff, hrunning,
      hnone, and_true] at h
    refine hready (List.eq_nil_iff_forall_not_mem.mpr ?_)
    intro e he
    have hplayer : e.player = player := by
      refine Classical.byContradiction fun hne => ?_
      have hin : e ∈ (r.withoutEntry player).ready :=
        List.mem_filter.mpr ⟨he, decide_eq_true hne⟩
      rw [hnone] at hin
      exact List.not_mem_nil hin
    exact h (isReady_iff.mpr (mem_roster_iff.mpr ⟨e, he, hplayer⟩))

end FrameSync.Room
