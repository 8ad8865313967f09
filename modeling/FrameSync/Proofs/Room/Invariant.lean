import FrameSync.Proofs.Room.Seating
import Mathlib.Data.List.Perm.Subperm

/-!
# What holds of a room at any time

`WellFormed` collects what the members, the ready entries, the seats, the masks and the pending
integrity values of a room have to do with each other. The empty room has it, and every operation
keeps it, whatever player, connection, frame or value it is given: one lemma for each operation,
`wellFormed_apply` for all of them, `wellFormed_run` for histories.

The seats are the part that is only right from the start of the battle on. Until then they may be
out of order, and a position may be out of date because somebody has joined since; the start puts
both right, because by then everybody is ready and so has a seat.
-/

set_option autoImplicit false

namespace FrameSync.Room

open Wire

/-- The relations between the parts of a room. There is a place, and there are no more than an input
mask has bits; there is a frame to play. The members ascend and have a place each; one place is left
while members can join, and none afterwards. Nobody is ready twice, and who is ready is a member and
has a seat. A battle goes on as long as somebody is ready.

Nobody has two seats, and who has one is a member. Once the battle has started, seat `i` has
position `i` and is that of the `i`-th member. Masks report only positions that exist. There is no
next frame before the battle and always one during it. Integrity values wait only in a running room,
for a frame it has, and only while some but not all positions have reported, each of them once. -/
structure WellFormed (r : Room) : Prop where
  places_pos : 1 ≤ r.config.maxPlayers
  places_le : r.config.maxPlayers ≤ BattleConfig.maxSeats
  frames_pos : 1 ≤ r.config.maxFrames
  members_ascending : r.members.Pairwise fun a b => a.num < b.num
  members_le : r.members.length ≤ r.config.maxPlayers
  members_lt : r.phase = .created → r.members.length < r.config.maxPlayers
  members_full : r.phase = .waitingReady ∨ r.phase = .running →
    r.members.length = r.config.maxPlayers
  roster_nodup : r.roster.Nodup
  roster_subset : ∀ p ∈ r.roster, p ∈ r.members
  roster_seated : ∀ p ∈ r.roster, p ∈ r.seats.map Seat.player
  ready_ne_nil : r.phase = .running → r.ready ≠ []
  seats_nodup : (r.seats.map Seat.player).Nodup
  seats_subset : ∀ p ∈ r.seats.map Seat.player, p ∈ r.members
  seats_ordered : r.nextFrame ≠ none → r.seats.map Seat.player = r.members ∧
    r.seats.map Seat.position = List.range r.config.maxPlayers
  masks_low : ∀ frame bit, r.config.maxPlayers ≤ bit →
    (r.mask frame).toNat.testBit bit = false
  not_started : r.phase = .created ∨ r.phase = .waitingReady → r.nextFrame = none
  in_range : r.phase = .running → ∃ frame, r.nextFrame = some frame ∧ frame < r.config.maxFrames
  checks_pending : ∀ frame values, r.checks.get? frame = some values →
    r.phase = .running ∧ frame < r.config.maxFrames ∧ 1 ≤ values.length ∧
      values.length < r.config.maxPlayers ∧ (values.map Prod.fst).Nodup

namespace WellFormed

variable {r r' : Room} {player : PlayerId} {conn : ConnId} {now : Nat}

/-- Positions fit a byte of bits. -/
theorem places_lt (h : WellFormed r) {i : Nat} (hi : i < r.config.maxPlayers) : i < 8 :=
  Nat.lt_of_lt_of_le hi h.places_le

/-- The members are pairwise different. -/
theorem members_nodup (h : WellFormed r) : r.members.Nodup :=
  h.members_ascending.imp fun hlt e => UInt32.ne_of_lt hlt (congrArg PlayerId.num e)

/-- A running room has a seat for each place. -/
theorem length_seats (h : WellFormed r) (hstarted : r.nextFrame ≠ none) :
    r.seats.length = r.config.maxPlayers := by
  rw [← List.length_map, (h.seats_ordered hstarted).2, List.length_range]

theorem nextFrame_ne_none (h : WellFormed r) (hrunning : r.phase = .running) :
    r.nextFrame ≠ none := by
  obtain ⟨frame, hnext, -⟩ := h.in_range hrunning
  rw [hnext]
  exact Option.some_ne_none frame

/-- Once the battle has started, positions are places. -/
theorem position_lt (h : WellFormed r) (hstarted : r.nextFrame ≠ none) {s : Seat}
    (hs : s ∈ r.seats) : s.position < r.config.maxPlayers := by
  have hmem := List.mem_map_of_mem (f := Seat.position) hs
  rwa [(h.seats_ordered hstarted).2, List.mem_range] at hmem

/-- Once the battle has started, the seat at a place has that position, and its player is the member
of that rank. -/
theorem seat_at (h : WellFormed r) (hstarted : r.nextFrame ≠ none) {i : Nat} {s : Seat}
    (hs : r.seats[i]? = some s) : s.position = i ∧ r.members[i]? = some s.player := by
  obtain ⟨hplayers, hpositions⟩ := h.seats_ordered hstarted
  have hposition : (List.range r.config.maxPlayers)[i]? = some s.position := by
    rw [← hpositions, List.getElem?_map, hs, Option.map_some]
  have hplayer : r.members[i]? = some s.player := by
    rw [← hplayers, List.getElem?_map, hs, Option.map_some]
  obtain ⟨hi, heq⟩ := List.getElem?_eq_some_iff.mp hposition
  rw [List.getElem_range] at heq
  exact ⟨heq.symm, hplayer⟩

end WellFormed

/-! ## Bits -/

/-- The bit of a seat is that of its position. -/
theorem testBit_bit {s : Seat} (h : s.position < 8) (bit : Nat) :
    s.bit.toNat.testBit bit = decide (s.position = bit) := by
  have hbit : ∀ i < 8, ((1 : UInt8) <<< UInt8.ofNat i).toNat = 2 ^ i := by decide
  rw [Seat.bit, hbit s.position h, Nat.testBit_two_pow]

/-- A full mask has the low bits set. -/
theorem testBit_fullMask {n : Nat} (h : n ≤ 8) (bit : Nat) :
    (fullMask n).toNat.testBit bit = decide (bit < n) := by
  have hmask : ∀ n ≤ 8, (fullMask n).toNat = 2 ^ n - 1 := by decide
  rw [hmask n h, Nat.testBit_two_pow_sub_one]

theorem testBit_or (a b : UInt8) (bit : Nat) :
    (a ||| b).toNat.testBit bit = (a.toNat.testBit bit || b.toNat.testBit bit) := by
  rw [UInt8.toNat_or, Nat.testBit_or]

/-! ## Every operation keeps it -/

section Preservation

variable {r r' : Room} {player : PlayerId} {conn : ConnId} {now : Nat}

theorem wellFormed_new (id : RoomId) (c : BattleConfig) : WellFormed (new id c) where
  places_pos := by
    show 1 ≤ min (max c.maxPlayers 1) BattleConfig.maxSeats
    simp only [BattleConfig.maxSeats]
    omega
  places_le := Nat.min_le_right _ _
  frames_pos := Nat.le_max_right _ _
  members_ascending := List.Pairwise.nil
  members_le := Nat.zero_le _
  members_lt := fun _ => by
    show 0 < min (max c.maxPlayers 1) BattleConfig.maxSeats
    simp only [BattleConfig.maxSeats]
    omega
  members_full := by
    rintro (h | h) <;> cases h
  roster_nodup := List.nodup_nil
  roster_subset := fun p hp => absurd hp List.not_mem_nil
  roster_seated := fun p hp => absurd hp List.not_mem_nil
  ready_ne_nil := fun h => by cases h
  seats_nodup := List.nodup_nil
  seats_subset := fun p hp => absurd hp List.not_mem_nil
  seats_ordered := fun h => absurd rfl h
  masks_low := fun _ bit _ => Nat.zero_testBit bit
  not_started := fun _ => rfl
  in_range := fun h => by cases h
  checks_pending := fun frame values h => by cases h

theorem wellFormed_close (h : WellFormed r) : WellFormed r.close := by
  by_cases hclosed : r.phase = .closed
  · rw [close, if_pos hclosed]
    exact h
  · rw [close, if_neg hclosed]
    exact { h with
      members_lt := fun hphase => by cases hphase
      members_full := by rintro (hphase | hphase) <;> cases hphase
      ready_ne_nil := fun hphase => by cases hphase
      not_started := by rintro (hphase | hphase) <;> cases hphase
      in_range := fun hphase => by cases hphase
      checks_pending := fun frame values hget => by cases hget }

theorem wellFormed_join (h : WellFormed r) {outcome : Joined}
    (hjoin : r.join player = .ok (outcome, r')) : WellFormed r' := by
  -- a member that joins again changes nothing
  obtain ⟨-, ⟨-, -, rfl⟩ | ⟨hnew, hphase, hplace, -, rfl⟩⟩ := join_eq_ok hjoin
  · exact h
  · have hunstarted : r.nextFrame = none := h.not_started (Or.inl hphase)
    have hrunning : r.phase ≠ .running := by rw [hphase]; decide
    refine { h with
      members_ascending := insertMember_ascending h.members_ascending hnew
      members_le := ?_
      members_lt := ?_
      members_full := ?_
      roster_subset := fun p hp => mem_insertMember.mpr (Or.inr (h.roster_subset p hp))
      ready_ne_nil := ?_
      seats_subset := fun p hp => mem_insertMember.mpr (Or.inr (h.seats_subset p hp))
      seats_ordered := fun hstarted => absurd hunstarted hstarted
      not_started := fun _ => hunstarted
      in_range := ?_
      checks_pending := fun frame values hget =>
        absurd (h.checks_pending frame values hget).1 hrunning }
    · show (insertMember player r.members).length ≤ r.config.maxPlayers
      rw [length_insertMember]
      exact hplace
    · intro hcreated
      show (insertMember player r.members).length < r.config.maxPlayers
      rw [length_insertMember]
      by_cases hfilled : r.members.length + 1 = r.config.maxPlayers
      · simp [hfilled] at hcreated
      · omega
    · intro hfull
      show (insertMember player r.members).length = r.config.maxPlayers
      rw [length_insertMember]
      by_cases hfilled : r.members.length + 1 = r.config.maxPlayers
      · exact hfilled
      · simp [hfilled] at hfull
    · intro hphase'
      by_cases hfilled : r.members.length + 1 = r.config.maxPlayers <;> simp [hfilled] at hphase'
    · intro hphase'
      by_cases hfilled : r.members.length + 1 = r.config.maxPlayers <;> simp [hfilled] at hphase'

/-- Moving a connection changes no player of the roster. -/
theorem wellFormed_rebind (h : WellFormed r) (player : PlayerId) (conn : ConnId) :
    WellFormed (r.rebind player conn).2 := by
  have hroster : ({ r with ready := moveEntry player conn r.ready } : Room).roster = r.roster :=
    map_player_moveEntry player conn r.ready
  rw [rebind_snd]
  exact { h with
    roster_nodup := hroster ▸ h.roster_nodup
    roster_subset := hroster ▸ h.roster_subset
    roster_seated := hroster ▸ h.roster_seated
    ready_ne_nil := fun hphase hnil => h.ready_ne_nil hphase (List.map_eq_nil_iff.mp hnil) }

/-- An enrolment adds the player to the roster and to the seats if it is not there. -/
theorem wellFormed_enrol (h : WellFormed r) (hmember : player ∈ r.members) :
    WellFormed (r.enrol player conn) := by
  -- once the battle has started every member has a seat, so none is added
  have hstarted : r.nextFrame ≠ none → (r.enrol player conn).seats = r.seats := by
    intro hstarted
    have hseated : player ∈ r.seats.map Seat.player := by
      rw [(h.seats_ordered hstarted).1]
      exact hmember
    exact if_pos (seat?_isSome_iff.mpr hseated)
  refine { h with
    roster_nodup := ?_
    roster_subset := fun p hp => (mem_roster_enrol.mp hp).elim (fun e => e ▸ hmember)
      (h.roster_subset p)
    roster_seated := fun p hp => mem_seats_enrol.mpr
      ((mem_roster_enrol.mp hp).imp_right (h.roster_seated p))
    ready_ne_nil := ?_
    seats_nodup := ?_
    seats_subset := fun p hp => (mem_seats_enrol.mp hp).elim (fun e => e ▸ hmember)
      (h.seats_subset p)
    seats_ordered := fun hs => (hstarted hs).symm ▸ h.seats_ordered hs }
  · unfold roster enrol
    by_cases hready : r.isReady player = true
    · rw [if_pos hready, map_player_moveEntry]
      exact h.roster_nodup
    · rw [if_neg hready, List.map_append]
      refine List.Nodup.append h.roster_nodup (List.nodup_singleton _) ?_
      rw [List.map_singleton, List.disjoint_singleton]
      exact fun hp => hready (isReady_iff.mpr hp)
  · intro _ hnil
    have hp : player ∈ (r.enrol player conn).roster := mem_roster_enrol.mpr (Or.inl rfl)
    rw [roster, hnil] at hp
    exact absurd hp List.not_mem_nil
  · rw [enrol]
    by_cases hseat : (r.seat? player).isSome = true
    · rw [if_pos hseat]
      exact h.seats_nodup
    · rw [if_neg hseat, List.map_append]
      refine List.Nodup.append h.seats_nodup (List.nodup_singleton _) ?_
      rw [List.map_singleton, List.disjoint_singleton]
      exact fun hp => hseat (seat?_isSome_iff.mpr hp)

/-- In a complete room everybody is ready, so the seats are those of the members. -/
theorem perm_seats_of_complete (h : WellFormed r) (hcomplete : r.Complete) :
    (r.seats.map Seat.player).Perm r.members := by
  -- as many distinct members are ready as there are members
  have hroster : r.members.length ≤ r.roster.length := by
    rw [h.members_full (Or.inl hcomplete.1), ← hcomplete.2, roster, List.length_map]
  have hready : r.roster.Perm r.members :=
    (List.subperm_of_subset h.roster_nodup h.roster_subset).perm_of_length_le hroster
  refine (List.perm_ext_iff_of_nodup h.seats_nodup h.members_nodup).mpr fun p => ?_
  exact ⟨h.seats_subset p, fun hp => h.roster_seated p (hready.mem_iff.mpr hp)⟩

theorem wellFormed_start (h : WellFormed r) (hcomplete : r.Complete) (now : Nat) :
    WellFormed (r.start now).2 := by
  have hperm := perm_seats_of_complete h hcomplete
  have hfull := h.members_full (Or.inl hcomplete.1)
  -- the seats are put in the order of the members, and given the positions from 0 on
  have hplayers := map_player_startSeats h.members_ascending hperm
  have hpositions := map_position_startSeats h.members_ascending hperm
  rw [hfull] at hpositions
  refine { h with
    members_lt := fun hphase => by cases hphase
    members_full := fun _ => hfull
    roster_seated := fun p hp => ?_
    ready_ne_nil := fun _ hnil => ?_
    seats_nodup := ?_
    seats_subset := fun p hp => ?_
    seats_ordered := fun _ => ⟨hplayers, hpositions⟩
    not_started := by rintro (hphase | hphase) <;> cases hphase
    in_range := fun _ => ⟨0, rfl, h.frames_pos⟩
    checks_pending := fun frame values hget => ?_ }
  · rw [start_seats, hplayers]
    exact h.roster_subset p hp
  · have hlength : r.ready.length = r.config.maxPlayers := hcomplete.2
    have hpos := h.places_pos
    rw [show r.ready = [] from hnil, List.length_nil] at hlength
    omega
  · rw [start_seats, hplayers]
    exact h.members_nodup
  · rwa [start_seats, hplayers] at hp
  · have hrunning := (h.checks_pending frame values hget).1
    rw [hcomplete.1] at hrunning
    cases hrunning

theorem wellFormed_becomeReady (h : WellFormed r) {outcome : Readied}
    (hready : r.becomeReady player conn now = .ok (outcome, r')) : WellFormed r' := by
  obtain ⟨-, hmember, -, -, ⟨hcomplete, rfl, -⟩ | ⟨-, rfl, -⟩⟩ := becomeReady_eq_ok hready
  · exact wellFormed_start (wellFormed_enrol h hmember) hcomplete now
  · exact wellFormed_enrol h hmember

/-- Recording changes no player and no position of the seats. -/
theorem map_record_seats {β : Type} (f : Seat → β) (hf : ∀ s i, f (s.record i) = f s)
    (seats : List Seat) (player : PlayerId) (i : FrameInput) :
    (seats.map fun s => if s.player = player then s.record i else s).map f = seats.map f := by
  rw [List.map_map]
  refine List.map_congr_left fun s _ => ?_
  simp only [Function.comp_apply]
  split
  · exact hf s i
  · rfl

theorem wellFormed_recordInput (h : WellFormed r) {i : FrameInput}
    (hrecord : r.recordInput player i = .ok r') : WellFormed r' := by
  obtain ⟨hrunning, -, seat, hseat, rfl⟩ := recordInput_eq_ok hrecord
  have hplayers := map_record_seats Seat.player (fun _ _ => rfl) r.seats player i
  have hpositions := map_record_seats Seat.position (fun _ _ => rfl) r.seats player i
  refine { h with
    roster_seated := fun p hp => hplayers ▸ h.roster_seated p hp
    seats_nodup := hplayers ▸ h.seats_nodup
    seats_subset := fun p hp => h.seats_subset p (hplayers ▸ hp)
    seats_ordered := fun hs => ⟨hplayers.trans (h.seats_ordered hs).1,
      hpositions.trans (h.seats_ordered hs).2⟩
    masks_low := fun frame bit (hbit : r.config.maxPlayers ≤ bit) => ?_ }
  show ((r.masks.insert _ _).get? frame |>.getD 0).toNat.testBit bit = false
  rw [Table.get?_insert]
  split
  · -- the bit that is set is that of a position
    have hposition := h.position_lt (h.nextFrame_ne_none hrunning) (seat?_eq_some hseat).1
    rw [Option.getD_some, testBit_or, h.masks_low _ bit hbit,
      testBit_bit (h.places_lt hposition), Bool.false_or, decide_eq_false_iff_not]
    omega
  · exact h.masks_low frame bit hbit

theorem wellFormed_opened (h : WellFormed r) (hrunning : r.phase = .running) (frame : Nat) :
    WellFormed (r.opened frame) := by
  rw [opened]
  split
  · refine { h with masks_low := fun f bit hbit => ?_ }
    show ((r.masks.insert 0 _).get? f |>.getD 0).toNat.testBit bit = false
    rw [Table.get?_insert, h.length_seats (h.nextFrame_ne_none hrunning)]
    split
    · rw [Option.getD_some, testBit_fullMask h.places_le, decide_eq_false_iff_not]
      exact Nat.not_lt.mpr hbit
    · exact h.masks_low f bit hbit
  · exact h

theorem wellFormed_advanceFrom (h : WellFormed r) (hrunning : r.phase = .running) (frame : Nat) :
    WellFormed (r.advanceFrom frame) := by
  have hopened := wellFormed_opened h hrunning frame
  have hphase : (r.opened frame).phase = .running := (opened_phase r frame).trans hrunning
  have hstarted := hopened.seats_ordered (hopened.nextFrame_ne_none hphase)
  simp only [advanceFrom]
  by_cases hlast : r.config.maxFrames ≤ frame + 1
  · -- The frame it has come to is none of the room's, which is allowed once it is closed.
    have hclose : ({ r.opened frame with nextFrame := some (frame + 1) } : Room).close =
        { (r.opened frame).close with nextFrame := some (frame + 1) } := by
      unfold close; split <;> rfl
    rw [if_pos hlast, hclose]
    have hclosed := wellFormed_close hopened
    have hnever : (r.opened frame).close.phase ≠ .running := by
      rw [close_phase]; decide
    exact { hclosed with
      seats_ordered := fun _ => by simpa using hstarted
      not_started := fun hphase' => by
        rcases hphase' with e | e <;> exact absurd ((close_phase _).symm.trans e) (by decide)
      in_range := fun hphase' => absurd hphase' hnever }
  · rw [if_neg hlast]
    exact { hopened with
      seats_ordered := fun _ => hstarted
      not_started := fun hphase' => by
        rcases hphase' with e | e <;> exact absurd (hphase.symm.trans e) (by decide)
      in_range := fun _ => ⟨frame + 1, rfl, by rw [opened_config]; exact Nat.lt_of_not_le hlast⟩ }

theorem wellFormed_tick (h : WellFormed r) : WellFormed r.tick.2 := by
  by_cases hrunning : r.phase = .running
  · obtain ⟨frame, hnext, hframe⟩ := h.in_range hrunning
    rw [tick_of_running hrunning hnext hframe]
    exact wellFormed_advanceFrom h hrunning frame
  · rw [tick_of_not_running hrunning]
    exact h

/-- The tick of a running room answers a frame. -/
theorem tick_ne_none (h : WellFormed r) (hrunning : r.phase = .running) : r.tick.1 ≠ none := by
  obtain ⟨frame, hnext, hframe⟩ := h.in_range hrunning
  rw [tick_of_running hrunning hnext hframe]
  exact Option.some_ne_none _

/-- The positions that have reported, with one more. -/
theorem map_fst_reportValue (position : Nat) (value : Int64) (values : List (Nat × Int64)) :
    (reportValue position value values).map Prod.fst =
      if position ∈ values.map Prod.fst then values.map Prod.fst
      else values.map Prod.fst ++ [position] := by
  induction values with
  | nil => rfl
  | cons e rest ih =>
    rw [reportValue]
    by_cases he : e.1 = position
    · simp [he]
    · rw [if_neg he, List.map_cons, ih, List.map_cons]
      by_cases hrest : position ∈ rest.map Prod.fst
      · rw [if_pos hrest, if_pos (List.mem_cons_of_mem _ hrest)]
      · have hnew : position ∉ e.1 :: rest.map Prod.fst := fun hmem =>
          (List.mem_cons.mp hmem).elim (fun e' => he e'.symm) hrest
        rw [if_neg hrest, if_neg hnew]
        rfl

theorem nodup_reportValue {position : Nat} {value : Int64} {values : List (Nat × Int64)}
    (h : (values.map Prod.fst).Nodup) :
    ((reportValue position value values).map Prod.fst).Nodup := by
  rw [map_fst_reportValue]
  split
  · exact h
  · rename_i hnew
    exact List.Nodup.append h (List.nodup_singleton _) (List.disjoint_singleton.mpr hnew)

theorem length_reportValue_pos (position : Nat) (value : Int64) (values : List (Nat × Int64)) :
    1 ≤ (reportValue position value values).length := by
  cases values with
  | nil => exact Nat.le_refl 1
  | cons e rest =>
    rw [reportValue]
    split <;> exact Nat.succ_le_succ (Nat.zero_le _)

theorem wellFormed_submitCheck (h : WellFormed r) {c : CheckRequest} {verdict : Option Verdict}
    (hcheck : r.submitCheck player c = .ok (verdict, r')) : WellFormed r' := by
  obtain ⟨hrunning, hframe, position, -, ⟨hlt, -, rfl⟩ | ⟨-, -, rfl⟩⟩ := submitCheck_eq_ok hcheck
  · -- some position has not reported yet
    refine { h with checks_pending := fun frame values hget => ?_ }
    rw [Table.get?_insert] at hget
    split at hget
    · rename_i hcode
      cases hget
      have hnodup : (((r.checks.get? c.frame.toNat).getD []).map Prod.fst).Nodup := by
        cases hold : r.checks.get? c.frame.toNat with
        | none => exact List.nodup_nil
        | some old => exact (h.checks_pending _ old hold).2.2.2.2
      rw [h.length_seats (h.nextFrame_ne_none hrunning)] at hlt
      have hsame : c.frame.toNat = frame := hcode
      exact ⟨hrunning, hsame ▸ hframe, length_reportValue_pos _ _ _, hlt, nodup_reportValue hnodup⟩
    · exact h.checks_pending frame values hget
  · -- all have reported, and the frame is settled
    refine { h with checks_pending := fun frame values hget => ?_ }
    rw [Table.get?_erase] at hget
    split at hget
    · cases hget
    · exact h.checks_pending frame values hget

/-- Who is ready without one player is somebody else who was ready. -/
theorem mem_roster_withoutEntry {p : PlayerId} :
    p ∈ (r.withoutEntry player).roster ↔ p ∈ r.roster ∧ p ≠ player := by
  simp only [mem_roster_iff, withoutEntry, List.mem_filter, decide_eq_true_eq]
  constructor
  · rintro ⟨e, ⟨he, hne⟩, rfl⟩
    exact ⟨⟨e, he, rfl⟩, hne⟩
  · rintro ⟨⟨e, he, rfl⟩, hne⟩
    exact ⟨e, ⟨he, hne⟩, rfl⟩

theorem wellFormed_withoutEntry (h : WellFormed r) (player : PlayerId)
    (hstays : r.phase = .running → (r.withoutEntry player).ready ≠ []) :
    WellFormed (r.withoutEntry player) :=
  { h with
    roster_nodup := h.roster_nodup.sublist (List.filter_sublist.map ReadyEntry.player)
    roster_subset := fun p hp => h.roster_subset p (mem_roster_withoutEntry.mp hp).1
    roster_seated := fun p hp => h.roster_seated p (mem_roster_withoutEntry.mp hp).1
    ready_ne_nil := hstays }

theorem wellFormed_disconnect (h : WellFormed r) (player : PlayerId) :
    WellFormed (r.disconnect player).2 := by
  rcases disconnect_cases r player with ⟨hroom, -, hstays⟩ | ⟨hroom, -, -, -⟩
  · rw [hroom]
    exact wellFormed_withoutEntry h player fun hrunning =>
      hstays hrunning (h.ready_ne_nil hrunning)
  · -- nobody is left, which is allowed in a closed room only
    have hclose : (r.withoutEntry player).close = r.close.withoutEntry player := by
      unfold close withoutEntry; split <;> rfl
    rw [hroom, hclose]
    refine wellFormed_withoutEntry (wellFormed_close h) player fun hrunning => ?_
    rw [close_phase] at hrunning
    cases hrunning

/-- **Every operation keeps a room well formed.** -/
theorem wellFormed_apply (h : WellFormed r) (op : Op) : WellFormed (r.apply op).2 := by
  cases op with
  | join player =>
    simp only [apply]
    split
    · exact h
    · rename_i hjoin
      exact wellFormed_join h hjoin
  | ready player conn now =>
    simp only [apply]
    split
    · exact h
    · rename_i hready
      exact wellFormed_becomeReady h hready
  | rebind player conn => exact wellFormed_rebind h player conn
  | input player i =>
    simp only [apply]
    split
    · exact h
    · rename_i hrecord
      exact wellFormed_recordInput h hrecord
  | tick => exact wellFormed_tick h
  | check player c =>
    simp only [apply]
    split
    · exact h
    · rename_i hcheck
      exact wellFormed_submitCheck h hcheck
  | disconnect player => exact wellFormed_disconnect h player
  | close => exact wellFormed_close h

end Preservation

end FrameSync.Room
