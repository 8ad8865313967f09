import FrameSync.Proofs.Room.Broadcast

/-!
# What a broadcast keeps of an input

A byte of a frame is an input whose low bit has made room for the position of the seat. One bit
holds the positions 0 and 1. A greater position reaches the bits above, and there it is added to
what the input has (`upper_merge`): the receiver cannot tell the bits of the position from those of
the input.

`upper_bits_kept_iff` says so for every history of every room, and that the upper seven bits of all
inputs are kept exactly if the room seats one or two players. The other rooms do run: a room for any
number of players that the settings admit can be filled and started (`exists_unplayed`).
-/

set_option autoImplicit false

namespace FrameSync.Room

open Wire

/-! ## One byte -/

/-- Masking reaches both sides of an or. -/
theorem or_and (a b mask : UInt8) : (a ||| b) &&& mask = (a &&& mask) ||| (b &&& mask) := by
  refine UInt8.toNat_inj.mp (Nat.eq_of_testBit_eq fun bit => ?_)
  simp only [UInt8.toNat_and, UInt8.toNat_or, Nat.testBit_and, Nat.testBit_or,
    Bool.and_or_distrib_right]

/-- The low bit is that of the position, -/
theorem low_merge (input position : UInt8) :
    ((input &&& 0xFE) ||| position) &&& 1 = position &&& 1 := by
  rw [or_and, UInt8.and_assoc, show (0xFE : UInt8) &&& 1 = 0 from rfl, UInt8.and_zero,
    UInt8.zero_or]

/-- and the upper bits are those of the input and those of the position. -/
theorem upper_merge (input position : UInt8) :
    ((input &&& 0xFE) ||| position) &&& 0xFE = (input &&& 0xFE) ||| (position &&& 0xFE) := by
  rw [or_and, UInt8.and_assoc, UInt8.and_self]

/-- The first two positions have no upper bits. -/
theorem upper_position {i : Nat} (h : i < 2) : UInt8.ofNat i &&& 0xFE = 0 := by
  have hpositions : ∀ i < 2, UInt8.ofNat i &&& 0xFE = 0 := by decide
  exact hpositions i h

/-! ## Rooms that have started and recorded nothing -/

/-- The first `n` players. -/
def firstPlayers (n : Nat) : List PlayerId := (List.range n).map fun i => ⟨UInt32.ofNat i⟩

/-- The first `n` players join. -/
def joinAll (n : Nat) : List Op := (firstPlayers n).map .join

/-- The first `n` players are ready, each on a connection of its own. -/
def readyAll (n : Nat) : List Op :=
  (firstPlayers n).map fun p => .ready p ⟨p.num.toNat⟩ 0

theorem firstPlayers_succ (n : Nat) :
    firstPlayers (n + 1) = firstPlayers n ++ [⟨UInt32.ofNat n⟩] := by
  rw [firstPlayers, List.range_succ, List.map_append]
  rfl

theorem length_firstPlayers (n : Nat) : (firstPlayers n).length = n := by
  rw [firstPlayers, List.length_map, List.length_range]

/-- The players of a room are few enough to have numbers of their own. -/
theorem size_of_lt {n places : Nat} (hn : n < places) (hplaces : places ≤ BattleConfig.maxSeats) :
    n < UInt32.size := by
  have hseats : BattleConfig.maxSeats = 8 := rfl
  have hsize : UInt32.size = 4294967296 := rfl
  omega

theorem num_lt_of_mem_firstPlayers {n : Nat} (hn : n < UInt32.size) {p : PlayerId}
    (hp : p ∈ firstPlayers n) : p.num < UInt32.ofNat n := by
  obtain ⟨i, hi, rfl⟩ := List.mem_map.mp hp
  have hlt := List.mem_range.mp hi
  rw [UInt32.lt_iff_toNat_lt, UInt32.toNat_ofNat', UInt32.toNat_ofNat',
    Nat.mod_eq_of_lt hn, Nat.mod_eq_of_lt (Nat.lt_trans hlt hn)]
  exact hlt

theorem not_mem_firstPlayers {n : Nat} (hn : n < UInt32.size) :
    (⟨UInt32.ofNat n⟩ : PlayerId) ∉ firstPlayers n :=
  fun h => UInt32.lt_irrefl _ (num_lt_of_mem_firstPlayers hn h)

/-- Who comes after all members is put at the end. -/
theorem insertMember_last {player : PlayerId} {members : List PlayerId}
    (h : ∀ m ∈ members, m.num < player.num) :
    insertMember player members = members ++ [player] := by
  induction members with
  | nil => rfl
  | cons m rest ih =>
    rw [insertMember, if_pos (h m List.mem_cons_self),
      ih fun m' hm => h m' (List.mem_cons_of_mem m hm)]
    rfl

/-- A new room that its first `n` players have joined. -/
def joinedBy (id : RoomId) (c : BattleConfig) (n : Nat) : Room :=
  { new id c with
    members := firstPlayers n
    phase := if n = c.validated.maxPlayers then .waitingReady else .created }

/-- **A new room takes players** until its places are taken. -/
theorem run_joinAll (id : RoomId) (c : BattleConfig) {n : Nat} (hn : n ≤ c.validated.maxPlayers) :
    (run (new id c) (joinAll n)).2 = joinedBy id c n := by
  induction n with
  | zero =>
    have hpos := (wellFormed_new id c).places_pos
    have hne : ¬0 = c.validated.maxPlayers := Nat.ne_of_lt hpos
    rw [joinedBy, if_neg hne]
    rfl
  | succ n ih =>
    have hlt : n < c.validated.maxPlayers := hn
    have hsize := size_of_lt hlt (wellFormed_new id c).places_le
    have hphase : (joinedBy id c n).phase = .created := if_neg (Nat.ne_of_lt hlt)
    have hmembers : insertMember ⟨UInt32.ofNat n⟩ (firstPlayers n) = firstPlayers (n + 1) := by
      rw [firstPlayers_succ]
      exact insertMember_last fun m hm => num_lt_of_mem_firstPlayers hsize hm
    -- the next player is no member yet and finds a place
    have hopen : ¬(joinedBy id c n).phase = .closed := by
      rw [hphase]
      nofun
    have hnew : ¬(joinedBy id c n).isMember ⟨UInt32.ofNat n⟩ = true :=
      fun h => not_mem_firstPlayers hsize (isMember_iff.mp h)
    have hplace : ¬(!(joinedBy id c n).phase.joinable ||
        decide ((joinedBy id c n).config.maxPlayers ≤ (joinedBy id c n).members.length)) = true := by
      have hfull : ¬c.validated.maxPlayers ≤ n := Nat.not_le.mpr hlt
      rw [hphase]
      simp [Phase.joinable, joinedBy, new, length_firstPlayers, hfull]
    have hjoin : (joinedBy id c n).join ⟨UInt32.ofNat n⟩ =
        .ok (⟨firstPlayers (n + 1), true, decide (n + 1 = c.validated.maxPlayers)⟩,
          joinedBy id c (n + 1)) := by
      rw [join, if_neg hopen, if_neg hnew, if_neg hplace]
      simp [joinedBy, new, hmembers, length_firstPlayers, Nat.ne_of_lt hlt]
    have hlast : joinAll (n + 1) = joinAll n ++ [.join ⟨UInt32.ofNat n⟩] := by
      rw [joinAll, firstPlayers_succ, List.map_append]
      rfl
    rw [hlast, run_append, ih (Nat.le_of_lt hlt)]
    show ((joinedBy id c n).apply (.join _)).2 = _
    rw [apply, hjoin]

/-- A member of an open room can always be ready. -/
theorem exists_becomeReady {r : Room} {player : PlayerId} (hopen : r.phase ≠ .closed)
    (hmember : player ∈ r.members) (conn : ConnId) (now : Nat) :
    ∃ outcome r', r.becomeReady player conn now = .ok (outcome, r') := by
  rw [becomeReady, if_neg hopen, if_neg (by simp [isMember_iff.mpr hmember])]
  exact ⟨_, _, rfl⟩

/-- The next of the first players becomes ready in a room that waits for it. -/
theorem apply_ready_next {r : Room} {n : Nat} (hwaits : r.phase = .waitingReady)
    (hmember : ⟨UInt32.ofNat n⟩ ∈ r.members) (hn : n < r.config.maxPlayers)
    (hplaces : r.config.maxPlayers ≤ BattleConfig.maxSeats) (hroster : r.roster = firstPlayers n)
    (conn : ConnId) (now : Nat) :
    (r.apply (.ready ⟨UInt32.ofNat n⟩ conn now)).2.members = r.members ∧
      (r.apply (.ready ⟨UInt32.ofNat n⟩ conn now)).2.config = r.config ∧
      (r.apply (.ready ⟨UInt32.ofNat n⟩ conn now)).2.roster = firstPlayers (n + 1) ∧
      (r.apply (.ready ⟨UInt32.ofNat n⟩ conn now)).2.phase =
        if n + 1 = r.config.maxPlayers then .running else .waitingReady := by
  have hopen : r.phase ≠ .closed := by
    rw [hwaits]
    nofun
  obtain ⟨outcome, r', hready⟩ := exists_becomeReady hopen hmember conn now
  have hnew : ¬r.isReady ⟨UInt32.ofNat n⟩ = true := by
    rw [isReady_iff, hroster]
    exact not_mem_firstPlayers (size_of_lt hn hplaces)
  have henrolled : (r.enrol ⟨UInt32.ofNat n⟩ conn).roster = firstPlayers (n + 1) := by
    rw [enrol, roster, if_neg hnew, List.map_append, firstPlayers_succ, ← hroster]
    rfl
  have hlength : (r.enrol ⟨UInt32.ofNat n⟩ conn).ready.length = n + 1 := by
    rw [← List.length_map (f := ReadyEntry.player), ← length_firstPlayers (n + 1), ← henrolled]
    rfl
  have hcomplete : (r.enrol ⟨UInt32.ofNat n⟩ conn).Complete ↔ n + 1 = r.config.maxPlayers := by
    rw [Complete, hlength]
    exact and_iff_right hwaits
  simp only [apply, hready]
  -- the battle starts with this entry, or the room goes on waiting
  obtain ⟨-, -, -, -, ⟨hstarts, rfl, -⟩ | ⟨hnot, rfl, -⟩⟩ := becomeReady_eq_ok hready
  · exact ⟨rfl, rfl, henrolled, (if_pos (hcomplete.mp hstarts)).symm⟩
  · exact ⟨rfl, rfl, henrolled, hwaits.trans (if_neg (mt hcomplete.mpr hnot)).symm⟩

/-- **When all players of a full room are ready, it runs.** -/
theorem run_readyAll (id : RoomId) (c : BattleConfig) {n : Nat} (hn : n ≤ c.validated.maxPlayers) :
    let full := joinedBy id c c.validated.maxPlayers
    let r := (run full (readyAll n)).2
    r.members = full.members ∧ r.config = full.config ∧ r.roster = firstPlayers n ∧
      r.phase = if n = c.validated.maxPlayers then .running else .waitingReady := by
  intro full
  induction n with
  | zero =>
    have hpos := (wellFormed_new id c).places_pos
    have hne : ¬0 = c.validated.maxPlayers := Nat.ne_of_lt hpos
    rw [if_neg hne]
    exact ⟨rfl, rfl, rfl, if_pos rfl⟩
  | succ n ih =>
    have hlt : n < c.validated.maxPlayers := hn
    -- before the last player the room still waits, and this one is next
    have hlast : readyAll (n + 1) = readyAll n ++
        [.ready ⟨UInt32.ofNat n⟩ ⟨(UInt32.ofNat n).toNat⟩ 0] := by
      rw [readyAll, firstPlayers_succ, List.map_append]
      rfl
    obtain ⟨hmembers, hconfig, hroster, hphase⟩ := ih (Nat.le_of_lt hlt)
    rw [if_neg (Nat.ne_of_lt hlt)] at hphase
    have hplaces : (run full (readyAll n)).2.config.maxPlayers = c.validated.maxPlayers := by
      rw [hconfig]
      rfl
    have hmember : ⟨UInt32.ofNat n⟩ ∈ (run full (readyAll n)).2.members := by
      rw [hmembers]
      exact List.mem_map_of_mem (List.mem_range.mpr hlt)
    obtain ⟨hmembers', hconfig', hroster', hphase'⟩ := apply_ready_next hphase hmember
      (hplaces ▸ hlt) (hplaces ▸ (wellFormed_new id c).places_le) hroster
      ⟨(UInt32.ofNat n).toNat⟩ 0
    rw [hlast, run_append]
    refine ⟨hmembers'.trans hmembers, hconfig'.trans hconfig, hroster', hphase'.trans ?_⟩
    rw [hplaces]

/-- What a history without inputs has recorded. -/
theorem lastInput_eq_none {ops : List Op} (hquiet : ∀ p i, Op.input p i ∉ ops) (r : Room)
    (player : PlayerId) (frame : Nat) : lastInput player frame (history r ops) = none := by
  rw [lastInput, List.getLast?_eq_none_iff, List.filterMap_eq_nil_iff]
  rintro ⟨op, answer⟩ he
  have hop : op ∈ ops := (List.of_mem_zip he).1
  cases op with
  | input p i => exact absurd hop (hquiet p i)
  | _ => rfl

/-- **Every room can be played:** some history without inputs leads to its battle. -/
theorem exists_unplayed (id : RoomId) (c : BattleConfig) :
    ∃ ops, (run (new id c) ops).2.phase = .running ∧ ∀ p i, Op.input p i ∉ ops := by
  refine ⟨joinAll c.validated.maxPlayers ++ readyAll c.validated.maxPlayers, ?_, ?_⟩
  · obtain ⟨-, -, -, hphase⟩ := run_readyAll id c (Nat.le_refl _)
    rw [run_append, run_joinAll id c (Nat.le_refl _)]
    exact hphase.trans (if_pos rfl)
  · intro p i h
    rcases List.mem_append.mp h with h | h
    · obtain ⟨player, -, heq⟩ := List.mem_map.mp h
      cases heq
    · obtain ⟨player, -, heq⟩ := List.mem_map.mp h
      cases heq

/-! ## Broadcasts -/

/-- The bytes of a frame keep the upper seven bits of the inputs: after the operations `before` on a
new room, the byte for each member has those of the input it last recorded for that frame. -/
def KeepsUpperBits (id : RoomId) (c : BattleConfig) (before : List Op) (out : TickOutput) : Prop :=
  let h := history (new id c) before
  ∀ (i : Nat) p byte, (run (new id c) before).2.members[i]? = some p →
    out.broadcast.inputs[i]? = some byte →
    byte &&& 0xFE = (lastInput p (outputs h).length h).getD 0 &&& 0xFE

/-- The bytes of a frame that is answered, by member. -/
theorem inputs_of_tick {id : RoomId} {c : BattleConfig} {before : List Op} {out : TickOutput}
    (hout : ((run (new id c) before).2.apply .tick).1 = .ticked (some out)) :
    let h := history (new id c) before
    let members := (run (new id c) before).2.members
    out.broadcast.frame = UInt32.ofNat (outputs h).length ∧
      members.length = c.validated.maxPlayers ∧
      out.broadcast.inputs = members.mapIdx fun i p =>
        ((lastInput p (outputs h).length h).getD 0 &&& 0xFE) ||| UInt8.ofNat i := by
  have hnew := wellFormed_new id c
  have hr := wellFormed_run hnew before
  have hf : Follows (history (new id c) before) (run (new id c) before).2 :=
    (Follows.new id c).run hnew before
  obtain ⟨hrunning, frame, hnext, rfl⟩ := apply_tick_eq_some hr hout
  have hk : (outputs (history (new id c) before)).length = frame := by
    refine hf.length_outputs.trans ?_
    rw [hnext, Option.getD_some]
  simp only [hk]
  refine ⟨rfl, ?_, hf.inputs_frameAt hr (hr.nextFrame_ne_none hrunning) frame⟩
  have hconfig : (run (new id c) before).2.config = c.validated := run_config hnew before
  rw [← hconfig]
  exact hr.members_full (Or.inr hrunning)

/-- The byte of one member in it. -/
theorem byte_of_tick {id : RoomId} {c : BattleConfig} {before : List Op} {out : TickOutput}
    (hout : ((run (new id c) before).2.apply .tick).1 = .ticked (some out)) {i : Nat}
    {p : PlayerId} {byte : UInt8} (hp : (run (new id c) before).2.members[i]? = some p)
    (hbyte : out.broadcast.inputs[i]? = some byte) :
    let h := history (new id c) before
    i < c.validated.maxPlayers ∧
      byte = ((lastInput p (outputs h).length h).getD 0 &&& 0xFE) ||| UInt8.ofNat i := by
  obtain ⟨-, hlength, hinputs⟩ := inputs_of_tick hout
  rw [hinputs, List.getElem?_mapIdx, hp, Option.map_some] at hbyte
  exact ⟨hlength ▸ (List.getElem?_eq_some_iff.mp hp).1, (Option.some.inj hbyte).symm⟩

/-- A tick of a running room answers a frame. -/
theorem exists_tick {r : Room} (hr : WellFormed r) (hrunning : r.phase = .running) :
    ∃ out, (r.apply .tick).1 = .ticked (some out) := by
  obtain ⟨frame, hnext, hframe⟩ := hr.in_range hrunning
  rw [apply, tick_of_running hrunning hnext hframe]
  exact ⟨_, rfl⟩

/-- A third seat has the position 2, which shows where nothing was recorded. -/
theorem places_le_two_of_keeps {id : RoomId} {c : BattleConfig}
    (hkeeps : ∀ before out, ((run (new id c) before).2.apply .tick).1 = .ticked (some out) →
      KeepsUpperBits id c before out) : c.validated.maxPlayers ≤ 2 := by
  refine Nat.le_of_not_lt fun hthree => ?_
  obtain ⟨before, hrunning, hquiet⟩ := exists_unplayed id c
  obtain ⟨out, hout⟩ := exists_tick (wellFormed_run (wellFormed_new id c) before) hrunning
  obtain ⟨-, hlength, hinputs⟩ := inputs_of_tick hout
  obtain ⟨p, hp⟩ : ∃ p, (run (new id c) before).2.members[2]? = some p :=
    ⟨_, List.getElem?_eq_getElem (hlength ▸ hthree)⟩
  have hbyte : out.broadcast.inputs[2]? = some 2 := by
    rw [hinputs, List.getElem?_mapIdx, hp, Option.map_some, lastInput_eq_none hquiet]
    rfl
  have hkept := hkeeps before out hout 2 p 2 hp hbyte
  rw [lastInput_eq_none hquiet] at hkept
  exact absurd hkept (by decide)

/-- **What a broadcast keeps of an input.** Let a tick answer a frame after some operations on a new
room. There is one byte for each member, in order. Its low bit is the low bit of the rank, and its
upper bits are those of the input that the member last recorded for the frame together with those of
the rank. So all broadcasts of a room keep the upper seven bits of the inputs exactly if it seats no
more than two players. -/
theorem upper_bits_kept_iff (id : RoomId) (c : BattleConfig) :
    (∀ before out, ((run (new id c) before).2.apply .tick).1 = .ticked (some out) →
      let h := history (new id c) before
      let k := (outputs h).length
      out.broadcast.frame = UInt32.ofNat k ∧
        out.broadcast.inputs.length = c.validated.maxPlayers ∧
        ∀ (i : Nat) p byte, (run (new id c) before).2.members[i]? = some p →
          out.broadcast.inputs[i]? = some byte →
          byte &&& 1 = UInt8.ofNat i &&& 1 ∧
            byte &&& 0xFE = ((lastInput p k h).getD 0 &&& 0xFE) ||| (UInt8.ofNat i &&& 0xFE)) ∧
      ((∀ before out, ((run (new id c) before).2.apply .tick).1 = .ticked (some out) →
          KeepsUpperBits id c before out) ↔
        c.validated.maxPlayers ≤ 2) := by
  refine ⟨?_, places_le_two_of_keeps, ?_⟩
  · intro before out hout h k
    obtain ⟨hframe, hlength, hinputs⟩ := inputs_of_tick hout
    refine ⟨hframe, ?_, ?_⟩
    · rw [hinputs, List.length_mapIdx, hlength]
    · intro i p byte hp hbyte
      obtain ⟨-, rfl⟩ := byte_of_tick hout hp hbyte
      exact ⟨low_merge _ _, upper_merge _ _⟩
  · -- the positions 0 and 1 have no upper bits
    intro hplaces before out hout i p byte hp hbyte
    obtain ⟨hi, rfl⟩ := byte_of_tick hout hp hbyte
    rw [upper_merge, upper_position (Nat.lt_of_lt_of_le hi hplaces), UInt8.or_zero]

/-- Settings for rooms of three. -/
def trio : BattleConfig := { BattleConfig.standard with maxPlayers := 3 }

/-- Three players start a battle, and the one of rank 2 records an input for frame 1. -/
def trioRun : List Op := joinAll 3 ++ readyAll 3 ++ [.tick, .input ⟨2⟩ ⟨1, 0x44⟩]

/-- **In a room of three they are not kept.** The input 0x44 of rank 2 is broadcast as 0x46. -/
theorem upper_bits_lost_trio :
    ∃ out, ((run (new ⟨1⟩ trio) trioRun).2.apply .tick).1 = .ticked (some out) ∧
      lastInput ⟨2⟩ 1 (history (new ⟨1⟩ trio) trioRun) = some 0x44 ∧
      out.broadcast.inputs = [0x00, 0x01, 0x46] ∧ ¬KeepsUpperBits ⟨1⟩ trio trioRun out := by
  have hout : ((run (new ⟨1⟩ trio) trioRun).2.apply .tick).1 =
      .ticked (some ⟨⟨1, 3, 0b100, [0x00, 0x01, 0x46]⟩, [⟨0⟩, ⟨1⟩, ⟨2⟩], false⟩) := by decide
  refine ⟨_, hout, by decide, rfl, fun hkeeps => ?_⟩
  have hkept := hkeeps 2 ⟨2⟩ 0x46 (by decide) rfl
  exact absurd hkept (by decide)

end FrameSync.Room
