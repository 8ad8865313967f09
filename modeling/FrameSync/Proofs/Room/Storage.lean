import FrameSync.Room.Storage
import FrameSync.Proofs.Room.InputBits

/-!
# A room never faults

`Stored` carries out the operations of a room on rows of bytes, machine words and phases, and checks
each step; `Room` has tables and numbers, and checks nothing. `store` puts a room into storage. In
every room that a history leads to, an operation on what is stored has no fault, gives the answer
that the room gives, and leaves what the room leaves, stored (`apply_store`).

What it takes is `Fits`: a well-formed room whose positions are below eight from the moment a seat
is made. Before the start a position may be out of date, but it was the rank of a member among at
most eight when it was given, and that is all a byte of bits asks for.
-/

set_option autoImplicit false

namespace FrameSync.Room

open Wire

/-! ## Rows and words -/

/-- A row with one byte for each of `n` frames. -/
def row (n : Nat) (f : Nat → UInt8) : List UInt8 := (List.range n).map f

@[simp] theorem length_row (n : Nat) (f : Nat → UInt8) : (row n f).length = n := by
  simp [row]

theorem replicate_eq_row (n : Nat) : List.replicate n 0 = row n fun _ => 0 := by
  simp [row, List.map_const']

namespace Checked

variable {α β : Type} {n i : Nat}

/-- What follows an outcome goes on with it. -/
@[simp] theorem ok_bind (a : α) (f : α → Checked β) : ((.ok a : Checked α) >>= f) = f a := rfl

theorem read_of_getElem? {xs : List α} {x : α} (h : xs[i]? = some x) : read xs i = .ok x := by
  rw [read, h]

theorem write_of_lt {xs : List α} (h : i < xs.length) (x : α) : write xs i x = .ok (xs.set i x) :=
  if_pos h

/-- A frame of the room has a place in every row. -/
theorem read_row (h : i < n) (f : Nat → UInt8) : read (row n f) i = .ok (f i) := by
  refine read_of_getElem? ?_
  rw [row, List.getElem?_map, List.getElem?_range h, Option.map_some]

theorem write_row (h : i < n) (f : Nat → UInt8) (b : UInt8) :
    write (row n f) i b = .ok (row n fun j => if j = i then b else f j) := by
  rw [write_of_lt (by rwa [length_row])]
  refine congrArg _ (List.ext_getElem? fun j => ?_)
  simp only [row, List.getElem?_set, List.getElem?_map, List.length_map, List.length_range]
  by_cases hj : i = j
  · subst hj
    simp [h]
  · have hne : j ≠ i := Ne.symm hj
    by_cases hn : j < n <;> simp [hj, hne, hn]

theorem byte_of_lt (h : n < UInt8.size) : byte n = .ok (UInt8.ofNat n) := if_pos h

theorem word_of_lt (h : n < UInt32.size) : word n = .ok (UInt32.ofNat n) := if_pos h

/-- A position below eight has a bit. -/
theorem bit_of_lt (h : n < 8) : bit (UInt8.ofNat n) = .ok (1 <<< UInt8.ofNat n) := by
  refine if_pos ?_
  rw [UInt8.lt_iff_toNat_lt, UInt8.toNat_ofNat_of_lt' (by simp only [UInt8.size]; omega)]
  exact h

/-- A mask of at most eight bits is computed without loss. -/
theorem mask_of_le (h : n ≤ 8) : mask n = .ok (fullMask n) := by
  have hbyte : ∀ n ≤ 8, ((1 : UInt16) <<< UInt16.ofNat n - 1).toNat < UInt8.size ∧
      UInt8.ofNat ((1 : UInt16) <<< UInt16.ofNat n - 1).toNat = fullMask n := by decide
  rw [mask, if_pos (by omega), byte_of_lt (hbyte n h).1, (hbyte n h).2]

@[simp] theorem place_natCast (n : Nat) : place (n : Int) = .ok n := by
  rw [place, if_pos (Int.natCast_nonneg n), Int.toNat_natCast]

theorem after_natCast (h : n < UInt32.size) : after (n : Int) = .ok ((n + 1 : Nat) : Int) := by
  refine if_pos ?_
  simp only [UInt32.size] at h
  simp only [Checked.lastFrame]
  omega

/-- A step that succeeds on every entry of a list goes through the list. -/
theorem mapM_ok {γ : Type} {stored : α → β} {f : β → Checked γ} {g : α → γ} {xs : List α}
    (h : ∀ x ∈ xs, f (stored x) = .ok (g x)) : (xs.map stored).mapM f = .ok (xs.map g) := by
  induction xs with
  | nil => rfl
  | cons x rest ih =>
    rw [List.map_cons, List.mapM_cons, h x List.mem_cons_self, ok_bind,
      ih fun y hy => h y (List.mem_cons_of_mem x hy)]
    rfl

/-- A loop over the places of a list that changes each entry in turn changes all of them. -/
theorem foldlM_places {step : List α → Nat → Checked (List α)} {f : α → α} (before : List α)
    {after : List α} (h : ∀ done, ∀ x ∈ after, ∀ rest,
      step (done ++ x :: rest) done.length = .ok (done ++ f x :: rest)) :
    (List.range' before.length after.length).foldlM step (before ++ after) =
      .ok (before ++ after.map f) := by
  -- what has been passed is done, what is ahead is as it was
  induction after generalizing before with
  | nil => rfl
  | cons x rest ih =>
    have hnext := ih (before ++ [f x]) fun done y hy => h done y (List.mem_cons_of_mem x hy)
    rw [List.length_cons, List.range'_succ, List.foldlM_cons, h before x List.mem_cons_self rest,
      ok_bind, List.map_cons]
    simpa using hnext

end Checked

/-! ## Storing a room -/

/-- A seat, stored. -/
def Seat.store (frames : Nat) (s : Seat) : StoredSeat :=
  ⟨s.player, UInt8.ofNat s.position, row frames s.input, s.lastFrame⟩

/-- A room, stored. -/
def store (r : Room) : Stored :=
  { id := r.id
    phase := r.phase
    config := r.config
    members := r.members
    ready := r.ready
    seats := r.seats.map (Seat.store r.config.maxFrames)
    nextFrame := (r.nextFrame.map Int.ofNat).getD Stored.unstarted
    masks := row r.config.maxFrames r.mask
    startedAt := r.startedAt
    checks := r.checks }

theorem store_new (id : RoomId) (config : BattleConfig) : store (new id config) = .new id config := by
  rw [store, Stored.new, replicate_eq_row]
  rfl

/-- What holds of a room whose numbers fit their words: it is well formed, positions are those of
bits in a byte, and frames can be told apart in a word. -/
structure Fits (r : Room) : Prop where
  wellFormed : WellFormed r
  position_lt : ∀ s ∈ r.seats, s.position < 8
  frames_le : r.config.maxFrames ≤ UInt32.size

section Store

variable {r : Room} {player : PlayerId} {conn : ConnId} {now frame : Nat}

/-- The rank of a member is below the number of members. -/
theorem rankOf_lt (hmember : player ∈ r.members) : r.rankOf player < r.members.length := by
  -- the member itself is not below it
  refine List.length_filter_lt_length_iff_exists.mpr ⟨player, hmember, ?_⟩
  simp

theorem WellFormed.rankOf_lt (h : WellFormed r) (hmember : player ∈ r.members) :
    r.rankOf player < 8 :=
  Nat.lt_of_lt_of_le (Room.rankOf_lt hmember) (Nat.le_trans h.members_le h.places_le)

theorem WellFormed.length_seats_le (h : WellFormed r) : r.seats.length ≤ 8 := by
  have hsubperm := List.subperm_of_subset h.seats_nodup h.seats_subset
  have hle := hsubperm.length_le
  rw [List.length_map] at hle
  exact hle.trans (Nat.le_trans h.members_le h.places_le)

/-- The rank of a member is a byte. -/
theorem rankOf_store (h : WellFormed r) (hmember : player ∈ r.members) :
    (store r).rankOf player = .ok (UInt8.ofNat (r.rankOf player)) :=
  Checked.byte_of_lt (Nat.lt_trans (h.rankOf_lt hmember) (by decide))

theorem seat?_store (r : Room) (player : PlayerId) :
    (store r).seat? player = (r.seat? player).map (Seat.store r.config.maxFrames) :=
  List.find?_map ..

theorem toNat_position {n : Nat} (h : n < 8) : (UInt8.ofNat n).toNat = n :=
  UInt8.toNat_ofNat_of_lt' (by simp only [UInt8.size]; omega)

/-- A position is read off the stored seat as it is. -/
theorem positionOf_store (h : ∀ s ∈ r.seats, s.position < 8) (player : PlayerId) :
    ((store r).positionOf player).map UInt8.toNat = r.positionOf player := by
  rw [Stored.positionOf, seat?_store, positionOf, Option.map_map, Option.map_map]
  cases hseat : r.seat? player with
  | none => rfl
  | some s => exact congrArg some (toNat_position (h s (seat?_eq_some hseat).1))

/-! ## Phases -/

theorem moveTo_store {target : Phase} (h : r.phase.canMoveTo target = true) :
    (store r).moveTo target = .ok (store { r with phase := target }) := if_pos h

/-- A room can be closed from every phase but the last. -/
theorem close_store (r : Room) : (store r).close = .ok (store r.close) := by
  rw [Room.close]
  by_cases hclosed : r.phase = .closed
  · rw [if_pos hclosed]
    exact if_pos hclosed
  · have hmove : r.phase.canMoveTo .closed = true := by
      simp [Phase.canMoveTo, hclosed]
    rw [if_neg hclosed]
    refine (if_neg hclosed).trans ?_
    rw [moveTo_store hmove]
    rfl

theorem closeIf_store (r : Room) (ends : Bool) :
    (store r).closeIf ends = .ok (store (if ends then r.close else r)) := by
  rw [Stored.closeIf]
  cases ends with
  | false => rfl
  | true => exact close_store r

/-- Who takes the last place ends the joining, and nobody can have taken it before. -/
theorem fill_store (h : r.phase = .created) :
    (store r).fill = .ok (store { r with
      phase := if r.members.length = r.config.maxPlayers then .waitingReady else r.phase }) := by
  by_cases hfull : r.members.length = r.config.maxPlayers
  · have hmove : r.phase.canMoveTo .waitingReady = true := by
      rw [h]
      rfl
    rw [if_pos hfull]
    exact (if_pos hfull).trans (moveTo_store hmove)
  · rw [if_neg hfull]
    exact if_neg hfull

/-- What an operation answers and leaves, the room being stored. -/
def Stores (outcome : Checked (Answer × Stored)) (after : Answer × Room) : Prop :=
  outcome = .ok (after.1, store after.2)

theorem join_store (r : Room) (player : PlayerId) :
    Stores ((store r).join player) (r.apply (.join player)) := by
  rw [Stores, apply, Room.join]
  by_cases hclosed : r.phase = .closed
  · rw [if_pos hclosed]
    exact if_pos hclosed
  rw [if_neg hclosed]
  refine (if_neg hclosed).trans ?_
  by_cases hmember : r.isMember player = true
  · rw [if_pos hmember]
    exact if_pos hmember
  rw [if_neg hmember]
  refine (if_neg hmember).trans ?_
  by_cases hplace : (!r.phase.joinable || decide (r.config.maxPlayers ≤ r.members.length)) = true
  · rw [if_pos hplace]
    exact if_pos hplace
  rw [if_neg hplace]
  refine (if_neg hplace).trans ?_
  -- only a new room has a place to give, and from there it may go on to wait
  have hcreated : r.phase = .created := by
    simp only [Bool.or_eq_true, not_or, Phase.joinable] at hplace
    simpa using hplace.1
  have hfill := fill_store (r := { r with members := insertMember player r.members }) hcreated
  refine (congrArg (· >>= _) hfill).trans ?_
  simp only [Checked.ok_bind, decide_eq_true_eq]
  rfl

/-! ## The start -/

/-- Seats are sorted alike by bytes and by numbers. -/
theorem insertSeat_store {frames : Nat} {s : Seat} {seats : List Seat} (hs : s.position < 8)
    (hseats : ∀ t ∈ seats, t.position < 8) :
    Stored.insertSeat (s.store frames) (seats.map (Seat.store frames)) =
      (insertSeat s seats).map (Seat.store frames) := by
  induction seats with
  | nil => rfl
  | cons t rest ih =>
    have hlt : (s.store frames).position < (t.store frames).position ↔ s.position < t.position := by
      rw [UInt8.lt_iff_toNat_lt]
      show (UInt8.ofNat _).toNat < (UInt8.ofNat _).toNat ↔ _
      rw [toNat_position hs, toNat_position (hseats t List.mem_cons_self)]
    rw [List.map_cons, Stored.insertSeat, insertSeat]
    by_cases hpos : s.position < t.position
    · rw [if_pos hpos, if_pos (hlt.mpr hpos)]
      rfl
    · rw [if_neg hpos, if_neg (mt hlt.mp hpos),
        ih fun u hu => hseats u (List.mem_cons_of_mem t hu)]
      rfl

theorem foldl_insertSeat_store {frames : Nat} {seats : List Seat}
    (hseats : ∀ t ∈ seats, t.position < 8) (sorted : List Seat)
    (hsorted : ∀ t ∈ sorted, t.position < 8) :
    (seats.map (Seat.store frames)).foldl (fun sorted s => Stored.insertSeat s sorted)
        (sorted.map (Seat.store frames)) =
      (seats.foldl (fun sorted s => insertSeat s sorted) sorted).map (Seat.store frames) := by
  induction seats generalizing sorted with
  | nil => rfl
  | cons s rest ih =>
    have hs := hseats s List.mem_cons_self
    rw [List.map_cons, List.foldl_cons, List.foldl_cons, insertSeat_store hs hsorted]
    refine ih (fun t ht => hseats t (List.mem_cons_of_mem s ht)) _ ?_
    intro t ht
    rcases List.mem_cons.mp ((perm_insertSeat s sorted).mem_iff.mp ht) with rfl | ht
    · exact hs
    · exact hsorted t ht

theorem sortSeats_store {frames : Nat} {seats : List Seat} (h : ∀ t ∈ seats, t.position < 8) :
    Stored.sortSeats (seats.map (Seat.store frames)) =
      (sortSeats seats).map (Seat.store frames) :=
  foldl_insertSeat_store h [] fun _ ht => absurd ht List.not_mem_nil

/-- Every seat gets the rank of its player, in its place. -/
theorem rerank_store (h : WellFormed r) :
    (store r).rerank = .ok ((r.seats.map fun s => { s with position := r.rankOf s.player }).map
      (Seat.store r.config.maxFrames)) := by
  have hstep : ∀ done, ∀ t ∈ (store r).seats, ∀ rest,
      (store r).rerankAt (done ++ t :: rest) done.length =
        .ok (done ++ { t with position := UInt8.ofNat (r.rankOf t.player) } :: rest) := by
    intro done _ ht rest
    obtain ⟨s, hs, rfl⟩ := List.mem_map.mp ht
    have hmember := h.seats_subset s.player (List.mem_map_of_mem hs)
    have hread : Checked.read (done ++ s.store r.config.maxFrames :: rest) done.length =
        .ok (s.store r.config.maxFrames) := Checked.read_of_getElem? (by simp)
    rw [Stored.rerankAt, hread, Checked.ok_bind]
    refine (congrArg (· >>= _) (rankOf_store h hmember)).trans ?_
    rw [Checked.ok_bind, Checked.write_of_lt (by simp)]
    simp [Seat.store]
  have hloop := Checked.foldlM_places [] hstep
  rw [Stored.rerank, List.range_eq_range']
  refine hloop.trans (congrArg Except.ok ?_)
  show (r.seats.map _).map _ = _
  rw [List.map_map, List.map_map]
  rfl

/-- **A battle starts** from the phase before it, with positions that fit. -/
theorem start_store (h : WellFormed r) (hphase : r.phase = .waitingReady) (now : Nat) :
    (store r).start now = .ok ((r.start now).1, store (r.start now).2) := by
  have hranked : ∀ t ∈ r.seats.map (fun s => { s with position := r.rankOf s.player }),
      t.position < 8 := by
    intro t ht
    obtain ⟨s, hs, rfl⟩ := List.mem_map.mp ht
    exact h.rankOf_lt (h.seats_subset s.player (List.mem_map_of_mem hs))
  have hmove : r.phase.canMoveTo .running = true := by
    rw [hphase]
    rfl
  rw [Stored.start, rerank_store h, Checked.ok_bind, sortSeats_store hranked]
  refine (congrArg (· >>= _) (if_pos hmove)).trans ?_
  rfl

/-! ## Readiness -/

theorem enrol_store (h : WellFormed r) (hmember : player ∈ r.members) (conn : ConnId) :
    (store r).enrol player = .ok (store (r.enrol player conn)).seats := by
  have hseated : ((store r).seat? player).isSome = (r.seat? player).isSome := by
    rw [seat?_store, Option.isSome_map]
  show _ = Except.ok ((r.enrol player conn).seats.map _)
  rw [Stored.enrol, hseated, enrol]
  by_cases hseat : (r.seat? player).isSome = true
  · rw [if_pos hseat, if_pos hseat]
    rfl
  · rw [if_neg hseat, if_neg hseat, rankOf_store h hmember, Checked.ok_bind, replicate_eq_row,
      List.map_append]
    rfl

theorem startIfComplete_store (h : WellFormed r) (now : Nat) :
    (store r).startIfComplete now = .ok (if r.Complete then
        (some (r.start now).1, store (r.start now).2) else (none, store r)) := by
  by_cases hcomplete : r.Complete
  · rw [if_pos hcomplete]
    refine (if_pos hcomplete).trans ?_
    rw [start_store h hcomplete.1]
    rfl
  · rw [if_neg hcomplete]
    exact if_neg hcomplete

/-- Positions stay below eight when a member gets a seat, -/
theorem position_lt_enrol (h : Fits r) (hmember : player ∈ r.members) :
    ∀ s ∈ (r.enrol player conn).seats, s.position < 8 := by
  intro s hs
  rw [enrol] at hs
  by_cases hseat : (r.seat? player).isSome = true
  · rw [if_pos hseat] at hs
    exact h.position_lt s hs
  · rw [if_neg hseat] at hs
    rcases List.mem_append.mp hs with hs | hs
    · exact h.position_lt s hs
    · rw [List.mem_singleton.mp hs]
      exact h.wellFormed.rankOf_lt hmember

/-- and when the battle starts. -/
theorem position_lt_start (h : WellFormed r) (now : Nat) :
    ∀ s ∈ (r.start now).2.seats, s.position < 8 := by
  intro s hs
  obtain ⟨t, ht, rfl⟩ := mem_startSeats.mp hs
  exact h.rankOf_lt (h.seats_subset t.player (List.mem_map_of_mem ht))

theorem ready_store (h : Fits r) (player : PlayerId) (conn : ConnId) (now : Nat) :
    Stores ((store r).becomeReady player conn now) (r.apply (.ready player conn now)) := by
  rw [Stores, apply]
  by_cases hclosed : r.phase = .closed
  · rw [becomeReady, if_pos hclosed]
    exact if_pos hclosed
  refine (if_neg hclosed).trans ?_
  by_cases hmember : r.isMember player = true
  · have hin : player ∈ r.members := isMember_iff.mp hmember
    have hwell : WellFormed (r.enrol player conn) := wellFormed_enrol h.wellFormed hin
    have hpresent : ¬(!r.isMember player) = true := by simp [hmember]
    refine (if_neg hpresent).trans ?_
    rw [becomeReady_of_member hclosed hmember, enrol_store h.wellFormed hin conn, Checked.ok_bind]
    refine (congrArg (· >>= _) (startIfComplete_store hwell now)).trans ?_
    -- whichever room it comes to be, the player's position is read off as it is
    have hposition : ∀ {r' : Room}, (∀ s ∈ r'.seats, s.position < 8) →
        (((store r').positionOf player).getD 0).toNat = (r'.positionOf player).getD 0 := by
      intro r' hlt
      rw [← positionOf_store hlt]
      cases (store r').positionOf player <;> rfl
    by_cases hcomplete : (r.enrol player conn).Complete
    · simp only [if_pos hcomplete, Checked.ok_bind, hposition (position_lt_start hwell now)]
      rfl
    · simp only [if_neg hcomplete, Checked.ok_bind, hposition (position_lt_enrol h hin)]
      rfl
  · have habsent : (!r.isMember player) = true := by simpa using hmember
    rw [becomeReady, if_neg hclosed, if_pos habsent]
    exact if_pos habsent

theorem rebind_store (r : Room) (player : PlayerId) (conn : ConnId) :
    Stores (.ok ((store r).rebind player conn)) (r.apply (.rebind player conn)) := by
  refine congrArg Except.ok ?_
  simp only [apply, rebind]
  by_cases hready : r.isReady player = true
  · rw [if_pos hready]
    exact if_pos hready
  · rw [if_neg hready]
    exact if_neg hready

/-! ## Inputs -/

/-- An input is written in one place of the row. -/
theorem record_store {frames : Nat} (s : Seat) (i : FrameInput) :
    (s.record i).store frames =
      { s.store frames with
        inputs := row frames fun j => if j = i.frame.toNat then i.input else s.input j
        lastFrame := (s.record i).lastFrame } := by
  have hinput : (s.record i).input = fun j => if j = i.frame.toNat then i.input else s.input j := by
    funext j
    rw [Seat.input, Seat.record_inputs, Table.get?_insert_ite]
    by_cases hj : j = i.frame.toNat
    · rw [if_pos hj, if_pos hj]
      rfl
    · rw [if_neg hj, if_neg hj]
      rfl
  rw [Seat.store, hinput]
  rfl

/-- Where every player has one seat, to put a seat back is to change the player's seat. -/
theorem putSeat_store {frames : Nat} {seat : Seat} {seats : List Seat}
    (hnodup : (seats.map Seat.player).Nodup) (hseat : seat ∈ seats) (change : Seat → Seat)
    (hchange : ∀ s, (change s).player = s.player) :
    Stored.putSeat ((change seat).store frames) (seats.map (Seat.store frames)) =
      (seats.map fun s => if s.player = seat.player then change s else s).map
        (Seat.store frames) := by
  induction seats with
  | nil => rfl
  | cons s rest ih =>
    rw [List.map_cons, List.nodup_cons] at hnodup
    rw [List.map_cons, Stored.putSeat, List.map_cons, List.map_cons]
    by_cases hs : s.player = seat.player
    · -- the seat is this one, and none of the rest is the player's
      have hrest : ∀ t ∈ rest, ¬t.player = seat.player := by
        intro t ht hplayer
        exact hnodup.1 (hs.trans hplayer.symm ▸ List.mem_map_of_mem ht)
      have hfirst : s = seat := by
        refine (List.mem_cons.mp hseat).elim Eq.symm fun hin => ?_
        exact absurd rfl (hrest seat hin)
      have hsame : rest.map (fun t => if t.player = seat.player then change t else t) = rest :=
        (List.map_congr_left fun t ht => if_neg (hrest t ht)).trans (List.map_id _)
      rw [if_pos hs, hsame, hfirst]
      exact if_pos (hchange seat).symm
    · -- the seat is one of the rest
      have hin : seat ∈ rest :=
        (List.mem_cons.mp hseat).resolve_left fun heq => hs (congrArg Seat.player heq).symm
      have hother : ¬s.player = (change seat).player := fun hplayer =>
        hs (hplayer.trans (hchange seat))
      rw [if_neg hs, ← ih hnodup.2 hin]
      exact if_neg hother

/-- The masks once one has been written. -/
theorem mask_insert (r : Room) (frame : Nat) (mask : UInt8) :
    ({ r with masks := r.masks.insert frame mask } : Room).mask =
      fun f => if f = frame then mask else r.mask f := by
  funext f
  rw [Room.mask, Table.get?_insert_ite]
  by_cases hf : f = frame
  · rw [if_pos hf, if_pos hf]
    rfl
  · rw [if_neg hf, if_neg hf]
    rfl

/-- A room with other seats and masks is stored with these. -/
theorem store_with {seats : List Seat} {masks : Table Nat UInt8} {storedSeats : List StoredSeat}
    {storedMasks : List UInt8} (hseats : storedSeats = seats.map (Seat.store r.config.maxFrames))
    (hmasks : storedMasks = row r.config.maxFrames ({ r with masks } : Room).mask) :
    { store r with seats := storedSeats, masks := storedMasks } = store { r with seats, masks } := by
  rw [hseats, hmasks]
  rfl

theorem input_store (h : Fits r) (player : PlayerId) (i : FrameInput) :
    Stores ((store r).recordInput player i) (r.apply (.input player i)) := by
  have hsame : (store r).notRunningError = r.notRunningError := rfl
  rw [Stores, apply, recordInput, Stored.recordInput, hsame]
  cases hrunning : r.notRunningError with
  | some e => rfl
  | none =>
    by_cases hframe : r.config.maxFrames ≤ i.frame.toNat
    · simp only [if_pos hframe]
      exact if_pos hframe
    have hplace : i.frame.toNat < r.config.maxFrames := Nat.lt_of_not_le hframe
    simp only [if_neg hframe]
    refine (if_neg hframe).trans ?_
    rw [seat?_store]
    cases hseat : r.seat? player with
    | none => rfl
    | some seat =>
      obtain ⟨hin, rfl⟩ := seat?_eq_some hseat
      -- the place is in the seat's row and in that of the masks, and the position is a bit
      have hinputs : Checked.write (seat.store r.config.maxFrames).inputs i.frame.toNat i.input =
          .ok _ := Checked.write_row hplace seat.input i.input
      have hbit : Checked.bit (seat.store r.config.maxFrames).position = .ok seat.bit :=
        Checked.bit_of_lt (h.position_lt seat hin)
      have hread : Checked.read (store r).masks i.frame.toNat = .ok (r.mask i.frame.toNat) :=
        Checked.read_row hplace r.mask
      have hmasks : Checked.write (store r).masks i.frame.toNat (r.mask i.frame.toNat ||| seat.bit) =
          .ok _ := Checked.write_row hplace r.mask _
      simp only [Option.map_some, hinputs, hbit, hread, hmasks, Checked.ok_bind]
      have hseats : Stored.putSeat _ (store r).seats = _ :=
        putSeat_store h.wellFormed.seats_nodup hin (fun s => s.record i) fun _ => rfl
      rw [record_store] at hseats
      have hrow := congrArg (row r.config.maxFrames)
        (mask_insert r i.frame.toNat (r.mask i.frame.toNat ||| seat.bit)).symm
      exact congrArg (fun s : Stored => (.ok (Answer.recorded, s) : Checked _))
        (store_with hseats hrow)

/-! ## Ticks -/

theorem openMasks_store (h : WellFormed r) (frame : Nat) :
    (store r).openMasks frame = .ok (row r.config.maxFrames (r.opened frame).mask) := by
  rw [Stored.openMasks, opened]
  by_cases hzero : frame = 0
  · have hmask : Checked.mask (store r).seats.length = .ok (fullMask r.seats.length) := by
      rw [store, List.length_map]
      exact Checked.mask_of_le h.length_seats_le
    rw [if_pos hzero, if_pos hzero, hmask, Checked.ok_bind, mask_insert]
    exact Checked.write_row h.frames_pos r.mask _
  · rw [if_neg hzero, if_neg hzero]
    rfl

/-- **A frame is broadcast** without fault: it is a place in every row, and a word. -/
theorem broadcast_store (h : Fits r) (hnext : r.nextFrame = some frame)
    (hframe : frame < r.config.maxFrames) :
    (store r).broadcast frame = .ok (.ticked (some ⟨(r.opened frame).frameAt frame, r.recipients,
      decide (r.config.maxFrames ≤ frame + 1)⟩), store (r.advanceFrom frame)) := by
  have hword : frame < UInt32.size := Nat.lt_of_lt_of_le hframe h.frames_le
  have hinputs : (store r).seats.mapM (Stored.broadcastByte frame) =
      .ok (r.seats.map fun s => s.broadcastByte frame) := by
    refine Checked.mapM_ok fun s _ => ?_
    exact congrArg (· >>= _) (Checked.read_row hframe s.input)
  have hmembers : Checked.byte (store r).members.length = .ok (UInt8.ofNat r.members.length) := by
    refine Checked.byte_of_lt (Nat.lt_of_le_of_lt ?_ (show 8 < UInt8.size by decide))
    exact Nat.le_trans h.wellFormed.members_le h.wellFormed.places_le
  have hnextFrame : (store r).nextFrame = (frame : Int) := by
    rw [store, hnext]
    rfl
  have hmask := Checked.read_row hframe (r.opened frame).mask
  have hafter := Checked.after_natCast hword
  simp only [Stored.broadcast, openMasks_store h.wellFormed, hinputs, Checked.word_of_lt hword,
    hmembers, hmask, hnextFrame, hafter, Checked.place_natCast, Checked.ok_bind]
  -- the room goes on to the next frame, and is closed if there is none
  have hgone : { store r with nextFrame := ((frame + 1 : Nat) : Int)
                              masks := row r.config.maxFrames (r.opened frame).mask } =
      store { r.opened frame with nextFrame := some (frame + 1) } := by
    rw [opened]
    split <;> rfl
  have hclose := closeIf_store { r.opened frame with nextFrame := some (frame + 1) }
    (decide (r.config.maxFrames ≤ frame + 1))
  rw [← hgone] at hclose
  refine (congrArg (· >>= _) hclose).trans ?_
  have hrecipients : (r.advanceFrom frame).recipients = r.recipients := by
    simp [recipients]
  have hframeAt : (r.opened frame).frameAt frame = ⟨UInt32.ofNat frame,
      UInt8.ofNat r.members.length, (r.opened frame).mask frame,
      r.seats.map fun s => s.broadcastByte frame⟩ := by
    simp [frameAt]
  rw [hframeAt, ← hrecipients]
  simp only [Checked.ok_bind, decide_eq_true_eq, advanceFrom]
  rfl

theorem tick_store (h : Fits r) : Stores (store r).tick (r.apply .tick) := by
  rw [Stores, apply]
  by_cases hrunning : r.phase = .running
  · obtain ⟨frame, hnext, hframe⟩ := h.wellFormed.in_range hrunning
    have hplace : Checked.place (store r).nextFrame = .ok frame := by
      rw [store, hnext]
      exact Checked.place_natCast frame
    rw [tick_of_running hrunning hnext hframe, ← broadcast_store h hnext hframe]
    refine (if_neg (Classical.not_not.mpr hrunning)).trans ?_
    rw [hplace, Checked.ok_bind]
    exact if_neg (Nat.not_le.mpr hframe)
  · rw [tick_of_not_running hrunning]
    exact if_pos hrunning

/-! ## Integrity values and leaving -/

theorem check_store (h : Fits r) (player : PlayerId) (c : CheckRequest) :
    Stores (.ok ((store r).submitCheck player c)) (r.apply (.check player c)) := by
  have hsame : (store r).notRunningError = r.notRunningError := rfl
  have hposition := positionOf_store h.position_lt player
  have hlength : (store r).seats.length = r.seats.length := List.length_map _
  rw [Stores, apply, submitCheck, Stored.submitCheck, hsame, ← hposition, hlength]
  cases r.notRunningError with
  | some e => rfl
  | none =>
    by_cases hframe : r.config.maxFrames ≤ c.frame.toNat
    · simp only [if_pos hframe]
      exact congrArg Except.ok (if_pos hframe)
    simp only [if_neg hframe]
    refine (congrArg Except.ok (if_neg hframe)).trans ?_
    cases (store r).positionOf player with
    | none => rfl
    | some position =>
      by_cases hlt : (reportValue position.toNat c.value
          ((r.checks.get? c.frame.toNat).getD [])).length < r.seats.length
      · simp only [Option.map_some, if_pos hlt]
        exact congrArg Except.ok (if_pos hlt)
      · simp only [Option.map_some, if_neg hlt]
        exact congrArg Except.ok (if_neg hlt)

theorem disconnect_store (r : Room) (player : PlayerId) :
    Stores ((store r).disconnect player) (r.apply (.disconnect player)) := by
  rw [Stores, apply]
  refine (congrArg (· >>= _) (closeIf_store (r.withoutEntry player) _)).trans ?_
  rfl

/-! ## Every operation -/

/-- **An operation on what is stored** has no fault, and does what it does to the room. -/
theorem apply_store (h : Fits r) (op : Op) : Stores ((store r).apply op) (r.apply op) := by
  cases op with
  | join player => exact join_store r player
  | ready player conn now => exact ready_store h player conn now
  | rebind player conn => exact rebind_store r player conn
  | input player i => exact input_store h player i
  | tick => exact tick_store h
  | check player c => exact check_store h player c
  | disconnect player => exact disconnect_store r player
  | close => exact congrArg (· >>= _) (close_store r)

/-- Every operation leaves a room that fits. -/
theorem fits_apply (h : Fits r) (op : Op) : Fits (r.apply op).2 := by
  have hchange := change_apply h.wellFormed op
  refine ⟨wellFormed_apply h.wellFormed op, ?_, ?_⟩
  · generalize (r.apply op).1 = answer, (r.apply op).2 = r' at hchange ⊢
    cases hchange with
    | enrolled player conn now outcome _ hmember => exact position_lt_enrol h hmember
    | started player conn now outcome hmember hcomplete =>
      exact position_lt_start (wellFormed_enrol h.wellFormed hmember) now
    | recorded player i seat =>
      intro s hs
      obtain ⟨t, ht, rfl⟩ := List.mem_map.mp hs
      have hposition := h.position_lt t ht
      split
      · exact hposition
      · exact hposition
    | ticked frame =>
      rw [advanceFrom_seats]
      exact h.position_lt
    | leftLast player =>
      rw [close_seats]
      exact h.position_lt
    | closed =>
      rw [close_seats]
      exact h.position_lt
    | _ => exact h.position_lt
  · rw [hchange.config_eq]
    exact h.frames_le

theorem fits_new (id : RoomId) (config : BattleConfig) (hframes : config.maxFrames ≤ UInt32.size) :
    Fits (new id config) where
  wellFormed := wellFormed_new id config
  position_lt := fun _ hs => absurd hs List.not_mem_nil
  frames_le := Nat.max_le.mpr ⟨hframes, by decide⟩

/-- **A history on what is stored** has no fault, and goes as it goes for the room. -/
theorem run_store (h : Fits r) (ops : List Op) :
    (store r).run ops = .ok ((run r ops).1, store (run r ops).2) ∧ Fits (run r ops).2 := by
  induction ops generalizing r with
  | nil => exact ⟨rfl, h⟩
  | cons op rest ih =>
    obtain ⟨hrest, hfits⟩ := ih (fits_apply h op)
    refine ⟨?_, hfits⟩
    have hop : (store r).apply op = _ := apply_store h op
    rw [Stored.run, hop, Checked.ok_bind]
    simp only [hrest, Checked.ok_bind, run_cons]
    rfl

end Store

/-! ## Every history -/

/-- What keeps a stored room from a fault. There are at most eight seats and members; a position is
that of a bit in a byte; every row has one place for each frame, and the next frame of a running
room is one of them. -/
structure Stored.Sound (s : Stored) : Prop where
  seats_le : s.seats.length ≤ 8
  members_le : s.members.length ≤ 8
  position_lt : ∀ t ∈ s.seats, t.position < 8
  length_inputs : ∀ t ∈ s.seats, t.inputs.length = s.config.maxFrames
  length_masks : s.masks.length = s.config.maxFrames
  nextFrame : s.phase = .running → 0 ≤ s.nextFrame ∧ s.nextFrame < s.config.maxFrames

theorem Fits.sound {r : Room} (h : Fits r) : (store r).Sound where
  seats_le := (List.length_map _).trans_le h.wellFormed.length_seats_le
  members_le := Nat.le_trans h.wellFormed.members_le h.wellFormed.places_le
  position_lt := by
    intro t ht
    obtain ⟨s, hs, rfl⟩ := List.mem_map.mp ht
    have hposition := h.position_lt s hs
    rw [UInt8.lt_iff_toNat_lt]
    exact (toNat_position hposition).trans_lt hposition
  length_inputs := by
    intro t ht
    obtain ⟨s, -, rfl⟩ := List.mem_map.mp ht
    exact length_row _ _
  length_masks := length_row _ _
  nextFrame := by
    intro hrunning
    obtain ⟨frame, hnext, hframe⟩ := h.wellFormed.in_range hrunning
    rw [store, hnext]
    exact ⟨Int.natCast_nonneg frame, Int.ofNat_lt.mpr hframe⟩

/-- **A room never faults.** Whatever its settings are, as long as its frames can be told apart in a
word, and whatever is done to it: no place is looked up outside a row, no bit shifted out of its
word, no number cut off, no frame counted that is none, and no phase left for one that may not
follow. The answers are those of the room, and what is stored in the end is that room. -/
theorem storage_faultless (id : RoomId) (config : BattleConfig)
    (hframes : config.maxFrames ≤ UInt32.size) (ops : List Op) :
    (Stored.new id config).run ops =
        .ok ((run (new id config) ops).1, store (run (new id config) ops).2) ∧
      (store (run (new id config) ops).2).Sound := by
  obtain ⟨hrun, hfits⟩ := run_store (fits_new id config hframes) ops
  rw [store_new] at hrun
  exact ⟨hrun, hfits.sound⟩

/-- Settings that ask for more places than a mask has bits. -/
def crowdConfig : BattleConfig := { BattleConfig.standard with maxPlayers := 100, maxFrames := 2 }

/-- Nine want to join and eight play: the last of them is heard in frame 1, and not in a frame that
there is none of, and then the frames are used up. -/
def crowd : List Op :=
  joinAll 9 ++ readyAll 8 ++
    [.input ⟨7⟩ ⟨1, 0xFF⟩, .input ⟨7⟩ ⟨0xFFFFFFFF, 0xFF⟩, .tick, .tick, .tick]

/-- The masks have all bits and the highest one, and the room is closed after its two frames. -/
theorem storage_faultless_crowd :
    crowdConfig.maxFrames ≤ UInt32.size ∧
      ∃ s, (Stored.new ⟨10001⟩ crowdConfig).run crowd =
          .ok ((run (new ⟨10001⟩ crowdConfig) crowd).1, s) ∧
        s.Sound ∧ s.seats.map StoredSeat.position = [0, 1, 2, 3, 4, 5, 6, 7] ∧
        s.masks = [255, 128] ∧ s.nextFrame = 2 ∧ s.phase = .closed := by
  have hframes : crowdConfig.maxFrames ≤ UInt32.size := by decide
  obtain ⟨hrun, hsound⟩ := storage_faultless ⟨10001⟩ crowdConfig hframes crowd
  exact ⟨hframes, _, hrun, hsound, by decide +kernel, by decide +kernel, by decide +kernel,
    by decide +kernel⟩

end FrameSync.Room
