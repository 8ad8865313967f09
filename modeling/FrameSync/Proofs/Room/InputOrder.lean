import FrameSync.Proofs.Room.Broadcast
import Mathlib.Data.List.FinRange
import Mathlib.Data.Fintype.EquivFin

/-!
# The order of inputs

Inputs come over a channel that may deliver them late, twice, and in another order than they were
sent in. Which order it is makes no difference, as long as the inputs of one player for one frame
keep theirs: two inputs that go to different places commute, whether they are recorded or refused
(`apply_comm`), because recording changes nothing that a refusal depends on (`refusal?_recorded`),
and what the two write to (the byte of a seat and frame, the greatest frame of a seat, the mask of a
frame) is either kept apart or brought together by an operation that commutes.

Two lists of inputs that agree on every place can be brought into the same order by moving one input
after the other to the front (`run_move`), so they lead to the same room. A rearrangement is such a
pair of lists (`Rearranges.filter_eq`), and each input has the same answer in both (`answers_run`).
-/

set_option autoImplicit false

namespace FrameSync

namespace Room

open Wire

/-- An input as it arrives, and who sends it. -/
structure Arrival where
  player : PlayerId
  input : FrameInput
deriving DecidableEq, Repr

namespace Arrival

/-- The operation that an arrival asks for. -/
def op (a : Arrival) : Op := .input a.player a.input

/-- Where an input goes. -/
def place (a : Arrival) : PlayerId × UInt32 := (a.player, a.input.frame)

end Arrival

/-- The inputs of `l` stand in `l'` where `σ` says, and those for one place keep their order. -/
structure Rearranges (l l' : List Arrival) (σ : Fin l.length ≃ Fin l'.length) : Prop where
  same : ∀ i, l'.get (σ i) = l.get i
  inOrder : ∀ i j, i < j → (l.get i).place = (l.get j).place → σ i < σ j

variable {r : Room} {a b : Arrival} {l l' : List Arrival}

/-! ## One input -/

/-- Why an input is refused, if it is. -/
def refusal? (r : Room) (a : Arrival) : Option RoomError :=
  match r.recordInput a.player a.input with
  | .error e => some e
  | .ok _ => none

/-- The bit of a player's seat. -/
def bitOf (r : Room) (player : PlayerId) : UInt8 := (r.seat? player).elim 0 Seat.bit

/-- The room with an input recorded. -/
def recorded (r : Room) (a : Arrival) : Room :=
  { r with
    seats := r.seats.map fun s => if s.player = a.player then s.record a.input else s
    masks := r.masks.insert a.input.frame.toNat
      (r.mask a.input.frame.toNat ||| r.bitOf a.player) }

/-- **An input that is refused** leaves the room as it is. -/
theorem apply_refused {e : RoomError} (h : r.refusal? a = some e) : r.apply a.op = (.refused e, r) := by
  cases hrecord : r.recordInput a.player a.input with
  | error e' =>
    rw [refusal?, hrecord] at h
    simp only [Arrival.op, apply, hrecord, Option.some.inj h]
  | ok r' =>
    rw [refusal?, hrecord] at h
    cases h

/-- **An input that is not refused** is recorded. -/
theorem apply_recorded (h : r.refusal? a = none) : r.apply a.op = (.recorded, r.recorded a) := by
  cases hrecord : r.recordInput a.player a.input with
  | error e =>
    rw [refusal?, hrecord] at h
    cases h
  | ok r' =>
    obtain ⟨-, -, seat, hseat, rfl⟩ := recordInput_eq_ok hrecord
    simp only [Arrival.op, apply, hrecord, recorded, bitOf, hseat, Option.elim_some]

/-- The seat of a player is found where it was. -/
theorem seat?_recorded (r : Room) (a : Arrival) (p : PlayerId) :
    (r.recorded a).seat? p =
      (r.seat? p).map fun s => if s.player = a.player then s.record a.input else s :=
  Follows.seat?_record r a.player p a.input

/-- Recording moves no seat. -/
theorem bitOf_recorded (r : Room) (a : Arrival) (p : PlayerId) : (r.recorded a).bitOf p = r.bitOf p := by
  rw [bitOf, bitOf, seat?_recorded]
  cases r.seat? p with
  | none => rfl
  | some s =>
    rw [Option.map_some, Option.elim_some, Option.elim_some]
    split <;> rfl

theorem mask_recorded (r : Room) (a : Arrival) (frame : Nat) :
    (r.recorded a).mask frame =
      if a.input.frame.toNat = frame then r.mask frame ||| r.bitOf a.player else r.mask frame := by
  rw [mask, recorded, Table.get?_insert]
  by_cases hframe : a.input.frame.toNat = frame
  · rw [if_pos hframe, if_pos (congrArg Key.code hframe), Option.getD_some, hframe]
  · rw [if_neg hframe, if_neg fun e => hframe (Key.code_inj _ _ e), mask]

/-- **Recording changes nothing that a refusal depends on.** -/
theorem refusal?_recorded (r : Room) (a b : Arrival) :
    (r.recorded b).refusal? a = r.refusal? a := by
  have hrunning : (r.recorded b).notRunningError = r.notRunningError := rfl
  have hconfig : (r.recorded b).config = r.config := rfl
  unfold refusal? recordInput
  rw [hrunning, hconfig, seat?_recorded]
  cases r.notRunningError with
  | some e => rfl
  | none =>
    by_cases hframe : r.config.maxFrames ≤ a.input.frame.toNat
    · simp only [if_pos hframe]
    · simp only [if_neg hframe]
      cases r.seat? a.player <;> rfl

/-- So what is refused after an input would have been refused before it. -/
theorem refusal?_apply (r : Room) (a b : Arrival) :
    (r.apply b.op).2.refusal? a = r.refusal? a := by
  cases hb : r.refusal? b with
  | some e => rw [apply_refused hb]
  | none =>
    rw [apply_recorded hb]
    exact refusal?_recorded r a b

/-- **The answer to an input** is the same before and after another one. -/
theorem answer_apply (r : Room) (a b : Arrival) :
    ((r.apply b.op).2.apply a.op).1 = (r.apply a.op).1 := by
  have hsame := refusal?_apply r a b
  cases ha : r.refusal? a with
  | some e => rw [apply_refused ha, apply_refused (hsame.trans ha)]
  | none => rw [apply_recorded ha, apply_recorded (hsame.trans ha)]

/-! ## Two inputs -/

/-- The greatest frame of a seat after an input. -/
theorem Seat.lastFrame_record (s : Seat) (i : FrameInput) :
    (s.record i).lastFrame = some (s.lastFrame.elim i.frame fun f => max f i.frame) := by
  simp only [record]
  cases s.lastFrame <;> rfl

/-- A seat records inputs for two frames in either order. -/
theorem Seat.record_comm (s : Seat) {i j : FrameInput} (h : i.frame ≠ j.frame) :
    (s.record i).record j = (s.record j).record i := by
  have hframes : i.frame.toNat ≠ j.frame.toNat := fun e => h (UInt32.toNat_inj.mp e)
  have hinputs : ((s.record i).record j).inputs = ((s.record j).record i).inputs :=
    Table.insert_comm _ _ _ hframes
  have hlast : ((s.record i).record j).lastFrame = ((s.record j).record i).lastFrame := by
    simp only [lastFrame_record, Option.elim_some, Option.some.injEq]
    refine UInt32.toNat_inj.mp ?_
    cases s.lastFrame <;> simp only [Option.elim_none, Option.elim_some, UInt32.toNat_max] <;> omega
  exact congrArg₂ (fun inputs lastFrame => { s with inputs, lastFrame }) hinputs hlast

/-- A seat that records an input again is as it was. -/
theorem Seat.record_record (s : Seat) (i : FrameInput) : (s.record i).record i = s.record i := by
  have hinputs : ((s.record i).record i).inputs = (s.record i).inputs := Table.insert_insert _ _ _ _
  have hlast : ((s.record i).record i).lastFrame = (s.record i).lastFrame := by
    simp only [lastFrame_record, Option.elim_some, Option.some.injEq]
    refine UInt32.toNat_inj.mp ?_
    cases s.lastFrame <;> simp only [Option.elim_none, Option.elim_some, UInt32.toNat_max] <;> omega
  exact congrArg₂ (fun inputs lastFrame => { s with inputs, lastFrame }) hinputs hlast

/-- The seats after two recordings. -/
theorem seats_recorded_recorded (r : Room) (a b : Arrival) :
    ((r.recorded a).recorded b).seats = r.seats.map fun s =>
      if s.player = b.player then
        (if s.player = a.player then s.record a.input else s).record b.input
      else if s.player = a.player then s.record a.input else s := by
  simp only [recorded, List.map_map]
  refine List.map_congr_left fun s _ => ?_
  have hplayer : (if s.player = a.player then s.record a.input else s).player = s.player := by
    split <;> rfl
  simp only [Function.comp_apply, hplayer]

/-- The masks after two recordings. -/
theorem masks_recorded_recorded (r : Room) (a b : Arrival) :
    ((r.recorded a).recorded b).masks = (r.masks.insert a.input.frame.toNat
        (r.mask a.input.frame.toNat ||| r.bitOf a.player)).insert b.input.frame.toNat
      ((if a.input.frame.toNat = b.input.frame.toNat then
        r.mask b.input.frame.toNat ||| r.bitOf a.player else r.mask b.input.frame.toNat) |||
        r.bitOf b.player) := by
  rw [← mask_recorded, ← bitOf_recorded r a b.player]
  rfl

/-- **Recording for two places commutes.** -/
theorem recorded_comm (r : Room) (h : a.place ≠ b.place) :
    (r.recorded a).recorded b = (r.recorded b).recorded a := by
  have hseats : ((r.recorded a).recorded b).seats = ((r.recorded b).recorded a).seats := by
    rw [seats_recorded_recorded, seats_recorded_recorded]
    refine List.map_congr_left fun s _ => ?_
    by_cases ha : s.player = a.player
    · by_cases hb : s.player = b.player
      · -- one player, so two frames
        have hframes : a.input.frame ≠ b.input.frame := fun e =>
          h (Prod.ext (ha.symm.trans hb) e)
        rw [if_pos hb, if_pos ha, if_pos ha, if_pos hb]
        exact Seat.record_comm s hframes
      · rw [if_neg hb, if_pos ha, if_pos ha, if_neg hb]
    · rw [if_neg ha, if_neg ha]
  have hmasks : ((r.recorded a).recorded b).masks = ((r.recorded b).recorded a).masks := by
    rw [masks_recorded_recorded, masks_recorded_recorded]
    by_cases hframes : a.input.frame.toNat = b.input.frame.toNat
    · -- one frame, whose mask gets the bits of both
      rw [if_pos hframes, if_pos hframes.symm, hframes, Table.insert_insert, Table.insert_insert,
        UInt8.or_assoc, UInt8.or_comm (r.bitOf a.player), ← UInt8.or_assoc]
    · rw [if_neg hframes, if_neg fun e => hframes e.symm]
      exact Table.insert_comm _ _ _ hframes
  exact congrArg₂ (fun seats masks => { r with seats, masks }) hseats hmasks

/-- **Recording an input again** changes nothing. -/
theorem recorded_recorded (r : Room) (a : Arrival) : (r.recorded a).recorded a = r.recorded a := by
  have hseats : ((r.recorded a).recorded a).seats = (r.recorded a).seats := by
    rw [seats_recorded_recorded]
    refine List.map_congr_left fun s _ => ?_
    split
    · exact Seat.record_record s a.input
    · rfl
  have hmasks : ((r.recorded a).recorded a).masks = (r.recorded a).masks := by
    rw [masks_recorded_recorded, if_pos rfl, Table.insert_insert, UInt8.or_assoc, UInt8.or_self]
    rfl
  exact congrArg₂ (fun seats masks => { r with seats, masks }) hseats hmasks

/-- **Inputs for two places commute**, whether they are recorded or refused. -/
theorem apply_comm (r : Room) (h : a.place ≠ b.place) :
    ((r.apply a.op).2.apply b.op).2 = ((r.apply b.op).2.apply a.op).2 := by
  -- neither input has a say in whether the other is refused
  cases ha : r.refusal? a with
  | some e => rw [apply_refused ha, apply_refused ((refusal?_apply r a b).trans ha)]
  | none =>
    cases hb : r.refusal? b with
    | some e => rw [apply_refused hb, apply_refused ((refusal?_apply r b a).trans hb)]
    | none =>
      rw [apply_recorded ha, apply_recorded ((refusal?_recorded r b a).trans hb), apply_recorded hb,
        apply_recorded ((refusal?_recorded r a b).trans ha)]
      exact recorded_comm r h

/-- **An input that comes again** changes nothing, whether it is recorded or refused. -/
theorem apply_apply (r : Room) (a : Arrival) :
    ((r.apply a.op).2.apply a.op).2 = (r.apply a.op).2 := by
  cases ha : r.refusal? a with
  | some e => rw [apply_refused ha, apply_refused ha]
  | none =>
    rw [apply_recorded ha, apply_recorded ((refusal?_recorded r a a).trans ha)]
    exact recorded_recorded r a

/-! ## Lists of inputs -/

/-- The room after some inputs. -/
def afterInputs (r : Room) (l : List Arrival) : Room := (run r (l.map Arrival.op)).2

theorem afterInputs_cons (r : Room) (a : Arrival) (l : List Arrival) :
    r.afterInputs (a :: l) = (r.apply a.op).2.afterInputs l := rfl

theorem afterInputs_append (r : Room) (l l' : List Arrival) :
    r.afterInputs (l ++ l') = (r.afterInputs l).afterInputs l' := by
  simp only [afterInputs, List.map_append, run_append]

/-- **Each input of a list is answered** as if it came alone. -/
theorem answers_run (r : Room) (l : List Arrival) :
    (run r (l.map Arrival.op)).1 = l.map fun a => (r.apply a.op).1 := by
  induction l generalizing r with
  | nil => rfl
  | cons b rest ih =>
    rw [List.map_cons, run_cons, ih, List.map_cons]
    exact congrArg _ (List.map_congr_left fun a _ => answer_apply r a b)

/-- **An input can be moved to the front** past inputs for other places. -/
theorem afterInputs_move (r : Room) {before : List Arrival} (after : List Arrival)
    (h : ∀ b ∈ before, b.place ≠ a.place) :
    r.afterInputs (before ++ a :: after) = r.afterInputs (a :: (before ++ after)) := by
  induction before generalizing r with
  | nil => rfl
  | cons b rest ih =>
    -- it is at the front of the rest already, and has to pass the first input only
    have hrest := ih (r.apply b.op).2 fun c hc => h c (List.mem_cons_of_mem b hc)
    have hswap := apply_comm r (h b List.mem_cons_self)
    rw [List.cons_append, afterInputs_cons, hrest, afterInputs_cons, hswap]
    rfl

/-- **Lists that agree on every place** lead to the same room. -/
theorem afterInputs_eq (r : Room)
    (h : ∀ p, l.filter (fun a => a.place = p) = l'.filter fun a => a.place = p) :
    r.afterInputs l = r.afterInputs l' := by
  induction l generalizing r l' with
  | nil =>
    cases l' with
    | nil => rfl
    | cons a rest =>
      have hnone := h a.place
      simp at hnone
  | cons a rest ih =>
    -- the first input for its place is somewhere in the other list, and nothing before it goes there
    have hfirst := h a.place
    rw [List.filter_cons_of_pos (by simp)] at hfirst
    obtain ⟨before, after, rfl, hbefore, -, hafter⟩ := List.filter_eq_cons_iff.mp hfirst.symm
    have hothers : ∀ b ∈ before, b.place ≠ a.place := fun b hb => by simpa using hbefore b hb
    rw [afterInputs_move r after hothers, afterInputs_cons, afterInputs_cons]
    refine ih _ fun p => ?_
    by_cases hp : a.place = p
    · subst hp
      rw [List.filter_append, List.filter_eq_nil_iff.mpr hbefore, hafter, List.nil_append]
    · have hplace := h p
      rwa [List.filter_cons_of_neg (by simpa using hp), List.filter_append,
        List.filter_cons_of_neg (by simpa using hp), ← List.filter_append] at hplace

/-- **An input that comes again**, when it is the last one for its place, changes nothing. -/
theorem afterInputs_again (r : Room)
    (h : (l.filter fun b => b.place = a.place).getLast? = some a) :
    r.afterInputs (l ++ [a]) = r.afterInputs l := by
  -- what comes after its last arrival goes to other places
  obtain ⟨earlier, hfilter⟩ := List.getLast?_eq_some_iff.mp h
  obtain ⟨before, rest, rfl, -, hrest⟩ := List.filter_eq_append_iff.mp hfilter
  obtain ⟨between, after, rfl, -, -, hafter⟩ := List.filter_eq_cons_iff.mp hrest
  have hothers : ∀ b ∈ after, b.place ≠ a.place := fun b hb => by
    simpa using List.filter_eq_nil_iff.mp hafter b hb
  have hlast : ∀ tail, r.afterInputs (before ++ (between ++ a :: tail)) =
      ((r.afterInputs (before ++ between)).apply a.op).2.afterInputs tail := fun tail => by
    rw [← List.append_assoc, afterInputs_append, afterInputs_cons]
  have hmove := afterInputs_move ((r.afterInputs (before ++ between)).apply a.op).2 [] hothers
  rw [List.append_assoc, List.append_assoc, List.cons_append, hlast, hlast, hmove, afterInputs_cons,
    apply_apply, List.append_nil]

/-! ## Rearrangements -/

/-- Where the inputs for a place stand in a list. -/
def standings (l : List Arrival) (p : PlayerId × UInt32) : List (Fin l.length) :=
  (List.finRange l.length).filter fun i => (l.get i).place = p

theorem map_get_standings (l : List Arrival) (p : PlayerId × UInt32) :
    (standings l p).map l.get = l.filter fun a => a.place = p := by
  conv_rhs => rw [← List.map_get_finRange l, List.filter_map]
  rfl

theorem mem_standings {p : PlayerId × UInt32} {i : Fin l.length} :
    i ∈ standings l p ↔ (l.get i).place = p := by
  simp [standings]

theorem standings_ascending (l : List Arrival) (p : PlayerId × UInt32) :
    (standings l p).Pairwise (· < ·) :=
  (List.pairwise_lt_finRange l.length).filter _

/-- The inputs for a place stand where the rearrangement says, and in the same order. -/
theorem Rearranges.map_standings {σ : Fin l.length ≃ Fin l'.length} (h : Rearranges l l' σ)
    (p : PlayerId × UInt32) : (standings l p).map σ = standings l' p := by
  have hascending : ((standings l p).map σ).Pairwise (· < ·) := by
    refine List.pairwise_map.mpr ((standings_ascending l p).imp_of_mem fun hi hj hlt => ?_)
    exact h.inOrder _ _ hlt ((mem_standings.mp hi).trans (mem_standings.mp hj).symm)
  have hmem : ∀ j, j ∈ (standings l p).map σ ↔ j ∈ standings l' p := by
    intro j
    obtain ⟨i, rfl⟩ := σ.surjective j
    rw [List.mem_map_of_injective σ.injective, mem_standings, mem_standings, h.same]
  have hperm : ((standings l p).map σ).Perm (standings l' p) :=
    (List.perm_ext_iff_of_nodup (hascending.imp ne_of_lt)
      ((standings_ascending l' p).imp ne_of_lt)).mpr hmem
  exact hperm.eq_of_pairwise (fun i j _ _ hij hji => absurd hij (lt_asymm hji)) hascending
    (standings_ascending l' p)

/-- **A rearrangement agrees on every place.** -/
theorem Rearranges.filter_eq {σ : Fin l.length ≃ Fin l'.length} (h : Rearranges l l' σ)
    (p : PlayerId × UInt32) :
    l.filter (fun a => a.place = p) = l'.filter fun a => a.place = p := by
  rw [← map_get_standings l, ← map_get_standings l', ← h.map_standings, List.map_map]
  exact List.map_congr_left fun i _ => (h.same i).symm

/-- **The order of inputs makes no difference.** Let `l'` be a rearrangement of `l` in which the
inputs of one player for one frame keep their order. Whatever the room, both lists lead to the same
room, each input has the same answer in both, and whatever is done later, frames included, is the
same. Nor does it make a difference when an input arrives again, as long as no other has come for
its place. -/
theorem input_order_irrelevant (r : Room) (l l' : List Arrival) (σ : Fin l.length ≃ Fin l'.length)
    (h : Rearranges l l' σ) :
    (run r (l'.map Arrival.op)).2 = (run r (l.map Arrival.op)).2 ∧
      (∀ i, (run r (l'.map Arrival.op)).1[(σ i : Nat)]? = (run r (l.map Arrival.op)).1[(i : Nat)]?) ∧
      (∀ later, history (run r (l'.map Arrival.op)).2 later =
        history (run r (l.map Arrival.op)).2 later) ∧
      ∀ a, (l.filter fun b => b.place = a.place).getLast? = some a →
        (run r ((l ++ [a]).map Arrival.op)).2 = (run r (l.map Arrival.op)).2 := by
  have hroom : (run r (l'.map Arrival.op)).2 = (run r (l.map Arrival.op)).2 :=
    (afterInputs_eq r h.filter_eq).symm
  refine ⟨hroom, fun i => ?_, fun later => by rw [hroom], fun a => afterInputs_again r⟩
  rw [answers_run, answers_run, List.getElem?_map, List.getElem?_map]
  have hsame : l'[(σ i : Nat)]? = l[(i : Nat)]? := by
    rw [List.getElem?_eq_getElem (σ i).isLt, List.getElem?_eq_getElem i.isLt]
    exact congrArg some (h.same i)
  rw [hsame]

/-- The first frame of a battle of two. -/
def duel : Room :=
  (run (new ⟨1⟩ .standard) [.join ⟨9⟩, .join ⟨7⟩, .ready ⟨9⟩ ⟨1⟩ 0, .ready ⟨7⟩ ⟨2⟩ 0, .tick]).2

/-- One player changes its input, the other sends one, and so does somebody without a seat. -/
def asSent : List Arrival :=
  [⟨⟨9⟩, ⟨1, 0x30⟩⟩, ⟨⟨9⟩, ⟨1, 0x45⟩⟩, ⟨⟨7⟩, ⟨1, 0x12⟩⟩, ⟨⟨8⟩, ⟨1, 0x11⟩⟩]

/-- The same from the last to the first, but for the two of one player. -/
def crossed : List Arrival :=
  [⟨⟨8⟩, ⟨1, 0x11⟩⟩, ⟨⟨7⟩, ⟨1, 0x12⟩⟩, ⟨⟨9⟩, ⟨1, 0x30⟩⟩, ⟨⟨9⟩, ⟨1, 0x45⟩⟩]

/-- Where they stand then. -/
def crossing : Fin 4 ≃ Fin 4 where
  toFun := fun i => [2, 3, 1, 0].get i
  invFun := fun i => [3, 2, 0, 1].get i
  left_inv := by decide
  right_inv := by decide

theorem input_order_irrelevant_crossed :
    Rearranges asSent crossed crossing ∧
      (run duel (crossed.map Arrival.op)).2 = (run duel (asSent.map Arrival.op)).2 ∧
      (run duel (crossed.map Arrival.op)).1 =
        [.refused (.notReady ⟨8⟩ ⟨1⟩), .recorded, .recorded, .recorded] ∧
      (run duel (asSent.map Arrival.op)).1 =
        [.recorded, .recorded, .recorded, .refused (.notReady ⟨8⟩ ⟨1⟩)] ∧
      (run duel ((asSent ++ [Arrival.mk ⟨9⟩ ⟨1, 0x45⟩]).map Arrival.op)).2 =
        (run duel (asSent.map Arrival.op)).2 := by
  have h : Rearranges asSent crossed crossing := ⟨by decide, by decide⟩
  obtain ⟨hroom, -, -, hagain⟩ := input_order_irrelevant duel asSent crossed crossing h
  exact ⟨h, hroom, by decide, by decide, hagain _ (by decide)⟩

end Room

end FrameSync
