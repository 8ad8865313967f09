import FrameSync.Proofs.Room.Broadcast
import Mathlib.Data.List.DropRight

/-!
# The verdict on a frame

A history of a room says which integrity values have been reported for a frame since the last
verdict on it, and which of them a player reported last (`latestValue`). `verdictOn` is what these
values call for: nothing as long as a member has not reported, and otherwise whether they agree.

The room keeps values by position instead, and counts them. `Awaits` ties the two together: during
the battle, the value that waits at the position of a player is the latest one of that player. It is
kept by every operation, so in whatever order members report, report again, leave and come back, a
report is answered by the verdict that the latest values call for (`judged_by_latest`).
-/

set_option autoImplicit false

namespace FrameSync.Room

open Wire

/-! ## Reading a history -/

/-- Is the entry of a history the verdict on a frame? -/
def settles (frame : Nat) : Op × Answer → Bool
  | (_, .checked (some verdict)) => verdict.reply.frame.toNat = frame
  | _ => false

/-- The value that an operation reported for a frame of a player. -/
def reportedValue (player : PlayerId) (frame : Nat) : Op × Answer → Option Int64
  | (.check p c, .checked _) =>
    if p = player ∧ c.frame.toNat = frame then some c.value else none
  | _ => none

/-- What has happened since the last verdict on a frame; everything, if there was none. -/
def sinceVerdict (frame : Nat) (h : List (Op × Answer)) : List (Op × Answer) :=
  h.rtakeWhile fun e => !settles frame e

/-- The value that a player last reported for a frame since the last verdict on it. -/
def latestValue (player : PlayerId) (frame : Nat) (h : List (Op × Answer)) : Option Int64 :=
  ((sinceVerdict frame h).filterMap (reportedValue player frame)).getLast?

/-- The verdict that the latest values of the members call for. -/
def verdictOn (members : List PlayerId) (frame : UInt32) (latest : PlayerId → Option Int64) :
    Option Verdict :=
  if ∀ p ∈ members, (latest p).isSome = true then
    let agreed : Prop := ∀ p ∈ members, ∀ q ∈ members, latest p = latest q
    some ⟨⟨if agreed then .ok else .checkDiverged, frame⟩, members⟩
  else none

/-- **The latest value after one more operation:** none after a verdict, else what the operation
reported, else the one before. -/
theorem latestValue_snoc (player : PlayerId) (frame : Nat) (h : List (Op × Answer))
    (e : Op × Answer) :
    latestValue player frame (h ++ [e]) =
      if settles frame e then none
      else (reportedValue player frame e).or (latestValue player frame h) := by
  rw [latestValue, sinceVerdict, List.rtakeWhile_concat]
  by_cases hsettles : settles frame e = true
  · simp [hsettles]
  · rw [Bool.not_eq_true] at hsettles
    simp only [hsettles, Bool.not_false, if_true, Bool.false_eq_true, if_false,
      List.filterMap_append]
    cases hreported : reportedValue player frame e with
    | none => simp [hreported, latestValue, sinceVerdict]
    | some value => simp [hreported]

/-! ## Values by position -/

section Values

variable {values : List (Nat × Int64)} {n : Nat}

/-- A look at a list is a look at its first entry or at the rest. -/
theorem lookup_cons_ite (e : Nat × Int64) (rest : List (Nat × Int64)) (i : Nat) :
    (e :: rest).lookup i = if i = e.1 then some e.2 else rest.lookup i := by
  rw [List.lookup_cons]
  by_cases hi : i = e.1
  · rw [if_pos hi, beq_iff_eq.mpr hi]
  · rw [if_neg hi, beq_eq_false_iff_ne.mpr hi]

/-- **A report** replaces the value at its position. -/
theorem lookup_reportValue (position : Nat) (value : Int64) (values : List (Nat × Int64)) (i : Nat) :
    (reportValue position value values).lookup i =
      if i = position then some value else values.lookup i := by
  induction values with
  | nil => exact lookup_cons_ite (position, value) [] i
  | cons e rest ih =>
    rw [reportValue]
    by_cases he : e.1 = position
    · rw [if_pos he, lookup_cons_ite, lookup_cons_ite, he]
      by_cases hi : i = position
      · rw [if_pos hi, if_pos hi]
      · rw [if_neg hi, if_neg hi, if_neg hi]
    · rw [if_neg he, lookup_cons_ite, lookup_cons_ite, ih]
      by_cases hi : i = position
      · have hne : i ≠ e.1 := fun heq => he (heq.symm.trans hi)
        rw [if_neg hne, if_pos hi, if_pos hi]
      · rw [if_neg hi, if_neg hi]

theorem lookup_isSome_iff_mem {i : Nat} :
    (values.lookup i).isSome = true ↔ i ∈ values.map Prod.fst := by
  rw [List.lookup_isSome_iff, List.mem_map]
  constructor
  · rintro ⟨e, he, hi⟩
    exact ⟨e, he, (beq_iff_eq.mp hi).symm⟩
  · rintro ⟨e, he, hi⟩
    exact ⟨e, he, beq_iff_eq.mpr hi.symm⟩

/-- As each position has one value, the value in the list is the one that is looked up. -/
theorem lookup_of_mem (hnodup : (values.map Prod.fst).Nodup) {e : Nat × Int64} (he : e ∈ values) :
    values.lookup e.1 = some e.2 := by
  obtain ⟨before, after, rfl⟩ := List.append_of_mem he
  rw [List.map_append, List.nodup_append'] at hnodup
  refine List.lookup_eq_some_iff.mpr ⟨before, after, rfl, fun p hp => bne_iff_ne.mpr fun heq => ?_⟩
  exact hnodup.2.2 (List.mem_map_of_mem hp) (heq ▸ List.mem_cons_self)

/-- **Counting the values tells** whether every position has one. -/
theorem le_length_iff (hnodup : (values.map Prod.fst).Nodup)
    (hplaces : ∀ i ∈ values.map Prod.fst, i < n) :
    n ≤ values.length ↔ ∀ i < n, (values.lookup i).isSome = true := by
  simp only [lookup_isSome_iff_mem]
  constructor
  · intro hlength i hi
    have hsubset : values.map Prod.fst ⊆ List.range n := fun j hj => List.mem_range.mpr (hplaces j hj)
    have hperm : (values.map Prod.fst).Perm (List.range n) :=
      (List.subperm_of_subset hnodup hsubset).perm_of_length_le (by simpa using hlength)
    exact hperm.mem_iff.mpr (List.mem_range.mpr hi)
  · intro hall
    have hsubset : List.range n ⊆ values.map Prod.fst := fun j hj => hall j (List.mem_range.mp hj)
    simpa using (List.subperm_of_subset List.nodup_range hsubset).length_le

theorem agree_iff_forall : agree values = true ↔ ∀ x ∈ values, ∀ y ∈ values, x.2 = y.2 := by
  cases values with
  | nil => simp [agree]
  | cons e rest =>
    simp only [agree, List.all_eq_true, decide_eq_true_eq]
    constructor
    · intro hfirst
      have hsame : ∀ x ∈ e :: rest, x.2 = e.2 := by
        intro x hx
        rcases List.mem_cons.mp hx with rfl | hx
        · rfl
        · exact hfirst x hx
      exact fun x hx y hy => (hsame x hx).trans (hsame y hy).symm
    · exact fun hall x hx => hall x (List.mem_cons_of_mem e hx) e List.mem_cons_self

/-- When every position has a value, the list agrees as the positions do. -/
theorem agree_iff_lookup (hnodup : (values.map Prod.fst).Nodup)
    (hplaces : ∀ i ∈ values.map Prod.fst, i < n)
    (hall : ∀ i < n, (values.lookup i).isSome = true) :
    agree values = true ↔ ∀ i < n, ∀ j < n, values.lookup i = values.lookup j := by
  rw [agree_iff_forall]
  constructor
  · intro hagree i hi j hj
    obtain ⟨x, hx, rfl⟩ := List.mem_map.mp (lookup_isSome_iff_mem.mp (hall i hi))
    obtain ⟨y, hy, rfl⟩ := List.mem_map.mp (lookup_isSome_iff_mem.mp (hall j hj))
    rw [lookup_of_mem hnodup hx, lookup_of_mem hnodup hy, hagree x hx y hy]
  · intro hsame x hx y hy
    have hlookup := hsame x.1 (hplaces _ (List.mem_map_of_mem hx)) y.1
      (hplaces _ (List.mem_map_of_mem hy))
    rw [lookup_of_mem hnodup hx, lookup_of_mem hnodup hy] at hlookup
    exact Option.some.inj hlookup

end Values

/-! ## Positions -/

section Positions

variable {r r' : Room} {player p : PlayerId} {conn : ConnId} {i : Nat}

/-- Once the battle has started, the position of a player is its rank among the members. -/
theorem positionOf_eq_some_iff (h : WellFormed r) (hstarted : r.nextFrame ≠ none) :
    r.positionOf p = some i ↔ r.members[i]? = some p := by
  rw [positionOf, Option.map_eq_some_iff]
  constructor
  · rintro ⟨s, hs, rfl⟩
    obtain ⟨hmem, rfl⟩ := seat?_eq_some hs
    obtain ⟨k, hk⟩ := List.mem_iff_getElem?.mp hmem
    obtain ⟨hposition, hmember⟩ := h.seat_at hstarted hk
    rwa [hposition]
  · intro hmember
    rw [← (h.seats_ordered hstarted).1, List.getElem?_map, Option.map_eq_some_iff] at hmember
    obtain ⟨s, hs, rfl⟩ := hmember
    exact ⟨s, seat?_of_mem h.seats_nodup (List.mem_of_getElem? hs), (h.seat_at hstarted hs).1⟩

theorem positionOf_lt (h : WellFormed r) (hstarted : r.nextFrame ≠ none)
    (hp : r.positionOf p = some i) : i < r.config.maxPlayers := by
  obtain ⟨hi, -⟩ := List.getElem?_eq_some_iff.mp ((positionOf_eq_some_iff h hstarted).mp hp)
  exact Nat.lt_of_lt_of_le hi h.members_le

theorem positionOf_isSome_iff (h : WellFormed r) (hstarted : r.nextFrame ≠ none) :
    (r.positionOf p).isSome = true ↔ p ∈ r.members := by
  rw [positionOf, Option.isSome_map, seat?_isSome_iff, (h.seats_ordered hstarted).1]

/-- No two players have one position. -/
theorem positionOf_inj (h : WellFormed r) (hstarted : r.nextFrame ≠ none)
    (hplayer : r.positionOf player = some i) : r.positionOf p = some i ↔ p = player := by
  rw [positionOf_eq_some_iff h hstarted] at hplayer ⊢
  rw [hplayer, Option.some.injEq, eq_comm]

/-- During the battle, what holds of the positions holds of the members. -/
theorem forall_members_iff (h : WellFormed r) (hrunning : r.phase = .running) (P : Option Nat → Prop) :
    (∀ p ∈ r.members, P (r.positionOf p)) ↔ ∀ i < r.config.maxPlayers, P (some i) := by
  have hstarted := h.nextFrame_ne_none hrunning
  have hfull := h.members_full (Or.inr hrunning)
  constructor
  · intro hall i hi
    have hlt : i < r.members.length := by
      rwa [hfull]
    have hmember := List.getElem?_eq_getElem hlt
    have hposition := (positionOf_eq_some_iff h hstarted).mpr hmember
    have hp := hall _ (List.mem_of_getElem? hmember)
    rwa [hposition] at hp
  · intro hall p hp
    obtain ⟨i, hi⟩ := Option.isSome_iff_exists.mp ((positionOf_isSome_iff h hstarted).mpr hp)
    rw [hi]
    exact hall i (positionOf_lt h hstarted hi)

/-- An enrolment during the battle moves no position. -/
theorem positionOf_enrol (h : WellFormed r) (hstarted : r.nextFrame ≠ none)
    (hmember : player ∈ r.members) : (r.enrol player conn).positionOf p = r.positionOf p := by
  have hseats : (r.enrol player conn).seats = r.seats := by
    refine if_pos (seat?_isSome_iff.mpr ?_)
    rw [(h.seats_ordered hstarted).1]
    exact hmember
  rw [positionOf, positionOf, seat?, seat?, hseats]

end Positions

/-! ## The room follows the history -/

/-- The values that wait for the rest of a frame. -/
def waiting (r : Room) (frame : Nat) : List (Nat × Int64) := (r.checks.get? frame).getD []

/-- What the waiting values of a room have to do with the history that led to it. Before the battle
nothing has been reported. During it, what waits at the position of a player is the player's latest
value, and values wait at positions that exist. -/
structure Awaits (h : List (Op × Answer)) (r : Room) : Prop where
  unreported : r.nextFrame = none → ∀ player frame, latestValue player frame h = none
  latest : r.phase = .running → ∀ player frame,
    latestValue player frame h = (r.positionOf player).bind fun i => (r.waiting frame).lookup i
  places : r.phase = .running → ∀ frame, ∀ i ∈ (r.waiting frame).map Prod.fst,
    i < r.config.maxPlayers

theorem nodup_waiting {r : Room} (h : WellFormed r) (frame : Nat) :
    ((r.waiting frame).map Prod.fst).Nodup := by
  rw [waiting]
  cases hget : r.checks.get? frame with
  | none => exact List.nodup_nil
  | some values => exact (h.checks_pending frame values hget).2.2.2.2

/-- Nothing waits in a room that is not running. -/
theorem waiting_of_not_running {r : Room} (h : WellFormed r) (hnot : r.phase ≠ .running)
    (frame : Nat) : r.waiting frame = [] := by
  rw [waiting]
  cases hget : r.checks.get? frame with
  | none => rfl
  | some values => exact absurd (h.checks_pending frame values hget).1 hnot

namespace Awaits

variable {h : List (Op × Answer)} {r r' : Room} {op : Op} {answer : Answer}
  {player : PlayerId} {conn : ConnId} {now : Nat} {c : CheckRequest}

theorem new (id : RoomId) (c : BattleConfig) : Awaits [] (new id c) where
  unreported := fun _ _ _ => rfl
  latest := fun hrunning => by cases hrunning
  places := fun hrunning => by cases hrunning

/-- An answer that is none of a report adds nothing to the history. -/
theorem latestValue_snoc_of_quiet (hquiet : ∀ verdict, answer ≠ .checked verdict)
    (player : PlayerId) (frame : Nat) :
    latestValue player frame (h ++ [(op, answer)]) = latestValue player frame h := by
  have hsettles : settles frame (op, answer) = false := by
    cases answer with
    | checked verdict => exact absurd rfl (hquiet verdict)
    | _ => rfl
  have hreported : reportedValue player frame (op, answer) = none := by
    cases answer with
    | checked verdict => exact absurd rfl (hquiet verdict)
    | _ => cases op <;> rfl
  rw [latestValue_snoc, hsettles, hreported]
  rfl

/-- An operation that is no report, and after which the battle goes on with the seats and the values
it had, or does not go on. -/
theorem of_quiet (ha : Awaits h r) (hquiet : ∀ verdict, answer ≠ .checked verdict)
    (hnext : r'.nextFrame = none → r.nextFrame = none)
    (hgoes : r'.phase = .running → r.phase = .running ∧ r'.config = r.config ∧
      r'.checks = r.checks ∧ ∀ p, r'.positionOf p = r.positionOf p) :
    Awaits (h ++ [(op, answer)]) r' where
  unreported := fun hnone player frame => by
    rw [latestValue_snoc_of_quiet hquiet]
    exact ha.unreported (hnext hnone) player frame
  latest := fun hrunning player frame => by
    obtain ⟨hrunning', -, hchecks, hposition⟩ := hgoes hrunning
    rw [latestValue_snoc_of_quiet hquiet, ha.latest hrunning', hposition, waiting, waiting, hchecks]
  places := fun hrunning frame => by
    obtain ⟨hrunning', hconfig, hchecks, -⟩ := hgoes hrunning
    rw [hconfig, waiting, hchecks]
    exact ha.places hrunning' frame

/-- The battle starts without reports. -/
theorem started (ha : Awaits h r) (hr : WellFormed r) (hcomplete : (r.enrol player conn).Complete)
    (hquiet : ∀ verdict, answer ≠ .checked verdict) :
    Awaits (h ++ [(op, answer)]) ((r.enrol player conn).start now).2 := by
  have hphase : r.phase = .waitingReady := hcomplete.1
  have hnone : ∀ frame, ((r.enrol player conn).start now).2.waiting frame = [] :=
    fun frame => show r.waiting frame = [] from
      waiting_of_not_running hr (by rw [hphase]; decide) frame
  refine ⟨fun hnext => absurd hnext (Option.some_ne_none 0), fun _ player frame => ?_,
    fun _ frame i hi => ?_⟩
  · rw [latestValue_snoc_of_quiet hquiet, ha.unreported (hr.not_started (Or.inr hphase)), hnone]
    exact (Option.bind_fun_none _).symm
  · rw [hnone] at hi
    exact absurd hi List.not_mem_nil

/-- With one more report the values are still at positions that exist, -/
theorem places_report (ha : Awaits h r) (hr : WellFormed r) (hrunning : r.phase = .running)
    {position : Nat} (hposition : r.positionOf player = some position) (value : Int64)
    (frame : Nat) : ∀ i ∈ (reportValue position value (r.waiting frame)).map Prod.fst,
      i < r.config.maxPlayers := by
  intro i hi
  rw [map_fst_reportValue] at hi
  split at hi
  · exact ha.places hrunning frame i hi
  · rcases List.mem_append.mp hi with hi | hi
    · exact ha.places hrunning frame i hi
    · rw [List.mem_singleton.mp hi]
      exact positionOf_lt hr (hr.nextFrame_ne_none hrunning) hposition

/-- and they are the latest ones, this one counted. -/
theorem lookup_report (ha : Awaits h r) (hr : WellFormed r) (hrunning : r.phase = .running)
    {position : Nat} (hposition : r.positionOf player = some position) (value : Int64)
    (frame : Nat) (p : PlayerId) :
    ((r.positionOf p).bind fun i => (reportValue position value (r.waiting frame)).lookup i) =
      if p = player then some value else latestValue p frame h := by
  have hstarted := hr.nextFrame_ne_none hrunning
  simp only [lookup_reportValue]
  by_cases hp : p = player
  · rw [if_pos hp, hp, hposition, Option.bind_some, if_pos rfl]
  · rw [if_neg hp, ha.latest hrunning]
    refine Option.bind_congr fun i hi => if_neg ?_
    rintro rfl
    exact hp ((positionOf_inj hr hstarted hposition).mp hi)

/-- **A report that does not settle its frame** waits with the others. -/
theorem reported (ha : Awaits h r) (hr : WellFormed r) (hrunning : r.phase = .running)
    {position : Nat} (hposition : r.positionOf player = some position) :
    Awaits (h ++ [(.check player c, .checked none)])
      { r with
        checks := r.checks.insert c.frame.toNat
          (reportValue position c.value (r.waiting c.frame.toNat)) } := by
  have hstarted := hr.nextFrame_ne_none hrunning
  refine ⟨fun hnext => absurd hnext hstarted, fun _ p frame => ?_, fun _ frame i hi => ?_⟩
  · rw [latestValue_snoc]
    show _ = (r.positionOf p).bind fun i =>
      (((r.checks.insert c.frame.toNat _).get? frame).getD []).lookup i
    rw [Table.get?_insert_ite]
    by_cases hframe : frame = c.frame.toNat
    · subst hframe
      simp only [if_true, Option.getD_some, ha.lookup_report hr hrunning hposition, settles,
        reportedValue, and_true, Bool.false_eq_true, if_false, eq_comm (a := player)]
      split <;> rfl
    · simp only [if_neg hframe, settles, reportedValue, Ne.symm hframe, and_false, if_false,
        Bool.false_eq_true, Option.none_or]
      exact ha.latest hrunning p frame
  · change i ∈ (((r.checks.insert c.frame.toNat _).get? frame).getD []).map Prod.fst at hi
    rw [Table.get?_insert_ite] at hi
    split at hi
    · exact ha.places_report hr hrunning hposition _ _ i hi
    · exact ha.places hrunning _ i hi

/-- **A verdict** leaves nothing waiting for its frame. -/
theorem settled (ha : Awaits h r) (hr : WellFormed r) (hrunning : r.phase = .running)
    {verdict : Verdict} (hframe : verdict.reply.frame = c.frame) :
    Awaits (h ++ [(.check player c, .checked (some verdict))])
      { r with checks := r.checks.erase c.frame.toNat } := by
  have hstarted := hr.nextFrame_ne_none hrunning
  refine ⟨fun hnext => absurd hnext hstarted, fun _ p frame => ?_, fun _ frame i hi => ?_⟩
  · rw [latestValue_snoc, ha.latest hrunning]
    show _ = (r.positionOf p).bind fun i =>
      (((r.checks.erase c.frame.toNat).get? frame).getD []).lookup i
    rw [Table.get?_erase_ite]
    by_cases hsame : frame = c.frame.toNat
    · -- for the frame that is settled, what was reported before counts no more
      simp only [hsame, settles, hframe, decide_true, if_true]
      exact (Option.bind_fun_none _).symm
    · have hother : settles frame (.check player c, .checked (some verdict)) = false := by
        simp only [settles, hframe, decide_eq_false_iff_not]
        exact Ne.symm hsame
      simp only [hother, reportedValue, Ne.symm hsame, and_false, if_false, Bool.false_eq_true,
        Option.none_or, if_neg hsame]
      rfl
  · change i ∈ (((r.checks.erase c.frame.toNat).get? frame).getD []).map Prod.fst at hi
    rw [Table.get?_erase_ite] at hi
    split at hi
    · exact absurd hi List.not_mem_nil
    · exact ha.places hrunning _ i hi

/-- What is no report keeps the relation. -/
theorem of_change (ha : Awaits h r) (hr : WellFormed r) (hchange : Change r op answer r')
    (hquiet : ∀ verdict, answer ≠ .checked verdict) : Awaits (h ++ [(op, answer)]) r' := by
  have hunstarted : r'.nextFrame = none → r.nextFrame = none := by
    intro hnone
    rcases hchange.nextFrame_cases with e | ⟨-, e⟩ | ⟨frame, -, e⟩
    · rw [← e, hnone]
    · rw [hnone] at e; cases e
    · rw [hnone] at e; cases e
  cases hchange with
  | started player conn now outcome hmember hcomplete => exact ha.started hr hcomplete hquiet
  | checked player c verdict checks => exact absurd rfl (hquiet verdict)
  | joined player hnew hphase hplace =>
    refine ha.of_quiet hquiet hunstarted fun hrunning => ?_
    by_cases hfilled : r.members.length + 1 = r.config.maxPlayers <;> simp [hfilled] at hrunning
  | enrolled player conn now outcome hopen hmember =>
    exact ha.of_quiet hquiet hunstarted fun hrunning =>
      ⟨hrunning, rfl, rfl, fun p => positionOf_enrol hr (hr.nextFrame_ne_none hrunning) hmember⟩
  | recorded player i seat hrunning =>
    refine ha.of_quiet hquiet hunstarted fun _ => ⟨hrunning, rfl, rfl, fun p => ?_⟩
    show (List.find? _ _).map Seat.position = _
    rw [Follows.seat?_record, Option.map_map]
    refine congrArg (fun f => Option.map f (r.seat? p)) (funext fun s => ?_)
    simp only [Function.comp_apply]
    split <;> rfl
  | ticked frame hrunning hnext hframe =>
    refine ha.of_quiet hquiet hunstarted fun hrunning' => ?_
    -- the room goes on running, so this was not its last frame
    have hlast : ¬r.config.maxFrames ≤ frame + 1 := by
      intro hlast
      rw [advanceFrom_phase, if_pos hlast] at hrunning'
      cases hrunning'
    refine ⟨hrunning, advanceFrom_config r frame, ?_, fun p => ?_⟩
    · rw [advanceFrom, if_neg hlast, opened]
      split <;> rfl
    · rw [positionOf, positionOf, seat?, seat?, advanceFrom_seats]
  | leftLast player =>
    refine ha.of_quiet hquiet hunstarted fun hrunning => ?_
    rw [close_phase] at hrunning
    cases hrunning
  | closed =>
    refine ha.of_quiet hquiet hunstarted fun hrunning => ?_
    rw [close_phase] at hrunning
    cases hrunning
  | _ => exact ha.of_quiet hquiet hunstarted fun hrunning => ⟨hrunning, rfl, rfl, fun _ => rfl⟩

/-- **Every operation keeps the relation.** -/
theorem apply (ha : Awaits h r) (hr : WellFormed r) (op : Op) :
    Awaits (h ++ [(op, (r.apply op).1)]) (r.apply op).2 := by
  have hchange := change_apply hr op
  by_cases hquiet : ∀ verdict, (r.apply op).1 ≠ .checked verdict
  · exact ha.of_change hr hchange hquiet
  · -- only a report that was taken is answered by a verdict or by waiting
    cases op with
    | check player c =>
      simp only [Room.apply] at hquiet ⊢
      cases hcheck : r.submitCheck player c with
      | error e =>
        rw [hcheck] at hquiet
        exact absurd (fun _ => by simp) hquiet
      | ok submitted =>
        obtain ⟨verdict, r'⟩ := submitted
        obtain ⟨hrunning, -, position, hposition, ⟨-, rfl, rfl⟩ | ⟨-, rfl, rfl⟩⟩ :=
          submitCheck_eq_ok hcheck
        · exact ha.reported hr hrunning hposition
        · exact ha.settled hr hrunning rfl
    | _ =>
      refine absurd (fun verdict hanswer => ?_) hquiet
      rw [hanswer] at hchange
      cases hchange

/-- **Every history leaves waiting what was reported last.** -/
theorem run (id : RoomId) (c : BattleConfig) (ops : List Op) :
    Awaits (history (Room.new id c) ops) (run (Room.new id c) ops).2 := by
  induction ops using List.reverseRecOn with
  | nil => exact new id c
  | append_singleton ops op ih =>
    rw [history_append, run_append]
    exact ih.apply (wellFormed_run (wellFormed_new id c) ops) op

end Awaits

/-! ## Verdicts -/

section Verdicts

variable {r r' : Room} {h : List (Op × Answer)} {player : PlayerId} {c : CheckRequest}
  {verdict : Option Verdict}

/-- **Counting and comparing the values of the positions** gives the verdict that the values of the
members call for. -/
theorem verdictOn_eq (hr : WellFormed r) (hrunning : r.phase = .running)
    {values : List (Nat × Int64)} (hnodup : (values.map Prod.fst).Nodup)
    (hplaces : ∀ i ∈ values.map Prod.fst, i < r.config.maxPlayers) (frame : UInt32) :
    verdictOn r.members frame (fun p => (r.positionOf p).bind fun i => values.lookup i) =
      if values.length < r.seats.length then none
      else some ⟨⟨if agree values then .ok else .checkDiverged, frame⟩, r.members⟩ := by
  have hall := forall_members_iff hr hrunning fun position =>
    (position.bind fun i => values.lookup i).isSome = true
  simp only [Option.bind_some] at hall
  rw [← le_length_iff hnodup hplaces, ← hr.length_seats (hr.nextFrame_ne_none hrunning)] at hall
  rw [verdictOn]
  by_cases hcount : values.length < r.seats.length
  · rw [if_pos hcount, if_neg fun hmembers => Nat.not_lt.mpr (hall.mp hmembers) hcount]
  · have hfull := Nat.not_lt.mp hcount
    have hpositions : ∀ i < r.config.maxPlayers, (values.lookup i).isSome = true :=
      (le_length_iff hnodup hplaces).mp
        (hr.length_seats (hr.nextFrame_ne_none hrunning) ▸ hfull)
    -- the members agree with each other as the positions do
    have hagree : (∀ p ∈ r.members, ∀ q ∈ r.members,
        (r.positionOf p).bind (fun i => values.lookup i) =
          (r.positionOf q).bind fun i => values.lookup i) ↔ agree values = true := by
      rw [agree_iff_lookup hnodup hplaces hpositions, forall_members_iff hr hrunning fun position =>
        ∀ q ∈ r.members, (position.bind fun i => values.lookup i) =
          (r.positionOf q).bind fun i => values.lookup i]
      refine forall_congr' fun i => forall_congr' fun _ => ?_
      exact forall_members_iff hr hrunning fun position =>
        values.lookup i = position.bind fun i => values.lookup i
    rw [if_neg hcount, if_pos (hall.mpr hfull)]
    simp only [hagree]

/-- What a report that is taken is answered, and what it leaves of the room. There is one seat for
each member, in their order. The answer is the verdict that the latest values call for, this one
counted. After a verdict nothing waits for the frame; what waits for other frames is left alone, and
so is everything else. -/
structure Judged (h : List (Op × Answer)) (r : Room) (player : PlayerId) (c : CheckRequest)
    (verdict : Option Verdict) (r' : Room) : Prop where
  seated : r.seats.map Seat.player = r.members
  verdict_eq : verdict = verdictOn r.members c.frame
    (Function.update (fun p => latestValue p c.frame.toNat h) player (some c.value))
  settled : verdict ≠ none → r'.checks.get? c.frame.toNat = none
  others : ∀ frame, frame ≠ c.frame.toNat → r'.checks.get? frame = r.checks.get? frame
  unchanged : r' = { r with checks := r'.checks }

/-- **A report that is taken is judged by the latest values.** -/
theorem Awaits.judged (ha : Awaits h r) (hr : WellFormed r)
    (hcheck : r.submitCheck player c = .ok (verdict, r')) : Judged h r player c verdict r' := by
  obtain ⟨hrunning, -, position, hposition, hcases⟩ := submitCheck_eq_ok hcheck
  have hlatest : Function.update (fun p => latestValue p c.frame.toNat h) player (some c.value) =
      fun p => (r.positionOf p).bind fun i =>
        (reportValue position c.value (r.waiting c.frame.toNat)).lookup i := by
    funext p
    rw [ha.lookup_report hr hrunning hposition, Function.update_apply]
  have hcalled := verdictOn_eq hr hrunning (nodup_reportValue (nodup_waiting hr _))
    (ha.places_report hr hrunning hposition c.value c.frame.toNat) c.frame
  rw [← hlatest] at hcalled
  have hseated := (hr.seats_ordered (hr.nextFrame_ne_none hrunning)).1
  rcases hcases with ⟨hfew, rfl, rfl⟩ | ⟨hall, rfl, rfl⟩
  · -- some member has not reported
    refine ⟨hseated, ?_, fun hverdict => absurd rfl hverdict, fun frame hframe => ?_, rfl⟩
    · rw [hcalled]
      exact (if_pos hfew).symm
    · exact Table.get?_insert_of_ne _ _ (Ne.symm hframe)
  · refine ⟨hseated, ?_, fun _ => Table.get?_erase_self _ _, fun frame hframe => ?_, rfl⟩
    · rw [hcalled]
      exact (if_neg (Nat.not_lt.mpr hall)).symm
    · exact Table.get?_erase_of_ne _ (Ne.symm hframe)

/-- A report is taken from a member, during the battle, for a frame that the room has. -/
theorem submitCheck_ok_iff (hr : WellFormed r) :
    (∃ verdict r', r.submitCheck player c = .ok (verdict, r')) ↔
      r.phase = .running ∧ c.frame.toNat < r.config.maxFrames ∧ player ∈ r.members := by
  constructor
  · rintro ⟨verdict, r', hcheck⟩
    obtain ⟨hrunning, hframe, position, hposition, -⟩ := submitCheck_eq_ok hcheck
    refine ⟨hrunning, hframe, ?_⟩
    rw [← positionOf_isSome_iff hr (hr.nextFrame_ne_none hrunning), hposition]
    rfl
  · rintro ⟨hrunning, hframe, hmember⟩
    rw [← positionOf_isSome_iff hr (hr.nextFrame_ne_none hrunning)] at hmember
    obtain ⟨position, hposition⟩ := Option.isSome_iff_exists.mp hmember
    unfold submitCheck
    simp only [notRunningError_eq_none_iff.mpr hrunning, if_neg (Nat.not_le.mpr hframe), hposition]
    split <;> exact ⟨_, _, rfl⟩

/-- **The answers to the reports of any history** are the verdicts that the latest values call for.
-/
theorem judged_by_latest (id : RoomId) (config : BattleConfig) (ops : List Op) (player : PlayerId)
    (c : CheckRequest) :
    let r := (run (new id config) ops).2
    ((∃ verdict r', r.submitCheck player c = .ok (verdict, r')) ↔
      r.phase = .running ∧ c.frame.toNat < r.config.maxFrames ∧ player ∈ r.members) ∧
    ∀ verdict r', r.submitCheck player c = .ok (verdict, r') →
      Judged (history (new id config) ops) r player c verdict r' :=
  have hr := wellFormed_run (wellFormed_new id config) ops
  ⟨submitCheck_ok_iff hr, fun _ _ hcheck => (Awaits.run id config ops).judged hr hcheck⟩

end Verdicts

end FrameSync.Room
