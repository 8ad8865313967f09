import FrameSync.Proofs.Server.Lifecycle
import FrameSync.Proofs.Server.Tracking

/-!
# Rooms that come after the shutdown

Whether a room is over is kept twice: the room is closed, and its slot is stopped. Joins and `ready`
look at the one, a reclaim and the start of the ticker at the other. Whatever closes a room on a
registry sets both, be it an order, the shutdown or the last disconnect. But a room that is created
after the shutdown is stopped from the start and open: it can be joined and its battle can start,
its ticker ends at once, and the next reclaim drops it with its players in it.

`Marked` is how the two stay related whatever is done to a slot while no time passes, and
`AllMarked` says it of all slots of a registry. `reclaim_agrees_iff` concludes that those late rooms
(`Late`) are all that goes wrong, in whatever order rooms are created, closed and reclaimed and the
registry is shut down.
-/

set_option autoImplicit false

namespace FrameSync

open Wire Tick

/-! ## One slot -/

namespace Room.Slot

/-- What is done to a slot while no time passes; around it, nothing starts or closes the room. -/
inductive Orderly : Op → Prop where
  | ready (player : PlayerId) (conn : ConnId) (now : Nat) : Orderly (.ready player conn now)
  | rebind (player : PlayerId) (conn : ConnId) : Orderly (.rebind player conn)
  | disconnect (player : PlayerId) : Orderly (.disconnect player)
  | close : Orderly .close
  | spawnTicker (now draw : Nat) : Orderly (.spawnTicker now draw)
  | around {op : Room.Op} (h : GoesAround op) : Orderly (.onRoom op)

/-- The mark of a slot, next to its room and its ticker. The slot is stopped if the room is closed
or was late, and only then; the ticker waits from its start until the slot is stopped. -/
structure Marked (late : Prop) (s : Slot) : Prop where
  wellFormed : s.room.WellFormed
  stopped : s.stopped = true ↔ s.room.phase = .closed ∨ late
  ticker : s.ticker.isSome = true ↔ s.tickerStarted = true ∧ s.stopped = false

section Marked

variable {late : Prop} {s : Slot} {room : Room} {player : PlayerId} {conn : ConnId}

theorem marked_ofRoom (id : RoomId) (c : BattleConfig) {stopped : Bool} (h : stopped = true ↔ late) :
    Marked late (ofRoom (Room.new id c) stopped) where
  wellFormed := wellFormed_new id c
  stopped := by
    refine h.trans (or_iff_right ?_).symm
    intro hclosed
    cases hclosed
  ticker := by
    constructor
    · intro hwaits
      cases hwaits
    · rintro ⟨hstarted, -⟩
      cases hstarted

/-- A change of the room that neither closes it nor opens it again. -/
theorem Marked.keeps (h : Marked late s) (hwell : room.WellFormed)
    (hphase : room.phase = .closed ↔ s.room.phase = .closed) : Marked late { s with room } where
  wellFormed := hwell
  stopped := by
    rw [h.stopped, hphase]
  ticker := h.ticker

/-- A slot that is stopped with its room. -/
theorem marked_stop (hwell : s.room.WellFormed) (hclosed : s.room.phase = .closed) :
    Marked late s.stop where
  wellFormed := hwell
  stopped := ⟨fun _ => Or.inl hclosed, fun _ => rfl⟩
  ticker := by
    constructor
    · intro hwaits
      cases hwaits
    · rintro ⟨-, hgoes⟩
      cases hgoes

/-- An operation around the slot leaves an open room open, and a closed one closed. -/
theorem closed_around_iff {r : Room} (hwell : r.WellFormed) {op : Room.Op} (hop : GoesAround op) :
    (r.apply op).2.phase = .closed ↔ r.phase = .closed := by
  have hchange := change_apply hwell op
  generalize (r.apply op).1 = answer at hchange
  generalize (r.apply op).2 = room at hchange ⊢
  cases hchange with
  | refused | rejoined | enrolled | rebound | recorded | checked => exact Iff.rfl
  | joined player hnew hphase hplace =>
    rw [hphase]
    show (if _ then Phase.waitingReady else .created) = .closed ↔ _
    split <;> simp only [reduceCtorEq]
  | started | idle | ticked | left | leftLast | closed => cases hop

/-- Neither the room in which a member becomes ready nor the one that it leaves is closed. -/
theorem open_of_becomeReady {r : Room} {now : Nat} {outcome : Readied}
    (h : r.becomeReady player conn now = .ok (outcome, room)) :
    r.phase ≠ .closed ∧ room.phase ≠ .closed := by
  obtain ⟨hopen, -, -, -, ⟨-, rfl, -⟩ | ⟨-, rfl, -⟩⟩ := becomeReady_eq_ok h
  · exact ⟨hopen, Phase.noConfusion⟩
  · exact ⟨hopen, hopen⟩

/-- A member that becomes ready does so in an open room, which stays open. -/
theorem Marked.ready (h : Marked late s) (encoder : Encoder) (player : PlayerId) (conn : ConnId)
    (now : Nat) :
    Marked late (s.apply encoder (.ready player conn now)).2 ∧
      (s.room.phase = .closed → (s.apply encoder (.ready player conn now)).2 = s) := by
  cases hready : s.room.becomeReady player conn now with
  | error e =>
    have hslot : (s.apply encoder (.ready player conn now)).2 = s := by
      simp only [Slot.apply, Slot.ready, hready]
    rw [hslot]
    exact ⟨h, fun _ => rfl⟩
  | ok asked =>
    obtain ⟨outcome, room⟩ := asked
    have hslot : (s.apply encoder (.ready player conn now)).2 = { s with room } := by
      simp only [Slot.apply, Slot.ready, hready]
    obtain ⟨hbefore, hafter⟩ := open_of_becomeReady hready
    rw [hslot]
    exact ⟨h.keeps (wellFormed_becomeReady h.wellFormed hready) (iff_of_false hafter hbefore),
      fun hclosed => absurd hclosed hbefore⟩

/-- A disconnect that closes the room stops the slot. -/
theorem Marked.disconnect (h : Marked late s) (player : PlayerId) :
    Marked late (s.disconnect player).2 ∧
      (s.room.phase = .closed → (s.disconnect player).2.room.phase = .closed) := by
  have hslot : (s.disconnect player).2 =
      if (s.room.disconnect player).1.closed then
        Slot.stop { s with room := (s.room.disconnect player).2 }
      else { s with room := (s.room.disconnect player).2 } := rfl
  have hwell := wellFormed_disconnect h.wellFormed player
  rw [hslot]
  rcases disconnect_cases s.room player with ⟨hroom, hopen, -⟩ | ⟨hroom, hclosed, -⟩
  · have hphase : (s.room.disconnect player).2.phase = s.room.phase := by
      rw [hroom]
      rfl
    rw [hopen]
    exact ⟨h.keeps hwell (by rw [hphase]), hphase.trans⟩
  · -- the room closes with its last entry, and the slot is stopped with it
    have hphase : (s.room.disconnect player).2.phase = .closed := by
      rw [hroom]
      exact close_phase _
    rw [if_pos hclosed]
    exact ⟨marked_stop hwell hphase, fun _ => hphase⟩

/-- Once it has been asked to start, the ticker waits exactly if the slot is not stopped. -/
theorem Marked.spawnTicker (h : Marked late s) (now draw : Nat) :
    Marked late (s.spawnTicker now draw).2 ∧ (s.spawnTicker now draw).2.tickerStarted = true ∧
      (s.spawnTicker now draw).2.stopped = s.stopped := by
  cases hstarted : s.tickerStarted with
  | true =>
    have hslot : (s.spawnTicker now draw).2 = s := by
      simp only [Slot.spawnTicker, hstarted, if_true]
    rw [hslot]
    exact ⟨h, hstarted, rfl⟩
  | false =>
    rw [Server.slot_spawnTicker_eq hstarted]
    refine ⟨⟨h.wellFormed, h.stopped, ?_⟩, rfl, rfl⟩
    show (if s.stopped then none else some _).isSome = true ↔ true = true ∧ s.stopped = false
    cases s.stopped <;> simp

/-- **Each operation** keeps a slot marked, and a closed room closed. -/
theorem Marked.apply (h : Marked late s) (encoder : Encoder) {op : Op} (hop : Orderly op) :
    Marked late (s.apply encoder op).2 ∧
      (s.room.phase = .closed → (s.apply encoder op).2.room.phase = .closed) := by
  cases hop with
  | ready player conn now =>
    obtain ⟨hmarked, hsame⟩ := h.ready encoder player conn now
    exact ⟨hmarked, fun hclosed => (congrArg (Room.phase ∘ Slot.room) (hsame hclosed)).trans hclosed⟩
  | rebind player conn =>
    have hphase := closed_around_iff h.wellFormed (.rebind player conn)
    exact ⟨h.keeps (wellFormed_apply h.wellFormed (.rebind player conn)) hphase, hphase.mpr⟩
  | disconnect player => exact h.disconnect player
  | close =>
    exact ⟨marked_stop (wellFormed_close h.wellFormed) (close_phase s.room),
      fun _ => close_phase s.room⟩
  | spawnTicker now draw =>
    exact ⟨(h.spawnTicker now draw).1,
      (congrArg Room.phase (Server.slot_spawnTicker_room s now draw)).trans⟩
  | around hop =>
    have hphase := closed_around_iff h.wellFormed hop
    exact ⟨h.keeps (wellFormed_apply h.wellFormed _) hphase, hphase.mpr⟩

/-- **A history of operations** keeps a slot marked, and a room closed that was closed at the start
or has been closed since. -/
theorem Marked.run (encoder : Encoder) {ops : List Op} (h : Marked late s)
    (hops : ∀ op ∈ ops, Orderly op) :
    Marked late (Slot.run encoder s ops).2 ∧
      (s.room.phase = .closed ∨ .close ∈ ops → (Slot.run encoder s ops).2.room.phase = .closed) := by
  induction ops generalizing s with
  | nil => exact ⟨h, fun hclosed => hclosed.resolve_right List.not_mem_nil⟩
  | cons op ops ih =>
    obtain ⟨hmarked, hclosed⟩ := h.apply encoder (hops op List.mem_cons_self)
    obtain ⟨hend, hcloses⟩ := ih hmarked fun later hlater => hops later (List.mem_cons_of_mem _ hlater)
    rw [run_cons]
    refine ⟨hend, ?_⟩
    rintro (hbefore | hmem)
    · exact hcloses (Or.inl (hclosed hbefore))
    · rcases List.mem_cons.mp hmem with rfl | hmem
      · exact hcloses (Or.inl (close_phase s.room))
      · exact hcloses (Or.inr hmem)

/-- The ticker of an open room waits once it has been started, unless the room was late. -/
theorem Marked.ticks_iff (h : Marked late s) (hopen : s.room.phase ≠ .closed) (now draw : Nat) :
    (∃ schedule, (s.spawnTicker now draw).2.ticker = some schedule) ↔ ¬late := by
  obtain ⟨hmarked, hstarted, hstopped⟩ := h.spawnTicker now draw
  rw [← Option.isSome_iff_exists, hmarked.ticker, hstopped, and_iff_right hstarted,
    ← Bool.not_eq_true, h.stopped, or_iff_right hopen]

end Marked

end Room.Slot

/-! ## All rooms of a registry -/

namespace Registry

/-- What is done to a registry and the slots of its rooms while no time passes. -/
def Op.Orderly : Op → Prop
  | .onSlot _ op => Room.Slot.Orderly op
  | .advance _ _ => False
  | .create | .get _ | .close _ | .reclaim | .shutdown => True

/-- The tracked rooms that a reclaim takes are the closed ones. -/
def ReclaimsClosed (r : Registry) : Prop :=
  ∀ id slot, r.get id = .ok slot → (id ∈ r.reclaims ↔ slot.room.phase = .closed)

/-- Every tracked room is closed. -/
def AllClosed (r : Registry) : Prop :=
  ∀ id slot, r.get id = .ok slot → slot.room.phase = .closed

/-- In every tracked room that is open the ticker can be started, and waits. -/
def OpenTick (r : Registry) : Prop :=
  ∀ id slot, r.get id = .ok slot → slot.room.phase ≠ .closed → ∀ now draw,
    ∃ schedule, (slot.spawnTicker now draw).2.ticker = some schedule

/-- The number was given to a room that was created after a shutdown. -/
def Late (start : Registry) (ops : List Op) (id : RoomId) : Prop :=
  ∃ before since, ops = before ++ .create :: since ∧ .shutdown ∈ before ∧
    id = start.roomId (before.count .create + 1)

/-- No room is created after a shutdown. -/
def InTime (ops : List Op) : Prop := ∀ before, before ++ [.create] <+: ops → .shutdown ∉ before

section Reclaim

variable {r start : Registry} {id : RoomId} {slot : Room.Slot} {before ops : List Op} {op : Op}

/-! ### Late rooms -/

theorem late_snoc : Late start (ops ++ [op]) id ↔
    Late start ops id ∨
      op = .create ∧ .shutdown ∈ ops ∧ id = start.roomId (ops.count .create + 1) := by
  constructor
  · rintro ⟨before, since, hops, hshut, hid⟩
    rcases List.eq_nil_or_concat since with rfl | ⟨since, last, rfl⟩
    · obtain ⟨rfl, hop⟩ := List.append_inj' hops rfl
      exact Or.inr ⟨List.head_eq_of_cons_eq hop, hshut, hid⟩
    · rw [List.concat_eq_append, ← List.cons_append, ← List.append_assoc] at hops
      obtain ⟨rfl, -⟩ := List.append_inj' hops rfl
      exact Or.inl ⟨before, since, rfl, hshut, hid⟩
  · rintro (⟨before, since, rfl, hshut, hid⟩ | ⟨rfl, hshut, hid⟩)
    · exact ⟨before, since ++ [op], by simp, hshut, hid⟩
    · exact ⟨ops, [], rfl, hshut, hid⟩

/-- Without a shutdown no room is late. -/
theorem Late.shutdown (h : Late start ops id) : .shutdown ∈ ops := by
  obtain ⟨before, since, rfl, hshut, -⟩ := h
  exact List.mem_append_left _ hshut

theorem InTime.not_late (h : InTime ops) : ¬Late start ops id := by
  rintro ⟨before, since, rfl, hshut, -⟩
  exact h before ((List.prefix_append_right_inj before).mpr ⟨since, rfl⟩) hshut

/-! ### Every tracked room -/

/-- Every tracked slot is marked, and after a shutdown the rooms that were not late are closed. -/
def AllMarked (late : RoomId → Prop) (shut : Prop) (r : Registry) : Prop :=
  ∀ id slot, r.rooms.get? id = some slot →
    slot.Marked (late id) ∧ (shut → ¬late id → slot.room.phase = .closed)

/-- What an orderly operation does to a slot is orderly. -/
theorem Op.Orderly.slotOp? (h : op.Orderly) (id : RoomId) :
    ∀ slotOp ∈ (op.slotOp? id).toList, Room.Slot.Orderly slotOp := by
  intro slotOp hslotOp
  rw [Option.mem_toList] at hslotOp
  cases op with
  | create | get other | reclaim => cases hslotOp
  | close other =>
    obtain ⟨-, hclose⟩ := Option.ite_none_right_eq_some.mp hslotOp
    cases hclose
    exact .close
  | shutdown =>
    cases hslotOp
    exact .close
  | onSlot other slotOp' =>
    obtain ⟨-, hsame⟩ := Option.ite_none_right_eq_some.mp hslotOp
    cases hsame
    exact h
  | advance now target => exact h.elim

/-- **One operation** keeps all tracked slots marked. -/
theorem AllMarked.apply {late : RoomId → Prop} {shut : Prop} (h : AllMarked late shut r)
    (encoder : Encoder) (horderly : op.Orderly) (hop : op ≠ .create) :
    AllMarked late (shut ∨ op = .shutdown) (r.apply encoder op).2 := by
  intro id slot' hslot'
  obtain ⟨slot, hslot, rfl⟩ := exists_get?_before hop hslot'
  obtain ⟨hmarked, hclosed⟩ := h id slot hslot
  obtain ⟨hmarked', hcloses⟩ := hmarked.run encoder (horderly.slotOp? id)
  refine ⟨hmarked', fun hshut htime => hcloses ?_⟩
  -- to a slot, a shutdown is a close
  rcases hshut with hshut | rfl
  · exact Or.inl (hclosed hshut htime)
  · exact Or.inr List.mem_cons_self

/-- **A creation** keeps them marked, if the room counts as late exactly when the registry has been
shut down. -/
theorem AllMarked.create {late late' : RoomId → Prop} {shut : Prop} (h : AllMarked late shut r)
    (encoder : Encoder) (hnew : r.stopped = true ↔ late' (r.roomId (r.created + 1)))
    (hshut : shut → r.stopped = true)
    (hold : ∀ id, id ≠ r.roomId (r.created + 1) → (late' id ↔ late id)) :
    AllMarked late' shut (r.apply encoder .create).2 := by
  intro id slot hslot
  rw [get?_create] at hslot
  split at hslot
  · rename_i hid
    cases hslot
    rw [hid]
    exact ⟨Room.Slot.marked_ofRoom _ _ hnew, fun hafter htime => absurd (hnew.mp (hshut hafter)) htime⟩
  · rename_i hid
    rw [hold id hid]
    exact h id slot hslot

/-- **After every orderly history** all tracked slots are marked. -/
theorem allMarked_run (encoder : Encoder) (base : UInt32) (config : BattleConfig)
    (rota : Room.Rota) {ops : List Op}
    (horderly : ∀ op ∈ ops, op.Orderly) :
    AllMarked (Late (new base config rota) ops) (.shutdown ∈ ops)
      (run encoder (new base config rota) ops).2 := by
  -- by the last operation, since whether a new room is late depends on all that came before it
  induction ops using List.reverseRecOn with
  | nil =>
    intro id slot hslot
    cases hslot
  | append_singleton ops op ih =>
    have h := ih fun earlier hearlier => horderly earlier (List.mem_append_left _ hearlier)
    rw [run_snoc]
    by_cases hop : op = .create
    · subst hop
      obtain ⟨hbase, -, hcreated, hstopped⟩ := settled_run encoder base config rota ops
      have hsame : (run encoder (new base config rota) ops).2.base = (new base config rota).base := hbase
      have hshut : .shutdown ∈ ops ++ [Op.create] ↔ .shutdown ∈ ops := by simp
      rw [hshut]
      refine h.create encoder ?_ ?_ ?_
      · rw [hstopped, hcreated, roomId_congr hsame, decide_eq_true_iff, late_snoc]
        exact ⟨fun hbefore => Or.inr ⟨rfl, hbefore, rfl⟩,
          fun hlate => hlate.elim Late.shutdown fun hnow => hnow.2.1⟩
      · exact fun hbefore => hstopped.trans (decide_eq_true hbefore)
      · intro id hid
        rw [hcreated, roomId_congr hsame] at hid
        rw [late_snoc]
        exact or_iff_left fun hnow => hid hnow.2.2
    · -- no room is added, so none becomes late
      have hlate : Late (new base config rota) (ops ++ [op]) = Late (new base config rota) ops :=
        funext fun id => propext (late_snoc.trans (or_iff_left fun hnow => hop hnow.1))
      have hshut : .shutdown ∈ ops ++ [op] ↔ .shutdown ∈ ops ∨ op = .shutdown := by
        rw [List.mem_append, List.mem_singleton, eq_comm]
      rw [hlate, hshut]
      exact h.apply encoder (horderly op (List.mem_append_right _ (List.mem_singleton_self op))) hop

/-- A reclaim takes a tracked room if its slot is stopped. -/
theorem mem_reclaims_iff_stopped (hslot : r.rooms.get? id = some slot) :
    id ∈ r.reclaims ↔ slot.stopped = true := by
  rw [mem_reclaims_iff]
  constructor
  · rintro ⟨slot', hslot', hstopped⟩
    cases hslot.symm.trans hslot'
    exact hstopped
  · exact fun hstopped => ⟨slot, hslot, hstopped⟩

/-- A room that is created after a shutdown is open and stopped. -/
theorem get_late (encoder : Encoder) (base : UInt32) (config : BattleConfig) (rota : Room.Rota)
    (hshut : .shutdown ∈ before) :
    ∃ id, (run encoder (new base config rota) (before ++ [.create])).2.get id =
      .ok (Room.Slot.ofRoom (Room.new id config.validated) true) := by
  obtain ⟨-, hconfig, -, hstopped⟩ := settled_run encoder base config rota before
  rw [decide_eq_true hshut] at hstopped
  refine ⟨(run encoder (new base config rota) before).2.roomId
    ((run encoder (new base config rota) before).2.created + 1), Server.get_eq_ok_iff.mpr ?_⟩
  rw [run_snoc, get?_create, if_pos rfl, hconfig, hstopped]

end Reclaim

/-- **Where the marks and the rooms disagree.** After any orderly history, each tracked room

- is taken by a reclaim exactly if it is closed or was created after a shutdown;
- is closed if there was a shutdown and it was created before;
- lets nobody join or become ready once it is closed; and
- while it is open, starts its ticker exactly if it was not created after a shutdown.

So each of three things holds throughout a history exactly if no room is created after a shutdown:
that a reclaim takes the closed rooms and no others; that after a shutdown all rooms are closed; and
that no open room is without a tick. -/
theorem reclaim_agrees_iff (encoder : Encoder) (base : UInt32) (config : BattleConfig)
    (rota : Room.Rota) (ops : List Op) (horderly : ∀ op ∈ ops, op.Orderly) :
    let start := new base config rota
    let after := fun history => (run encoder start history).2
    (∀ id slot, (after ops).get id = .ok slot →
        (id ∈ (after ops).reclaims ↔ slot.room.phase = .closed ∨ Late start ops id) ∧
        (.shutdown ∈ ops → ¬Late start ops id → slot.room.phase = .closed) ∧
        (slot.room.phase = .closed → ∀ player conn now,
          slot.room.join player = .error (.closed slot.room.id) ∧
            slot.ready player conn now = .error (.closed slot.room.id)) ∧
        (slot.room.phase ≠ .closed → ∀ now draw,
          ((∃ schedule, (slot.spawnTicker now draw).2.ticker = some schedule) ↔
            ¬Late start ops id))) ∧
    ((∀ before, before <+: ops → (after before).ReclaimsClosed) ↔ InTime ops) ∧
    ((∀ before, before <+: ops → .shutdown ∈ before → (after before).AllClosed) ↔ InTime ops) ∧
    ((∀ before, before <+: ops → (after before).OpenTick) ↔ InTime ops) := by
  intro start after
  have hmarked : ∀ before, before <+: ops → ∀ id slot, (after before).get id = .ok slot →
      slot.Marked (Late start before id) ∧
        (.shutdown ∈ before → ¬Late start before id → slot.room.phase = .closed) :=
    fun before hbefore id slot hget =>
      allMarked_run encoder base config rota (fun op hop => horderly op (hbefore.subset hop)) id slot
        (Server.get_eq_ok_iff.mp hget)
  have htimely : InTime ops → ∀ before, before <+: ops → ∀ id, ¬Late start before id :=
    fun htime before hbefore id =>
      InTime.not_late fun earlier hearlier => htime earlier (hearlier.trans hbefore)
  refine ⟨?_, ⟨?_, ?_⟩, ⟨?_, ?_⟩, ?_, ?_⟩
  · intro id slot hget
    obtain ⟨hslot, hcloses⟩ := hmarked ops (List.prefix_refl ops) id slot hget
    refine ⟨?_, hcloses, ?_, hslot.ticks_iff⟩
    · rw [mem_reclaims_iff_stopped (Server.get_eq_ok_iff.mp hget), hslot.stopped]
    · intro hclosed player conn now
      refine ⟨if_pos hclosed, ?_⟩
      rw [Room.Slot.ready, Room.becomeReady, if_pos hclosed]
  · -- a late room speaks against each of the three as soon as it is there
    intro hreclaims before hbefore hshut
    obtain ⟨id, hget⟩ := get_late encoder base config rota hshut
    have htakes := (mem_reclaims_iff_stopped (Server.get_eq_ok_iff.mp hget)).mpr rfl
    cases (hreclaims _ hbefore id _ hget).mp htakes
  · intro htime before hbefore id slot hget
    obtain ⟨hslot, -⟩ := hmarked before hbefore id slot hget
    rw [mem_reclaims_iff_stopped (Server.get_eq_ok_iff.mp hget), hslot.stopped]
    exact or_iff_left (htimely htime before hbefore id)
  · intro hcloses before hbefore hshut
    obtain ⟨id, hget⟩ := get_late encoder base config rota hshut
    cases hcloses _ hbefore (List.mem_append_left _ hshut) id _ hget
  · exact fun htime before hbefore hshut id slot hget =>
      (hmarked before hbefore id slot hget).2 hshut (htimely htime before hbefore id)
  · intro hticks before hbefore hshut
    obtain ⟨id, hget⟩ := get_late encoder base config rota hshut
    obtain ⟨schedule, hwaits⟩ := hticks _ hbefore id _ hget Room.Phase.noConfusion 0 0
    cases hwaits
  · intro htime before hbefore id slot hget hopen now draw
    obtain ⟨hslot, -⟩ := hmarked before hbefore id slot hget
    exact (hslot.ticks_iff hopen now draw).mpr (htimely htime before hbefore id)

/-- The room is filled, its players become ready, and its ticker is started. -/
def battleIn (id : RoomId) : List Op :=
  [.onSlot id (.onRoom (.join ⟨101⟩)), .onSlot id (.onRoom (.join ⟨102⟩)),
    .onSlot id (.ready ⟨101⟩ ⟨11⟩ 0), .onSlot id (.ready ⟨102⟩ ⟨12⟩ 0), .onSlot id (.spawnTicker 0 0)]

theorem orderly_battleIn (id : RoomId) : ∀ op ∈ battleIn id, op.Orderly := by
  simp only [battleIn, List.forall_mem_cons, List.not_mem_nil, false_imp_iff, implies_true, and_true]
  exact ⟨.around (.join _), .around (.join _), .ready _ _ _, .ready _ _ _, .spawnTicker _ _⟩

/-- There is a battle in the first of two rooms, and the second one has been closed. -/
def battleBeside : List Op := [.create, .create] ++ battleIn ⟨10001⟩ ++ [.close ⟨10002⟩]

/-- The battle ticks, and a reclaim takes the other room. -/
theorem reclaim_agrees_beside :
    let r := (run .standard (new 10000 .standard .inTurn) battleBeside).2
    (∀ op ∈ battleBeside, op.Orderly) ∧ InTime battleBeside ∧
      r.ReclaimsClosed ∧ r.OpenTick ∧ r.ids = [⟨10001⟩, ⟨10002⟩] ∧ r.reclaims = [⟨10002⟩] := by
  intro r
  have horderly : ∀ op ∈ battleBeside, op.Orderly := by
    simp only [battleBeside, List.forall_mem_append, List.forall_mem_cons, List.not_mem_nil,
      false_imp_iff, implies_true, and_true]
    exact ⟨⟨⟨trivial, trivial⟩, orderly_battleIn _⟩, trivial⟩
  have htime : InTime battleBeside := fun before hbefore hshut =>
    absurd (hbefore.subset (List.mem_append_left _ hshut)) (by decide +kernel)
  obtain ⟨-, hreclaims, -, hticks⟩ :=
    reclaim_agrees_iff .standard 10000 .standard .inTurn battleBeside horderly
  exact ⟨horderly, htime, hreclaims.mpr htime _ (List.prefix_refl _),
    hticks.mpr htime _ (List.prefix_refl _), by decide +kernel, by decide +kernel⟩

/-- The same battle in a room that is created after a shutdown. -/
def lateBattle : List Op := [.shutdown, .create] ++ battleIn ⟨10001⟩

/-- **The late battle is on and does not tick.** No room is closed, and a reclaim takes the one with
the battle in it. -/
theorem reclaim_disagrees_late :
    let r := (run .standard (new 10000 .standard .inTurn) lateBattle).2
    (∀ op ∈ lateBattle, op.Orderly) ∧ .shutdown ∈ lateBattle ∧
      ¬r.ReclaimsClosed ∧ ¬r.AllClosed ∧ r.reclaims = [⟨10001⟩] ∧
      ∃ slot, r.get ⟨10001⟩ = .ok slot ∧ slot.room.phase = .running ∧
        slot.room.members = [⟨101⟩, ⟨102⟩] ∧ slot.tickerStarted = true ∧ slot.ticker = none := by
  intro r
  have horderly : ∀ op ∈ lateBattle, op.Orderly := by
    simp only [lateBattle, List.forall_mem_append, List.forall_mem_cons, List.not_mem_nil,
      false_imp_iff, implies_true, and_true]
    exact ⟨⟨trivial, trivial⟩, orderly_battleIn _⟩
  have htakes : r.reclaims = [⟨10001⟩] := by
    decide +kernel
  have hruns : ∃ x ∈ r.rooms.entries, x.1 = ⟨10001⟩ ∧ x.2.room.phase = .running ∧
      x.2.room.members = [⟨101⟩, ⟨102⟩] ∧ x.2.tickerStarted = true ∧ x.2.ticker = none := by
    decide +kernel
  obtain ⟨⟨id, slot⟩, hmem, hid, hphase, hslot⟩ := hruns
  have hget : r.get ⟨10001⟩ = .ok slot :=
    Server.get_eq_ok_iff.mpr (Table.get?_eq_some_iff_mem.mpr (hid ▸ hmem))
  have hopen : slot.room.phase ≠ .closed := fun hclosed => by
    cases hphase.symm.trans hclosed
  refine ⟨horderly, by decide +kernel, fun hreclaims => hopen ?_, fun hcloses => hopen ?_, htakes,
    slot, hget, hphase, hslot⟩
  · exact (hreclaims _ slot hget).mp (htakes ▸ List.mem_singleton_self _)
  · exact hcloses _ slot hget

end Registry

end FrameSync
