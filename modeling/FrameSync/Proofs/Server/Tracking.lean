import FrameSync.Proofs.Room.TickTask
import FrameSync.Proofs.Server.Steps
import Mathlib.Data.List.Induction

/-!
# Which rooms a registry tracks

The registry of a server counts the rooms it creates and numbers them upward. A number is tracked
from the creation of its room to the reclaim that drops it, and never again: the next number is
always past all those that have been given out (`Numbered`).

What becomes of one number is said by `get?_run`: once it has been passed, a history either removes
it or leaves its slot as the operations on that room leave it, whatever happens to other rooms.
Those operations are read off the history by `Op.slotOp?`, so the slot that is found under a number
is always the one that was created under it. `lookups_exact` puts this together with the lists and
the counts.
-/

set_option autoImplicit false

namespace FrameSync.Registry

open Wire

/-! ## What a history says -/

/-- The number of the room that was created. -/
def Answer.created? : Answer → Option RoomId
  | .created id => some id
  | _ => none

/-- What an operation does to the slot of a room, as an operation on that slot. -/
def Op.slotOp? (id : RoomId) : Op → Option Room.Slot.Op
  | .create => none
  | .get _ => none
  | .close other => if other = id then some .close else none
  | .reclaim => none
  | .shutdown => some .close
  | .onSlot other op => if other = id then some op else none
  | .advance now target => some (.advance now target)

/-- The numbers that a reclaim takes off the list. -/
def reclaims (r : Registry) : List RoomId := r.ids.filter fun id => id ∉ r.reclaim.2.ids

/-- The numbers that the reclaims of a history take off the list. -/
def removed (encoder : Encoder) : Registry → List Op → List RoomId
  | _, [] => []
  | r, op :: ops =>
    (if op = .reclaim then r.reclaims else []) ++ removed encoder (r.apply encoder op).2 ops

section Run

variable (encoder : Encoder) (r : Registry)

theorem run_cons (op : Op) (ops : List Op) : run encoder r (op :: ops) =
    ((r.apply encoder op).1 :: (run encoder (r.apply encoder op).2 ops).1,
      (run encoder (r.apply encoder op).2 ops).2) := rfl

theorem run_snoc (ops : List Op) (op : Op) : run encoder r (ops ++ [op]) =
    ((run encoder r ops).1 ++ [((run encoder r ops).2.apply encoder op).1],
      ((run encoder r ops).2.apply encoder op).2) := by
  induction ops generalizing r with
  | nil => rfl
  | cons first ops ih =>
    rw [List.cons_append, run_cons, ih]
    rfl

theorem run_append (before after : List Op) : (run encoder r (before ++ after)).2 =
    (run encoder (run encoder r before).2 after).2 := by
  induction before generalizing r with
  | nil => rfl
  | cons op before ih => exact ih (r.apply encoder op).2

theorem removed_append (before after : List Op) : removed encoder r (before ++ after) =
    removed encoder r before ++ removed encoder (run encoder r before).2 after := by
  induction before generalizing r with
  | nil => rfl
  | cons op before ih =>
    rw [List.cons_append, removed, ih, ← List.append_assoc]
    rfl

end Run

/-! ## The counter -/

/-- How far a history takes the counter, and what it leaves as it is: the base and the settings are
the same, each creation is counted, and a shutdown is for good. -/
structure Passed (r r' : Registry) (ops : List Op) : Prop where
  base : r'.base = r.base
  config : r'.config = r.config
  created : r'.created = r.created + ops.count .create
  stopped : r'.stopped = (r.stopped || decide (.shutdown ∈ ops))

theorem passed_apply (encoder : Encoder) (r : Registry) (op : Op) :
    Passed r (r.apply encoder op).2 [op] := by
  cases op with
  | create => exact ⟨rfl, rfl, rfl, (Bool.or_false _).symm⟩
  | get id =>
    rw [apply]
    split <;> exact ⟨rfl, rfl, rfl, (Bool.or_false _).symm⟩
  | close id =>
    simp only [apply, close]
    cases r.get id <;> exact ⟨rfl, rfl, rfl, (Bool.or_false _).symm⟩
  | reclaim => exact ⟨rfl, rfl, rfl, (Bool.or_false _).symm⟩
  | shutdown => exact ⟨rfl, rfl, rfl, (Bool.or_true _).symm⟩
  | onSlot id op =>
    rw [apply]
    split <;> exact ⟨rfl, rfl, rfl, (Bool.or_false _).symm⟩
  | advance now target => exact ⟨rfl, rfl, rfl, (Bool.or_false _).symm⟩

theorem passed_run (encoder : Encoder) (r : Registry) (ops : List Op) :
    Passed r (run encoder r ops).2 ops := by
  induction ops using List.reverseRecOn with
  | nil => exact ⟨rfl, rfl, rfl, (Bool.or_false _).symm⟩
  | append_singleton ops op ih =>
    obtain ⟨hbase, hconfig, hcreated, hstopped⟩ := passed_apply encoder (run encoder r ops).2 op
    rw [run_snoc]
    refine ⟨hbase.trans ih.base, hconfig.trans ih.config, ?_, ?_⟩
    · rw [hcreated, ih.created, List.count_append, Nat.add_assoc]
    · rw [hstopped, ih.stopped, Bool.or_assoc]
      simp only [List.mem_append, Bool.decide_or]

/-- A history from the beginning tells how many rooms there have been, and whether there was a
shutdown. -/
theorem settled_run (encoder : Encoder) (base : UInt32) (config : BattleConfig) (rota : Room.Rota)
    (ops : List Op) :
    let r := (run encoder (new base config rota) ops).2
    r.base = base ∧ r.config = config.validated ∧ r.created = ops.count .create ∧
      r.stopped = decide (.shutdown ∈ ops) := by
  obtain ⟨hbase, hconfig, hcreated, hstopped⟩ := passed_run encoder (new base config rota) ops
  exact ⟨hbase, hconfig, hcreated.trans (Nat.zero_add _), hstopped.trans (Bool.false_or _)⟩

theorem toNat_roomId {r : Registry} {n : Nat} (h : r.base.toNat + n < UInt32.size) :
    (r.roomId n).num.toNat = r.base.toNat + n := UInt32.toNat_ofNat_of_lt' h

theorem toNat_roomId_new {base : UInt32} {config : BattleConfig} {rota : Room.Rota} {n : Nat}
    (h : base.toNat + n < UInt32.size) :
    ((new base config rota).roomId n).num.toNat = base.toNat + n := toNat_roomId h

theorem roomId_congr {r r' : Registry} (h : r'.base = r.base) (n : Nat) : r'.roomId n = r.roomId n := by
  rw [roomId, roomId, h]

/-- What an operation answers if it creates a room. -/
theorem created?_apply (encoder : Encoder) (r : Registry) (op : Op) :
    (r.apply encoder op).1.created? =
      if op = .create then some (r.roomId (r.created + 1)) else none := by
  cases op with
  | create => rfl
  | get id =>
    rw [apply]
    split <;> rfl
  | close id =>
    simp only [apply, close]
    cases r.get id <;> rfl
  | reclaim => rfl
  | shutdown => rfl
  | onSlot id op =>
    rw [apply]
    split <;> rfl
  | advance now target => rfl

/-- **Rooms are numbered in the order of their creation.** -/
theorem created_run (encoder : Encoder) (r : Registry) (ops : List Op) :
    (run encoder r ops).1.filterMap Answer.created? =
      (List.range (ops.count .create)).map fun i => r.roomId (r.created + i + 1) := by
  induction ops using List.reverseRecOn with
  | nil => rfl
  | append_singleton ops op ih =>
    have hpassed := passed_run encoder r ops
    rw [run_snoc, List.filterMap_append, ih, List.count_append, List.filterMap_cons, created?_apply]
    by_cases hop : op = .create
    · subst hop
      rw [List.count_singleton_self, List.range_succ, List.map_append, if_pos rfl, hpassed.created,
        roomId_congr hpassed.base]
      rfl
    · have hcount : [op].count .create = 0 := List.count_singleton.trans (by simp [hop])
      rw [hcount, if_neg hop]
      exact List.append_nil _

/-! ## One number -/

section Lookup

variable {encoder : Encoder} {r : Registry} {id : RoomId}

theorem get_eq_error_of_none (h : r.rooms.get? id = none) : r.get id = .error (.notFound id) := by
  rw [get, h]

theorem mem_ids_iff : id ∈ r.ids ↔ ∃ slot, r.rooms.get? id = some slot := Table.mem_keys_iff

theorem get?_reclaim (r : Registry) (id : RoomId) : r.reclaim.2.rooms.get? id =
    (r.rooms.get? id).filter fun slot => !slot.stopped :=
  Table.get?_filter r.rooms (fun _ slot => !slot.stopped) id

/-- What a reclaim takes off the list are the numbers of stopped slots. -/
theorem mem_reclaims_iff :
    id ∈ r.reclaims ↔ ∃ slot, r.rooms.get? id = some slot ∧ slot.stopped = true := by
  rw [reclaims, List.mem_filter, decide_eq_true_iff, mem_ids_iff, mem_ids_iff, get?_reclaim]
  cases r.rooms.get? id with
  | none => simp
  | some slot => cases hstopped : slot.stopped <;> simp [Option.filter, hstopped]

/-- A reclaim answers how many numbers it takes off the list. -/
theorem length_reclaims (r : Registry) : r.reclaims.length = r.reclaim.1.size := by
  have hids : r.ids = r.rooms.entries.map Prod.fst := rfl
  have hdropped : r.reclaim.1.size = (r.rooms.entries.filter fun e => e.2.stopped).length := rfl
  rw [reclaims, hids, List.filter_map, List.length_map, hdropped]
  refine congrArg List.length (List.filter_congr fun e he => ?_)
  have hget : r.rooms.get? e.1 = some e.2 := Table.get?_eq_some_iff_mem.mpr he
  have hkept : e.1 ∈ r.reclaim.2.ids ↔ e.2.stopped = false := by
    rw [mem_ids_iff, get?_reclaim, hget]
    cases hstopped : e.2.stopped <;> simp [Option.filter, hstopped]
  rw [Function.comp_apply]
  cases hstopped : e.2.stopped with
  | false => exact decide_eq_false (not_not_intro (hkept.mpr hstopped))
  | true =>
    refine decide_eq_true fun hmem => ?_
    rw [hkept, hstopped] at hmem
    cases hmem

theorem close_rooms (encoder : Encoder) (r : Registry) (other : RoomId) :
    (r.apply encoder (.close other)).2.rooms = r.rooms.update other Room.Slot.close := by
  simp only [apply, close]
  cases hget : r.get other with
  | error e => exact (Server.update_of_error hget _).symm
  | ok slot => exact (Server.update_of_ok hget _).symm

theorem onSlot_rooms (encoder : Encoder) (r : Registry) (other : RoomId) (op : Room.Slot.Op) :
    (r.apply encoder (.onSlot other op)).2.rooms =
      r.rooms.update other fun slot => (slot.apply encoder op).2 := by
  simp only [apply]
  cases hget : r.get other with
  | error e => exact (Server.update_of_error hget _).symm
  | ok slot => exact (Server.update_of_ok hget fun slot => (slot.apply encoder op).2).symm

/-- A change of one room is a change of none if that is another one. -/
theorem get?_update_slotOp (rooms : Table RoomId Room.Slot) (other : RoomId) (op : Room.Slot.Op) :
    (rooms.update other fun slot => (slot.apply encoder op).2).get? id =
      (rooms.get? id).map fun slot =>
        (Room.Slot.run encoder slot (if other = id then some op else none).toList).2 := by
  rw [Table.get?_update_ite]
  by_cases hid : other = id
  · rw [if_pos hid.symm, if_pos hid]
    rfl
  · rw [if_neg (Ne.symm hid), if_neg hid]
    exact Option.map_id'.symm

/-- **What one operation does to one room** that it neither creates nor drops is what it is for the
slot of that room. -/
theorem get?_apply {op : Op} (hcreate : op ≠ .create) (hstays : op = .reclaim → id ∉ r.reclaims) :
    (r.apply encoder op).2.rooms.get? id = (r.rooms.get? id).map fun slot =>
      (Room.Slot.run encoder slot (op.slotOp? id).toList).2 := by
  cases op with
  | create => exact absurd rfl hcreate
  | get other =>
    have hrooms : (r.apply encoder (.get other)).2.rooms = r.rooms := by
      rw [apply]
      split <;> rfl
    rw [hrooms]
    exact Option.map_id'.symm
  | close other =>
    rw [close_rooms]
    exact get?_update_slotOp r.rooms other .close
  | reclaim =>
    have hkept := hstays rfl
    have hafter : (r.apply encoder .reclaim).2.rooms.get? id = _ := get?_reclaim r id
    rw [mem_reclaims_iff] at hkept
    rw [hafter]
    cases hslot : r.rooms.get? id with
    | none => rfl
    | some slot =>
      have hgoes : slot.stopped = false :=
        Bool.eq_false_iff.mpr fun hstopped => hkept ⟨slot, hslot, hstopped⟩
      rw [Option.filter_some, hgoes]
      rfl
  | shutdown => exact Table.get?_mapValues r.rooms Room.Slot.close id
  | onSlot other op =>
    rw [onSlot_rooms]
    exact get?_update_slotOp r.rooms other op
  | advance now target =>
    exact Table.get?_mapValues r.rooms (fun slot => (slot.runTicker encoder now target).2) id

/-- What is tracked after an operation that creates nothing was tracked before. -/
theorem exists_get?_before {op : Op} {slot' : Room.Slot} (hcreate : op ≠ .create)
    (hslot' : (r.apply encoder op).2.rooms.get? id = some slot') :
    ∃ slot, r.rooms.get? id = some slot ∧
      slot' = (Room.Slot.run encoder slot (op.slotOp? id).toList).2 := by
  by_cases hreclaim : op = .reclaim
  · subst hreclaim
    have hafter := (get?_reclaim r id).symm.trans hslot'
    exact ⟨slot', (Option.filter_eq_some_iff.mp hafter).1, rfl⟩
  · rw [get?_apply hcreate fun heq => absurd heq hreclaim, Option.map_eq_some_iff] at hslot'
    obtain ⟨slot, hslot, hrun⟩ := hslot'
    exact ⟨slot, hslot, hrun.symm⟩

/-- A creation leaves all other numbers alone. -/
theorem get?_create (encoder : Encoder) (r : Registry) (id : RoomId) :
    (r.apply encoder .create).2.rooms.get? id =
      if id = r.roomId (r.created + 1) then
        some (Room.Slot.ofRoom (Room.new (r.roomId (r.created + 1)) r.config) r.stopped)
      else r.rooms.get? id := Table.get?_insert_ite _ _ _ _

variable (encoder) in
/-- **A number that has been passed** is never given to another room: a history removes it, or
leaves the slot that is found under it as the operations on that slot do. -/
theorem get?_run (ops : List Op) (hpassed : id.num.toNat ≤ r.base.toNat + r.created)
    (hspace : r.base.toNat + r.created + ops.count .create < UInt32.size) :
    (id ∈ removed encoder r ops → (run encoder r ops).2.rooms.get? id = none) ∧
      (id ∉ removed encoder r ops → (run encoder r ops).2.rooms.get? id =
        (r.rooms.get? id).map fun slot =>
          (Room.Slot.run encoder slot (ops.filterMap (Op.slotOp? id))).2) := by
  induction ops generalizing r with
  | nil => exact ⟨fun hgone => absurd hgone List.not_mem_nil, fun _ => Option.map_id'.symm⟩
  | cons op ops ih =>
    obtain ⟨hbase, -, hcreated, -⟩ := passed_apply encoder r op
    rw [← List.singleton_append, List.count_append] at hspace
    obtain ⟨hlater, hkept⟩ := @ih (r.apply encoder op).2 (by rw [hbase, hcreated]; omega)
      (by rw [hbase, hcreated]; omega)
    rw [run_cons, removed, List.mem_append]
    by_cases hgone : id ∈ (if op = .reclaim then r.reclaims else [])
    · -- it goes now, and there is nothing that could be put back
      have hnone : (r.apply encoder op).2.rooms.get? id = none := by
        split at hgone
        · rename_i hreclaim
          subst hreclaim
          obtain ⟨slot, hslot, hstopped⟩ := mem_reclaims_iff.mp hgone
          have hafter : (r.apply encoder .reclaim).2.rooms.get? id = _ := get?_reclaim r id
          rw [hafter, hslot, Option.filter_some, hstopped]
          rfl
        · exact absurd hgone List.not_mem_nil
      rw [hnone] at hkept
      refine ⟨fun _ => ?_, fun hnot => absurd (Or.inl hgone) hnot⟩
      by_cases hagain : id ∈ removed encoder (r.apply encoder op).2 ops
      · exact hlater hagain
      · exact hkept hagain
    · refine ⟨fun hgoes => hlater (hgoes.resolve_left hgone), fun hnot => ?_⟩
      rw [hkept fun hgoes => hnot (Or.inr hgoes), List.filterMap_cons]
      by_cases hop : op = .create
      · -- the new number is another one
        subst hop
        have hother : id ≠ r.roomId (r.created + 1) := fun heq => by
          rw [List.count_singleton_self] at hspace
          rw [heq, toNat_roomId (by omega)] at hpassed
          omega
        rw [get?_create, if_neg hother]
        rfl
      · have hstays : op = .reclaim → id ∉ r.reclaims := fun hreclaim hmem => by
          rw [if_pos hreclaim] at hgone
          exact hgone hmem
        rw [get?_apply hop hstays, Option.map_map]
        cases op.slotOp? id <;> rfl

/-! ## All numbers -/

/-- The numbers that are tracked have been given out. -/
def Numbered (r : Registry) : Prop := ∀ id slot, r.rooms.get? id = some slot →
  r.base.toNat < id.num.toNat ∧ id.num.toNat ≤ r.base.toNat + r.created

theorem Numbered.apply (h : r.Numbered) (op : Op)
    (hspace : r.base.toNat + r.created + [op].count .create < UInt32.size) :
    (r.apply encoder op).2.Numbered := by
  intro id slot' hslot'
  obtain ⟨hbase, -, hcreated, -⟩ := passed_apply encoder r op
  rw [hbase, hcreated]
  by_cases hop : op = .create
  · subst hop
    rw [List.count_singleton_self] at hspace ⊢
    rw [get?_create] at hslot'
    split at hslot'
    · rename_i hid
      rw [hid, toNat_roomId (by omega)]
      omega
    · have := h id slot' hslot'
      omega
  · -- what is tracked afterwards was tracked before
    obtain ⟨slot, hslot, -⟩ := exists_get?_before hop hslot'
    have := h id slot hslot
    omega

theorem numbered_run (encoder : Encoder) (base : UInt32) (config : BattleConfig) (rota : Room.Rota)
    (ops : List Op)
    (hspace : base.toNat + ops.count .create < UInt32.size) :
    (run encoder (new base config rota) ops).2.Numbered := by
  induction ops using List.reverseRecOn with
  | nil =>
    intro id slot hslot
    cases hslot
  | append_singleton ops op ih =>
    rw [List.count_append] at hspace
    obtain ⟨hbase, -, hcreated, -⟩ := settled_run encoder base config rota ops
    rw [run_snoc]
    refine (ih (by omega)).apply op ?_
    rw [hbase, hcreated]
    exact (Nat.add_assoc _ _ _).trans_lt hspace

/-- What has been removed had been given out. -/
theorem le_of_mem_removed {base : UInt32} {config : BattleConfig} {rota : Room.Rota} {ops : List Op}
    (hspace : base.toNat + ops.count .create < UInt32.size)
    (hgone : id ∈ removed encoder (new base config rota) ops) :
    id.num.toNat ≤ base.toNat + ops.count .create := by
  induction ops using List.reverseRecOn with
  | nil => exact absurd hgone List.not_mem_nil
  | append_singleton ops op ih =>
    rw [List.count_append] at hspace ⊢
    rw [removed_append, List.mem_append] at hgone
    rcases hgone with hgone | hgone
    · have := ih (by omega) hgone
      omega
    · -- it goes with the last operation, and was tracked until then
      simp only [removed, List.append_nil] at hgone
      split at hgone
      · obtain ⟨slot, hslot, -⟩ := mem_reclaims_iff.mp hgone
        obtain ⟨hbase, -, hcreated, -⟩ := settled_run encoder base config rota ops
        have hnumber := numbered_run encoder base config rota ops (by omega) id slot hslot
        rw [hbase, hcreated] at hnumber
        omega
      · exact absurd hgone List.not_mem_nil

variable (encoder) in
/-- **One room from its creation on:** until its number is removed, the slot found under it is the
one that was created, as the operations on it have left it. -/
theorem get?_created {base : UInt32} {config : BattleConfig} {rota : Room.Rota}
    {before after : List Op}
    (hspace : base.toNat + (before ++ .create :: after).count .create < UInt32.size)
    (hid : id = (new base config rota).roomId (before.count .create + 1)) :
    let ops := before ++ .create :: after
    let fresh := Room.Slot.ofRoom (Room.new id config.validated) (decide (.shutdown ∈ before))
    (id ∈ removed encoder (new base config rota) ops →
      (run encoder (new base config rota) ops).2.rooms.get? id = none) ∧
    (id ∉ removed encoder (new base config rota) ops →
      (run encoder (new base config rota) ops).2.rooms.get? id =
        some (Room.Slot.run encoder fresh (after.filterMap (Op.slotOp? id))).2) := by
  intro ops fresh
  have hcount : ops.count .create = before.count .create + (after.count .create + 1) := by
    rw [List.count_append, List.count_cons_self]
  rw [hcount] at hspace
  obtain ⟨hbase, hconfig, hcreated, hstopped⟩ := settled_run encoder base config rota before
  obtain ⟨hbase', -, hcreated', -⟩ := settled_run encoder base config rota (before ++ [.create])
  rw [run_snoc] at hbase' hcreated'
  rw [List.count_append, List.count_singleton_self] at hcreated'
  have hsame : (run encoder (new base config rota) before).2.base = (new base config rota).base := hbase
  have hnumber : id.num.toNat = base.toNat + (before.count .create + 1) := by
    rw [hid, toNat_roomId_new (by omega)]
  -- the room is there once it has been created, and its number has not been removed before
  have hfresh : ((run encoder (new base config rota) before).2.apply encoder .create).2.rooms.get? id =
      some fresh := by
    rw [get?_create, hcreated, roomId_congr hsame, ← hid, if_pos rfl, hconfig, hstopped]
  have hnever : id ∉ removed encoder (new base config rota) before := fun hgone => by
    have := le_of_mem_removed (by omega) hgone
    omega
  have hremoved : id ∈ removed encoder (new base config rota) ops ↔
      id ∈ removed encoder ((run encoder (new base config rota) before).2.apply encoder .create).2
        after := by
    rw [removed_append, List.mem_append, removed, if_neg (by simp), List.nil_append]
    exact or_iff_right hnever
  have hpassed : id.num.toNat ≤
      ((run encoder (new base config rota) before).2.apply encoder .create).2.base.toNat +
        ((run encoder (new base config rota) before).2.apply encoder .create).2.created := by
    rw [hbase', hcreated', hnumber]
  obtain ⟨hlost, hkept⟩ := get?_run encoder after hpassed (by
    rw [hbase', hcreated']
    omega)
  rw [hfresh] at hkept
  rw [run_append]
  exact ⟨fun hgone => hlost (hremoved.mp hgone), fun hstays => hkept (mt hremoved.mpr hstays)⟩

/-- A slot that is found has not been removed, and is what the operations on it have made of the new
one. -/
theorem slot_created {base : UInt32} {config : BattleConfig} {rota : Room.Rota}
    {before after : List Op}
    {slot : Room.Slot} (hspace : base.toNat + (before ++ .create :: after).count .create < UInt32.size)
    (hid : id = (new base config rota).roomId (before.count .create + 1))
    (hslot : (run encoder (new base config rota) (before ++ .create :: after)).2.rooms.get? id =
      some slot) :
    id ∉ removed encoder (new base config rota) (before ++ .create :: after) ∧
      slot = (Room.Slot.run encoder
        (Room.Slot.ofRoom (Room.new id config.validated) (decide (.shutdown ∈ before)))
        (after.filterMap (Op.slotOp? id))).2 := by
  obtain ⟨hlost, hkept⟩ := get?_created encoder hspace hid
  have hstays : id ∉ removed encoder (new base config rota) (before ++ .create :: after) := fun hgone => by
    cases (hlost hgone).symm.trans hslot
  exact ⟨hstays, Option.some.inj (hslot.symm.trans (hkept hstays))⟩

/-- A history can be parted at any of its creations. -/
theorem exists_creation {ops : List Op} {n : Nat} (h : n < ops.count .create) :
    ∃ before after, ops = before ++ .create :: after ∧ before.count .create = n := by
  induction ops using List.reverseRecOn with
  | nil => exact absurd h (Nat.not_lt_zero n)
  | append_singleton ops op ih =>
    -- the creation that is looked for is an earlier one, or else the last operation itself
    by_cases hlast : n < ops.count .create
    · obtain ⟨before, after, rfl, hcount⟩ := ih hlast
      exact ⟨before, after ++ [op], by simp, hcount⟩
    · rw [List.count_append] at h
      have hop : op = .create := by
        refine Classical.byContradiction fun hop => ?_
        have hnone : [op].count .create = 0 := List.count_eq_zero.mpr (by simpa using Ne.symm hop)
        omega
      subst hop
      rw [List.count_singleton_self] at h
      exact ⟨ops, [], rfl, by omega⟩

/-- **A room that is tracked** has a creation in the history. -/
theorem exists_created {base : UInt32} {config : BattleConfig} {rota : Room.Rota} {ops : List Op}
    {slot : Room.Slot}
    (hspace : base.toNat + ops.count .create < UInt32.size)
    (hslot : (run encoder (new base config rota) ops).2.rooms.get? id = some slot) :
    ∃ before after, ops = before ++ .create :: after ∧
      id = (new base config rota).roomId (before.count .create + 1) := by
  obtain ⟨hbase, -, hcount, -⟩ := settled_run encoder base config rota ops
  have hbounds := numbered_run encoder base config rota ops hspace id slot hslot
  rw [hbase, hcount] at hbounds
  have hlt : id.num.toNat - base.toNat - 1 < ops.count .create := by
    omega
  obtain ⟨before, after, rfl, hsplit⟩ := exists_creation hlt
  have hnumber : id.num.toNat = ((new base config rota).roomId (before.count .create + 1)).num.toNat := by
    rw [toNat_roomId_new (by omega)]
    omega
  exact ⟨before, after, rfl, congrArg RoomId.mk (UInt32.toNat_inj.mp hnumber)⟩

end Lookup

/-- **Look-ups are exact, and no number is used twice.** After any history that stays within the
numbers:

- the creations have answered the numbers after the base, in order;
- a look-up finds a slot exactly under the numbers that were given out and that no reclaim has removed,
  and under every other number it finds no room;
- the slot it finds is the one that was created under the number (stopped from the start if the
  registry had been shut down), as the operations on this room have left it since;
- these numbers are listed, strictly ascending, and the count is the length of the list;
- a reclaim answers how many numbers it takes off the list;
- and under a number that was removed at any time, nothing is found any more. -/
theorem lookups_exact (encoder : Encoder) (base : UInt32) (config : BattleConfig) (rota : Room.Rota)
    (ops : List Op) (hspace : base.toNat + ops.count .create < UInt32.size) :
    let start := new base config rota
    let r := (run encoder start ops).2
    let created := (run encoder start ops).1.filterMap Answer.created?
    let removed := removed encoder start
    (created = (List.range (ops.count .create)).map (fun i => start.roomId (i + 1)) ∧
      ∀ n ≤ ops.count .create, (start.roomId n).num.toNat = base.toNat + n) ∧
    (∀ id, ((∃ slot, r.get id = .ok slot) ↔ id ∈ created ∧ id ∉ removed ops) ∧
      (¬(id ∈ created ∧ id ∉ removed ops) → r.get id = .error (.notFound id))) ∧
    (∀ before after, ops = before ++ .create :: after →
      let id := start.roomId (before.count .create + 1)
      let fresh := Room.Slot.ofRoom (Room.new id config.validated) (decide (.shutdown ∈ before))
      ∀ slot, r.get id = .ok slot →
        slot = (Room.Slot.run encoder fresh (after.filterMap (Op.slotOp? id))).2) ∧
    (r.ids.Pairwise (fun a b => a.num < b.num) ∧
      (∀ id, id ∈ r.ids ↔ id ∈ created ∧ id ∉ removed ops) ∧ r.count = r.ids.length) ∧
    (r.apply encoder .reclaim).1 = .reclaimed r.reclaims.length ∧
    ∀ before after, ops = before ++ after → ∀ id ∈ removed before,
      r.get id = .error (.notFound id) := by
  intro start r created removed
  have hcreated : created = (List.range (ops.count .create)).map (fun i => start.roomId (i + 1)) := by
    have h := created_run encoder start ops
    simpa only [show start.created = 0 from rfl, Nat.zero_add] using h
  have hnumber : ∀ n ≤ ops.count .create, (start.roomId n).num.toNat = base.toNat + n :=
    fun n hn => toNat_roomId_new (by omega)
  -- a number that was given out has a creation in the history, and so has one that is tracked
  have hresolves : ∀ id, (∃ slot, r.rooms.get? id = some slot) ↔ id ∈ created ∧ id ∉ removed ops := by
    intro id
    have hgiven : id ∈ created ↔ ∃ n, n < ops.count .create ∧ id = start.roomId (n + 1) := by
      simp only [hcreated, List.mem_map, List.mem_range, eq_comm]
    rw [hgiven]
    constructor
    · rintro ⟨slot, hslot⟩
      obtain ⟨before, after, rfl, hid⟩ := exists_created hspace hslot
      have hlt : before.count .create < (before ++ .create :: after).count .create := by
        rw [List.count_append, List.count_cons_self]
        omega
      exact ⟨⟨_, hlt, hid⟩, (slot_created hspace hid hslot).1⟩
    · rintro ⟨⟨n, hn, hid⟩, hstays⟩
      obtain ⟨before, after, rfl, rfl⟩ := exists_creation hn
      exact ⟨_, (get?_created encoder hspace hid).2 hstays⟩
  have hmissing : ∀ id, ¬(id ∈ created ∧ id ∉ removed ops) → r.get id = .error (.notFound id) := by
    intro id hnot
    refine get_eq_error_of_none (Option.eq_none_iff_forall_ne_some.mpr fun slot hslot => ?_)
    exact hnot ((hresolves id).mp ⟨slot, hslot⟩)
  refine ⟨⟨hcreated, hnumber⟩, fun id => ⟨?_, hmissing id⟩, ?_, ⟨?_, ?_, ?_⟩, ?_, ?_⟩
  · simp only [Server.get_eq_ok_iff]
    exact hresolves id
  · intro before after hops id fresh slot hslot
    subst hops
    rw [Server.get_eq_ok_iff] at hslot
    exact (slot_created hspace rfl hslot).2
  · exact r.rooms.keys_ascending.imp fun hlt => UInt32.lt_iff_toNat_lt.mpr hlt
  · intro id
    rw [mem_ids_iff]
    exact hresolves id
  · exact (List.length_map _).symm
  · exact congrArg Answer.reclaimed (length_reclaims r).symm
  · intro before after hops id hgone
    refine hmissing id fun hstays => hstays.2 ?_
    show id ∈ Registry.removed encoder start ops
    rw [hops, removed_append]
    exact List.mem_append_left _ hgone

/-- Two rooms are created and the first one is joined, closed and dropped; then a third one is
created and the second one joined. -/
def replacedRoom : List Op :=
  [.create, .create, .onSlot ⟨10001⟩ (.onRoom (.join ⟨101⟩)), .close ⟨10001⟩, .reclaim, .create,
    .onSlot ⟨10002⟩ (.onRoom (.join ⟨102⟩))]

/-- The third room has a number of its own, and the first one is found no more. -/
theorem lookups_exact_replaced :
    let r := (run .standard (new 10000 .standard .inTurn) replacedRoom).2
    (10000 : UInt32).toNat + replacedRoom.count .create < UInt32.size ∧
      r.ids = [⟨10002⟩, ⟨10003⟩] ∧ r.get ⟨10001⟩ = .error (.notFound ⟨10001⟩) ∧
      ∃ slot, r.get ⟨10002⟩ = .ok slot ∧ slot.room.members = [⟨102⟩] := by
  intro r
  have hspace : (10000 : UInt32).toNat + replacedRoom.count .create < UInt32.size := by
    decide +kernel
  obtain ⟨-, -, hslot, -, -, hnever⟩ := lookups_exact .standard 10000 .standard .inTurn replacedRoom hspace
  have hgone : (⟨10001⟩ : RoomId) ∈
      removed .standard (new 10000 .standard .inTurn) (replacedRoom.take 5) := by
    decide +kernel
  have htracked : ∃ x ∈ r.rooms.entries, x.1 = ⟨10002⟩ := by
    decide +kernel
  obtain ⟨⟨id, slot⟩, hmem, hid⟩ := htracked
  have hfound : r.get ⟨10002⟩ = .ok slot :=
    Server.get_eq_ok_iff.mpr (Table.get?_eq_some_iff_mem.mpr (hid ▸ hmem))
  refine ⟨hspace, by decide +kernel, hnever _ (replacedRoom.drop 5) rfl _ hgone, slot, hfound, ?_⟩
  -- the slot is the fresh one after the operations on its room that follow the second creation
  rw [hslot [.create] (replacedRoom.drop 2) rfl slot hfound]
  decide +kernel

end FrameSync.Registry
