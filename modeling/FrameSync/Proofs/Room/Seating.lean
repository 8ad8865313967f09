import FrameSync.Proofs.Room.Steps
import Mathlib.Data.List.Sort

/-!
# Who sits where when a battle starts

At the start every seat takes the rank of its player among the members, and the seats are put in
order of position. If the seats belong to exactly the members, each to one, they then are the
members in order: seat `i` has position `i` and belongs to the `i`-th member
(`map_player_startSeats`, `map_position_startSeats`), whatever their order and positions were
before.
-/

set_option autoImplicit false

namespace FrameSync.Room

/-! ## Ranks -/

/-- Ranks go up with the numbers of the players. -/
theorem rankOf_mono (r : Room) {p q : PlayerId} (h : p.num ≤ q.num) : r.rankOf p ≤ r.rankOf q := by
  rw [rankOf, rankOf, ← List.countP_eq_length_filter, ← List.countP_eq_length_filter]
  refine List.countP_mono_left fun m _ hm => ?_
  simp only [decide_eq_true_eq] at hm ⊢
  exact UInt32.lt_of_lt_of_le hm h

/-- **The ranks of ascending members** count up from zero. -/
theorem map_rank_ascending {members : List PlayerId}
    (h : members.Pairwise fun a b => a.num < b.num) :
    (members.map fun p => (members.filter fun m => m.num < p.num).length) =
      List.range members.length := by
  induction members with
  | nil => rfl
  | cons m rest ih =>
    rw [List.pairwise_cons] at h
    have hfirst : (m :: rest).filter (fun a => a.num < m.num) = [] := by
      refine List.filter_eq_nil_iff.mpr fun a ha => ?_
      rw [decide_eq_true_eq]
      rcases List.mem_cons.mp ha with rfl | ha
      · exact UInt32.lt_irrefl _
      · exact fun hlt => UInt32.lt_asymm hlt (h.1 a ha)
    have hrest : ∀ p ∈ rest, ((m :: rest).filter fun a => a.num < p.num).length =
        ((rest.filter fun a => a.num < p.num).length).succ := by
      intro p hp
      rw [List.filter_cons_of_pos (by simpa using h.1 p hp), List.length_cons]
    rw [List.map_cons, hfirst, List.map_congr_left hrest, List.length_cons,
      List.range_succ_eq_map, ← ih h.2, List.map_map]
    rfl

theorem map_rankOf_members {r : Room} (h : r.members.Pairwise fun a b => a.num < b.num) :
    r.members.map r.rankOf = List.range r.members.length := map_rank_ascending h

/-! ## Seats in order -/

theorem perm_insertSeat (s : Seat) (seats : List Seat) :
    (insertSeat s seats).Perm (s :: seats) := by
  induction seats with
  | nil => exact List.Perm.refl _
  | cons t rest ih =>
    rw [insertSeat]
    split
    · exact List.Perm.refl _
    · exact (ih.cons t).trans (List.Perm.swap s t rest)

theorem insertSeat_sorted {s : Seat} {seats : List Seat}
    (h : seats.Pairwise fun a b => a.position ≤ b.position) :
    (insertSeat s seats).Pairwise fun a b => a.position ≤ b.position := by
  induction seats with
  | nil => simp [insertSeat]
  | cons t rest ih =>
    rw [List.pairwise_cons] at h
    rw [insertSeat]
    split
    · rename_i hlt
      refine List.pairwise_cons.mpr ⟨fun b hb => ?_, List.pairwise_cons.mpr h⟩
      rcases List.mem_cons.mp hb with rfl | hb
      · exact Nat.le_of_lt hlt
      · exact Nat.le_trans (Nat.le_of_lt hlt) (h.1 b hb)
    · rename_i hle
      refine List.pairwise_cons.mpr ⟨fun b hb => ?_, ih h.2⟩
      rcases List.mem_cons.mp ((perm_insertSeat s rest).mem_iff.mp hb) with rfl | hb
      · exact Nat.le_of_not_lt hle
      · exact h.1 b hb

/-- Sorting seats into sorted ones keeps all of them, and the order. -/
theorem foldl_insertSeat (seats sorted : List Seat)
    (h : sorted.Pairwise fun a b => a.position ≤ b.position) :
    (seats.foldl (fun sorted s => insertSeat s sorted) sorted).Perm (seats ++ sorted) ∧
      (seats.foldl (fun sorted s => insertSeat s sorted) sorted).Pairwise
        fun a b => a.position ≤ b.position := by
  induction seats generalizing sorted with
  | nil => exact ⟨List.Perm.refl _, h⟩
  | cons s rest ih =>
    obtain ⟨hperm, hsorted⟩ := ih (insertSeat s sorted) (insertSeat_sorted h)
    refine ⟨hperm.trans ?_, hsorted⟩
    exact ((perm_insertSeat s sorted).append_left rest).trans List.perm_middle

theorem perm_sortSeats (seats : List Seat) : (sortSeats seats).Perm seats := by
  have h := (foldl_insertSeat seats [] List.Pairwise.nil).1
  rwa [List.append_nil] at h

theorem sortSeats_sorted (seats : List Seat) :
    (sortSeats seats).Pairwise fun a b => a.position ≤ b.position :=
  (foldl_insertSeat seats [] List.Pairwise.nil).2

/-! ## The start -/

/-- The seats a battle starts with. -/
def startSeats (r : Room) : List Seat :=
  sortSeats (r.seats.map fun s => { s with position := r.rankOf s.player })

@[simp] theorem start_seats (r : Room) (now : Nat) : (r.start now).2.seats = r.startSeats := rfl

/-- A seat at the start is an old one with the rank of its player. -/
theorem mem_startSeats {r : Room} {s : Seat} :
    s ∈ r.startSeats ↔ ∃ t ∈ r.seats, s = { t with position := r.rankOf t.player } := by
  rw [startSeats, (perm_sortSeats _).mem_iff, List.mem_map]
  exact exists_congr fun t => and_congr_right fun _ => eq_comm

theorem perm_map_player_startSeats (r : Room) :
    (r.startSeats.map Seat.player).Perm (r.seats.map Seat.player) := by
  refine ((perm_sortSeats _).map Seat.player).trans (.of_eq ?_)
  rw [List.map_map]
  rfl

theorem map_rankOf_startSeats (r : Room) :
    (r.startSeats.map Seat.player).map r.rankOf = r.startSeats.map Seat.position := by
  rw [List.map_map]
  refine List.map_congr_left fun s hs => ?_
  obtain ⟨t, -, rfl⟩ := mem_startSeats.mp hs
  rfl

section Start

variable {r : Room} (hmembers : r.members.Pairwise fun a b => a.num < b.num)
  (hseats : (r.seats.map Seat.player).Perm r.members)

include hmembers hseats

/-- **At the start seat `i` has position `i`.** -/
theorem map_position_startSeats :
    r.startSeats.map Seat.position = List.range r.members.length := by
  -- the positions are the ranks of the members in some order, and they have been sorted
  have hperm : (r.startSeats.map Seat.position).Perm (List.range r.members.length) := by
    rw [← map_rankOf_startSeats, ← map_rankOf_members hmembers]
    exact ((perm_map_player_startSeats r).trans hseats).map r.rankOf
  have hsorted : (r.startSeats.map Seat.position).Pairwise (· ≤ ·) :=
    List.pairwise_map.mpr (sortSeats_sorted _)
  exact hperm.eq_of_pairwise' hsorted List.pairwise_le_range

/-- **At the start the seats are those of the members in order.** -/
theorem map_player_startSeats : r.startSeats.map Seat.player = r.members := by
  -- players whose ranks ascend ascend themselves, and the members do so in one way only
  have hranks : ((r.startSeats.map Seat.player).map r.rankOf).Pairwise (· < ·) := by
    rw [map_rankOf_startSeats, map_position_startSeats hmembers hseats]
    exact List.pairwise_lt_range
  have hascending : (r.startSeats.map Seat.player).Pairwise fun a b => a.num < b.num := by
    refine (List.pairwise_map.mp hranks).imp fun {a b} hlt => ?_
    refine Classical.byContradiction fun hle => ?_
    have := r.rankOf_mono (UInt32.not_lt.mp hle)
    omega
  refine List.Perm.eq_of_pairwise (fun a b _ _ hab hba => ?_) hascending hmembers
    ((perm_map_player_startSeats r).trans hseats)
  exact absurd hba (UInt32.lt_asymm hab)

end Start

end FrameSync.Room
