import FrameSync.Net.Reassembly
import FrameSync.Proofs.Wire.Framing

/-!
# Reassembly does not see the chunks

How a stream is cut into packets is said without buffers: `Splits` takes packets off its front with
`Wire.split`, up to the first place where no packet can be taken (`Stop`). The decoder of the lobby
channel reaches that place however the stream arrives.

What `next` finds in a buffer is still found when more bytes arrive behind it (`next_append`), so a
round over two runs of bytes is a round over the first and then one over what it left with the
second (`drain_append`). `chunking_invariant` follows by induction over the chunks. A refused header
stays at the front of the buffer, and every later round refuses it again.
-/

set_option autoImplicit false

namespace FrameSync.Net.Reassembly

open Wire

/-! ## Cutting a stream -/

/-- Why no packet can be taken off the front of a stream: the header is not all there, it announces
a negative length or a payload above the limit, or the payload is not all there. -/
inductive Stop (limit : Nat) (s : Bytes) : Prop where
  | header (hsize : s.length < Header.size)
  | negative (n : Int) (hread : Header.read s = .error (.negativeLength n))
  | oversized (h : Header) (hread : Header.read s = .ok h) (hlarge : limit < h.payloadLength)
  | payload (h : Header) (hread : Header.read s = .ok h) (hshort : s.length < h.packetLength)

/-- A stream is cut into packets and a rest, off which no packet can be taken. -/
inductive Splits (limit : Nat) : Bytes → List Packet → Bytes → Prop where
  | stop {s : Bytes} (hstop : Stop limit s) : Splits limit s [] s
  | packet {s rest : Bytes} {p : Packet} {packets : List Packet} (hsplit : split s = .ok p)
      (hlimit : p.payload.length ≤ limit)
      (hrest : Splits limit (s.drop (Header.size + p.payload.length)) packets rest) :
      Splits limit s (p :: packets) rest

/-- A stream starts with a header that is refused, whatever comes behind it. -/
inductive Refused (limit : Nat) (s : Bytes) : TransportError → Prop where
  | negative (n : Int) (hread : Header.read s = .error (.negativeLength n)) :
      Refused limit s (.wire (.negativeLength n))
  | oversized (h : Header) (hread : Header.read s = .ok h) (hlarge : limit < h.payloadLength) :
      Refused limit s (.packetTooLarge h.payloadLength limit)

/-! ## Taking one packet -/

/-- A whole header is read, or its length is negative. -/
theorem read_cases {s : Bytes} (hsize : ¬s.length < Header.size) :
    (∃ n, Header.read s = .error (.negativeLength n)) ∨ ∃ h, Header.read s = .ok h := by
  rcases read_eq hsize with ⟨-, hread⟩ | ⟨h, hread, -⟩
  · exact Or.inl ⟨_, hread⟩
  · exact Or.inr ⟨h, hread⟩

section Next

variable {limit : Nat} {s t rest : Bytes} {h : Header} {p : Packet} {e : TransportError}

theorem next_of_lt (hsize : s.length < Header.size) : next limit s = .ok none := by
  rw [next, if_pos (Bytes.fewerThan_eq_true_iff.mpr hsize)]

theorem next_of_negative {n : Int} (hread : Header.read s = .error (.negativeLength n)) :
    next limit s = .error (.wire (.negativeLength n)) := by
  have hsize : ¬s.length < Header.size := fun hlt => by
    rw [read_of_lt hlt] at hread
    cases hread
  rw [next, if_neg (mt Bytes.fewerThan_eq_true_iff.mp hsize), hread]

/-- Behind a header that can be read, the limit is looked at before the payload. -/
theorem next_of_read (hread : Header.read s = .ok h) :
    next limit s =
      if limit < h.payloadLength then .error (.packetTooLarge h.payloadLength limit)
      else if s.length < h.packetLength then .ok none
      else .ok (some (⟨h.command, (s.drop Header.size).take h.payloadLength⟩,
        s.drop h.packetLength)) := by
  have hsize : ¬s.length < Header.size := fun hlt => by
    rw [read_of_lt hlt] at hread
    cases hread
  rw [next, if_neg (mt Bytes.fewerThan_eq_true_iff.mp hsize), hread]
  simp only [Bytes.fewerThan_eq_true_iff]

/-- What is refused is what starts with a header that is refused. -/
theorem next_eq_error_iff : next limit s = .error e ↔ Refused limit s e := by
  constructor
  · intro hnext
    by_cases hsize : s.length < Header.size
    · rw [next_of_lt hsize] at hnext
      cases hnext
    · rcases read_cases hsize with ⟨n, hread⟩ | ⟨h, hread⟩
      · rw [next_of_negative hread] at hnext
        cases hnext
        exact .negative n hread
      · rw [next_of_read hread] at hnext
        by_cases hlarge : limit < h.payloadLength
        · rw [if_pos hlarge] at hnext
          cases hnext
          exact .oversized h hread hlarge
        · rw [if_neg hlarge] at hnext
          split at hnext <;> cases hnext
  · rintro (⟨n, hread⟩ | ⟨h, hread, hlarge⟩)
    · exact next_of_negative hread
    · rw [next_of_read hread, if_pos hlarge]

/-- A packet is taken where `split` finds one that is not above the limit. -/
theorem next_eq_some_iff : next limit s = .ok (some (p, rest)) ↔
    split s = .ok p ∧ p.payload.length ≤ limit ∧
      rest = s.drop (Header.size + p.payload.length) := by
  by_cases hsize : s.length < Header.size
  · simp [next_of_lt hsize, split, read_of_lt hsize]
  · rcases read_cases hsize with ⟨n, hread⟩ | ⟨h, hread⟩
    · simp [next_of_negative hread, split, hread]
    · rw [next_of_read hread, split, hread]
      by_cases hshort : s.length < h.packetLength
      · by_cases hlarge : limit < h.payloadLength <;> simp [hshort, hlarge]
      · -- the payload is all there, so its length is the announced one that the limit is put to
        have hlength := length_payload hshort
        constructor
        · intro hnext
          by_cases hlarge : limit < h.payloadLength
          · rw [if_pos hlarge] at hnext
            cases hnext
          · rw [if_neg hlarge, if_neg hshort] at hnext
            cases hnext
            refine ⟨if_neg hshort, ?_, by rw [hlength]; rfl⟩
            exact Nat.le_trans (Nat.le_of_eq hlength) (Nat.not_lt.mp hlarge)
        · rintro ⟨hsplit, hlimit, rfl⟩
          simp only [if_neg hshort, Except.ok.injEq] at hsplit
          subst hsplit
          rw [hlength] at hlimit
          rw [if_neg (Nat.not_lt.mpr hlimit), if_neg hshort, hlength]
          rfl

/-- No packet is taken exactly where the cutting stops. -/
theorem stop_iff : Stop limit s ↔ ∀ p rest, next limit s ≠ .ok (some (p, rest)) := by
  constructor
  · rintro (hsize | ⟨n, hread⟩ | ⟨h, hread, hlarge⟩ | ⟨h, hread, hshort⟩) p rest hnext
    · rw [next_of_lt hsize] at hnext
      cases hnext
    · rw [next_of_negative hread] at hnext
      cases hnext
    · rw [next_of_read hread, if_pos hlarge] at hnext
      cases hnext
    · rw [next_of_read hread, if_pos hshort] at hnext
      split at hnext <;> cases hnext
  · intro hnone
    by_cases hsize : s.length < Header.size
    · exact .header hsize
    · rcases read_cases hsize with ⟨n, hread⟩ | ⟨h, hread⟩
      · exact .negative n hread
      · by_cases hlarge : limit < h.payloadLength
        · exact .oversized h hread hlarge
        · by_cases hshort : s.length < h.packetLength
          · exact .payload h hread hshort
          · exact absurd ((next_of_read hread).trans ((if_neg hlarge).trans (if_neg hshort)))
              (hnone _ _)

/-- **More bytes change nothing** about a packet that is all there. -/
theorem next_append (hnext : next limit s = .ok (some (p, rest))) :
    next limit (s ++ t) = .ok (some (p, rest ++ t)) := by
  have hsize : ¬s.length < Header.size := fun hlt => by
    rw [next_of_lt hlt] at hnext
    cases hnext
  rcases read_cases hsize with ⟨n, hread⟩ | ⟨h, hread⟩
  · rw [next_of_negative hread] at hnext
    cases hnext
  · rw [next_of_read hread] at hnext
    rw [next_of_read ((read_append hsize t).trans hread)]
    by_cases hlarge : limit < h.payloadLength
    · rw [if_pos hlarge] at hnext
      cases hnext
    · by_cases hshort : s.length < h.packetLength
      · rw [if_neg hlarge, if_pos hshort] at hnext
        cases hnext
      · rw [if_neg hlarge, if_neg hshort] at hnext
        cases hnext
        have hlong : ¬(s ++ t).length < h.packetLength := by
          rw [List.length_append]
          omega
        have hpayload : h.payloadLength ≤ (s.drop Header.size).length := by
          rw [← length_payload hshort, List.length_take]
          exact Nat.min_le_right _ _
        rw [if_neg hlarge, if_neg hlong, List.drop_append_of_le_length (Nat.not_lt.mp hsize),
          List.take_append_of_le_length hpayload,
          List.drop_append_of_le_length (Nat.not_lt.mp hshort)]

/-- **More bytes change nothing** about a header that is refused. -/
theorem Refused.append (hrefused : Refused limit s e) (t : Bytes) : Refused limit (s ++ t) e := by
  have hsize : ¬s.length < Header.size := fun hlt => by
    have hnext := next_eq_error_iff.mpr hrefused
    rw [next_of_lt hlt] at hnext
    cases hnext
  rcases hrefused with ⟨n, hread⟩ | ⟨h, hread, hlarge⟩
  · exact .negative n ((read_append hsize t).trans hread)
  · exact .oversized h ((read_append hsize t).trans hread) hlarge

end Next

/-! ## One round -/

section Drain

variable {limit : Nat} {s t rest : Bytes} {p : Packet} {e : TransportError}

theorem drain_of_error (hnext : next limit s = .error e) : drain limit s = ⟨[], some e, s⟩ := by
  rw [drain]
  split <;> simp_all

theorem drain_of_none (hnext : next limit s = .ok none) : drain limit s = ⟨[], none, s⟩ := by
  rw [drain]
  split <;> simp_all

theorem drain_of_some (hnext : next limit s = .ok (some (p, rest))) :
    drain limit s =
      ⟨p :: (drain limit rest).packets, (drain limit rest).error, (drain limit rest).rest⟩ := by
  rw [drain]
  split <;> simp_all

/-- **A round takes packets off as far as the stream can be cut.** -/
theorem splits_drain (limit : Nat) (s : Bytes) :
    Splits limit s (drain limit s).packets (drain limit s).rest := by
  fun_induction drain limit s with
  | case1 s e hnext =>
    refine .stop (stop_iff.mpr fun p rest hsome => ?_)
    rw [hnext] at hsome
    cases hsome
  | case2 s hnext =>
    refine .stop (stop_iff.mpr fun p rest hsome => ?_)
    rw [hnext] at hsome
    cases hsome
  | case3 s p rest hnext _ round ih =>
    obtain ⟨hsplit, hlimit, rfl⟩ := next_eq_some_iff.mp hnext
    exact .packet hsplit hlimit ih

/-- Where the cutting stops, a round takes nothing. -/
theorem drain_of_stop (hstop : Stop limit s) : (drain limit s).packets = [] ∧
    (drain limit s).rest = s := by
  cases hnext : next limit s with
  | error e => rw [drain_of_error hnext]; exact ⟨rfl, rfl⟩
  | ok found =>
    cases found with
    | none => rw [drain_of_none hnext]; exact ⟨rfl, rfl⟩
    | some found => exact absurd hnext (stop_iff.mp hstop found.1 found.2)

/-- **A stream is cut in one way only**, and that is how a round cuts it. -/
theorem drain_of_splits {packets : List Packet} (hsplits : Splits limit s packets rest) :
    (drain limit s).packets = packets ∧ (drain limit s).rest = rest := by
  induction hsplits with
  | stop hstop => exact drain_of_stop hstop
  | packet hsplit hlimit _ ih =>
    rw [drain_of_some (next_eq_some_iff.mpr ⟨hsplit, hlimit, rfl⟩)]
    exact ⟨congrArg _ ih.1, ih.2⟩

/-- What a round leaves is where the cutting stops. -/
theorem stop_of_splits {packets : List Packet} (hsplits : Splits limit s packets rest) :
    Stop limit rest := by
  induction hsplits with
  | stop hstop => exact hstop
  | packet _ _ _ ih => exact ih

theorem stop_drain_rest (limit : Nat) (s : Bytes) : Stop limit (drain limit s).rest :=
  stop_of_splits (splits_drain limit s)

/-- **A round ends in an error exactly if what it leaves is refused.** -/
theorem drain_error_iff : (drain limit s).error = some e ↔ Refused limit (drain limit s).rest e := by
  rw [← next_eq_error_iff]
  fun_induction drain limit s with
  | case1 s e' hnext => rw [hnext, Option.some.injEq, Except.error.injEq]
  | case2 s hnext => simp [hnext]
  | case3 s p rest hnext _ round ih => exact ih

/-- **A round over two runs of bytes** is a round over the first, and then one over what it left
with the second. -/
theorem drain_append (limit : Nat) (s t : Bytes) :
    drain limit (s ++ t) =
      ⟨(drain limit s).packets ++ (drain limit ((drain limit s).rest ++ t)).packets,
        (drain limit ((drain limit s).rest ++ t)).error,
        (drain limit ((drain limit s).rest ++ t)).rest⟩ := by
  -- along the packets of the first run; where it stops, all its bytes wait for the second
  fun_induction drain limit s with
  | case1 s e hnext => rfl
  | case2 s hnext => rfl
  | case3 s p rest hnext _ round ih =>
    rw [drain_of_some (next_append hnext), ih]
    rfl

/-- A round over a buffer that is refused finds it refused, and consumes nothing. -/
theorem feed_of_refused (hrefused : Refused limit s e) (chunk : Bytes) :
    feed limit s chunk = ⟨[], some e, s ++ chunk⟩ :=
  drain_of_error (next_eq_error_iff.mpr (hrefused.append chunk))

end Drain

/-! ## All rounds -/

section Feed

variable {limit : Nat} {waiting : Bytes} {e : TransportError}

/-- **Feeding the chunks one by one** takes the packets and leaves the bytes of one round over all
of them. -/
theorem feedAll_eq_drain (hstop : Stop limit waiting) (chunks : List Bytes) :
    (feedAll limit waiting chunks).flatMap Round.packets =
        (drain limit (waiting ++ chunks.flatten)).packets ∧
      leftover limit waiting chunks = (drain limit (waiting ++ chunks.flatten)).rest := by
  induction chunks generalizing waiting with
  | nil =>
    obtain ⟨hpackets, hrest⟩ := drain_of_stop hstop
    rw [List.flatten_nil, List.append_nil, hpackets, hrest]
    exact ⟨rfl, rfl⟩
  | cons chunk chunks ih =>
    -- the first round leaves bytes off which nothing can be taken, as the next one expects
    obtain ⟨hpackets, hrest⟩ := ih (stop_drain_rest limit (waiting ++ chunk))
    rw [List.flatten_cons, ← List.append_assoc, drain_append, feedAll, List.flatMap_cons, leftover,
      feed, hpackets, hrest]
    exact ⟨rfl, rfl⟩

/-- The rounds after some of the chunks are those over the other chunks, from what the last round
left. -/
theorem drop_feedAll {chunks : List Bytes} {i : Nat} {round : Round}
    (hround : (feedAll limit waiting chunks)[i]? = some round) :
    (feedAll limit waiting chunks).drop (i + 1) =
      feedAll limit round.rest (chunks.drop (i + 1)) := by
  induction chunks generalizing waiting i with
  | nil => cases hround
  | cons chunk chunks ih =>
    cases i with
    | zero =>
      cases hround
      rfl
    | succ i => exact ih hround

/-- Every round is a round over what had been left. -/
theorem error_feedAll_iff {chunks : List Bytes} {i : Nat} {round : Round}
    (hround : (feedAll limit waiting chunks)[i]? = some round) :
    round.error = some e ↔ Refused limit round.rest e := by
  induction chunks generalizing waiting i with
  | nil => cases hround
  | cons chunk chunks ih =>
    cases i with
    | zero =>
      cases hround
      exact drain_error_iff
    | succ i => exact ih hround

/-- **What is refused stays refused**: all rounds report the same error, and the chunks pile up. -/
theorem feedAll_of_refused (hrefused : Refused limit waiting e) {chunks : List Bytes} {i : Nat}
    {round : Round} (hround : (feedAll limit waiting chunks)[i]? = some round) :
    round = ⟨[], some e, waiting ++ (chunks.take (i + 1)).flatten⟩ := by
  induction chunks generalizing waiting i with
  | nil => cases hround
  | cons chunk chunks ih =>
    -- this round takes nothing off, so that the next one begins with its chunk added
    rw [feedAll, feed_of_refused hrefused] at hround
    cases i with
    | zero =>
      cases hround
      simp
    | succ i =>
      rw [ih (hrefused.append chunk) hround, List.take_succ_cons, List.flatten_cons,
        List.append_assoc]

/-- **The last look** takes nothing off a buffer that has been drained, and fails unless that is
empty. -/
theorem finish_of_stop (hstop : Stop limit waiting) :
    (finish limit waiting).packets = [] ∧ (finish limit waiting).rest = waiting ∧
      ((finish limit waiting).error.isSome = true ↔ waiting ≠ []) := by
  cases hnext : next limit waiting with
  | error e =>
    have hne : waiting ≠ [] := fun hnil => by
      rw [hnil, next_of_lt (by decide)] at hnext
      cases hnext
    rw [finish, drain_of_error hnext]
    exact ⟨rfl, rfl, iff_of_true rfl hne⟩
  | ok found =>
    cases found with
    | some found => exact absurd hnext (stop_iff.mp hstop found.1 found.2)
    | none =>
      rw [finish, drain_of_none hnext]
      by_cases hnil : waiting = [] <;> simp [hnil]

end Feed

/-- **Reassembly does not depend on how the stream is cut into chunks.** The packets of all rounds
and the bytes that are left are those of the whole stream fed in one piece, and those that `Splits`
gives, which are determined. A round reports an error exactly if what it leaves starts with a
refused header, and then so does every later round, with the same error, no packets and all bytes
kept. When the stream ends, the last look fails unless no bytes are left. -/
theorem chunking_invariant (limit : Nat) (chunks : List Bytes) :
    let s := chunks.flatten
    let rounds := feedAll limit [] chunks
    let left := leftover limit [] chunks
    (rounds.flatMap Round.packets = (feed limit [] s).packets ∧ left = (feed limit [] s).rest) ∧
      (∀ packets rest, Splits limit s packets rest ↔
        packets = rounds.flatMap Round.packets ∧ rest = left) ∧
      (∀ (i : Nat) round, rounds[i]? = some round → ∀ e,
        (round.error = some e ↔ Refused limit round.rest e) ∧
        (round.error = some e → ∀ (j : Nat) later, rounds[i + 1 + j]? = some later →
          later = ⟨[], some e, round.rest ++ ((chunks.drop (i + 1)).take (j + 1)).flatten⟩)) ∧
      (finish limit left).packets = [] ∧ (finish limit left).rest = left ∧
      ((finish limit left).error.isSome = true ↔ left ≠ []) := by
  intro s rounds left
  have hempty : Stop limit [] := .header (by decide)
  obtain ⟨hpackets, hleft⟩ := feedAll_eq_drain hempty chunks
  have hstop : Stop limit left := by
    show Stop limit (leftover limit [] chunks)
    rw [hleft]
    exact stop_drain_rest limit _
  refine ⟨⟨hpackets, hleft⟩, fun packets rest => ?_, fun i round hround e => ?_,
    finish_of_stop hstop⟩
  · constructor
    · intro hsplits
      obtain ⟨h₁, h₂⟩ := drain_of_splits hsplits
      exact ⟨h₁.symm.trans hpackets.symm, h₂.symm.trans hleft.symm⟩
    · rintro ⟨rfl, rfl⟩
      show Splits limit s ((feedAll limit [] chunks).flatMap Round.packets)
        (leftover limit [] chunks)
      rw [hpackets, hleft]
      exact splits_drain limit s
  · have herror : round.error = some e ↔ Refused limit round.rest e := error_feedAll_iff hround
    refine ⟨herror, fun he j later hlater => ?_⟩
    rw [← List.getElem?_drop, drop_feedAll hround] at hlater
    exact feedAll_of_refused (herror.mp he) hlater

end FrameSync.Net.Reassembly
