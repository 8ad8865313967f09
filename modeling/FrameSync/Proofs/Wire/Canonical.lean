import FrameSync.Wire.Message

/-!
# One form for every body

A layout is canonical if it reads back what it writes, whatever comes behind it, and reads nothing
but what it would write (`Layout.Canonical`). Numbers, texts and choices are, and `pair`, `convert`
and `list` make canonical layouts of canonical layouts, so that every message body has one
(`MessageType.canonical_layout`). What follows from it for the bytes of bodies is `body_canonical`:
no body is the beginning of another one, and none can be read before its last byte is there.

A length on the wire has eight bytes, so this is about values with fewer than `sizeLimit` bytes.
-/

set_option autoImplicit false

namespace FrameSync.Wire

/-- Lengths on the wire are below this. -/
def sizeLimit : Nat := UInt64.size

namespace Layout

variable {α β : Type} {l : Layout α} {m : Layout β}

/-- A layout with one form for each value: what is written is read back, and what comes behind it is
left; what is read is what would be written. -/
structure Canonical (l : Layout α) : Prop where
  decode_append : ∀ v tail, (l.encode v).length < sizeLimit →
    l.decode (l.encode v ++ tail) = .ok (v, tail)
  encode_append : ∀ bytes v rest, l.decode bytes = .ok (v, rest) → l.encode v ++ rest = bytes

/-! ## Numbers -/

theorem word_append (width : Nat) {n : Nat} (hn : n < Nat.pow 256 width) (tail : Bytes) :
    (word width).decode ((word width).encode n ++ tail) = .ok (n, tail) := by
  have hlength : (Bytes.littleEndian width n).length = width := Bytes.length_littleEndian width n
  have htake : (Bytes.littleEndian width n ++ tail).take width = Bytes.littleEndian width n :=
    List.take_left' hlength
  have hdrop : (Bytes.littleEndian width n ++ tail).drop width = tail := List.drop_left' hlength
  have hvalue : Bytes.ofLittleEndian (Bytes.littleEndian width n) = n := by
    rw [Bytes.ofLittleEndian_littleEndian, Nat.mod_eq_of_lt hn]
  simp only [word, htake, hdrop, hlength, hvalue, Nat.lt_irrefl, if_false]

/-- A number that is read fits its width, and its bytes are those in front. -/
theorem word_eq_ok {width n : Nat} {bytes rest : Bytes}
    (h : (word width).decode bytes = .ok (n, rest)) :
    n < Nat.pow 256 width ∧ (word width).encode n ++ rest = bytes := by
  simp only [word] at h
  split at h
  · cases h
  · rename_i hlength
    cases h
    -- all the bytes that were asked for are there
    have htake : (bytes.take width).length = width := by
      rw [List.length_take] at hlength ⊢
      omega
    constructor
    · have hlt := Bytes.ofLittleEndian_lt (bytes.take width)
      rwa [htake] at hlt
    · have hwritten := Bytes.littleEndian_ofLittleEndian (bytes.take width)
      rw [htake] at hwritten
      show Bytes.littleEndian width _ ++ bytes.drop width = bytes
      rw [hwritten]
      exact List.take_append_drop width bytes

/-- A type whose values are the numbers of a width. -/
theorem canonical_number {width : Nat} {into : Nat → α} {out : α → Nat}
    (hlt : ∀ a, out a < Nat.pow 256 width) (hinto : ∀ a, into (out a) = a)
    (hout : ∀ n, n < Nat.pow 256 width → out (into n) = n) :
    ((word width).convert into out).Canonical := by
  constructor
  · intro v tail _
    simp only [convert, word_append width (hlt v), hinto]
  · intro bytes v rest h
    simp only [convert] at h ⊢
    split at h
    · cases h
    · rename_i n rest' hword
      cases h
      obtain ⟨hn, hbytes⟩ := word_eq_ok hword
      rw [hout n hn]
      exact hbytes

theorem canonical_u8 : u8.Canonical :=
  canonical_number UInt8.toNat_lt (fun _ => UInt8.ofNat_toNat)
    fun _ hn => UInt8.toNat_ofNat_of_lt' hn

theorem canonical_u32 : u32.Canonical :=
  canonical_number UInt32.toNat_lt (fun _ => UInt32.ofNat_toNat)
    fun _ hn => UInt32.toNat_ofNat_of_lt' hn

theorem canonical_u64 : u64.Canonical :=
  canonical_number UInt64.toNat_lt (fun _ => UInt64.ofNat_toNat)
    fun _ hn => UInt64.toNat_ofNat_of_lt' hn

/-! ## Layouts of layouts -/

/-- A type with the same values. -/
theorem Canonical.convert (h : l.Canonical) {into : α → β} {out : β → α}
    (hinto : ∀ b, into (out b) = b) (hout : ∀ a, out (into a) = a) :
    (l.convert into out).Canonical := by
  constructor
  · intro v tail hsize
    simp only [Layout.convert] at hsize ⊢
    rw [h.decode_append (out v) tail hsize]
    simp only [hinto]
  · intro bytes v rest hread
    simp only [Layout.convert] at hread ⊢
    split at hread
    · cases hread
    · rename_i a rest' ha
      cases hread
      rw [hout]
      exact h.encode_append bytes a rest ha

/-- The second value is read where the first one ends. -/
theorem Canonical.pair (hl : l.Canonical) (hm : m.Canonical) : (l.pair m).Canonical := by
  constructor
  · intro v tail hsize
    have hparts : (l.encode v.1).length + (m.encode v.2).length < sizeLimit := by
      rw [← List.length_append]
      exact hsize
    have hfirst := hl.decode_append v.1 (m.encode v.2 ++ tail) (by omega)
    have hsecond := hm.decode_append v.2 tail (by omega)
    simp only [Layout.pair, List.append_assoc, hfirst, hsecond]
  · -- the bytes between the two readings are both what the first left and what the second was given
    intro bytes v rest hread
    simp only [Layout.pair] at hread ⊢
    split at hread
    · cases hread
    · rename_i a middle ha
      split at hread
      · cases hread
      · rename_i b rest' hb
        cases hread
        rw [List.append_assoc, hm.encode_append middle b rest hb]
        exact hl.encode_append bytes a middle ha

/-- As many values as are written are read back. -/
theorem Canonical.decodeMany_append (h : l.Canonical) (vs : List α) (tail : Bytes)
    (hsize : (vs.flatMap l.encode).length < sizeLimit) :
    l.decodeMany vs.length (vs.flatMap l.encode ++ tail) = .ok (vs, tail) := by
  induction vs with
  | nil => rfl
  | cons v vs ih =>
    rw [List.flatMap_cons, List.length_append] at hsize
    have hfirst := h.decode_append v (vs.flatMap l.encode ++ tail) (by omega)
    have hrest := ih (by omega)
    simp only [List.flatMap_cons, List.append_assoc, List.length_cons, decodeMany, hfirst, hrest]

theorem Canonical.decodeMany_eq_ok (h : l.Canonical) {count : Nat} {bytes rest : Bytes}
    {vs : List α} (hread : l.decodeMany count bytes = .ok (vs, rest)) :
    vs.length = count ∧ vs.flatMap l.encode ++ rest = bytes := by
  induction count generalizing bytes vs with
  | zero =>
    cases hread
    exact ⟨rfl, rfl⟩
  | succ count ih =>
    simp only [decodeMany] at hread
    split at hread
    · cases hread
    · rename_i v middle hv
      split at hread
      · cases hread
      · rename_i vs' rest' hvs
        cases hread
        -- what the first value leaves is what the others are read from
        obtain ⟨hlength, hbytes⟩ := ih hvs
        constructor
        · rw [List.length_cons, hlength]
        · rw [List.flatMap_cons, List.append_assoc, hbytes]
          exact h.encode_append bytes v middle hv

/-- Elements that are written in a byte at least are no more than the bytes. -/
theorem length_le_flatMap (hpos : ∀ v, l.encode v ≠ []) (vs : List α) :
    vs.length ≤ (vs.flatMap l.encode).length := by
  induction vs with
  | nil => exact Nat.le_refl 0
  | cons v vs ih =>
    have hv := List.length_pos_iff.mpr (hpos v)
    rw [List.flatMap_cons, List.length_append, List.length_cons]
    omega

/-- The count says where a list ends. -/
theorem Canonical.list (h : l.Canonical) (hpos : ∀ v, l.encode v ≠ []) : l.list.Canonical := by
  constructor
  · intro vs tail hsize
    simp only [Layout.list, List.length_append] at hsize
    -- there are no more elements than bytes, so that the count is not cut off
    have hcount : vs.length < sizeLimit := by
      have hle := length_le_flatMap hpos vs
      omega
    have hword := word_append 8 hcount (vs.flatMap l.encode ++ tail)
    have hmany := h.decodeMany_append vs tail (by omega)
    simp only [Layout.list, List.append_assoc, hword, hmany]
  · intro bytes vs rest hread
    simp only [Layout.list] at hread ⊢
    split at hread
    · cases hread
    · rename_i n middle hword
      -- as many elements were read as the count said, so this is the count that is written
      obtain ⟨hlength, hmiddle⟩ := h.decodeMany_eq_ok hread
      rw [List.append_assoc, hmiddle, hlength]
      exact (word_eq_ok hword).2

/-! ## Texts and choices -/

/-- The length says where a text ends, and its bytes are those of one text only. -/
theorem canonical_text : text.Canonical := by
  constructor
  · intro s tail hsize
    simp only [text, List.length_append] at hsize
    have hword := word_append 8 (n := (Utf8.encode s).length)
      (show _ < sizeLimit by omega) (Utf8.encode s ++ tail)
    have hlength : ¬(Utf8.encode s ++ tail).length < (Utf8.encode s).length := by
      rw [List.length_append]
      omega
    simp only [text, List.append_assoc, hword, if_neg hlength, List.take_left, List.drop_left,
      Utf8.decode_encode]
  · intro bytes s rest hread
    simp only [text] at hread ⊢
    split at hread
    · cases hread
    · rename_i n middle hword
      split at hread
      · cases hread
      · rename_i hlength
        split at hread
        · cases hread
        · rename_i s' htext
          cases hread
          -- a text is read off its own bytes only
          have hencode : Utf8.encode s = middle.take n := Utf8.encode_of_decode htext
          have htake : (middle.take n).length = n := by
            rw [List.length_take]
            omega
          rw [hencode, htake, List.append_assoc, List.take_append_drop]
          exact (word_eq_ok hword).2

/-- A choice among variants that are listed once, and no more of them than there are numbers. -/
theorem canonical_variant [DecidableEq α] {all : List α} (hnodup : all.Nodup)
    (hall : ∀ a, a ∈ all) (hcount : all.length ≤ Nat.pow 256 4) : (variant all).Canonical := by
  constructor
  · intro v tail _
    have hindex : all.idxOf v < all.length := List.idxOf_lt_length_of_mem (hall v)
    have hword := word_append 4 (Nat.lt_of_lt_of_le hindex hcount) tail
    have hvariant : all[all.idxOf v]? = some v := by
      rw [List.getElem?_eq_getElem hindex, List.getElem_idxOf hindex]
    simp only [variant, hword, hvariant]
  · intro bytes v rest hread
    simp only [variant] at hread ⊢
    split at hread
    · cases hread
    · rename_i n middle hword
      split at hread
      · rename_i a hvariant
        cases hread
        -- a variant that is listed once is in no other place
        obtain ⟨hn, hv⟩ := List.getElem?_eq_some_iff.mp hvariant
        rw [← hv, hnodup.idxOf_getElem n hn]
        exact (word_eq_ok hword).2
      · cases hread

theorem canonical_player : player.Canonical :=
  canonical_u32.convert (fun _ => rfl) fun _ => rfl

theorem canonical_room : room.Canonical :=
  canonical_u32.convert (fun _ => rfl) fun _ => rfl

theorem canonical_i64 : i64.Canonical :=
  canonical_u64.convert (fun _ => rfl) fun _ => rfl

theorem canonical_lobbyCode : lobbyCode.Canonical :=
  canonical_variant (by decide) (fun a => by cases a <;> decide) (by decide)

theorem canonical_battleCode : battleCode.Canonical :=
  canonical_variant (by decide) (fun a => by cases a <;> decide) (by decide)

theorem canonical_players : player.list.Canonical :=
  canonical_player.list fun p h => by cases h

theorem canonical_bytes : u8.list.Canonical :=
  canonical_u8.list fun b h => by cases h

/-! ## What follows for the bytes -/

/-- **Nothing can be read off a part of a value**: what can be read is all of it. -/
theorem Canonical.eq_of_prefix (h : l.Canonical) {v w : α} {start rest : Bytes}
    (hsize : (l.encode v).length < sizeLimit) (hstart : start <+: l.encode v)
    (hread : l.decode start = .ok (w, rest)) : start = l.encode v ∧ w = v := by
  obtain ⟨more, hmore⟩ := hstart
  have hw : l.encode w ++ rest = start := h.encode_append start w rest hread
  have hparts : l.encode w ++ (rest ++ more) = l.encode v := by
    rw [← List.append_assoc, hw, hmore]
  -- both values can be read off the bytes of `v`
  have hread : l.decode (l.encode v) = .ok (w, rest ++ more) := by
    rw [← hparts]
    refine h.decode_append w (rest ++ more) ?_
    rw [← hparts, List.length_append] at hsize
    omega
  -- and so they are the same, with nothing behind
  have hwhole := h.decode_append v [] hsize
  rw [List.append_nil, hread] at hwhole
  obtain ⟨rfl, hnone⟩ := Prod.mk.inj (Except.ok.inj hwhole)
  rw [(List.append_eq_nil_iff.mp hnone).2, List.append_nil] at hmore
  exact ⟨hmore, rfl⟩

end Layout

/-! ## Message bodies -/

/-- The types of message bodies. -/
inductive MessageType where
  | loginRequest
  | loginReply
  | createRoomRequest
  | createRoomReply
  | joinRoomRequest
  | joinRoomReply
  | connectRequest
  | connectReply
  | readyRequest
  | readyReply
  | heartbeatRequest
  | heartbeatReply
  | frameInput
  | frameBroadcast
  | startBroadcast
  | checkRequest
  | checkReply
deriving DecidableEq, Repr

namespace MessageType

/-- The bodies of a type. -/
def Value : MessageType → Type
  | loginRequest => LoginRequest
  | loginReply => LoginReply
  | createRoomRequest => CreateRoomRequest
  | createRoomReply => CreateRoomReply
  | joinRoomRequest => JoinRoomRequest
  | joinRoomReply => JoinRoomReply
  | connectRequest => ConnectRequest
  | connectReply => ConnectReply
  | readyRequest => ReadyRequest
  | readyReply => ReadyReply
  | heartbeatRequest => HeartbeatRequest
  | heartbeatReply => HeartbeatReply
  | frameInput => FrameInput
  | frameBroadcast => FrameBroadcast
  | startBroadcast => StartBroadcast
  | checkRequest => CheckRequest
  | checkReply => CheckReply

/-- Each is written as its type says. -/
instance (type : MessageType) : Body type.Value :=
  match type with
  | loginRequest => inferInstanceAs (Body LoginRequest)
  | loginReply => inferInstanceAs (Body LoginReply)
  | createRoomRequest => inferInstanceAs (Body CreateRoomRequest)
  | createRoomReply => inferInstanceAs (Body CreateRoomReply)
  | joinRoomRequest => inferInstanceAs (Body JoinRoomRequest)
  | joinRoomReply => inferInstanceAs (Body JoinRoomReply)
  | connectRequest => inferInstanceAs (Body ConnectRequest)
  | connectReply => inferInstanceAs (Body ConnectReply)
  | readyRequest => inferInstanceAs (Body ReadyRequest)
  | readyReply => inferInstanceAs (Body ReadyReply)
  | heartbeatRequest => inferInstanceAs (Body HeartbeatRequest)
  | heartbeatReply => inferInstanceAs (Body HeartbeatReply)
  | frameInput => inferInstanceAs (Body FrameInput)
  | frameBroadcast => inferInstanceAs (Body FrameBroadcast)
  | startBroadcast => inferInstanceAs (Body StartBroadcast)
  | checkRequest => inferInstanceAs (Body CheckRequest)
  | checkReply => inferInstanceAs (Body CheckReply)

open Layout in
/-- **Every body has a canonical layout**: its fields have, and they are nothing but the body. -/
theorem canonical_layout (type : MessageType) : (Body.layout : Layout type.Value).Canonical := by
  cases type with
  | loginRequest => exact (canonical_text.pair canonical_text).convert (fun _ => rfl) fun _ => rfl
  | loginReply =>
    exact (canonical_lobbyCode.pair canonical_player).convert (fun _ => rfl) fun _ => rfl
  | createRoomRequest => exact canonical_player.convert (fun _ => rfl) fun _ => rfl
  | createRoomReply =>
    exact (canonical_lobbyCode.pair canonical_room).convert (fun _ => rfl) fun _ => rfl
  | joinRoomRequest =>
    exact (canonical_room.pair canonical_player).convert (fun _ => rfl) fun _ => rfl
  | joinRoomReply =>
    exact (canonical_lobbyCode.pair (canonical_room.pair canonical_players)).convert
      (fun _ => rfl) fun _ => rfl
  | connectRequest =>
    exact (canonical_player.pair canonical_u32).convert (fun _ => rfl) fun _ => rfl
  | connectReply => exact canonical_battleCode.convert (fun _ => rfl) fun _ => rfl
  | readyRequest => exact (canonical_player.pair canonical_room).convert (fun _ => rfl) fun _ => rfl
  | readyReply =>
    exact (canonical_battleCode.pair (canonical_room.pair canonical_players)).convert
      (fun _ => rfl) fun _ => rfl
  | heartbeatRequest =>
    exact (canonical_player.pair canonical_u64).convert (fun _ => rfl) fun _ => rfl
  | heartbeatReply =>
    exact (canonical_battleCode.pair canonical_u64).convert (fun _ => rfl) fun _ => rfl
  | frameInput => exact (canonical_u32.pair canonical_u8).convert (fun _ => rfl) fun _ => rfl
  | frameBroadcast =>
    exact (canonical_u32.pair (canonical_u8.pair (canonical_u8.pair canonical_bytes))).convert
      (fun _ => rfl) fun _ => rfl
  | startBroadcast =>
    exact (canonical_battleCode.pair (canonical_u32.pair canonical_u64)).convert
      (fun _ => rfl) fun _ => rfl
  | checkRequest =>
    exact (canonical_u32.pair (canonical_u8.pair canonical_i64)).convert
      (fun _ => rfl) fun _ => rfl
  | checkReply => exact (canonical_battleCode.pair canonical_u32).convert (fun _ => rfl) fun _ => rfl

end MessageType

section Bodies

variable {α : Type} [Body α]

/-- A body is read if the bytes begin with one. -/
theorem decodeBody_eq_ok_iff {bytes : Bytes} {v : α} :
    decodeBody bytes = .ok v ↔ ∃ rest, (Body.layout : Layout α).decode bytes = .ok (v, rest) := by
  rw [decodeBody]
  cases (Body.layout : Layout α).decode bytes with
  | error e => exact ⟨nofun, nofun⟩
  | ok read => simp [Prod.ext_iff]

end Bodies

/-- **Bodies have one form, and it shows where it ends.** What is written is read back, whatever
comes behind it. Bytes that can be read begin with what would be written. Nothing can be read off a
part of a body, and no body is the beginning of another one. -/
theorem body_canonical (type : MessageType) :
    (∀ (v : type.Value) (tail : Bytes), (encodeBody v).length < sizeLimit →
      decodeBody (encodeBody v ++ tail) = .ok v) ∧
    (∀ (bytes : Bytes) (v : type.Value), decodeBody bytes = .ok v → encodeBody v <+: bytes) ∧
    (∀ (v : type.Value) (start : Bytes), (encodeBody v).length < sizeLimit →
      start <+: encodeBody v → start ≠ encodeBody v →
      ∃ e, (decodeBody start : Except DecodeError type.Value) = .error e) ∧
    (∀ v w : type.Value, (encodeBody v).length < sizeLimit → (encodeBody w).length < sizeLimit →
      encodeBody v <+: encodeBody w → v = w) := by
  have hlayout := type.canonical_layout
  refine ⟨?_, ?_, ?_, ?_⟩
  · intro v tail hsize
    exact decodeBody_eq_ok_iff.mpr ⟨tail, hlayout.decode_append v tail hsize⟩
  · intro bytes v hread
    obtain ⟨rest, hrest⟩ := decodeBody_eq_ok_iff.mp hread
    exact ⟨rest, hlayout.encode_append bytes v rest hrest⟩
  · intro v start hsize hstart hne
    cases hread : (decodeBody start : Except DecodeError type.Value) with
    | error e => exact ⟨e, rfl⟩
    | ok w =>
      -- what can be read is not only a part
      obtain ⟨rest, hrest⟩ := decodeBody_eq_ok_iff.mp hread
      exact absurd (hlayout.eq_of_prefix hsize hstart hrest).1 hne
  · intro v w hv hw hprefix
    -- the bytes of `v` are a part of those of `w` off which `v` can be read
    have hread := hlayout.decode_append v [] hv
    rw [List.append_nil] at hread
    exact (hlayout.eq_of_prefix hw hprefix hread).2

/-- The members of a room of two. -/
def pairReply : MessageType.joinRoomReply.Value := JoinRoomReply.mk .ok ⟨10001⟩ [⟨101⟩, ⟨102⟩]

/-- A reply with its members is read off the front of a stream, but not before its last byte, and it
is the beginning of no other one. -/
theorem body_canonical_pair :
    (encodeBody pairReply).length < sizeLimit ∧
      decodeBody (encodeBody pairReply ++ [7, 7]) = .ok pairReply ∧
      (∃ e, (decodeBody ((encodeBody pairReply).take 23) : Except DecodeError JoinRoomReply) =
        .error e) ∧
      ∀ w, (encodeBody w).length < sizeLimit → encodeBody pairReply <+: encodeBody w →
        pairReply = w := by
  have hsize : (encodeBody pairReply).length < sizeLimit := by decide
  obtain ⟨hread, -, hpart, hone⟩ := body_canonical .joinRoomReply
  refine ⟨hsize, hread pairReply [7, 7] hsize, ?_, fun w hw => hone pairReply w hsize hw⟩
  exact hpart pairReply _ hsize (List.take_prefix 23 _) (by decide)

end FrameSync.Wire
