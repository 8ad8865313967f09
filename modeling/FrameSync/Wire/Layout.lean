import FrameSync.Wire.Error

/-!
# Layouts of message bodies

A layout writes a value as bytes and reads one value off the front of a byte run. Numbers have a
fixed width and are little-endian; a text is its byte length in eight bytes and its UTF-8 bytes; a
list is its count in eight bytes and its elements; a choice is the index of its variant in four
bytes. `pair` puts one layout behind another and `convert` changes the value's type, so the layout
of a message is the list of its fields.
-/

set_option autoImplicit false

namespace FrameSync.Wire

/-- How a value is written and read. `decode` answers the value at the start of a byte run and the
bytes behind it. -/
structure Layout (α : Type) where
  encode : α → Bytes
  decode : Bytes → Except DecodeError (α × Bytes)

namespace Layout

variable {α β : Type}

/-- A number of `width` bytes. -/
def word (width : Nat) : Layout Nat where
  encode := Bytes.littleEndian width
  decode bytes :=
    let digits := bytes.take width
    if digits.length < width then .error .endOfBody
    else .ok (Bytes.ofLittleEndian digits, bytes.drop width)

/-- Read and write `β` as `α`. -/
def convert (l : Layout α) (into : α → β) (out : β → α) : Layout β where
  encode b := l.encode (out b)
  decode bytes :=
    match l.decode bytes with
    | .error e => .error e
    | .ok (a, rest) => .ok (into a, rest)

/-- One value behind another. -/
def pair (l : Layout α) (m : Layout β) : Layout (α × β) where
  encode v := l.encode v.1 ++ m.encode v.2
  decode bytes :=
    match l.decode bytes with
    | .error e => .error e
    | .ok (a, rest) =>
      match m.decode rest with
      | .error e => .error e
      | .ok (b, rest') => .ok ((a, b), rest')

/-- One byte. -/
def u8 : Layout UInt8 := (word 1).convert UInt8.ofNat UInt8.toNat

/-- A word of four bytes. -/
def u32 : Layout UInt32 := (word 4).convert UInt32.ofNat UInt32.toNat

/-- A word of eight bytes. -/
def u64 : Layout UInt64 := (word 8).convert UInt64.ofNat UInt64.toNat

/-- A signed word of eight bytes. -/
def i64 : Layout Int64 := u64.convert (fun w => ⟨w⟩) Int64.toUInt64

/-- A text: its length in bytes and its bytes. -/
def text : Layout String where
  encode s := (word 8).encode (Utf8.encode s).length ++ Utf8.encode s
  decode bytes :=
    match (word 8).decode bytes with
    | .error e => .error e
    | .ok (n, rest) =>
      if rest.length < n then .error .textPastEnd
      else
        match Utf8.decode (rest.take n) with
        | .error fault => .error (.badText fault)
        | .ok s => .ok (s, rest.drop n)

/-- Read `count` values one behind the other. -/
def decodeMany (l : Layout α) : Nat → Bytes → Except DecodeError (List α × Bytes)
  | 0, bytes => .ok ([], bytes)
  | count + 1, bytes =>
    match l.decode bytes with
    | .error e => .error e
    | .ok (a, rest) =>
      match decodeMany l count rest with
      | .error e => .error e
      | .ok (as, rest') => .ok (a :: as, rest')

/-- A list: its count and its elements. -/
def list (l : Layout α) : Layout (List α) where
  encode vs := (word 8).encode vs.length ++ vs.flatMap l.encode
  decode bytes :=
    match (word 8).decode bytes with
    | .error e => .error e
    | .ok (n, rest) => l.decodeMany n rest

/-- A choice: the index of the value among all variants. -/
def variant [DecidableEq α] (all : List α) : Layout α where
  encode v := (word 4).encode (all.idxOf v)
  decode bytes :=
    match (word 4).decode bytes with
    | .error e => .error e
    | .ok (n, rest) =>
      match all[n]? with
      | some v => .ok (v, rest)
      | none => .error (.unknownVariant n all.length)

end Layout

end FrameSync.Wire
