/-!
# Bytes and little-endian numbers

Everything on the wire is a list of bytes, and every number on it is written with its lowest byte
first. `ofLittleEndian_littleEndian` says that a number that fits its width is read back.
-/

set_option autoImplicit false

namespace FrameSync

/-- A run of bytes in wire order. -/
abbrev Bytes := List UInt8

namespace Bytes

/-- Are there fewer than `n` bytes? Looks no further than `n` bytes. -/
def fewerThan : Nat → Bytes → Bool
  | 0, _ => false
  | _ + 1, [] => true
  | n + 1, _ :: rest => fewerThan n rest

/-- The length decides. -/
@[simp] theorem fewerThan_eq_true_iff {n : Nat} {bytes : Bytes} :
    fewerThan n bytes = true ↔ bytes.length < n := by
  fun_induction fewerThan n bytes with
  | case1 => simp
  | case2 n => simp
  | case3 n b rest ih => simp [ih]

/-- The lowest `width` base-256 digits of `n`, lowest first. -/
def littleEndian : Nat → Nat → Bytes
  | 0, _ => []
  | width + 1, n => UInt8.ofNat n :: littleEndian width (n / 256)

/-- The number whose base-256 digits are the given bytes, lowest first. -/
def ofLittleEndian : Bytes → Nat
  | [] => 0
  | b :: rest => b.toNat + 256 * ofLittleEndian rest

@[simp] theorem length_littleEndian (width n : Nat) : (littleEndian width n).length = width := by
  induction width generalizing n with
  | zero => rfl
  | succ width ih => simp [littleEndian, ih]

/-- **Writing and reading agree** modulo the width. -/
theorem ofLittleEndian_littleEndian (width n : Nat) :
    ofLittleEndian (littleEndian width n) = n % Nat.pow 256 width := by
  induction width generalizing n with
  | zero => simp [littleEndian, ofLittleEndian, Nat.mod_one]
  | succ width ih =>
    have hpow : Nat.pow 256 (width + 1) = 256 * Nat.pow 256 width := Nat.mul_comm _ _
    simp only [littleEndian, ofLittleEndian, ih]
    rw [hpow, Nat.mod_mul, UInt8.toNat_ofNat']

/-- The bytes read as a number are bounded by their count. -/
theorem ofLittleEndian_lt (bytes : Bytes) : ofLittleEndian bytes < Nat.pow 256 bytes.length := by
  induction bytes with
  | nil => simp [ofLittleEndian]
  | cons b rest ih =>
    have hb : b.toNat < 256 := b.toNat_lt
    have hpow : Nat.pow 256 (rest.length + 1) = Nat.pow 256 rest.length * 256 := rfl
    simp only [ofLittleEndian, List.length_cons]
    omega

/-- **Reading and writing agree** on a full width of bytes. -/
theorem littleEndian_ofLittleEndian (bytes : Bytes) :
    littleEndian bytes.length (ofLittleEndian bytes) = bytes := by
  induction bytes with
  | nil => rfl
  | cons b rest ih =>
    have hb : b.toNat < 256 := b.toNat_lt
    have hdiv : (b.toNat + 256 * ofLittleEndian rest) / 256 = ofLittleEndian rest := by omega
    have hmod : UInt8.ofNat (b.toNat + 256 * ofLittleEndian rest) = b := by
      apply UInt8.toNat_inj.mp
      rw [UInt8.toNat_ofNat']
      omega
    simp only [List.length_cons, littleEndian, ofLittleEndian, hdiv, hmod, ih]

/-- Bytes closed by a one are told apart by their number. -/
theorem ofLittleEndian_closed_inj {a b : Bytes}
    (h : ofLittleEndian (a ++ [1]) = ofLittleEndian (b ++ [1])) : a = b := by
  have positive : ∀ l : Bytes, 0 < ofLittleEndian (l ++ [1]) := by
    intro l
    induction l with
    | nil => decide
    | cons x rest ih =>
      simp only [List.cons_append, ofLittleEndian]
      omega
  induction a generalizing b with
  | nil =>
    cases b with
    | nil => rfl
    | cons y rest =>
      have := positive rest
      have hone : ofLittleEndian ([] ++ [1]) = 1 := by decide
      rw [hone, List.cons_append, ofLittleEndian] at h
      omega
  | cons x rest ih =>
    cases b with
    | nil =>
      have := positive rest
      have hone : ofLittleEndian ([] ++ [1]) = 1 := by decide
      rw [hone, List.cons_append, ofLittleEndian] at h
      omega
    | cons y rest' =>
      simp only [List.cons_append, ofLittleEndian] at h
      have hx : x.toNat < 256 := x.toNat_lt
      have hy : y.toNat < 256 := y.toNat_lt
      have hhead : x = y := UInt8.toNat_inj.mp (by omega)
      have htail : rest = rest' := ih (by omega)
      rw [hhead, htail]

end Bytes

end FrameSync
