import FrameSync.Buffer.Pool

/-!
# Buffers on loan

A holder keeps the buffers it got from a pool under handles, writes to them, and hands each back
once. A handle that was never issued, or whose buffer is back already, holds no buffer.
-/

set_option autoImplicit false

namespace FrameSync.Buffer

/-- A pool and the buffers it has out, by handle; `issued` is the next handle. -/
structure Loans where
  pool : Pool
  held : Table Nat Bytes
  issued : Nat
deriving DecidableEq, Repr

namespace Loans

/-- Nothing is out yet. -/
def ofPool (pool : Pool) : Loans := ⟨pool, Table.empty, 0⟩

/-- Borrow a buffer; answers its handle and the buffer. -/
def get (l : Loans) (size : Nat) : Nat × Bytes × Loans :=
  let (buffer, pool) := l.pool.get size
  (l.issued, buffer, ⟨pool, l.held.insert l.issued buffer, l.issued + 1⟩)

/-- Set every byte of a borrowed buffer; answers its length. -/
def fill (l : Loans) (handle : Nat) (byte : UInt8) : Option (Nat × Loans) :=
  match l.held.get? handle with
  | none => none
  | some buffer =>
    some (buffer.length,
      { l with held := l.held.insert handle (List.replicate buffer.length byte) })

/-- Hand a borrowed buffer back. -/
def giveBack (l : Loans) (handle : Nat) : Option (Release × Loans) :=
  match l.held.get? handle with
  | none => none
  | some buffer =>
    let (outcome, pool) := l.pool.release buffer
    some (outcome, { l with pool, held := l.held.erase handle })

/-- Hand in `times` foreign buffers; answers what became of the last one. -/
def handIn (l : Loans) (buffer : Bytes) : Nat → Option Release × Loans
  | 0 => (none, l)
  | times + 1 =>
    let (outcome, pool) := l.pool.release buffer
    match handIn { l with pool } buffer times with
    | (none, l') => (some outcome, l')
    | (some last, l') => (some last, l')

end Loans

end FrameSync.Buffer
