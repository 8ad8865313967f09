/-!
# Finite maps in key order

Every index of the server (players by id, connections by number, rooms, pending checks) is a finite
map whose order is visible: answers list its keys ascending. `Table` keeps its entries strictly
ascending by the key's code, so two tables with the same look-ups are equal (`Table.ext_get?`), and
each operation has one equation through `get?`: `get?_insert`, `get?_erase`, `get?_filter` and
`get?_mapValues`. Where the order of the keys is left open, they are listed in an order of choice
(`keysBy`).
-/

set_option autoImplicit false

namespace FrameSync

/-- A key is told apart and ordered by its code. -/
class Key (κ : Type) where
  code : κ → Nat
  code_inj : ∀ a b : κ, code a = code b → a = b

instance : Key Nat := ⟨id, fun _ _ h => h⟩

instance : Key UInt32 := ⟨UInt32.toNat, fun _ _ h => UInt32.toNat_inj.mp h⟩

/-- Things in an order of choice: those that `order` names, as it names them, and then the others as
they stand. -/
def arrange {κ : Type} [DecidableEq κ] : List κ → List κ → List κ
  | [], ks => ks
  | k :: order, ks => if k ∈ ks then k :: arrange order (ks.erase k) else arrange order ks

/-- **In any order of choice** the things are the same. -/
theorem perm_arrange {κ : Type} [DecidableEq κ] (order ks : List κ) :
    (arrange order ks).Perm ks := by
  fun_induction arrange order ks with
  | case1 ks => exact .refl ks
  | case2 k order ks hmem ih => exact (ih.cons k).trans (List.perm_cons_erase hmem).symm
  | case3 k order ks hnot ih => exact ih

/-- **Every order** is one of choice. -/
theorem arrange_of_perm {κ : Type} [DecidableEq κ] {order ks : List κ} (h : order.Perm ks) :
    arrange order ks = order := by
  induction order generalizing ks with
  | nil => exact h.nil_eq.symm
  | cons k order ih =>
    have hmem : k ∈ ks := h.mem_iff.mp List.mem_cons_self
    rw [arrange, if_pos hmem]
    refine congrArg (k :: ·) (ih ?_)
    exact (h.trans (List.perm_cons_erase hmem)).cons_inv

/-- A finite map; the entries are strictly ascending by code. -/
structure Table (κ ν : Type) [Key κ] where
  entries : List (κ × ν)
  ascending : entries.Pairwise fun a b => Key.code a.1 < Key.code b.1

namespace Table

variable {κ ν μ : Type} [Key κ]

instance [DecidableEq κ] [DecidableEq ν] : DecidableEq (Table κ ν) := fun s t =>
  if h : s.entries = t.entries then
    isTrue (by cases s; cases t; cases h; rfl)
  else
    isFalse fun e => h (by rw [e])

instance [Repr κ] [Repr ν] : Repr (Table κ ν) := ⟨fun t n => reprPrec t.entries n⟩

/-- The table without entries. -/
def empty : Table κ ν := ⟨[], List.Pairwise.nil⟩

instance : Inhabited (Table κ ν) := ⟨empty⟩

/-- The value under `k` in a list of entries. -/
def lookup (k : κ) : List (κ × ν) → Option ν
  | [] => none
  | e :: rest => if Key.code e.1 = Key.code k then some e.2 else lookup k rest

/-- The value stored under `k`. -/
def get? (t : Table κ ν) (k : κ) : Option ν := lookup k t.entries

/-- Does the table have an entry under `k`? -/
def contains (t : Table κ ν) (k : κ) : Bool := (t.get? k).isSome

/-- Put `(k, v)` at its place among ascending entries, replacing an entry under `k`. -/
def place (k : κ) (v : ν) : List (κ × ν) → List (κ × ν)
  | [] => [(k, v)]
  | e :: rest =>
    if Key.code k < Key.code e.1 then (k, v) :: e :: rest
    else if Key.code e.1 = Key.code k then (k, v) :: rest
    else e :: place k v rest

/-- A placed entry is the new one or an old one. -/
theorem mem_place {k : κ} {v : ν} {e : κ × ν} {l : List (κ × ν)} (h : e ∈ place k v l) :
    e = (k, v) ∨ e ∈ l := by
  induction l with
  | nil => simpa [place] using h
  | cons a rest ih =>
    unfold place at h
    split at h
    · simpa using h
    · split at h
      · rcases List.mem_cons.mp h with h | h
        · exact Or.inl h
        · exact Or.inr (List.mem_cons_of_mem _ h)
      · rcases List.mem_cons.mp h with h | h
        · exact Or.inr (h ▸ List.mem_cons_self)
        · rcases ih h with h | h
          · exact Or.inl h
          · exact Or.inr (List.mem_cons_of_mem _ h)

/-- Placing an entry keeps the order. -/
theorem place_ascending (k : κ) (v : ν) {l : List (κ × ν)}
    (h : l.Pairwise fun a b => Key.code a.1 < Key.code b.1) :
    (place k v l).Pairwise fun a b => Key.code a.1 < Key.code b.1 := by
  induction l with
  | nil => simp [place]
  | cons a rest ih =>
    rw [List.pairwise_cons] at h
    unfold place
    split
    · rename_i hlt
      refine List.pairwise_cons.mpr ⟨?_, List.pairwise_cons.mpr h⟩
      intro b hb
      rcases List.mem_cons.mp hb with rfl | hb
      · exact hlt
      · exact Nat.lt_trans hlt (h.1 b hb)
    · split
      · rename_i heq
        refine List.pairwise_cons.mpr ⟨?_, h.2⟩
        intro b hb
        have := h.1 b hb
        simp only
        omega
      · rename_i hlt hne
        refine List.pairwise_cons.mpr ⟨?_, ih h.2⟩
        intro b hb
        rcases mem_place hb with rfl | hb
        · simp only
          omega
        · exact h.1 b hb

/-- Store `v` under `k`, replacing what was there. -/
def insert (t : Table κ ν) (k : κ) (v : ν) : Table κ ν :=
  ⟨place k v t.entries, place_ascending k v t.ascending⟩

/-- Keep the entries that satisfy `p`. -/
def filter (t : Table κ ν) (p : κ → ν → Bool) : Table κ ν :=
  ⟨t.entries.filter fun e => p e.1 e.2, t.ascending.filter _⟩

/-- Drop the entry under `k`. -/
def erase (t : Table κ ν) (k : κ) : Table κ ν :=
  t.filter fun j _ => decide (Key.code j ≠ Key.code k)

/-- Apply `f` to every value. -/
def mapValues (t : Table κ ν) (f : ν → μ) : Table κ μ :=
  ⟨t.entries.map fun e => (e.1, f e.2), t.ascending.map _ fun _ _ h => h⟩

/-- Apply `f` to the value under `k`, if there is one. -/
def update (t : Table κ ν) (k : κ) (f : ν → ν) : Table κ ν :=
  match t.get? k with
  | none => t
  | some v => t.insert k (f v)

/-- The keys, ascending. -/
def keys (t : Table κ ν) : List κ := t.entries.map Prod.fst

/-- The keys in an order of choice. -/
def keysBy [DecidableEq κ] (t : Table κ ν) (order : List κ) : List κ := arrange order t.keys

/-- The values in the order of their keys. -/
def values (t : Table κ ν) : List ν := t.entries.map Prod.snd

/-- The number of entries. -/
def size (t : Table κ ν) : Nat := t.entries.length

/-! ## Look-ups after each operation -/

@[simp] theorem get?_empty (k : κ) : (empty : Table κ ν).get? k = none := rfl

/-- Nothing is found below the first key. -/
theorem lookup_eq_none_of_lt {k : κ} {l : List (κ × ν)}
    (h : ∀ e ∈ l, Key.code k < Key.code e.1) : lookup k l = none := by
  induction l with
  | nil => rfl
  | cons a rest ih =>
    have ha := h a List.mem_cons_self
    rw [lookup, if_neg (by omega)]
    exact ih fun e he => h e (List.mem_cons_of_mem _ he)

/-- **A look-up after an insertion.** -/
theorem get?_insert (t : Table κ ν) (k j : κ) (v : ν) :
    (t.insert k v).get? j = if Key.code k = Key.code j then some v else t.get? j := by
  obtain ⟨l, hl⟩ := t
  unfold get? insert
  simp only
  clear hl
  induction l with
  | nil => simp [place, lookup]
  | cons a rest ih =>
    unfold place
    split
    · rfl
    · split
      · rename_i heq
        simp only [lookup, heq]
        split <;> rfl
      · rename_i hlt hne
        simp only [lookup, ih]
        by_cases hj : Key.code k = Key.code j
        · rw [if_neg (by omega), if_pos hj, if_pos hj]
        · simp only [if_neg hj]

@[simp] theorem get?_insert_self (t : Table κ ν) (k : κ) (v : ν) :
    (t.insert k v).get? k = some v := by
  rw [get?_insert, if_pos rfl]

theorem get?_insert_of_ne (t : Table κ ν) {k j : κ} (v : ν) (h : k ≠ j) :
    (t.insert k v).get? j = t.get? j := by
  rw [get?_insert, if_neg fun e => h (Key.code_inj _ _ e)]

/-- The same with a test on the keys themselves. -/
theorem get?_insert_ite [DecidableEq κ] (t : Table κ ν) (k j : κ) (v : ν) :
    (t.insert k v).get? j = if j = k then some v else t.get? j := by
  by_cases h : j = k
  · rw [if_pos h, h, get?_insert_self]
  · rw [if_neg h, get?_insert_of_ne _ _ (Ne.symm h)]

/-- **A look-up in a filtered table.** -/
theorem get?_filter (t : Table κ ν) (p : κ → ν → Bool) (k : κ) :
    (t.filter p).get? k = (t.get? k).filter (p k) := by
  obtain ⟨l, hl⟩ := t
  unfold get? filter
  simp only
  induction l with
  | nil => rfl
  | cons a rest ih =>
    rw [List.pairwise_cons] at hl
    by_cases hk : Key.code a.1 = Key.code k
    · have hak : a.1 = k := Key.code_inj _ _ hk
      have hnone : lookup k (rest.filter fun e => p e.1 e.2) = none :=
        lookup_eq_none_of_lt fun e he => by
          have := hl.1 e (List.mem_filter.mp he).1
          omega
      rw [lookup, if_pos hk, List.filter_cons]
      cases hp : p a.1 a.2
      · rw [hak] at hp
        rw [if_neg Bool.false_ne_true, hnone]
        simp [Option.filter, hp]
      · rw [if_pos rfl, lookup, if_pos hk]
        rw [hak] at hp
        simp [Option.filter, hp]
    · rw [lookup, if_neg hk, List.filter_cons]
      cases hp : p a.1 a.2
      · simpa using ih hl.2
      · rw [if_pos rfl, lookup, if_neg hk]
        exact ih hl.2

/-- **A look-up after an erasure.** -/
theorem get?_erase (t : Table κ ν) (k j : κ) :
    (t.erase k).get? j = if Key.code k = Key.code j then none else t.get? j := by
  rw [erase, get?_filter]
  by_cases h : Key.code k = Key.code j
  · rw [if_pos h]
    cases t.get? j <;> simp [h]
  · rw [if_neg h]
    cases t.get? j <;> simp [Ne.symm h]

@[simp] theorem get?_erase_self (t : Table κ ν) (k : κ) : (t.erase k).get? k = none := by
  rw [get?_erase, if_pos rfl]

theorem get?_erase_of_ne (t : Table κ ν) {k j : κ} (h : k ≠ j) :
    (t.erase k).get? j = t.get? j := by
  rw [get?_erase, if_neg fun e => h (Key.code_inj _ _ e)]

theorem get?_erase_ite [DecidableEq κ] (t : Table κ ν) (k j : κ) :
    (t.erase k).get? j = if j = k then none else t.get? j := by
  by_cases h : j = k
  · rw [if_pos h, h, get?_erase_self]
  · rw [if_neg h, get?_erase_of_ne _ (Ne.symm h)]

/-- **A look-up after mapping the values.** -/
@[simp] theorem get?_mapValues (t : Table κ ν) (f : ν → μ) (k : κ) :
    (t.mapValues f).get? k = (t.get? k).map f := by
  obtain ⟨l, hl⟩ := t
  unfold get? mapValues
  simp only
  clear hl
  induction l with
  | nil => rfl
  | cons a rest ih =>
    simp only [List.map_cons, lookup]
    split
    · rfl
    · exact ih

/-- **A look-up after an update.** -/
theorem get?_update (t : Table κ ν) (k j : κ) (f : ν → ν) :
    (t.update k f).get? j =
      if Key.code k = Key.code j then (t.get? j).map f else t.get? j := by
  unfold update
  by_cases h : Key.code k = Key.code j
  · have hkj : k = j := Key.code_inj _ _ h
    subst hkj
    rw [if_pos rfl]
    cases hg : t.get? k with
    | none => simp [hg]
    | some v => simp
  · rw [if_neg h]
    cases hg : t.get? k with
    | none => rfl
    | some v => simp [get?_insert, h]

theorem get?_update_ite [DecidableEq κ] (t : Table κ ν) (k j : κ) (f : ν → ν) :
    (t.update k f).get? j = if j = k then (t.get? j).map f else t.get? j := by
  rw [get?_update]
  by_cases h : j = k
  · rw [if_pos h, if_pos (congrArg Key.code h.symm)]
  · rw [if_neg h, if_neg fun e => h (Key.code_inj _ _ e).symm]

/-! ## Sizes -/

/-- Placing an entry adds one unless its key has one. -/
theorem length_place (k : κ) (v : ν) {l : List (κ × ν)}
    (h : l.Pairwise fun a b => Key.code a.1 < Key.code b.1) :
    (place k v l).length = if (lookup k l).isSome then l.length else l.length + 1 := by
  induction l with
  | nil => rfl
  | cons a rest ih =>
    rw [List.pairwise_cons] at h
    unfold place lookup
    by_cases hlt : Key.code k < Key.code a.1
    · have hnone : lookup k rest = none :=
        lookup_eq_none_of_lt fun e he => Nat.lt_trans hlt (h.1 e he)
      rw [if_pos hlt, if_neg (Nat.ne_of_gt hlt), hnone]
      rfl
    · rw [if_neg hlt]
      by_cases heq : Key.code a.1 = Key.code k
      · rw [if_pos heq, if_pos heq]
        rfl
      · rw [if_neg heq, if_neg heq, List.length_cons, ih h.2, List.length_cons]
        split <;> rfl

/-- **An insertion adds one entry** unless the key has one. -/
theorem size_insert (t : Table κ ν) (k : κ) (v : ν) :
    (t.insert k v).size = if (t.get? k).isSome then t.size else t.size + 1 :=
  length_place k v t.ascending

@[simp] theorem size_update (t : Table κ ν) (k : κ) (f : ν → ν) : (t.update k f).size = t.size := by
  unfold update
  cases h : t.get? k with
  | none => rfl
  | some v => simp [size_insert, h]

@[simp] theorem size_mapValues (t : Table κ ν) (f : ν → μ) : (t.mapValues f).size = t.size :=
  List.length_map _

/-! ## Entries and look-ups -/

/-- An entry is what its key looks up. -/
theorem get?_eq_some_iff_mem {t : Table κ ν} {k : κ} {v : ν} :
    t.get? k = some v ↔ (k, v) ∈ t.entries := by
  obtain ⟨l, hl⟩ := t
  unfold get?
  simp only
  induction l with
  | nil => simp [lookup]
  | cons a rest ih =>
    rw [List.pairwise_cons] at hl
    rw [lookup, List.mem_cons]
    split
    · rename_i hk
      have hak : a.1 = k := Key.code_inj _ _ hk
      constructor
      · intro h
        left
        rw [← hak, ← Option.some.inj h]
      · rintro (h | h)
        · rw [← h]
        · have := hl.1 _ h
          simp only at this
          omega
    · rename_i hk
      rw [ih hl.2]
      constructor
      · exact Or.inr
      · rintro (h | h)
        · exact absurd (by rw [← h]) hk
        · exact h

/-- A key is listed exactly when it is found. -/
theorem mem_keys_iff {t : Table κ ν} {k : κ} : k ∈ t.keys ↔ ∃ v, t.get? k = some v := by
  simp only [keys, List.mem_map, get?_eq_some_iff_mem]
  constructor
  · rintro ⟨⟨j, v⟩, h, rfl⟩
    exact ⟨v, h⟩
  · rintro ⟨v, h⟩
    exact ⟨(k, v), h, rfl⟩

/-- The listed keys ascend. -/
theorem keys_ascending (t : Table κ ν) : t.keys.Pairwise fun a b => Key.code a < Key.code b :=
  t.ascending.map _ fun _ _ h => h

/-- No key is listed twice. -/
theorem keys_nodup (t : Table κ ν) : t.keys.Nodup :=
  t.keys_ascending.imp fun hlt heq => Nat.ne_of_lt hlt (congrArg Key.code heq)

theorem perm_keysBy [DecidableEq κ] (t : Table κ ν) (order : List κ) :
    (t.keysBy order).Perm t.keys := perm_arrange order t.keys

theorem mem_keysBy_iff [DecidableEq κ] {t : Table κ ν} {order : List κ} {k : κ} :
    k ∈ t.keysBy order ↔ ∃ v, t.get? k = some v :=
  (t.perm_keysBy order).mem_iff.trans mem_keys_iff

/-- **Tables with the same look-ups are equal.** -/
theorem ext_get? {s t : Table κ ν} (h : ∀ k, s.get? k = t.get? k) : s = t := by
  have key : ∀ (l m : List (κ × ν)),
      l.Pairwise (fun a b => Key.code a.1 < Key.code b.1) →
      m.Pairwise (fun a b => Key.code a.1 < Key.code b.1) →
      (∀ e, e ∈ l ↔ e ∈ m) → l = m := by
    intro l
    induction l with
    | nil =>
      intro m _ _ hm
      cases m with
      | nil => rfl
      | cons b m => exact absurd ((hm b).mpr List.mem_cons_self) List.not_mem_nil
    | cons a l ih =>
      intro m hl hm hlm
      cases m with
      | nil => exact absurd ((hlm a).mp List.mem_cons_self) List.not_mem_nil
      | cons b m =>
        rw [List.pairwise_cons] at hl hm
        have hab : a = b := by
          rcases List.mem_cons.mp ((hlm a).mp List.mem_cons_self) with h1 | h1
          · exact h1
          · rcases List.mem_cons.mp ((hlm b).mpr List.mem_cons_self) with h2 | h2
            · exact h2.symm
            · have := hl.1 b h2
              have := hm.1 a h1
              omega
        subst hab
        congr 1
        refine ih m hl.2 hm.2 fun e => ⟨fun he => ?_, fun he => ?_⟩
        · rcases List.mem_cons.mp ((hlm e).mp (List.mem_cons_of_mem _ he)) with h1 | h1
          · have := hl.1 e he
            rw [h1] at this
            omega
          · exact h1
        · rcases List.mem_cons.mp ((hlm e).mpr (List.mem_cons_of_mem _ he)) with h1 | h1
          · have := hm.1 e he
            rw [h1] at this
            omega
          · exact h1
  have hst := key s.entries t.entries s.ascending t.ascending fun e => by
    rw [← get?_eq_some_iff_mem (t := s) (k := e.1) (v := e.2),
      ← get?_eq_some_iff_mem (t := t) (k := e.1) (v := e.2), h]
  cases s
  cases t
  cases hst
  rfl

/-- Insertions under different keys commute. -/
theorem insert_comm (t : Table κ ν) {k j : κ} (v w : ν) (h : k ≠ j) :
    (t.insert k v).insert j w = (t.insert j w).insert k v := by
  have hcode : Key.code k ≠ Key.code j := fun e => h (Key.code_inj k j e)
  refine ext_get? fun i => ?_
  simp only [get?_insert]
  by_cases hk : Key.code k = Key.code i
  · have hj : Key.code j ≠ Key.code i := fun e => hcode (hk.trans e.symm)
    simp only [if_neg hj, if_pos hk]
  · simp only [if_neg hk]

/-- Of two insertions under one key the second counts. -/
theorem insert_insert (t : Table κ ν) (k : κ) (v w : ν) :
    (t.insert k v).insert k w = t.insert k w := by
  refine ext_get? fun i => ?_
  rw [get?_insert, get?_insert, get?_insert]
  split <;> rfl

/-- Two updates under one key are one. -/
theorem update_update (t : Table κ ν) (k : κ) (f g : ν → ν) :
    (t.update k f).update k g = t.update k fun v => g (f v) := by
  refine ext_get? fun j => ?_
  rw [get?_update, get?_update, get?_update]
  by_cases h : Key.code k = Key.code j
  · rw [if_pos h, if_pos h, if_pos h, Option.map_map]
    rfl
  · rw [if_neg h, if_neg h, if_neg h]

/-! ## Mapping the values -/

theorem mapValues_insert (t : Table κ ν) (k : κ) (v : ν) (f : ν → μ) :
    (t.insert k v).mapValues f = (t.mapValues f).insert k (f v) := by
  refine ext_get? fun j => ?_
  rw [get?_mapValues, get?_insert, get?_insert, get?_mapValues]
  split <;> rfl

theorem mapValues_update (t : Table κ ν) (k : κ) (f : ν → μ) (g : ν → ν) (g' : μ → μ)
    (h : ∀ v, f (g v) = g' (f v)) : (t.update k g).mapValues f = (t.mapValues f).update k g' := by
  refine ext_get? fun j => ?_
  rw [get?_mapValues, get?_update, get?_update, get?_mapValues]
  split
  · rw [Option.map_map, Option.map_map]
    exact congrArg (Option.map · _) (funext h)
  · rfl

theorem mapValues_filter (t : Table κ ν) (f : ν → μ) (p : κ → ν → Bool) (p' : κ → μ → Bool)
    (h : ∀ k v, p' k (f v) = p k v) : (t.filter p).mapValues f = (t.mapValues f).filter p' := by
  refine ext_get? fun j => ?_
  rw [get?_mapValues, get?_filter, get?_filter, get?_mapValues]
  cases t.get? j with
  | none => rfl
  | some v =>
    rw [Option.map_some, Option.filter_some, Option.filter_some, h]
    split <;> rfl

theorem mapValues_mapValues {ρ : Type} (t : Table κ ν) (f : ν → μ) (g : μ → ρ) :
    (t.mapValues f).mapValues g = t.mapValues fun v => g (f v) := by
  refine ext_get? fun j => ?_
  rw [get?_mapValues, get?_mapValues, get?_mapValues, Option.map_map]
  rfl

end Table

end FrameSync
