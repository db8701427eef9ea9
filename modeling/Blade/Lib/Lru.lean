import Mathlib.Data.List.Basic

/-!
Least-recently-used caches. A program that uses a cache library sees a cache state (its
capacity and its entries, the most recently used first) and three operations, `LruOps`: a new
cache of a capacity, a read that answers and may reorder the entries, and an insertion. What a
user of the library may rely on is `LruOps.Lawful`: a fresh cache answers nothing, reads and
insertions keep the capacity, a cache of capacity zero never answers, and one of positive
capacity answers its last insertion.

`Lru.ops` is one library with these laws, as the hashicorp cache behaves: a hit moves its entry
to the front, and an insertion beyond the capacity drops the oldest one.
-/

namespace Blade.Lib

variable {κ ν : Type} [DecidableEq κ]

def dropKey (k : κ) (es : List (κ × ν)) : List (κ × ν) := es.filter (·.1 != k)

def moveToFront (k : κ) (es : List (κ × ν)) : List (κ × ν) :=
  match es.lookup k with
  | some v => (k, v) :: dropKey k es
  | none => es

section Entries

variable {k k' : κ} {es : List (κ × ν)}

@[simp] theorem lookup_pair_cons {a : κ} {b : ν} :
    ((a, b) :: es).lookup k = if k = a then some b else es.lookup k := by
  rw [List.lookup_cons]
  by_cases h : k = a
  · simp [h]
  · have hb : (k == a) = false := by simpa using h
    simp [hb, h]

theorem dropKey_cons {a : κ} {b : ν} :
    dropKey k ((a, b) :: es) = if a = k then dropKey k es else (a, b) :: dropKey k es := by
  by_cases h : a = k <;> simp [dropKey, h]

theorem keys_dropKey : (dropKey k es).map Prod.fst = (es.map Prod.fst).filter (· != k) := by
  induction es with
  | nil => rfl
  | cons e es ih =>
    obtain ⟨a, b⟩ := e
    by_cases h : a = k <;> simp [dropKey_cons, h, ih]

theorem not_mem_keys_dropKey : k ∉ (dropKey k es).map Prod.fst := by
  simp [keys_dropKey]

theorem nodup_keys_dropKey (h : (es.map Prod.fst).Nodup) : ((dropKey k es).map Prod.fst).Nodup := by
  rw [keys_dropKey]
  exact h.filter _

theorem length_dropKey_lt (h : (es.lookup k).isSome) : (dropKey k es).length < es.length := by
  induction es with
  | nil => simp at h
  | cons e es ih =>
    obtain ⟨a, b⟩ := e
    by_cases ha : a = k
    · have hle : (dropKey k es).length ≤ es.length := List.length_filter_le _ _
      simp only [dropKey_cons, ha, if_true, List.length_cons]
      omega
    · have hk : (es.lookup k).isSome := by
        simpa [Ne.symm ha] using h
      have := ih hk
      simp only [dropKey_cons, ha, if_false, List.length_cons]
      omega

end Entries

/-- A cache of at most `size` entries with distinct keys, the most recently used first. -/
structure Lru (κ ν : Type) where
  size : ℕ
  entries : List (κ × ν)
  length_le : entries.length ≤ size
  nodup_keys : (entries.map Prod.fst).Nodup

/-- The operations of a cache library on its states. -/
structure LruOps (κ ν : Type) where
  new : ℕ → Lru κ ν
  get : Lru κ ν → κ → Option ν × Lru κ ν
  add : Lru κ ν → κ → ν → Lru κ ν

/-- The laws a user of the library relies on. -/
structure LruOps.Lawful (ops : LruOps κ ν) : Prop where
  get_new : ∀ n k, (ops.get (ops.new n) k).1 = none
  size_new : ∀ n, (ops.new n).size = n
  size_get : ∀ c k, (ops.get c k).2.size = c.size
  size_add : ∀ c k v, (ops.add c k v).size = c.size
  get_of_size_zero : ∀ c k, c.size = 0 → (ops.get c k).1 = none
  get_add_self : ∀ c k v, 0 < c.size → (ops.get (ops.add c k v) k).1 = some v

namespace Lru

def new (size : ℕ) : Lru κ ν := ⟨size, [], by simp, by simp⟩

def lookup (c : Lru κ ν) (k : κ) : Option ν := c.entries.lookup k

theorem length_moveToFront (c : Lru κ ν) (k : κ) : (moveToFront k c.entries).length ≤ c.size := by
  unfold moveToFront
  split
  · rename_i v hv
    have hlt : (dropKey k c.entries).length < c.entries.length := length_dropKey_lt (by simp [hv])
    have := c.length_le
    simp only [List.length_cons]
    omega
  · exact c.length_le

theorem nodup_moveToFront (c : Lru κ ν) (k : κ) : ((moveToFront k c.entries).map Prod.fst).Nodup := by
  unfold moveToFront
  split
  · exact List.nodup_cons.2 ⟨not_mem_keys_dropKey, nodup_keys_dropKey c.nodup_keys⟩
  · exact c.nodup_keys

def get (c : Lru κ ν) (k : κ) : Option ν × Lru κ ν :=
  (c.lookup k, ⟨c.size, moveToFront k c.entries, c.length_moveToFront k, c.nodup_moveToFront k⟩)

def add (c : Lru κ ν) (k : κ) (v : ν) : Lru κ ν where
  size := c.size
  entries := ((k, v) :: dropKey k c.entries).take c.size
  length_le := List.length_take_le _ _
  nodup_keys := by
    rw [List.map_take]
    exact (List.nodup_cons.2 ⟨not_mem_keys_dropKey, nodup_keys_dropKey c.nodup_keys⟩).sublist
      (List.take_sublist _ _)

@[simp] theorem get_fst (c : Lru κ ν) (k : κ) : (c.get k).1 = c.lookup k := rfl

@[simp] theorem size_get (c : Lru κ ν) (k : κ) : (c.get k).2.size = c.size := rfl

@[simp] theorem size_add (c : Lru κ ν) (k : κ) (v : ν) : (c.add k v).size = c.size := rfl

theorem lookup_add_self (c : Lru κ ν) (k : κ) (v : ν) (h : 0 < c.size) :
    (c.add k v).lookup k = some v := by
  obtain ⟨n, hn⟩ : ∃ n, c.size = n + 1 := ⟨c.size - 1, by omega⟩
  simp [add, lookup, hn]

def ops : LruOps κ ν := ⟨new, get, add⟩

theorem lawful_ops : (ops : LruOps κ ν).Lawful where
  get_new _ _ := rfl
  size_new _ := rfl
  size_get _ _ := rfl
  size_add _ _ _ := rfl
  get_of_size_zero c k h := by
    have hnil : c.entries = [] := List.eq_nil_of_length_eq_zero (by have := c.length_le; omega)
    simp [ops, get, lookup, hnil]
  get_add_self c k v h := by
    simp only [ops, get_fst]
    exact lookup_add_self c k v h

end Lru

end Blade.Lib
