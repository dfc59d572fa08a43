/-!
Finite maps, as lists of entries with distinct keys. Main statements: `get?_insert`, `get?_erase`
(what an operation changes) and `mem_keys_iff` (which keys are present).
-/
namespace StakeKeeper
set_option autoImplicit false

structure Registry (κ ν : Type) where
  entries : List (κ × ν)
  distinct : (entries.map Prod.fst).Nodup

namespace Registry

variable {κ ν : Type}

def empty : Registry κ ν := ⟨[], List.nodup_nil⟩

instance : Inhabited (Registry κ ν) := ⟨empty⟩

/-- The keys, each once. -/
def keys (r : Registry κ ν) : List κ := r.entries.map Prod.fst

def size (r : Registry κ ν) : Nat := r.entries.length

def isEmpty (r : Registry κ ν) : Bool := r.entries.isEmpty

variable [DecidableEq κ]

def get? (r : Registry κ ν) (k : κ) : Option ν := r.entries.lookup k

def erase (r : Registry κ ν) (k : κ) : Registry κ ν :=
  ⟨r.entries.filter fun e => e.1 != k,
    List.Nodup.sublist (List.Sublist.map _ List.filter_sublist) r.distinct⟩

def insert (r : Registry κ ν) (k : κ) (v : ν) : Registry κ ν :=
  ⟨(k, v) :: (r.erase k).entries, by
    rw [List.map_cons, List.nodup_cons]
    refine ⟨?_, (r.erase k).distinct⟩
    simp [erase]⟩

/-! ## What an operation changes -/

@[simp] theorem get?_empty (k : κ) : (empty : Registry κ ν).get? k = none := rfl

theorem lookup_entry (e : κ × ν) (l : List (κ × ν)) (j : κ) :
    (e :: l).lookup j = if j = e.1 then some e.2 else l.lookup j := by
  show (match j == e.1 with | true => some e.2 | false => l.lookup j) = _
  by_cases h : j = e.1
  · simp [h]
  · have hb : (j == e.1) = false := by simpa using h
    rw [hb, if_neg h]

theorem lookup_filter_ne (l : List (κ × ν)) (k j : κ) :
    (l.filter fun e => e.1 != k).lookup j = if j = k then none else l.lookup j := by
  induction l with
  | nil => simp
  | cons e l ih =>
    rw [List.filter_cons]
    by_cases ha : e.1 = k
    · have hb : ¬ (e.1 != k) = true := by simpa using ha
      rw [if_neg hb, ih, lookup_entry, ha]
      by_cases hj : j = k <;> simp [hj]
    · have hb : (e.1 != k) = true := by simpa using ha
      rw [if_pos hb, lookup_entry, lookup_entry, ih]
      by_cases hj : j = e.1
      · subst hj; simp [ha]
      · simp [hj]

theorem get?_erase (r : Registry κ ν) (k j : κ) :
    (r.erase k).get? j = if j = k then none else r.get? j := lookup_filter_ne r.entries k j

theorem get?_insert (r : Registry κ ν) (k j : κ) (v : ν) :
    (r.insert k v).get? j = if j = k then some v else r.get? j := by
  have h := get?_erase r k j
  by_cases hj : j = k
  · simp [get?, insert, lookup_entry, hj]
  · simp only [get?, insert, lookup_entry, hj, if_false] at h ⊢
    exact h

theorem mem_keys_iff (r : Registry κ ν) (k : κ) : k ∈ r.keys ↔ (r.get? k).isSome := by
  simp only [keys, get?]
  generalize r.entries = l
  induction l with
  | nil => simp
  | cons e l ih =>
    rw [lookup_entry, List.map_cons, List.mem_cons, ih]
    by_cases ha : k = e.1 <;> simp [ha]

omit [DecidableEq κ] in
theorem length_keys (r : Registry κ ν) : r.keys.length = r.size := by simp [keys, size]

end Registry

end StakeKeeper
