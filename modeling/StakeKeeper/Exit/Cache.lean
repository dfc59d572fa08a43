import StakeKeeper.Bytes

/-!
The validators whose signed exit the coordination service is known to hold. Main statements:
`mem_mark`, `mem_markAll` and `mark_snd_iff` (what a mark changes, and when it is new).
-/
namespace StakeKeeper
set_option autoImplicit false

/-- The cache of exits that the service holds. -/
structure ExitCache where
  sent : List PubKey
  distinct : sent.Nodup
  /-- Whether the service's listing has been taken in. -/
  initialized : Bool

namespace ExitCache

def empty : ExitCache := ⟨[], List.nodup_nil, false⟩

def contains (c : ExitCache) (k : PubKey) : Bool := c.sent.contains k

def size (c : ExitCache) : Nat := c.sent.length

def isEmpty (c : ExitCache) : Bool := c.sent.isEmpty

/-- The cache with a validator marked, and whether it was not before. -/
def mark (c : ExitCache) (k : PubKey) : ExitCache × Bool :=
  if h : k ∈ c.sent then (c, false)
  else ({ c with sent := k :: c.sent, distinct := List.nodup_cons.2 ⟨h, c.distinct⟩ }, true)

def markAll (c : ExitCache) (keys : List PubKey) : ExitCache :=
  keys.foldl (fun c k => (c.mark k).1) c

/-! ## What a mark changes -/

@[simp] theorem contains_iff {c : ExitCache} {k : PubKey} : c.contains k = true ↔ k ∈ c.sent := by
  simp [contains]

theorem mem_mark {c : ExitCache} {k j : PubKey} :
    j ∈ (c.mark k).1.sent ↔ j = k ∨ j ∈ c.sent := by
  unfold mark
  split
  · next h => constructor
              · exact .inr
              · rintro (rfl | hj)
                · exact h
                · exact hj
  · simp

theorem mark_snd_iff {c : ExitCache} {k : PubKey} : (c.mark k).2 = true ↔ k ∉ c.sent := by
  unfold mark; split <;> simp_all

theorem mem_markAll {c : ExitCache} {keys : List PubKey} {j : PubKey} :
    j ∈ (c.markAll keys).sent ↔ j ∈ keys ∨ j ∈ c.sent := by
  induction keys generalizing c with
  | nil => simp [markAll]
  | cons k keys ih =>
    rw [markAll, List.foldl_cons, ← markAll, ih, mem_mark, List.mem_cons]
    constructor
    · rintro (h | h | h)
      · exact .inl (.inr h)
      · exact .inl (.inl h)
      · exact .inr h
    · rintro ((h | h) | h)
      · exact .inr (.inl h)
      · exact .inl h
      · exact .inr (.inr h)

theorem mark_initialized (c : ExitCache) (k : PubKey) :
    (c.mark k).1.initialized = c.initialized := by
  unfold mark; split <;> rfl

end ExitCache

end StakeKeeper
