/-!
Decimal digits of natural numbers. Main statements: `ofDigits_digits` (the digits of a number read
back) and `digits_ne_nil`.
-/
namespace StakeKeeper.Decimal
set_option autoImplicit false

/-- The digits of a number, most significant first, without leading zeros. -/
def digits (n : Nat) : List Nat := if n < 10 then [n] else digits (n / 10) ++ [n % 10]
termination_by n

/-- The number that digits stand for. -/
def ofDigits (l : List Nat) : Nat := l.foldl (fun n d => 10 * n + d) 0

theorem ofDigits_append (l : List Nat) (d : Nat) : ofDigits (l ++ [d]) = 10 * ofDigits l + d := by
  simp [ofDigits]

theorem ofDigits_digits (n : Nat) : ofDigits (digits n) = n := by
  induction n using Nat.strongRecOn with
  | ind n ih =>
    rw [digits]
    split
    · simp [ofDigits]
    · rw [ofDigits_append, ih _ (by omega)]; omega

theorem digits_ne_nil (n : Nat) : digits n ≠ [] := by
  rw [digits]; split <;> simp

theorem lt_ten_of_mem_digits {n d : Nat} (h : d ∈ digits n) : d < 10 := by
  induction n using Nat.strongRecOn with
  | ind n ih =>
    rw [digits] at h
    split at h
    · simp only [List.mem_singleton] at h; omega
    · rw [List.mem_append, List.mem_singleton] at h
      rcases h with h | h
      · exact ih _ (by omega) h
      · omega

theorem head_digits_eq_zero {n : Nat} {l : List Nat} (h : digits n = 0 :: l) : l = [] := by
  induction n using Nat.strongRecOn generalizing l with
  | ind n ih =>
    rw [digits] at h
    split at h
    · simp_all
    · obtain ⟨d, t, hd⟩ := List.exists_cons_of_ne_nil (digits_ne_nil (n / 10))
      rw [hd, List.cons_append, List.cons.injEq] at h
      obtain ⟨rfl, rfl⟩ := h
      have ht := ih (n / 10) (by omega) hd
      subst ht
      have hz := ofDigits_digits (n / 10)
      rw [hd] at hz
      simp [ofDigits] at hz
      omega

def digitChar (d : Nat) : Char := Char.ofNat (48 + d)

def digit? (c : Char) : Option Nat :=
  if 48 ≤ c.toNat ∧ c.toNat ≤ 57 then some (c.toNat - 48) else none

theorem digit?_digitChar {d : Nat} (h : d < 10) : digit? (digitChar d) = some d := by
  have all : ∀ d : Fin 10, digit? (digitChar d.val) = some d.val := by decide
  exact all ⟨d, h⟩

end StakeKeeper.Decimal
