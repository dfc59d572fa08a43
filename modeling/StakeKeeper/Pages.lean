/-!
Cutting a list into pages of a given length. Main statements: `flatten_pages` (nothing is lost or
reordered), `length_pages` (how many pages there are), `length_le_of_mem_pages`,
`ne_nil_of_mem_pages` and `pages_eq` (the first page, then the rest).
-/
namespace StakeKeeper
set_option autoImplicit false
universe u
variable {α : Type u}

/-- The first `left` elements, and the pages of what follows. -/
def pagesAfter (size : Nat) : Nat → List α → List α × List (List α)
  | _, [] => ([], [])
  | 0, x :: xs =>
    let (page, pages) := pagesAfter size (size - 1) xs
    ([], (x :: page) :: pages)
  | left + 1, x :: xs =>
    let (page, pages) := pagesAfter size left xs
    (x :: page, pages)

/-- The list in pages of `size` elements, the last one possibly shorter. Size zero acts as one. -/
def pages (size : Nat) (xs : List α) : List (List α) := (pagesAfter (max size 1) 0 xs).2

/-! ## What the pages hold -/

theorem pagesAfter_eq (size : Nat) (left : Nat) (xs : List α) :
    pagesAfter size left xs = (xs.take left, (pagesAfter size 0 (xs.drop left)).2) := by
  induction xs generalizing left with
  | nil => simp [pagesAfter]
  | cons x xs ih =>
    cases left with
    | zero => simp [pagesAfter]
    | succ left => simp [pagesAfter, ih left]

@[simp] theorem pages_nil (size : Nat) : pages size ([] : List α) = [] := rfl

theorem pages_eq (size : Nat) (x : α) (xs : List α) :
    pages size (x :: xs) =
      ((x :: xs).take (max size 1)) :: pages size ((x :: xs).drop (max size 1)) := by
  have h : max size 1 = (max size 1 - 1) + 1 := by omega
  rw [pages, pagesAfter, pagesAfter_eq]
  conv => rhs; rw [h, List.take_succ_cons, List.drop_succ_cons]
  rw [pages]

theorem pages_append {size : Nat} {page rest : List α} (hne : page ≠ [])
    (hle : page.length ≤ max size 1) (hfull : page.length = max size 1 ∨ rest = []) :
    pages size (page ++ rest) = page :: pages size rest := by
  have hcut : (page ++ rest).take (max size 1) = page ∧
      (page ++ rest).drop (max size 1) = rest := by
    rcases hfull with hlength | rfl
    · exact ⟨List.take_left' hlength, List.drop_left' hlength⟩
    · rw [List.append_nil]
      exact ⟨List.take_of_length_le hle, List.drop_of_length_le hle⟩
  obtain ⟨x, xs, hx⟩ := List.exists_cons_of_ne_nil (List.append_ne_nil_of_left_ne_nil hne rest)
  rw [hx] at hcut ⊢
  rw [pages_eq, hcut.1, hcut.2]

theorem flatten_pages (size : Nat) (xs : List α) : (pages size xs).flatten = xs := by
  generalize hn : xs.length = n
  induction n using Nat.strongRecOn generalizing xs with
  | ind n ih =>
    cases xs with
    | nil => rfl
    | cons x xs =>
      rw [pages_eq, List.flatten_cons, ih _ _ _ rfl, List.take_append_drop]
      simp only [List.length_cons] at hn
      simp only [List.length_drop, List.length_cons]
      omega

theorem length_pages (size : Nat) (xs : List α) :
    (pages size xs).length = (xs.length + (max size 1 - 1)) / max size 1 := by
  have hsize : 0 < max size 1 := by omega
  generalize hn : xs.length = n
  induction n using Nat.strongRecOn generalizing xs with
  | ind n ih =>
    cases xs with
    | nil =>
      rw [List.length_nil] at hn
      rw [pages_nil, List.length_nil, Nat.div_eq_of_lt (by omega)]
    | cons x xs =>
      rw [List.length_cons] at hn
      have hdrop : ((x :: xs).drop (max size 1)).length = n - max size 1 := by
        rw [List.length_drop, List.length_cons, hn]
      rw [pages_eq, List.length_cons, ih (n - max size 1) (by omega) _ hdrop]
      by_cases hle : max size 1 ≤ n
      · have hsum : n + (max size 1 - 1) =
            n - max size 1 + (max size 1 - 1) + max size 1 := by omega
        rw [hsum, Nat.add_div_right _ hsize]
      · have hnone : n - max size 1 = 0 := by omega
        have hone : n + (max size 1 - 1) = n - 1 + max size 1 := by omega
        rw [hnone, hone, Nat.add_div_right _ hsize, Nat.div_eq_of_lt (by omega),
          Nat.div_eq_of_lt (by omega)]

theorem length_le_of_mem_pages {size : Nat} {xs page : List α} (h : page ∈ pages size xs) :
    page.length ≤ max size 1 := by
  generalize hn : xs.length = n at h
  induction n using Nat.strongRecOn generalizing xs with
  | ind n ih =>
    cases xs with
    | nil => simp at h
    | cons x xs =>
      rw [pages_eq, List.mem_cons] at h
      rcases h with rfl | h
      · simp only [List.length_take]; omega
      · refine ih _ ?_ h rfl
        simp only [List.length_cons] at hn
        simp only [List.length_drop, List.length_cons]
        omega

theorem ne_nil_of_mem_pages {size : Nat} {xs page : List α} (h : page ∈ pages size xs) :
    page ≠ [] := by
  generalize hn : xs.length = n at h
  induction n using Nat.strongRecOn generalizing xs with
  | ind n ih =>
    cases xs with
    | nil => simp at h
    | cons x xs =>
      rw [pages_eq, List.mem_cons] at h
      rcases h with rfl | h
      · have : max size 1 = (max size 1 - 1) + 1 := by omega
        rw [this, List.take_succ_cons]; simp
      · refine ih _ ?_ h rfl
        simp only [List.length_cons] at hn
        simp only [List.length_drop, List.length_cons]
        omega

end StakeKeeper
