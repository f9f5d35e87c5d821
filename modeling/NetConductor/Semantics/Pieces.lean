import Mathlib.Data.List.Basic

/-! Cutting a list into pieces of bounded length, each with a flag that marks
the last one. -/
namespace Pieces

variable {α : Type*}

/-- The pieces of `n` elements; the last one may be shorter. -/
def pieces (n : Nat) (xs : List α) : List (List α × Bool) :=
  if _h : n = 0 ∨ xs = [] then []
  else (xs.take n, decide (xs.length ≤ n)) :: pieces n (xs.drop n)
termination_by xs.length
decreasing_by
  obtain ⟨hn, hxs⟩ := not_or.mp _h
  have hLength := List.length_pos_of_ne_nil hxs
  simp only [List.length_drop]
  omega

@[simp] theorem pieces_nil (n : Nat) : pieces n ([] : List α) = [] := by
  rw [pieces, dif_pos (.inr rfl)]

theorem pieces_last {n : Nat} {xs : List α} (hNonempty : xs ≠ []) (h : xs.length ≤ n) :
    pieces n xs = [(xs, true)] := by
  have hn : n ≠ 0 := by
    rintro rfl
    exact hNonempty (List.length_eq_zero_iff.mp (Nat.le_zero.mp h))
  rw [pieces, dif_neg (not_or.mpr ⟨hn, hNonempty⟩), List.take_of_length_le h, List.drop_of_length_le h,
    pieces_nil, decide_eq_true h]

theorem pieces_more {n : Nat} {xs : List α} (hn : n ≠ 0) (h : n < xs.length) :
    pieces n xs = (xs.take n, false) :: pieces n (xs.drop n) := by
  have hNonempty : xs ≠ [] := by
    rintro rfl
    simp at h
  rw [pieces, dif_neg (not_or.mpr ⟨hn, hNonempty⟩), decide_eq_false (Nat.not_le.mpr h)]

/-- The induction that follows the pieces: the last one, or one before others. -/
theorem pieces_induction {n : Nat} (hn : n ≠ 0) {P : List α → Prop}
    (last : ∀ xs, xs ≠ [] → xs.length ≤ n → P xs)
    (more : ∀ xs, n < xs.length → P (xs.drop n) → P xs) (xs : List α) (hNonempty : xs ≠ []) :
    P xs := by
  induction hLength : xs.length using Nat.strongRecOn generalizing xs with
  | ind length ih =>
      subst hLength
      rcases Nat.lt_or_ge n xs.length with h | h
      · have hDrop : (xs.drop n).length = xs.length - n := List.length_drop
        refine more xs h (ih _ (by omega) (xs.drop n) ?_ rfl)
        rintro hNil
        rw [hNil, List.length_nil] at hDrop
        omega
      · exact last xs hNonempty h

/-- No piece is longer than the bound. -/
theorem length_le_of_mem_pieces {n : Nat} {xs : List α} {p : List α × Bool} (h : p ∈ pieces n xs) :
    p.1.length ≤ n := by
  by_cases hn : n = 0
  · rw [pieces, dif_pos (.inl hn)] at h
    simp at h
  · by_cases hNonempty : xs = []
    · simp [hNonempty] at h
    · revert h
      refine pieces_induction hn (P := fun xs => p ∈ pieces n xs → p.1.length ≤ n)
        (fun xs hxs hLength h => ?_) (fun xs hLength ih h => ?_) xs hNonempty
      · rw [pieces_last hxs hLength, List.mem_singleton] at h
        rw [h]
        exact hLength
      · rw [pieces_more hn hLength] at h
        rcases List.mem_cons.mp h with rfl | h
        · exact List.length_take_le n xs
        · exact ih h

end Pieces
