import ItemStore.Store.Chunks

/-!
# Lists in slices

A batch is cut into consecutive slices.  `Slices` says what that means without saying how it is
done, and `slices_chunksOf` that `chunksOf` does it.
-/

namespace ItemStore

variable {α : Type}

/-- Consecutive slices of a list: none is empty, none is longer than `n`, and there are no more of
them than it takes. -/
structure Slices (n : Nat) (xs : List α) (slices : List (List α)) : Prop where
  /-- The slices are the list. -/
  flatten : slices.flatten = xs
  /-- There are as many as the length divided by `n`, rounded up. -/
  count : slices.length = (xs.length + n - 1) / n
  /-- No slice is empty. -/
  filled : ∀ slice ∈ slices, slice ≠ []
  /-- No slice is longer than `n`. -/
  bounded : ∀ slice ∈ slices, slice.length ≤ n

theorem le_ceilDiv_mul (m : Nat) {n : Nat} (hn : 0 < n) : m ≤ ceilDiv m n * n := by
  have hlt : m + n - 1 < n * ((m + n - 1) / n + 1) := Nat.lt_mul_div_succ _ hn
  rw [Nat.mul_add, Nat.mul_one, Nat.mul_comm] at hlt
  unfold ceilDiv
  omega

theorem mul_lt_of_lt_ceilDiv {m n i : Nat} (h : i < ceilDiv m n) : i * n < m := by
  unfold ceilDiv at h
  have hle : (i + 1) * n ≤ m + n - 1 := by
    calc (i + 1) * n ≤ (m + n - 1) / n * n := Nat.mul_le_mul_right n h
      _ ≤ m + n - 1 := Nat.div_mul_le_self _ _
  have hn : 0 < n := by
    rcases Nat.eq_zero_or_pos n with rfl | hn
    · simp at h
    · exact hn
  rw [Nat.add_mul, Nat.one_mul] at hle
  omega

/-- The first slices are the front of the list. -/
theorem flatten_slices (n k : Nat) (xs : List α) :
    ((List.range k).map fun i => (xs.drop (i * n)).take n).flatten = xs.take (k * n) := by
  induction k with
  | zero => simp
  | succ k ih =>
    rw [List.range_succ, List.map_append, List.flatten_append, ih, Nat.succ_mul, List.take_add]
    simp

/-- Cutting a list makes slices of it. -/
theorem slices_chunksOf {n : Nat} (hn : 0 < n) (xs : List α) : Slices n xs (chunksOf n xs) where
  flatten := by
    rw [chunksOf, flatten_slices, List.take_of_length_le (le_ceilDiv_mul xs.length hn)]
  count := by simp [chunksOf, ceilDiv]
  filled := by
    intro slice hslice
    obtain ⟨i, hi, rfl⟩ := List.mem_map.1 hslice
    have hlt : i * n < xs.length := mul_lt_of_lt_ceilDiv (List.mem_range.1 hi)
    intro hnil
    have hlength := congrArg List.length hnil
    rw [List.length_take, List.length_drop, List.length_nil] at hlength
    omega
  bounded := by
    intro slice hslice
    obtain ⟨i, -, rfl⟩ := List.mem_map.1 hslice
    exact List.length_take_le n _

end ItemStore
