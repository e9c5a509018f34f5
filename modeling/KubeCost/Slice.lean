/-
# Slices over a shared array

A slice of Go is a window on an array: `s[:0]` and an `append` that has room go on
writing into the array of `s`, so a loop that ranges over `s` while it appends to
`s[:0]` reads cells it may have overwritten. It never does: the window that is written
is no longer than what has been read, so the loop keeps the elements that pass the
test, in their order, and `append` never moves it to another array
(`filterInPlace_spec`).
-/
import Mathlib.Data.List.Basic
import Mathlib.Data.Nat.Notation

namespace KubeCost

/-- A window on the first `length` cells of an array. -/
structure Slice (α : Type*) where
  cells : List α
  length : ℕ
  fits : length ≤ cells.length

namespace Slice

variable {α : Type*} {s : Slice α} {x : α}

/-- What the slice shows. -/
def values (s : Slice α) : List α := s.cells.take s.length

/-- A slice without an array. -/
def nil : Slice α := ⟨[], 0, Nat.le_refl 0⟩

/-- `s[:0]`, on the array of `s`. -/
def cut (s : Slice α) : Slice α := ⟨s.cells, 0, Nat.zero_le _⟩

theorem fits_set (h : s.length < s.cells.length) (x : α) :
    s.length + 1 ≤ (s.cells.set s.length x).length := by
  rw [List.length_set]
  exact h

theorem fits_grown (s : Slice α) (x : α) (spare : List α) :
    s.length + 1 ≤ (s.values ++ x :: spare).length := by
  rw [List.length_append, values, List.length_take_of_le s.fits, List.length_cons]
  omega

/-- `append(s, x)`: into the next cell of the array, or with a copy of the elements into a
new array that has some cells to `spare`. -/
def append (spare : List α) (s : Slice α) (x : α) : Slice α :=
  if h : s.length < s.cells.length then ⟨s.cells.set s.length x, s.length + 1, fits_set h x⟩
  else ⟨s.values ++ x :: spare, s.length + 1, fits_grown s x spare⟩

/-- The rounds of `for _, x := range s` from index `i` on, with `kept` on the array of `s`. -/
def filterFrom (keep : α → Bool) : ℕ → ℕ → Slice α → Slice α
  | 0, _, kept => kept
  | rounds + 1, i, kept =>
    match kept.cells[i]? with
    | none => kept
    | some x => filterFrom keep rounds (i + 1) (if keep x then kept.append [] x else kept)

/-- `kept := s[:0]; for _, x := range s { if keep(x) { kept = append(kept, x) } }`. -/
def filterInPlace (keep : α → Bool) (s : Slice α) : Slice α := filterFrom keep s.length 0 s.cut

theorem length_values (s : Slice α) : s.values.length = s.length := List.length_take_of_le s.fits

theorem append_of_lt (h : s.length < s.cells.length) (spare : List α) :
    s.append spare x = ⟨s.cells.set s.length x, s.length + 1, fits_set h x⟩ := dif_pos h

theorem take_set_succ {cells : List α} {n : ℕ} (h : n < cells.length) (x : α) :
    (cells.set n x).take (n + 1) = cells.take n ++ [x] := by
  rw [List.take_add_one, List.getElem?_set_self h, List.take_set_of_le (Nat.le_refl n)]
  rfl

/-- **`append` puts the element behind the others.** -/
theorem values_append (spare : List α) (s : Slice α) (x : α) :
    (s.append spare x).values = s.values ++ [x] := by
  by_cases h : s.length < s.cells.length
  · rw [append_of_lt h]
    exact take_set_succ h x
  · rw [append, dif_neg h]
    show (s.values ++ x :: spare).take (s.length + 1) = _
    rw [← length_values s, List.take_length_add_append]
    rfl

/-- The rounds stay on the array, and keep of the cells they read those that pass the test. -/
theorem filterFrom_spec (keep : α → Bool) : ∀ (rounds i : ℕ) (kept : Slice α),
    kept.length ≤ i → i + rounds ≤ kept.cells.length →
    (filterFrom keep rounds i kept).cells.length = kept.cells.length ∧
      (filterFrom keep rounds i kept).values =
        kept.values ++ ((kept.cells.drop i).take rounds).filter keep
  | 0, i, kept, _, _ => by
    simp only [filterFrom, List.take_zero, List.filter_nil, List.append_nil, and_self]
  | rounds + 1, i, kept, hle, hfit => by
    have hi : i < kept.cells.length := by omega
    rw [filterFrom, List.getElem?_eq_getElem hi]
    simp only []
    rw [List.drop_eq_getElem_cons hi, List.take_succ_cons, List.filter_cons]
    by_cases hkeep : keep kept.cells[i] = true
    · rw [if_pos hkeep, if_pos hkeep]
      have hlt : kept.length < kept.cells.length := by omega
      -- the cell that is written has been read, so the rest of the array is as it was
      have hcells : (kept.append [] kept.cells[i]).cells = kept.cells.set kept.length kept.cells[i] := by
        rw [append_of_lt hlt]
      have hlength : (kept.append [] kept.cells[i]).length = kept.length + 1 := by
        rw [append_of_lt hlt]
      have hsize : (kept.append [] kept.cells[i]).cells.length = kept.cells.length := by
        rw [hcells, List.length_set]
      obtain ⟨harray, hvalues⟩ := filterFrom_spec keep rounds (i + 1)
        (kept.append [] kept.cells[i]) (by omega) (by omega)
      refine ⟨harray.trans hsize, ?_⟩
      rw [hvalues, values_append, hcells, List.drop_set_of_lt (by omega), List.append_assoc]
      rfl
    · rw [if_neg hkeep, if_neg hkeep]
      exact filterFrom_spec keep rounds (i + 1) kept (by omega) (by omega)

theorem filterInPlace_spec (keep : α → Bool) (s : Slice α) :
    (s.filterInPlace keep).cells.length = s.cells.length ∧
      (s.filterInPlace keep).values = s.values.filter keep := by
  have hfit : 0 + s.length ≤ s.cells.length := by
    have := s.fits
    omega
  exact filterFrom_spec keep s.length 0 s.cut (Nat.le_refl 0) hfit

/-- **Filtering in place keeps the elements that pass the test, in their order.** -/
theorem values_filterInPlace (keep : α → Bool) (s : Slice α) :
    (s.filterInPlace keep).values = s.values.filter keep := (filterInPlace_spec keep s).2

end Slice
end KubeCost
