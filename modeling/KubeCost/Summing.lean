/-
# Tables whose rows are summed

Rows with a key and values that are added up, as ClickHouse keeps them in a
`SummingMergeTree`: a view writes one row for each group of what is inserted (`aggregate`), and
rows of one sorting key are merged into their sum at any time (`mergeRows`), or dropped if
the sum is zero. A row keeps one of the keys that it was merged from.

What is read is the sum over the rows with a key, and neither changes it: a view of a view
has the sums of what was inserted (`total_aggregate`), and a merge leaves every sum as it was
if the sorting key tells the keys of the table apart (`total_mergeRows`).
-/
import Mathlib.Algebra.BigOperators.Group.List.Basic
import KubeCost.Relational

namespace KubeCost
namespace Summing

variable {α κ σ M : Type*} [AddCommMonoid M]

/-- The sum of the rows whose key passes a test. -/
def total (p : κ → Bool) (rows : List (κ × M)) : M := ((rows.filter fun r => p r.1).map Prod.snd).sum

/-- `SELECT key, sum(value) … GROUP BY key`. -/
def aggregate [DecidableEq κ] (key : α → κ) (value : α → M) (xs : List α) : List (κ × M) :=
  Relational.groupBy key (fun k group => (k, (group.map value).sum)) xs

/-- A sum over the elements that pass a test, split by another. -/
theorem sum_filter_split (f : α → M) (p q : α → Prop) [DecidablePred p] [DecidablePred q]
    (xs : List α) : ((xs.filter fun x => p x ∧ q x).map f).sum +
      ((xs.filter fun x => p x ∧ ¬ q x).map f).sum = ((xs.filter fun x => p x).map f).sum := by
  have hsplit := List.filter_append_perm (fun x => decide (q x)) (xs.filter fun x => p x)
  rw [List.filter_filter, List.filter_filter] at hsplit
  rw [← ((hsplit).map f).sum_eq, List.map_append, List.sum_append]
  congr 3
  · refine List.filter_congr fun x _ => ?_
    rw [Bool.decide_and, Bool.and_comm]
  · refine List.filter_congr fun x _ => ?_
    rw [Bool.decide_and, Bool.and_comm, decide_not]

section Total

variable {p : κ → Bool} {rows rows' : List (κ × M)}

theorem total_append : total p (rows ++ rows') = total p rows + total p rows' := by
  rw [total, List.filter_append, List.map_append, List.sum_append, ← total, ← total]

theorem total_perm (h : rows.Perm rows') : total p rows = total p rows' :=
  ((h.filter _).map _).sum_eq

theorem total_eq_zero (h : ∀ r ∈ rows, p r.1 = false) : total p rows = 0 := by
  rw [total, List.filter_eq_nil_iff.mpr fun r hr => by rw [h r hr]; exact Bool.false_ne_true]
  rfl

theorem total_eq_sum (h : ∀ r ∈ rows, p r.1 = true) : total p rows = (rows.map Prod.snd).sum := by
  rw [total, List.filter_eq_self.mpr h]

variable [DecidableEq κ]

/-- **A view has the sums of what was inserted.** -/
theorem total_aggregate (key : α → κ) (value : α → M) (xs : List α) :
    total p (aggregate key value xs) = ((xs.filter fun x => p (key x)).map value).sum :=
  Relational.sum_groupBy (fun _ _ => rfl) fun _ _ => rfl

theorem key_of_mem_aggregate {key : α → κ} {value : α → M} {xs : List α} {r : κ × M}
    (h : r ∈ aggregate key value xs) : ∃ x ∈ xs, r.1 = key x := by
  obtain ⟨x, hx, rfl⟩ := Relational.mem_groupBy.mp h
  exact ⟨x, hx, rfl⟩

end Total

/-! ### Merges -/

/-- The rows that are marked, and the others. -/
def split : List Bool → List α → List α × List α
  | _, [] => ([], [])
  | [], x :: xs => ([], x :: xs)
  | mark :: marks, x :: xs =>
    if mark then (x :: (split marks xs).1, (split marks xs).2)
    else ((split marks xs).1, x :: (split marks xs).2)

theorem split_perm : ∀ (marks : List Bool) (xs : List α),
    xs.Perm ((split marks xs).1 ++ (split marks xs).2)
  | [], [] | _ :: _, [] => List.Perm.nil
  | [], x :: xs => List.Perm.refl (x :: xs)
  | true :: marks, x :: xs => (split_perm marks xs).cons x
  | false :: marks, x :: xs => ((split_perm marks xs).cons x).trans List.perm_middle.symm

variable [DecidableEq σ] [DecidableEq M]

/-- The row that rows are merged into: none, if there is nothing in it. -/
def sumRow (k : κ) (values : M) : List (κ × M) := if values = 0 then [] else [(k, values)]

/-- The marked rows, all of one sorting key, are merged. -/
def mergeRows (sortKey : κ → σ) (marks : List Bool) (rows : List (κ × M)) : Option (List (κ × M)) :=
  match (split marks rows).1 with
  | [] => none
  | first :: others =>
    if others.all fun r => sortKey r.1 = sortKey first.1 then
      some (sumRow first.1 ((first :: others).map Prod.snd).sum ++ (split marks rows).2)
    else none

variable {sortKey : κ → σ} {marks : List Bool} {rows rows' : List (κ × M)}

/-- What a merge does. -/
theorem mergeRows_eq_some (h : mergeRows sortKey marks rows = some rows') : ∃ first others rest,
    rows.Perm ((first :: others) ++ rest) ∧ (∀ r ∈ others, sortKey r.1 = sortKey first.1) ∧
      rows' = sumRow first.1 ((first :: others).map Prod.snd).sum ++ rest := by
  have hperm := split_perm marks rows
  unfold mergeRows at h
  split at h
  · cases h
  · rename_i first others hsplit
    rw [hsplit] at hperm
    split at h
    · rename_i hall
      cases h
      exact ⟨first, others, _, hperm, fun r hr => of_decide_eq_true (List.all_eq_true.mp hall r hr), rfl⟩
    · cases h

theorem key_of_mem_mergeRows (h : mergeRows sortKey marks rows = some rows') {r : κ × M}
    (hr : r ∈ rows') : ∃ r₀ ∈ rows, r₀.1 = r.1 := by
  obtain ⟨first, others, rest, hperm, -, rfl⟩ := mergeRows_eq_some h
  rcases List.mem_append.mp hr with hr | hr
  · refine ⟨first, hperm.mem_iff.mpr List.mem_cons_self, ?_⟩
    unfold sumRow at hr
    split at hr
    · exact absurd hr List.not_mem_nil
    · rw [List.mem_singleton.mp hr]
  · exact ⟨r, hperm.mem_iff.mpr (List.mem_append_right _ hr), rfl⟩

theorem total_sumRow {p : κ → Bool} {k : κ} {values : M} :
    total p (sumRow k values) = if p k then values else 0 := by
  unfold sumRow
  by_cases hvalues : values = 0
  · rw [if_pos hvalues, hvalues, ite_self]
    rfl
  · rw [if_neg hvalues]
    cases hp : p k with
    | false => exact total_eq_zero fun r hr => by rw [List.mem_singleton.mp hr, hp]
    | true =>
      rw [total_eq_sum fun r hr => by rw [List.mem_singleton.mp hr, hp]]
      exact (add_zero _)

/-- **A merge changes no sum**, in a table whose keys the sorting key tells apart. -/
theorem total_mergeRows {p : κ → Bool}
    (hsort : ∀ r ∈ rows, ∀ r' ∈ rows, sortKey r.1 = sortKey r'.1 → r.1 = r'.1)
    (h : mergeRows sortKey marks rows = some rows') : total p rows' = total p rows := by
  obtain ⟨first, others, rest, hperm, hsame, rfl⟩ := mergeRows_eq_some h
  have hmem : ∀ r ∈ first :: others, r ∈ rows := fun r hr =>
    hperm.mem_iff.mpr (List.mem_append_left _ hr)
  have hkey : ∀ r ∈ first :: others, r.1 = first.1 := by
    rintro r (_ | ⟨_, hr⟩)
    · rfl
    · exact hsort r (hmem r (List.mem_cons_of_mem _ hr)) first (hmem first List.mem_cons_self)
        (hsame r hr)
  rw [total_perm hperm, total_append, total_append, total_sumRow]
  congr 1
  cases hp : p first.1 with
  | false =>
    rw [total_eq_zero fun r hr => by rw [hkey r hr, hp]]
    rfl
  | true =>
    rw [total_eq_sum fun r hr => by rw [hkey r hr, hp]]
    rfl

end Summing
end KubeCost
