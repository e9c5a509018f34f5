/-
# Queries over finite tables

The clauses of a query as functions on lists of rows: `groupBy` makes one row
of each group, `innerJoin` and `leftJoin` pair the rows that match. A table is a
list because a query may see a row twice; no result here depends on the order.

A column that sums over a group sums over the rows behind it (`sum_groupBy`), and
a group is found by its key (`filter_groupBy`). A join in which every row has at
most one match looks the match up (`innerJoin_eq_filterMap`, `leftJoin_eq_map`). Where
values are not negative, one row a key can have all the value of a table only when no
key has two rows with a value (`exists_onePer_iff`).
-/
import Mathlib.Algebra.Group.Prod
import Mathlib.Algebra.Order.BigOperators.Group.List
import Mathlib.Data.List.Dedup
import KubeCost.Keyed

namespace KubeCost
namespace Relational

variable {α β κ : Type*}

/-- `GROUP BY`: one row for each key, made of the rows with that key. -/
def groupBy [DecidableEq κ] (key : α → κ) (row : κ → List α → β) (xs : List α) : List β :=
  (xs.map key).dedup.map fun k => row k (xs.filter fun x => key x = k)

/-- `INNER JOIN`. -/
def innerJoin (on : α → β → Bool) (xs : List α) (ys : List β) : List (α × β) :=
  xs.flatMap fun x => (ys.filter (on x)).map fun y => (x, y)

/-- `LEFT JOIN`: a row without a match is kept alone. -/
def leftJoin (on : α → β → Bool) (xs : List α) (ys : List β) : List (α × Option β) :=
  xs.flatMap fun x =>
    if (ys.filter (on x)).isEmpty then [(x, none)]
    else (ys.filter (on x)).map fun y => (x, some y)

/-! ### Groups -/

section Groups

variable [DecidableEq κ] {key : α → κ} {row : κ → List α → β} {xs : List α} {k : κ}

theorem mem_groupBy {b : β} : b ∈ groupBy key row xs ↔
    ∃ x ∈ xs, b = row (key x) (xs.filter fun y => key y = key x) := by
  rw [groupBy, List.mem_map]
  constructor
  · rintro ⟨k, hk, rfl⟩
    obtain ⟨x, hx, rfl⟩ := List.mem_map.mp (List.mem_dedup.mp hk)
    exact ⟨x, hx, rfl⟩
  · rintro ⟨x, hx, rfl⟩
    exact ⟨key x, List.mem_dedup.mpr (List.mem_map_of_mem hx), rfl⟩

/-- No two groups have one key. -/
theorem nodup_groupBy {keyOf : β → κ} (hkey : ∀ k l, keyOf (row k l) = k) :
    ((groupBy key row xs).map keyOf).Nodup := by
  have hkeys : (groupBy key row xs).map keyOf = (xs.map key).dedup := by
    rw [groupBy, List.map_map]
    exact (List.map_congr_left fun k _ => hkey k _).trans (List.map_id _)
  rw [hkeys]
  exact List.nodup_dedup _

/-- A test of the key keeps the groups whose key passes it. -/
theorem filter_groupBy_key {p : β → Bool} {q : κ → Bool} (hp : ∀ k l, p (row k l) = q k) :
    (groupBy key row xs).filter p =
      ((xs.map key).dedup.filter q).map fun k => row k (xs.filter fun x => key x = k) := by
  rw [groupBy, List.filter_map]
  congr 1
  exact List.filter_congr fun k _ => hp k _

/-- **A group is found by its key, once.** -/
theorem filter_groupBy {p : β → Bool} (hp : ∀ k' l, p (row k' l) = decide (k' = k))
    (hk : ∃ x ∈ xs, key x = k) :
    (groupBy key row xs).filter p = [row k (xs.filter fun x => key x = k)] := by
  obtain ⟨x, hx, rfl⟩ := hk
  rw [filter_groupBy_key hp, List.filter_eq, List.count_eq_one_of_mem (List.nodup_dedup _)
    (List.mem_dedup.mpr (List.mem_map_of_mem hx))]
  rfl

/-- A test that only groups with one key pass finds at most one group. -/
theorem length_filter_groupBy_le {p : β → Bool} (hp : ∀ x ∈ xs, ∀ y ∈ xs, ∀ l l',
    p (row (key x) l) = true → p (row (key y) l') = true → key x = key y) :
    ((groupBy key row xs).filter p).length ≤ 1 := by
  rw [groupBy, List.filter_map, List.length_map]
  have hnd := (List.nodup_dedup (xs.map key)).filter
    (p ∘ fun k => row k (xs.filter fun x => key x = k))
  have hmem : ∀ k ∈ (xs.map key).dedup.filter (p ∘ fun k => row k (xs.filter fun x => key x = k)),
      ∃ x ∈ xs, key x = k ∧ ∃ l, p (row k l) = true := by
    intro k hk
    obtain ⟨hk, hpass⟩ := List.mem_filter.mp hk
    obtain ⟨x, hx, rfl⟩ := List.mem_map.mp (List.mem_dedup.mp hk)
    exact ⟨x, hx, rfl, _, hpass⟩
  rcases hl : (xs.map key).dedup.filter (p ∘ fun k => row k (xs.filter fun x => key x = k)) with
    _ | ⟨k₁, _ | ⟨k₂, rest⟩⟩
  · exact Nat.zero_le 1
  · exact Nat.le_refl 1
  · rw [hl] at hnd hmem
    obtain ⟨x, hx, rfl, l, hpx⟩ := hmem k₁ List.mem_cons_self
    obtain ⟨y, hy, rfl, l', hpy⟩ := hmem k₂ (List.mem_cons_of_mem _ List.mem_cons_self)
    refine absurd (hp x hx y hy l l' hpx hpy) fun he => ?_
    rw [he] at hnd
    exact (List.nodup_cons.mp hnd).1 List.mem_cons_self

/-- **A summed column sums over the rows behind the groups.** -/
theorem sum_groupBy {M : Type*} [AddCommMonoid M] {g : β → M} {δ : α → M} {p : β → Bool}
    {q : κ → Bool} (hp : ∀ k l, p (row k l) = q k)
    (hg : ∀ k, q k = true → g (row k (xs.filter fun x => key x = k)) =
      ((xs.filter fun x => key x = k).map δ).sum) :
    (((groupBy key row xs).filter p).map g).sum =
      ((xs.filter fun x => q (key x)).map δ).sum := by
  have hkeys : ∀ x ∈ xs.filter (fun x => q (key x)), key x ∈ (xs.map key).dedup.filter q := by
    intro x hx
    obtain ⟨hx, hq⟩ := List.mem_filter.mp hx
    exact List.mem_filter.mpr ⟨List.mem_dedup.mpr (List.mem_map_of_mem hx), hq⟩
  rw [filter_groupBy_key hp, List.map_map,
    ← Keyed.sum_groups key δ ((List.nodup_dedup _).filter _) hkeys]
  congr 1
  refine List.map_congr_left fun k hk => ?_
  have hq := (List.mem_filter.mp hk).2
  rw [Function.comp_apply, hg k hq, List.filter_filter]
  congr 2
  refine List.filter_congr fun x _ => ?_
  by_cases h : key x = k
  · rw [h, hq, Bool.and_true]
  · rw [decide_eq_false h, Bool.false_and]

end Groups

/-! ### Joins -/

section Joins

variable {on : α → β → Bool} {xs : List α} {ys : List β}

/-- A list with at most one row that passes a test. -/
theorem filter_eq_toList_find? {p : β → Bool} (h : (ys.filter p).length ≤ 1) :
    ys.filter p = (ys.find? p).toList := by
  rw [← List.head?_filter]
  cases hf : ys.filter p with
  | nil => rfl
  | cons y rest =>
    rw [hf, List.length_cons] at h
    rw [List.eq_nil_of_length_eq_zero (by omega : rest.length = 0)]
    rfl

/-- An inner join in which every row has at most one match. -/
theorem innerJoin_eq_filterMap (h : ∀ x ∈ xs, (ys.filter (on x)).length ≤ 1) :
    innerJoin on xs ys = xs.filterMap fun x => (ys.find? (on x)).map fun y => (x, y) := by
  rw [innerJoin, List.filterMap_eq_flatMap_toList]
  refine List.flatMap_congr fun x hx => ?_
  rw [filter_eq_toList_find? (h x hx)]
  cases ys.find? (on x) <;> rfl

/-- A left join in which every row has at most one match. -/
theorem leftJoin_eq_map (h : ∀ x ∈ xs, (ys.filter (on x)).length ≤ 1) :
    leftJoin on xs ys = xs.map fun x => (x, ys.find? (on x)) := by
  rw [leftJoin, List.map_eq_flatMap]
  refine List.flatMap_congr fun x hx => ?_
  rw [filter_eq_toList_find? (h x hx)]
  cases ys.find? (on x) <;> rfl

/-- The sum over the rows that have a match, those without one adding nothing; the
test is a test of the row. -/
theorem sum_filterMap {M : Type*} [AddCommMonoid M] {f : α → Option β} (g : β → M) {p : β → Bool}
    {q : α → Bool} (hp : ∀ x y, f x = some y → p y = q x) : ∀ xs : List α,
    (((xs.filterMap f).filter p).map g).sum =
      ((xs.filter q).map fun x => ((f x).map g).getD 0).sum
  | [] => rfl
  | x :: xs => by
    have ih := sum_filterMap g hp xs
    cases hf : f x with
    | none =>
      rw [List.filterMap_cons_none hf]
      by_cases hq : q x = true
      · rw [List.filter_cons_of_pos hq, List.map_cons, List.sum_cons, hf, ih]
        exact (zero_add _).symm
      · rw [List.filter_cons_of_neg hq, ih]
    | some y =>
      have hpq := hp x y hf
      rw [List.filterMap_cons_some hf]
      by_cases hq : q x = true
      · rw [List.filter_cons_of_pos (hpq.trans hq), List.filter_cons_of_pos hq, List.map_cons,
          List.sum_cons, List.map_cons, List.sum_cons, hf, ih]
        rfl
      · rw [List.filter_cons_of_neg (by rw [hpq]; exact hq), List.filter_cons_of_neg hq, ih]

end Joins

/-! ### One row a key -/

section OnePer

variable {key : α → κ} {rows kept : List α}

/-- The kept rows are one of the rows for each key. -/
structure OnePer (key : α → κ) (rows kept : List α) : Prop where
  subset : kept ⊆ rows
  once : (kept.map key).Nodup
  every : ∀ row ∈ rows, key row ∈ kept.map key

variable {M : Type*} [AddCommMonoid M] {f : α → M}

/-- When each key has a row with all the value of the key, these rows have all the value. -/
theorem exists_onePer [DecidableEq κ] (h : ∀ row ∈ rows, ∃ r ∈ rows, key r = key row ∧
    ((rows.filter fun x => key x = key row).map f).sum = f r) :
    ∃ kept, OnePer key rows kept ∧ (rows.map f).sum = (kept.map f).sum := by
  by_cases hne : rows = []
  · rw [hne]
    exact ⟨[], ⟨List.Subset.refl _, List.nodup_nil, fun _ hrow => absurd hrow List.not_mem_nil⟩, rfl⟩
  have hchoice : ∀ k ∈ (rows.map key).dedup, ∃ r, r ∈ rows ∧ key r = k ∧
      ((rows.filter fun x => key x = k).map f).sum = f r := by
    intro k hk
    obtain ⟨row, hrow, rfl⟩ := List.mem_map.mp (List.mem_dedup.mp hk)
    obtain ⟨r, hr, hkey, hsum⟩ := h row hrow
    exact ⟨r, hr, hkey, hsum⟩
  obtain ⟨default, -⟩ := List.exists_mem_of_ne_nil rows hne
  have : Nonempty α := ⟨default⟩
  choose! chosen hmem hkey hsum using hchoice
  have hkeys : ((rows.map key).dedup.map chosen).map key = (rows.map key).dedup := by
    rw [List.map_map]
    exact (List.map_congr_left hkey).trans (List.map_id _)
  refine ⟨(rows.map key).dedup.map chosen, ⟨?_, ?_, ?_⟩, ?_⟩
  · intro r hr
    obtain ⟨k, hk, rfl⟩ := List.mem_map.mp hr
    exact hmem k hk
  · rw [hkeys]
    exact List.nodup_dedup _
  · intro row hrow
    rw [hkeys]
    exact List.mem_dedup.mpr (List.mem_map_of_mem hrow)
  · rw [List.map_map, ← Keyed.sum_groups key f (List.nodup_dedup _)
      fun row hrow => List.mem_dedup.mpr (List.mem_map_of_mem hrow)]
    congr 1
    exact List.map_congr_left hsum

variable [DecidableEq α]

/-- The kept rows and the others are all rows. -/
theorem OnePer.sum_eq (h : OnePer key rows kept) (hnd : rows.Nodup) (f : α → M) :
    (rows.map f).sum = (kept.map f).sum + ((rows.filter fun row => row ∉ kept).map f).sum := by
  have hkept : kept.Perm (rows.filter fun row => row ∈ kept) := by
    refine (List.perm_ext_iff_of_nodup (List.Nodup.of_map key h.once) (hnd.filter _)).mpr fun row => ?_
    rw [List.mem_filter, decide_eq_true_eq]
    exact ⟨fun hrow => ⟨h.subset hrow, hrow⟩, fun hrow => hrow.2⟩
  have hrows := (List.filter_append_perm (fun row => decide (row ∈ kept)) rows).symm
  rw [(hrows.map f).sum_eq, List.map_append, List.sum_append, (hkept.map f).sum_eq]
  congr 3
  refine List.filter_congr fun row _ => ?_
  rw [decide_not]

/-- A sum in which at most one row has a value. -/
theorem sum_eq_value (hnd : rows.Nodup) {row : α} (hrow : row ∈ rows)
    (hzero : ∀ r ∈ rows, r ≠ row → f r = 0) : (rows.map f).sum = f row := by
  rw [← Keyed.sum_single (b := f row) hnd hrow]
  congr 1
  refine List.map_congr_left fun r hr => ?_
  by_cases h : row = r
  · rw [if_pos h, h]
  · rw [if_neg h, hzero r hr (Ne.symm h)]

variable [DecidableEq κ] [PartialOrder M] [IsOrderedCancelAddMonoid M]

/-- **One row a key has all the value exactly when no key has two rows with a value.** -/
theorem exists_onePer_iff (hnd : rows.Nodup) (hnonneg : ∀ row ∈ rows, 0 ≤ f row) :
    (∃ kept, OnePer key rows kept ∧ (rows.map f).sum = (kept.map f).sum) ↔
      ∀ r ∈ rows, ∀ r' ∈ rows, key r = key r' → r ≠ r' → f r = 0 ∨ f r' = 0 := by
  constructor
  · rintro ⟨kept, hkept, hsum⟩ r hr r' hr' hkey hne
    rw [hkept.sum_eq hnd f, add_eq_left] at hsum
    have hzero : ∀ row ∈ rows, row ∉ kept → f row = 0 := by
      intro row hrow hnot
      have hmem : row ∈ rows.filter fun row => row ∉ kept :=
        List.mem_filter.mpr ⟨hrow, decide_eq_true hnot⟩
      refine le_antisymm ?_ (hnonneg row hrow)
      rw [← hsum]
      refine List.single_le_sum (fun x hx => ?_) _ (List.mem_map_of_mem hmem)
      obtain ⟨y, hy, rfl⟩ := List.mem_map.mp hx
      exact hnonneg y (List.mem_filter.mp hy).1
    by_cases hin : r ∈ kept
    · refine .inr (hzero r' hr' fun hin' => hne ?_)
      exact List.inj_on_of_nodup_map hkept.once hin hin' hkey
    · exact .inl (hzero r hr hin)
  · intro h
    refine exists_onePer fun row hrow => ?_
    have hgroup : ∀ r, r ∈ rows.filter (fun x => key x = key row) ↔ r ∈ rows ∧ key r = key row := by
      intro r
      rw [List.mem_filter, decide_eq_true_eq]
    by_cases hvalue : ∃ r ∈ rows, key r = key row ∧ f r ≠ 0
    · obtain ⟨r, hr, hkey, hfr⟩ := hvalue
      refine ⟨r, hr, hkey, sum_eq_value (hnd.filter _) ((hgroup r).mpr ⟨hr, hkey⟩) fun r' hr' hne => ?_⟩
      obtain ⟨hr', hkey'⟩ := (hgroup r').mp hr'
      exact (h r' hr' r hr (hkey'.trans hkey.symm) hne).resolve_right hfr
    · have hzero : ∀ r ∈ rows, key r = key row → f r = 0 := by
        intro r hr hkey
        by_contra hfr
        exact hvalue ⟨r, hr, hkey, hfr⟩
      refine ⟨row, hrow, rfl, ?_⟩
      refine sum_eq_value (hnd.filter _) ((hgroup row).mpr ⟨hrow, rfl⟩) fun r' hr' _ => ?_
      obtain ⟨hr', hkey'⟩ := (hgroup r').mp hr'
      exact hzero r' hr' hkey'

end OnePer

/-- A pair of columns is summed column by column. -/
theorem sum_prodMk {M N : Type*} [AddCommMonoid M] [AddCommMonoid N] (f : α → M) (g : α → N) :
    ∀ xs : List α, (xs.map fun x => (f x, g x)).sum = ((xs.map f).sum, (xs.map g).sum)
  | [] => rfl
  | x :: xs => by
    rw [List.map_cons, List.sum_cons, sum_prodMk f g xs, Prod.mk_add_mk]
    rfl

end Relational
end KubeCost
