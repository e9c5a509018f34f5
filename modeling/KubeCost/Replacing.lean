/-
# Replacing tables

A table that keeps one row for each key: of the rows with one key, the one that
the order ranks highest, and among equals the one that came last. That is what
ClickHouse's `ReplacingMergeTree(version)` shows under `FINAL` for the sorting key
and the order of the versions; a view that keeps row number 1 of each partition
is the same for the partition and its `ORDER BY`.

`place` puts one row in. It can only replace the row of its own key
(`filter_place_of_ne`, `find?_place_self`), and it changes nothing when that row ranks
higher (`place_of_higher`); so no two rows have one key (`nodup_final`), and rows
that come again are not seen when the table has one as high for each
(`final_append_of_forall`). `mem_final_iff_last` says which row of a key is kept, and
`Merged` what merges in the background may do to the rows.
-/
import Mathlib.Data.List.Induction
import Mathlib.Data.List.Nodup

namespace KubeCost
namespace Replacing

variable {κ α : Type*} [DecidableEq κ]

/-- The new row replaces the old one of its key unless that ranks higher. -/
def place (key : α → κ) (le : α → α → Bool) (new : α) : List α → List α
  | [] => [new]
  | old :: table =>
    if key old = key new then (if le old new then new else old) :: table
    else old :: place key le new table

/-- The rows that the table shows; `rows` are in the order they came in. -/
def final (key : α → κ) (le : α → α → Bool) (rows : List α) : List α :=
  rows.foldl (fun table row => place key le row table) []

variable {key : α → κ} {le : α → α → Bool} {rows table : List α} {new : α} {k : κ}

theorem final_append (rows : List α) (new : α) :
    final key le (rows ++ [new]) = place key le new (final key le rows) := by
  rw [final, List.foldl_append]
  rfl

theorem mem_place {row : α} : ∀ {table : List α}, row ∈ place key le new table →
    row = new ∨ row ∈ table
  | [], h => .inl (List.mem_singleton.mp h)
  | old :: table, h => by
    rw [place] at h
    by_cases hk : key old = key new
    · rw [if_pos hk] at h
      rcases List.mem_cons.mp h with rfl | h
      · by_cases hle : le old new = true
        · exact .inl (if_pos hle)
        · rw [if_neg hle]
          exact .inr List.mem_cons_self
      · exact .inr (List.mem_cons_of_mem _ h)
    · rw [if_neg hk] at h
      rcases List.mem_cons.mp h with rfl | h
      · exact .inr List.mem_cons_self
      · rcases mem_place h with h | h
        · exact .inl h
        · exact .inr (List.mem_cons_of_mem _ h)

/-- The table shows rows that came in. -/
theorem mem_of_mem_final {row : α} (h : row ∈ final key le rows) : row ∈ rows := by
  induction rows using List.reverseRecOn with
  | nil => exact h
  | append_singleton rows new ih =>
    rw [final_append] at h
    rcases mem_place h with rfl | h
    · exact List.mem_append_right _ (List.mem_singleton_self _)
    · exact List.mem_append_left _ (ih h)

/-- A test that no row of the new row's key passes does not see the new row. -/
theorem filter_place_of_ne {p : α → Bool} (hp : ∀ row, key row = key new → p row = false) :
    ∀ table : List α, (place key le new table).filter p = table.filter p
  | [] => by rw [place, List.filter_cons_of_neg (by rw [hp new rfl]; exact Bool.false_ne_true)]
  | old :: table => by
    rw [place]
    by_cases hk : key old = key new
    · have hold : p (if le old new = true then new else old) = false := by
        split
        · exact hp new rfl
        · exact hp old hk
      rw [if_pos hk, List.filter_cons_of_neg (by rw [hold]; exact Bool.false_ne_true),
        List.filter_cons_of_neg (by rw [hp old hk]; exact Bool.false_ne_true)]
    · rw [if_neg hk, List.filter_cons, List.filter_cons, filter_place_of_ne hp table]

/-- What the table shows at the key of a new row. -/
theorem find?_place_self : ∀ table : List α,
    (place key le new table).find? (fun row => key row = key new) =
      some (match table.find? fun row => key row = key new with
        | none => new
        | some old => if le old new then new else old)
  | [] => by simp [place]
  | old :: table => by
    rw [place]
    by_cases hk : key old = key new
    · have hkey : key (if le old new = true then new else old) = key new := by
        split
        · rfl
        · exact hk
      rw [if_pos hk, List.find?_cons_of_pos (by rw [hkey, decide_eq_true rfl]),
        List.find?_cons_of_pos (by rw [hk, decide_eq_true rfl])]
    · rw [if_neg hk, List.find?_cons_of_neg (by rwa [decide_eq_true_eq]), find?_place_self table,
        List.find?_cons_of_neg (by rwa [decide_eq_true_eq])]

theorem find?_place_of_eq (hk : key new = k) (table : List α) :
    (place key le new table).find? (fun row => key row = k) =
      some (match table.find? fun row => key row = k with
        | none => new
        | some old => if le old new then new else old) := by
  subst hk
  exact find?_place_self table

/-- A row that is the one in the table already, or ranks lower, changes nothing. -/
theorem place_eq_self {old : α} : ∀ {table : List α},
    table.find? (fun row => key row = key new) = some old → (le old new = true → old = new) →
    place key le new table = table
  | first :: table, hfind, hle => by
    rw [place]
    by_cases hk : key first = key new
    · rw [List.find?_cons_of_pos (by rw [hk, decide_eq_true rfl]), Option.some.injEq] at hfind
      subst hfind
      rw [if_pos hk]
      by_cases hrank : le first new = true
      · rw [if_pos hrank, hle hrank]
      · rw [if_neg hrank]
    · rw [List.find?_cons_of_neg (by rwa [decide_eq_true_eq])] at hfind
      rw [if_neg hk, place_eq_self hfind hle]

/-- A row that ranks lower than the one in the table is not seen at all. -/
theorem place_of_higher {old : α} (hfind : table.find? (fun row => key row = key new) = some old)
    (hle : le old new = false) : place key le new table = table :=
  place_eq_self hfind fun h => absurd h (by rw [hle]; exact Bool.false_ne_true)

/-- A new row is not seen at any other key. -/
theorem find?_place_of_ne (hk : key new ≠ k) (table : List α) :
    (place key le new table).find? (fun row => key row = k) =
      table.find? fun row => key row = k := by
  rw [← List.head?_filter, ← List.head?_filter,
    filter_place_of_ne fun row hrow => decide_eq_false (hrow ▸ hk)]

theorem keys_place : ∀ table : List α, (place key le new table).map key =
    if key new ∈ table.map key then table.map key else table.map key ++ [key new]
  | [] => rfl
  | old :: table => by
    rw [place]
    by_cases hk : key old = key new
    · have hkey : key (if le old new = true then new else old) = key old := by
        split
        · exact hk.symm
        · rfl
      rw [if_pos hk, List.map_cons, hkey, if_pos (hk ▸ List.mem_cons_self)]
      rfl
    · have hmem : key new ∈ (old :: table).map key ↔ key new ∈ table.map key := by
        rw [List.map_cons, List.mem_cons]
        exact or_iff_right (Ne.symm hk)
      rw [if_neg hk, List.map_cons, keys_place table]
      by_cases hin : key new ∈ table.map key
      · rw [if_pos hin, if_pos (hmem.mpr hin)]
        rfl
      · rw [if_neg hin, if_neg (hmem.not.mpr hin)]
        rfl

/-- **No two rows of the table have one key.** -/
theorem nodup_final : ((final key le rows).map key).Nodup := by
  induction rows using List.reverseRecOn with
  | nil => exact List.nodup_nil
  | append_singleton rows new ih =>
    rw [final_append, keys_place]
    by_cases hin : key new ∈ (final key le rows).map key
    · rwa [if_pos hin]
    · rw [if_neg hin]
      exact List.nodup_append.mpr ⟨ih, List.nodup_singleton _, fun a ha b hb hab =>
        hin (List.mem_singleton.mp hb ▸ hab ▸ ha)⟩

/-- What the table shows at a key is the only row there. -/
theorem filter_final : (final key le rows).filter (fun row => key row = k) =
    ((final key le rows).find? fun row => key row = k).toList := by
  rw [← List.head?_filter]
  have hnd : (((final key le rows).filter fun row => key row = k).map key).Nodup :=
    (List.filter_sublist.map key).nodup nodup_final
  have hkeys : ∀ row ∈ (final key le rows).filter (fun row => key row = k), key row = k :=
    fun row hrow => of_decide_eq_true (List.mem_filter.mp hrow).2
  rcases hl : (final key le rows).filter fun row => key row = k with _ | ⟨a, _ | ⟨b, rest⟩⟩
  · rfl
  · rfl
  · rw [hl] at hnd hkeys
    have ha := hkeys a List.mem_cons_self
    have hb := hkeys b (List.mem_cons_of_mem _ List.mem_cons_self)
    rw [List.map_cons, List.map_cons, ha, hb] at hnd
    exact absurd List.mem_cons_self (List.nodup_cons.mp hnd).1

/-- A row of the table is found by its key. -/
theorem find?_of_mem_final {row : α} (h : row ∈ final key le rows) :
    (final key le rows).find? (fun r => key r = key row) = some row := by
  have hmem : row ∈ (final key le rows).filter fun r => key r = key row :=
    List.mem_filter.mpr ⟨h, decide_eq_true rfl⟩
  rw [filter_final] at hmem
  exact Option.mem_toList.mp hmem

/-- A row that does not rank lower takes the place of the row of its key. -/
theorem place_eq_map {old : α} : ∀ {table : List α}, (table.map key).Nodup → old ∈ table →
    key old = key new → le old new = true →
    place key le new table = table.map fun row => if key row = key new then new else row
  | first :: table, hnd, hmem, hkey, hle => by
    rw [List.map_cons, List.nodup_cons] at hnd
    rw [place, List.map_cons]
    by_cases hk : key first = key new
    · -- the key stands at the head, and by `hnd` nowhere else
      have hold : first = old := by
        rcases List.mem_cons.mp hmem with h | h
        · exact h.symm
        · exact absurd (List.mem_map_of_mem (f := key) h) (by rw [hkey, ← hk]; exact hnd.1)
      have hrest : ∀ row ∈ table, key row ≠ key new := fun row hrow h =>
        hnd.1 (by rw [hk, ← h]; exact List.mem_map_of_mem hrow)
      rw [if_pos hk, if_pos (by rwa [hold]), if_pos hk]
      congr 1
      exact ((List.map_congr_left fun row hrow => if_neg (hrest row hrow)).trans (List.map_id _)).symm
    · rcases List.mem_cons.mp hmem with rfl | h
      · exact absurd hkey hk
      · rw [if_neg hk, if_neg hk, place_eq_map hnd.2 h hkey hle]

theorem filter_place_self (hk : key new = k) : ∀ table : List α,
    (place key le new table).filter (fun row => key row = k) =
      place key le new (table.filter fun row => key row = k)
  | [] => by rw [place, List.filter_cons_of_pos (by rw [hk, decide_eq_true rfl])]; rfl
  | old :: table => by
    rw [place]
    by_cases hold : key old = k
    · have hkey : key (if le old new = true then new else old) = k := by
        split
        · exact hk
        · exact hold
      rw [if_pos (hold.trans hk.symm), List.filter_cons_of_pos (by rw [hkey, decide_eq_true rfl]),
        List.filter_cons_of_pos (by rw [hold, decide_eq_true rfl]), place,
        if_pos (hold.trans hk.symm)]
    · have hne : key old ≠ key new := fun h => hold (h.trans hk)
      rw [if_neg hne, List.filter_cons_of_neg (by rwa [decide_eq_true_eq]),
        List.filter_cons_of_neg (by rwa [decide_eq_true_eq]), filter_place_self hk table]

/-- What the table shows at a key depends only on the rows of that key. -/
theorem filter_final_eq (rows : List α) : (final key le rows).filter (fun row => key row = k) =
    final key le (rows.filter fun row => key row = k) := by
  induction rows using List.reverseRecOn with
  | nil => rfl
  | append_singleton rows new ih =>
    rw [List.filter_append, final_append]
    by_cases hk : key new = k
    · rw [List.filter_cons_of_pos (by rw [hk, decide_eq_true rfl]), List.filter_nil, final_append,
        filter_place_self hk, ih]
    · have hne : ∀ row, key row = key new → decide (key row = k) = false :=
        fun row hrow => decide_eq_false (hrow ▸ hk)
      rw [List.filter_cons_of_neg (by rwa [decide_eq_true_eq]), List.filter_nil, List.append_nil,
        filter_place_of_ne hne, ih]

theorem key_of_find? {row : α} (h : table.find? (fun r => key r = k) = some row) : key row = k := by
  have := List.find?_some h
  exact of_decide_eq_true this

/-! ### Rows that come again -/

/-- Rows that the table does not see one by one, it does not see together. -/
theorem final_append_of_place (rows : List α) : ∀ more : List α,
    (∀ row ∈ more, place key le row (final key le rows) = final key le rows) →
    final key le (rows ++ more) = final key le rows
  | [], _ => by rw [List.append_nil]
  | row :: more, h => by
    have hrow : final key le (rows ++ [row]) = final key le rows := by
      rw [final_append]
      exact h row List.mem_cons_self
    rw [List.append_cons, final_append_of_place (rows ++ [row]) more, hrow]
    intro r hr
    rw [hrow]
    exact h r (List.mem_cons_of_mem _ hr)

/-- What the table shows came with the last rows, or ranks above all of them. -/
theorem shown_append {first : List α} {m : α} :
    (final key le (first ++ rows)).find? (fun row => key row = k) = some m →
    m ∈ rows ∨ ∀ row ∈ rows, key row = k → le m row = false := by
  induction rows using List.reverseRecOn generalizing m with
  | nil => exact fun _ => .inr fun row hrow => absurd hrow List.not_mem_nil
  | append_singleton rows new ih =>
    intro h
    rw [← List.append_assoc, final_append] at h
    -- the row `m` stood there before and ranks above `new` if they share the key
    have hold : (final key le (first ++ rows)).find? (fun row => key row = k) = some m →
        (key new = k → le m new = false) →
        m ∈ rows ++ [new] ∨ ∀ row ∈ rows ++ [new], key row = k → le m row = false := by
      intro hm hnew
      rcases ih hm with hmem | hall
      · exact .inl (List.mem_append_left _ hmem)
      · refine .inr fun row hrow hk => ?_
        rcases List.mem_append.mp hrow with hrow | hrow
        · exact hall row hrow hk
        · rw [List.mem_singleton.mp hrow] at hk ⊢
          exact hnew hk
    by_cases hk : key new = k
    · subst hk
      rw [find?_place_self, Option.some.injEq] at h
      cases hfind : (final key le (first ++ rows)).find? fun row => key row = key new with
      | none =>
        rw [hfind] at h
        exact .inl (h ▸ List.mem_append_right _ (List.mem_singleton_self _))
      | some old =>
        simp only [hfind] at h
        by_cases hle : le old new = true
        · rw [if_pos hle] at h
          exact .inl (h ▸ List.mem_append_right _ (List.mem_singleton_self _))
        · rw [if_neg hle] at h
          subst h
          exact hold hfind fun _ => Bool.eq_false_iff.mpr hle
    · rw [find?_place_of_ne hk] at h
      exact hold h fun hk' => absurd hk' hk

/-- No row of its key came after the row or ranks above it. -/
def Last (key : α → κ) (le : α → α → Bool) (rows : List α) (row : α) : Prop :=
  ∃ before after, rows = before ++ row :: after ∧
    (∀ r ∈ before, key r = key row → le r row = true) ∧
    ∀ r ∈ after, key r = key row → le row r = false

omit [DecidableEq κ] in
/-- Only which rows have the key of the row matters. -/
theorem last_congr {κ' : Type*} {key' : α → κ'} {row : α}
    (h : ∀ r, key r = key row ↔ key' r = key' row) :
    Last key le rows row ↔ Last key' le rows row := by
  simp only [Last, h]

omit [DecidableEq κ] in
theorem Last.mem {row : α} (h : Last key le rows row) : row ∈ rows := by
  obtain ⟨before, after, rfl, _⟩ := h
  exact List.mem_append_right _ List.mem_cons_self

omit [DecidableEq κ] in
theorem last_append {row : α} : Last key le (rows ++ [new]) row ↔
    (row = new ∧ ∀ r ∈ rows, key r = key row → le r row = true) ∨
      (Last key le rows row ∧ (key new = key row → le row new = false)) := by
  constructor
  · rintro ⟨before, after, hrows, hbefore, hafter⟩
    rcases List.eq_nil_or_concat' after with rfl | ⟨after, last, rfl⟩
    · obtain ⟨rfl, hnew⟩ := List.append_inj' hrows rfl
      exact .inl ⟨(List.singleton_inj.mp hnew).symm, hbefore⟩
    · rw [← List.cons_append, ← List.append_assoc] at hrows
      obtain ⟨rfl, hnew⟩ := List.append_inj' hrows rfl
      obtain rfl := List.singleton_inj.mp hnew
      exact .inr ⟨⟨before, after, rfl, hbefore, fun r hr => hafter r (List.mem_append_left _ hr)⟩,
        hafter new (List.mem_append_right _ List.mem_cons_self)⟩
  · rintro (⟨rfl, hrows⟩ | ⟨⟨before, after, rfl, hbefore, hafter⟩, hnew⟩)
    · exact ⟨rows, [], rfl, hrows, fun r hr => absurd hr List.not_mem_nil⟩
    · refine ⟨before, after ++ [new], by rw [List.append_assoc, List.cons_append], hbefore, ?_⟩
      intro r hr
      rcases List.mem_append.mp hr with hr | hr
      · exact hafter r hr
      · rw [List.mem_singleton.mp hr]
        exact hnew

section Ranked

variable (htrans : ∀ a b c : α, le a b = true → le b c = true → le a c = true)
  (htotal : ∀ a b : α, le a b = true ∨ le b a = true)

include htrans htotal

/-- **The table shows the highest row of each key.** -/
theorem exists_shown {row : α} (h : row ∈ rows) :
    ∃ m, (final key le rows).find? (fun r => key r = key row) = some m ∧ le row m = true := by
  have hrefl : ∀ a, le a a = true := fun a => (htotal a a).elim (fun h => h) fun h => h
  induction rows using List.reverseRecOn with
  | nil => exact absurd h List.not_mem_nil
  | append_singleton rows new ih =>
    rw [final_append]
    by_cases hk : key new = key row
    · rw [← hk, find?_place_self]
      refine ⟨_, rfl, ?_⟩
      rcases List.mem_append.mp h with hrow | hrow
      · obtain ⟨m, hfind, hle⟩ := ih hrow
        rw [← hk] at hfind
        simp only [hfind]
        by_cases hm : le m new = true
        · rw [if_pos hm]
          exact htrans _ _ _ hle hm
        · rwa [if_neg hm]
      · rw [List.mem_singleton.mp hrow]
        cases (final key le rows).find? fun r => key r = key new with
        | none => exact hrefl new
        | some old =>
          by_cases hold : le old new = true
          · simp only [if_pos hold]
            exact hrefl new
          · simp only [if_neg hold]
            exact (htotal old new).resolve_left hold
    · rw [find?_place_of_ne hk]
      rcases List.mem_append.mp h with hrow | hrow
      · exact ih hrow
      · exact absurd (congrArg key (List.mem_singleton.mp hrow).symm) hk

/-- **The table shows a row above which there is no other row of its key.** -/
theorem find?_of_highest {row : α} (h : row ∈ rows)
    (hhighest : ∀ r ∈ rows, key r = key row → le row r = true → r = row) :
    (final key le rows).find? (fun r => key r = key row) = some row := by
  obtain ⟨m, hfind, hle⟩ : ∃ m, (final key le rows).find? (fun r => key r = key row) = some m ∧
      le row m = true := exists_shown htrans htotal h
  have hm : m = row :=
    hhighest m (mem_of_mem_final (List.mem_of_find?_eq_some hfind)) (key_of_find? hfind) hle
  rw [hfind, hm]

/-- What the table shows for a key ranks as high as every row of the key. -/
theorem le_shown {row old r : α} (h : (final key le rows).find? (fun r => key r = key row) = some old)
    (hr : r ∈ rows) (hkey : key r = key row) : le r old = true := by
  obtain ⟨m, hm, hle⟩ : ∃ m, (final key le rows).find? (fun r' => key r' = key r) = some m ∧
    le r m = true := exists_shown htrans htotal hr
  rw [hkey, h, Option.some.injEq] at hm
  rwa [hm]

theorem key_ne_of_find?_none {row r : α} (h : (final key le rows).find? (fun r => key r = key row) = none)
    (hr : r ∈ rows) : key r ≠ key row := by
  intro hkey
  obtain ⟨m, hm, _⟩ : ∃ m, (final key le rows).find? (fun r' => key r' = key r) = some m ∧
    le r m = true := exists_shown htrans htotal hr
  rw [hkey, h] at hm
  cases hm

/-- **The table shows the last row of each key.** -/
theorem shown_iff_last {row : α} :
    (final key le rows).find? (fun r => key r = key row) = some row ↔ Last key le rows row := by
  induction rows using List.reverseRecOn with
  | nil =>
    constructor
    · intro h
      cases h
    · exact fun h => absurd h.mem List.not_mem_nil
  | append_singleton rows new ih =>
    rw [final_append, last_append]
    by_cases hk : key new = key row
    · rw [find?_place_of_eq hk, Option.some.injEq]
      -- what the table showed before decides; it ranks as high as every row of the key
      cases hfind : (final key le rows).find? fun r => key r = key row with
      | none =>
        have hnone : ∀ r ∈ rows, key r ≠ key row := fun _ => key_ne_of_find?_none htrans htotal hfind
        constructor
        · exact fun h => .inl ⟨h.symm, fun r hr hkey => absurd hkey (hnone r hr)⟩
        · rintro (⟨h, _⟩ | ⟨h, _⟩)
          · exact h.symm
          · exact absurd rfl (hnone row h.mem)
      | some old =>
        rw [hfind, Option.some.injEq] at ih
        have hold : ∀ r ∈ rows, key r = key row → le r old = true := fun _ => le_shown htrans htotal hfind
        have holdMem : old ∈ rows := mem_of_mem_final (List.mem_of_find?_eq_some hfind)
        have holdKey : key old = key row := key_of_find? hfind
        by_cases hle : le old new = true
        · simp only [if_pos hle]
          constructor
          · rintro rfl
            exact .inl ⟨rfl, fun r hr hkey => htrans _ _ _ (hold r hr hkey) hle⟩
          · rintro (⟨h, _⟩ | ⟨h, hnew⟩)
            · exact h.symm
            · have hlow := hnew hk
              rw [← ih.mpr h, hle] at hlow
              exact absurd hlow.symm Bool.false_ne_true
        · simp only [if_neg hle]
          constructor
          · rintro rfl
            exact .inr ⟨ih.mp rfl, fun _ => Bool.eq_false_iff.mpr hle⟩
          · rintro (⟨rfl, h⟩ | ⟨h, _⟩)
            · exact absurd (h old holdMem holdKey) hle
            · exact ih.mpr h
    · rw [find?_place_of_ne hk, ih]
      constructor
      · exact fun h => .inr ⟨h, fun h' => absurd h' hk⟩
      · rintro (⟨rfl, _⟩ | ⟨h, _⟩)
        · exact absurd rfl hk
        · exact h

theorem mem_final_iff_last {row : α} : row ∈ final key le rows ↔ Last key le rows row := by
  rw [← shown_iff_last htrans htotal]
  exact ⟨find?_of_mem_final, List.mem_of_find?_eq_some⟩

/-- When later rows change nothing, the table had a row as high for each. -/
theorem exists_of_final_append {more : List α}
    (h : final key le (rows ++ more) = final key le rows) (hnew : new ∈ more) :
    ∃ old ∈ rows, key old = key new ∧ le new old = true := by
  obtain ⟨m, hfind, hle⟩ : ∃ m, (final key le (rows ++ more)).find?
      (fun r => key r = key new) = some m ∧ le new m = true :=
    exists_shown htrans htotal (List.mem_append_right _ hnew)
  rw [h] at hfind
  exact ⟨m, mem_of_mem_final (List.mem_of_find?_eq_some hfind), key_of_find? hfind, hle⟩

/-- **Rows come again unseen when the last rows have one as high for each**, whatever
the table held before; two rows of one key that rank alike are one row. -/
theorem final_append_of_forall {first more : List α}
    (htie : ∀ a ∈ rows, ∀ b ∈ more, key a = key b → le a b = true → le b a = true → a = b)
    (h : ∀ new ∈ more, ∃ old ∈ rows, key old = key new ∧ le new old = true) :
    final key le (first ++ rows ++ more) = final key le (first ++ rows) := by
  apply final_append_of_place
  intro new hnew
  obtain ⟨old, hold, hkey, hle⟩ := h new hnew
  obtain ⟨m, hfind, hm⟩ : ∃ m, (final key le (first ++ rows)).find?
      (fun r => key r = key old) = some m ∧ le old m = true :=
    exists_shown htrans htotal (List.mem_append_right _ hold)
  rw [hkey] at hfind
  refine place_eq_self hfind fun hmnew => ?_
  rcases shown_append hfind with hmem | hhigh
  · exact htie m hmem new hnew (key_of_find? hfind) hmnew (htrans _ _ _ hle hm)
  · -- a row from before that ranks above `old` cannot rank as low as `new`
    have := hhigh old hold hkey
    rw [htrans _ _ _ hmnew hle] at this
    exact absurd this.symm Bool.false_ne_true

end Ranked

/-! ### Merges -/

/-- What merges in the background may leave of the rows: some of them, of which the table
shows the same. -/
structure Merged (key : α → κ) (le : α → α → Bool) (rows rows' : List α) : Prop where
  sublist : rows'.Sublist rows
  shown : ∀ row, row ∈ final key le rows' ↔ row ∈ final key le rows

theorem Merged.refl (rows : List α) : Merged key le rows rows :=
  ⟨List.Sublist.refl rows, fun _ => Iff.rfl⟩

theorem Merged.trans {rows' rows'' : List α} (h : Merged key le rows rows')
    (h' : Merged key le rows' rows'') : Merged key le rows rows'' :=
  ⟨h'.sublist.trans h.sublist, fun row => (h'.shown row).trans (h.shown row)⟩

/-- **Merges keep a row of every key.** -/
theorem Merged.exists_key {rows' : List α} (h : Merged key le rows rows')
    (htrans : ∀ a b c : α, le a b = true → le b c = true → le a c = true)
    (htotal : ∀ a b : α, le a b = true ∨ le b a = true) {row : α} (hrow : row ∈ rows) :
    ∃ row' ∈ rows', key row' = key row := by
  obtain ⟨m, hfind, -⟩ : ∃ m, (final key le rows).find? (fun r => key r = key row) = some m ∧
      le row m = true := exists_shown htrans htotal hrow
  have hm : m ∈ final key le rows' := (h.shown m).mpr (List.mem_of_find?_eq_some hfind)
  exact ⟨m, mem_of_mem_final hm, key_of_find? hfind⟩

end Replacing
end KubeCost
