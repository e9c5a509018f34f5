/-
# Accumulating by key

A map that a loop fills: `upsert` puts a value at a key that depends on the value
already there, `collect` does so for every item of a list that a test lets
through. A measure of the values that each item raises by its own amount sums up
over the items: at one key over the items of that key (`valueAt_collect`), and
over the whole map over all items (`total_collect`). `sum_groups` regroups a sum
by keys. Items that commute under their key may come in any order
(`lookup_collect_perm`). A loop over a map that changes values in place is `revise`
(`lookup_revise`).
-/
import Mathlib.Algebra.BigOperators.Group.List.Basic
import Mathlib.Data.List.AList

namespace KubeCost
namespace Keyed

/-- A finite map with the same type of value at every key. -/
abbrev Map (κ α : Type*) := AList fun _ : κ => α

variable {κ ι α β : Type*}

/-- The values, one for each key. -/
def values (m : Map κ α) : List α := m.entries.map Sigma.snd

variable [DecidableEq κ]

/-- Puts `f` of the present value at the key. -/
def upsert (k : κ) (f : Option α → α) (m : Map κ α) : Map κ α := m.insert k (f (m.lookup k))

/-- The items that pass the test are put in one after the other. -/
def collect (use : ι → Bool) (key : ι → κ) (f : ι → Option α → α) (xs : List ι) (m : Map κ α) :
    Map κ α :=
  xs.foldl (fun m x => if use x = true then upsert (key x) (f x) m else m) m

/-- What `range` does with the entries of a map: each of them once, in some order. -/
structure Order (α : Type) where
  visit : List α → List α
  perm : ∀ l, (visit l).Perm l

/-- The order of the list. -/
def Order.listed {α : Type} : Order α := ⟨fun l => l, fun l => .refl l⟩

/-- The order in which `f` puts the entries, where that is an order of them. -/
def Order.of {α : Type} [DecidableEq α] (f : List α → List α) : Order α where
  visit l := if (f l).Perm l then f l else l
  perm l := by
    split
    · assumption
    · exact .refl l

theorem Order.visit_of {α : Type} [DecidableEq α] {f : List α → List α} {l : List α}
    (h : (f l).Perm l) : (Order.of f).visit l = f l := if_pos h

/-! ### Keys -/

theorem mem_upsert {k k' : κ} {f : Option α → α} {m : Map κ α} :
    k' ∈ upsert k f m ↔ k' = k ∨ k' ∈ m := AList.mem_insert m

theorem mem_collect {use : ι → Bool} {key : ι → κ} {f : ι → Option α → α} {k : κ} :
    ∀ {xs : List ι} {m : Map κ α},
    k ∈ collect use key f xs m ↔ k ∈ m ∨ ∃ x ∈ xs, use x = true ∧ key x = k
  | [], m => by simp [collect]
  | x :: xs, m => by
    rw [collect, List.foldl_cons, ← collect, mem_collect]
    by_cases hx : use x = true
    · rw [if_pos hx, mem_upsert]
      constructor
      · rintro ((rfl | h) | ⟨y, hy, h⟩)
        · exact .inr ⟨x, List.mem_cons_self, hx, rfl⟩
        · exact .inl h
        · exact .inr ⟨y, List.mem_cons_of_mem _ hy, h⟩
      · rintro (h | ⟨y, hy, hu, rfl⟩)
        · exact .inl (.inr h)
        · rcases List.mem_cons.mp hy with rfl | hy
          · exact .inl (.inl rfl)
          · exact .inr ⟨y, hy, hu, rfl⟩
    · rw [if_neg hx]
      constructor
      · rintro (h | ⟨y, hy, h⟩)
        · exact .inl h
        · exact .inr ⟨y, List.mem_cons_of_mem _ hy, h⟩
      · rintro (h | ⟨y, hy, hu, rfl⟩)
        · exact .inl h
        · rcases List.mem_cons.mp hy with rfl | hy
          · exact absurd hu hx
          · exact .inr ⟨y, hy, hu, rfl⟩

/-- What holds of the values and of each value that is put in holds of all. -/
theorem forall_collect {P : κ → α → Prop} {use : ι → Bool} {key : ι → κ} {f : ι → Option α → α} :
    ∀ {xs : List ι} {m : Map κ α},
    (∀ x ∈ xs, ∀ o, (∀ a, o = some a → P (key x) a) → P (key x) (f x o)) →
    (∀ k a, m.lookup k = some a → P k a) →
    ∀ k a, (collect use key f xs m).lookup k = some a → P k a
  | [], m, _, h => h
  | x :: xs, m, hf, h => by
    rw [collect, List.foldl_cons, ← collect]
    refine forall_collect (fun y hy => hf y (List.mem_cons_of_mem _ hy)) fun k a hk => ?_
    by_cases hx : use x = true
    · rw [if_pos hx, upsert] at hk
      by_cases hkx : k = key x
      · subst hkx
        rw [AList.lookup_insert] at hk
        cases hk
        exact hf x List.mem_cons_self _ fun a ha => h _ a ha
      · rw [AList.lookup_insert_ne hkx] at hk
        exact h k a hk
    · rw [if_neg hx] at hk
      exact h k a hk

theorem mem_values {m : Map κ α} {a : α} : a ∈ values m ↔ ∃ k, m.lookup k = some a := by
  constructor
  · intro h
    obtain ⟨⟨k, b⟩, he, rfl⟩ := List.mem_map.mp h
    exact ⟨k, AList.mem_lookup_iff.mpr he⟩
  · rintro ⟨k, hk⟩
    exact List.mem_map.mpr ⟨⟨k, a⟩, AList.mem_lookup_iff.mp hk, rfl⟩

/-- Values under different keys. -/
theorem pairwise_values {R : α → α → Prop} {m : Map κ α}
    (h : ∀ k a k' a', m.lookup k = some a → m.lookup k' = some a' → k ≠ k' → R a a') :
    (values m).Pairwise R := by
  have hkeys : m.entries.Pairwise fun e e' => e.1 ≠ e'.1 :=
    List.nodupKeys_iff_pairwise.mp m.nodupKeys
  refine List.pairwise_map.mpr (hkeys.imp_of_mem fun {e e'} he he' hne => ?_)
  exact h e.1 e.2 e'.1 e'.2 (AList.mem_lookup_iff.mpr he) (AList.mem_lookup_iff.mpr he') hne

theorem filter_key_dlookup (k : κ) : ∀ {l : List ((_ : κ) × α)}, l.NodupKeys →
    (l.filter fun e => decide (e.1 = k)).map Sigma.snd = (List.dlookup k l).toList
  | [], _ => rfl
  | ⟨k₁, a⟩ :: l, hnd => by
    rw [List.nodupKeys_cons] at hnd
    by_cases hk : k₁ = k
    · subst hk
      have hrest : l.filter (fun e => decide (e.1 = k₁)) = [] := by
        refine List.filter_eq_nil_iff.mpr fun e he hek => hnd.1 ?_
        have hmem := List.mem_keys_of_mem he
        rwa [of_decide_eq_true hek] at hmem
      rw [List.filter_cons_of_pos (by simp), hrest, List.dlookup_cons_eq]
      rfl
    · rw [List.filter_cons_of_neg (by simpa using hk), filter_key_dlookup k hnd.2,
        List.dlookup_cons_ne _ _ (Ne.symm hk)]

/-- A test that tells one key from the others picks its value. -/
theorem filter_values {p : α → Bool} {k : κ} {m : Map κ α}
    (hp : ∀ k' a, m.lookup k' = some a → (p a = true ↔ k' = k)) :
    (values m).filter p = (m.lookup k).toList := by
  rw [AList.lookup, ← filter_key_dlookup k m.nodupKeys, values, List.filter_map]
  congr 1
  refine List.filter_congr fun e he => ?_
  rw [Bool.eq_iff_iff, decide_eq_true_eq]
  exact hp e.1 e.2 (AList.mem_lookup_iff.mpr he)

/-- A map of lists: at a key stand the items of the key, in their order. -/
theorem lookup_collect_append {use : ι → Bool} {key : ι → κ} {k : κ} :
    ∀ (xs : List ι) (m : Map κ (List ι)),
    (collect use key (fun x group => group.getD [] ++ [x]) xs m).lookup k =
      if (xs.filter fun x => use x && decide (key x = k)) = [] then m.lookup k
      else some ((m.lookup k).getD [] ++ xs.filter fun x => use x && decide (key x = k))
  | [], m => rfl
  | x :: xs, m => by
    rw [collect, List.foldl_cons, ← collect, lookup_collect_append xs]
    by_cases hx : use x = true
    · by_cases hk : key x = k
      · have hfilter : (x :: xs).filter (fun x => use x && decide (key x = k)) =
            x :: xs.filter fun x => use x && decide (key x = k) :=
          List.filter_cons_of_pos (by rw [hx, hk, decide_eq_true rfl]; rfl)
        rw [if_pos hx, upsert, ← hk, AList.lookup_insert, hk, hfilter,
          if_neg (List.cons_ne_nil _ _)]
        split
        · rename_i hnil
          rw [hnil]
        · rw [Option.getD_some, List.append_assoc, List.singleton_append]
      · have hfilter : (x :: xs).filter (fun x => use x && decide (key x = k)) =
            xs.filter fun x => use x && decide (key x = k) :=
          List.filter_cons_of_neg (by rw [decide_eq_false hk, Bool.and_false]; exact Bool.false_ne_true)
        rw [if_pos hx, upsert, AList.lookup_insert_ne (Ne.symm hk), hfilter]
    · have hfilter : (x :: xs).filter (fun x => use x && decide (key x = k)) =
          xs.filter fun x => use x && decide (key x = k) :=
        List.filter_cons_of_neg (by rw [Bool.eq_false_iff.mpr hx, Bool.false_and]; exact Bool.false_ne_true)
      rw [if_neg hx, hfilter]

/-! ### The order of the items -/

/-- What one item does to the lookups. -/
def put (use : ι → Bool) (key : ι → κ) (f : ι → Option α → α) (g : κ → Option α) (x : ι) :
    κ → Option α :=
  if use x = true then Function.update g (key x) (some (f x (g (key x)))) else g

theorem lookup_upsert (k : κ) (f : Option α → α) (m : Map κ α) :
    (fun k' => (upsert k f m).lookup k') =
      Function.update (fun k' => m.lookup k') k (some (f (m.lookup k))) := by
  funext k'
  by_cases hk : k' = k
  · subst hk
    rw [upsert, AList.lookup_insert, Function.update_self]
  · rw [upsert, AList.lookup_insert_ne hk, Function.update_of_ne hk]

theorem lookup_collect {use : ι → Bool} {key : ι → κ} {f : ι → Option α → α} :
    ∀ (xs : List ι) (m : Map κ α), (fun k => (collect use key f xs m).lookup k) =
      xs.foldl (put use key f) fun k => m.lookup k
  | [], m => rfl
  | x :: xs, m => by
    rw [collect, List.foldl_cons, ← collect, lookup_collect xs, List.foldl_cons]
    congr 1
    by_cases hx : use x = true
    · simp only [put, if_pos hx, lookup_upsert]
    · simp only [put, if_neg hx]

theorem put_comm {use : ι → Bool} {key : ι → κ} {f : ι → Option α → α} {x y : ι}
    (h : key x = key y → ∀ o, f y (some (f x o)) = f x (some (f y o))) (g : κ → Option α) :
    put use key f (put use key f g x) y = put use key f (put use key f g y) x := by
  by_cases hx : use x = true
  · by_cases hy : use y = true
    · simp only [put, if_pos hx, if_pos hy]
      by_cases hk : key x = key y
      · rw [hk, Function.update_self, Function.update_self, Function.update_idem,
          Function.update_idem, h hk]
      · rw [Function.update_of_ne hk, Function.update_of_ne (Ne.symm hk), Function.update_comm hk]
    · simp only [put, if_pos hx, if_neg hy]
  · simp only [put, if_neg hx]

/-- **Items of one key that may change places: the lookups do not depend on the order.** -/
theorem lookup_collect_perm {use : ι → Bool} {key : ι → κ} {f : ι → Option α → α} {xs ys : List ι}
    {m m' : Map κ α} (hperm : xs.Perm ys)
    (hcomm : ∀ x ∈ xs, ∀ y ∈ xs, key x = key y → ∀ o, f y (some (f x o)) = f x (some (f y o)))
    (hm : ∀ k, m.lookup k = m'.lookup k) (k : κ) :
    (collect use key f xs m).lookup k = (collect use key f ys m').lookup k := by
  have hall : (fun k => (collect use key f xs m).lookup k) =
      fun k => (collect use key f ys m').lookup k := by
    rw [lookup_collect, lookup_collect, funext hm]
    exact hperm.foldl_eq' (fun x hx y hy g => put_comm (hcomm x hx y hy) g) _
  exact congrFun hall k

theorem collect_congr {use use' : ι → Bool} {key key' : ι → κ} {f f' : ι → Option α → α}
    {xs : List ι} (huse : ∀ x ∈ xs, use x = use' x) (hkey : ∀ x ∈ xs, key x = key' x)
    (hf : ∀ x ∈ xs, f x = f' x) (m : Map κ α) :
    collect use key f xs m = collect use' key' f' xs m := by
  refine List.foldl_ext _ _ _ fun m x hx => ?_
  rw [huse x hx, hkey x hx, hf x hx]

/-- Maps with the same lookups have the same entries. -/
theorem entries_perm_of_lookup {m m' : Map κ α} (h : ∀ k, m.lookup k = m'.lookup k) :
    m.entries.Perm m'.entries := by
  refine List.lookup_ext m.nodupKeys m'.nodupKeys fun k a => ?_
  show a ∈ m.lookup k ↔ a ∈ m'.lookup k
  rw [h k]

/-! ### Changes in place -/

/-- `for k, v := range m { if use(v) { m[k] = f(v) } }`. -/
def revise {κ α : Type} [DecidableEq κ] (order : Order ((_ : κ) × α)) (use : α → Bool) (f : α → α)
    (m : Map κ α) : Map κ α :=
  (order.visit m.entries).foldl (fun m e => if use e.2 = true then m.insert e.1 (f e.2) else m) m

theorem lookup_foldl_insert {κ α : Type} [DecidableEq κ] {use : α → Bool} {f : α → α} (k : κ) :
    ∀ {l : List ((_ : κ) × α)} (m : Map κ α), l.NodupKeys →
    (l.foldl (fun m e => if use e.2 = true then m.insert e.1 (f e.2) else m) m).lookup k =
      match (List.dlookup k l).filter use with
      | some a => some (f a)
      | none => m.lookup k
  | [], m, _ => rfl
  | ⟨k', a⟩ :: l, m, hnd => by
    rw [List.nodupKeys_cons] at hnd
    rw [List.foldl_cons, lookup_foldl_insert k _ hnd.2]
    by_cases hk : k = k'
    · subst hk
      rw [List.dlookup_eq_none.mpr hnd.1, List.dlookup_cons_eq]
      by_cases ha : use a = true
      · simp [ha, Option.filter_some]
      · simp [ha, Option.filter_some]
    · rw [List.dlookup_cons_ne _ _ hk]
      cases (List.dlookup k l).filter use with
      | some b => rfl
      | none =>
        by_cases ha : use a = true
        · simp [ha, AList.lookup_insert_ne hk]
        · simp [ha]

/-- **Each value that passes the test is changed, whatever the order.** -/
theorem lookup_revise {κ α : Type} [DecidableEq κ] (order : Order ((_ : κ) × α)) (use : α → Bool)
    (f : α → α) (m : Map κ α) (k : κ) :
    (revise order use f m).lookup k = (m.lookup k).map fun a => if use a = true then f a else a := by
  have hperm : (order.visit m.entries).Perm m.entries := order.perm _
  have hnd : (order.visit m.entries).NodupKeys := (List.perm_nodupKeys hperm).mpr m.nodupKeys
  have hlookup : List.dlookup k (order.visit m.entries) = m.lookup k := List.perm_dlookup k hnd hperm
  rw [revise, lookup_foldl_insert k m hnd, hlookup]
  cases m.lookup k with
  | none => rfl
  | some a =>
    by_cases ha : use a = true
    · simp [ha, Option.filter_some]
    · simp [ha, Option.filter_some]

/-! ### Measures -/

variable [AddCommMonoid β]

/-- The measure of the value at a key; 0 when there is none. -/
def valueAt (g : α → β) (k : κ) (m : Map κ α) : β := ((m.lookup k).map g).getD 0

/-- The measure over the whole map. -/
def total (g : α → β) (m : Map κ α) : β := ((values m).map g).sum

/-- Putting a value in raises the measure by `δ`. -/
def Raises (g : α → β) (f : Option α → α) (δ : β) : Prop := ∀ o, g (f o) = (o.map g).getD 0 + δ

omit [DecidableEq κ] in
theorem total_empty (g : α → β) : total g (∅ : Map κ α) = 0 := rfl

theorem valueAt_empty (g : α → β) (k : κ) : valueAt g k (∅ : Map κ α) = 0 := rfl

theorem valueAt_upsert {g : α → β} {f : Option α → α} {δ : β} (hf : Raises g f δ) (k k' : κ)
    (m : Map κ α) :
    valueAt g k' (upsert k f m) = valueAt g k' m + if k = k' then δ else 0 := by
  by_cases hk : k = k'
  · subst hk
    rw [valueAt, upsert, AList.lookup_insert, if_pos rfl]
    exact hf _
  · rw [valueAt, upsert, AList.lookup_insert_ne (Ne.symm hk), if_neg hk, add_zero]
    rfl

theorem total_upsert {g : α → β} {f : Option α → α} {δ : β} (hf : Raises g f δ) (k : κ)
    (m : Map κ α) : total g (upsert k f m) = total g m + δ := by
  have hput : total g (upsert k f m) =
      g (f (m.lookup k)) + ((List.kerase k m.entries).map fun e => g e.2).sum := by
    simp only [total, values, upsert, AList.entries_insert, List.map_cons, List.sum_cons,
      List.map_map, Function.comp_def]
  by_cases hk : k ∈ m
  · -- the old value leaves the sum and comes back with `δ`
    obtain ⟨a, l₁, l₂, -, hl, hker⟩ := List.exists_of_kerase (AList.mem_keys.mp hk)
    have ha : m.lookup k = some a := by
      refine AList.mem_lookup_iff.mpr ?_
      rw [hl]
      exact List.mem_append_right _ List.mem_cons_self
    have hold : total g m = g a + ((l₁ ++ l₂).map fun e => g e.2).sum := by
      simp only [total, values, hl, List.map_append, List.map_cons, List.sum_append,
        List.sum_cons, List.map_map, Function.comp_def]
      exact add_left_comm _ _ _
    rw [hput, hker, ha, hf, hold, Option.map_some, Option.getD_some]
    exact add_right_comm _ _ _
  · have ha : m.lookup k = none := AList.lookup_eq_none.mpr hk
    rw [hput, ha, hf, List.kerase_of_notMem_keys (AList.mem_keys.not.mp hk), Option.map_none,
      Option.getD_none, zero_add, add_comm]
    simp only [total, values, List.map_map, Function.comp_def]

/-- **At a key, the measure sums up over the items of the key.** -/
theorem valueAt_collect {g : α → β} {use : ι → Bool} {key : ι → κ} {f : ι → Option α → α}
    {δ : ι → β} (hf : ∀ x, Raises g (f x) (δ x)) (k : κ) : ∀ (xs : List ι) (m : Map κ α),
    valueAt g k (collect use key f xs m) =
      valueAt g k m + ((xs.filter fun x => use x && decide (key x = k)).map δ).sum
  | [], m => by simp [collect]
  | x :: xs, m => by
    rw [collect, List.foldl_cons, ← collect, valueAt_collect hf k xs]
    by_cases hx : use x = true
    · rw [if_pos hx, valueAt_upsert (hf x)]
      by_cases hk : key x = k
      · simp [hx, hk, add_assoc]
      · simp [hk]
    · simp [hx]

/-- **Over the map, the measure sums up over the items.** -/
theorem total_collect {g : α → β} {use : ι → Bool} {key : ι → κ} {f : ι → Option α → α}
    {δ : ι → β} (hf : ∀ x, Raises g (f x) (δ x)) : ∀ (xs : List ι) (m : Map κ α),
    total g (collect use key f xs m) = total g m + ((xs.filter use).map δ).sum
  | [], m => by simp [collect]
  | x :: xs, m => by
    rw [collect, List.foldl_cons, ← collect, total_collect hf xs]
    by_cases hx : use x = true
    · rw [if_pos hx, total_upsert (hf x), List.filter_cons_of_pos hx, List.map_cons,
        List.sum_cons, add_assoc]
    · rw [if_neg hx, List.filter_cons_of_neg hx]

/-! ### Regrouping -/

theorem sum_single {k : κ} {b : β} : ∀ {ks : List κ}, ks.Nodup → k ∈ ks →
    (ks.map fun k' => if k = k' then b else 0).sum = b
  | k₁ :: ks, hnd, hk => by
    rw [List.nodup_cons] at hnd
    rw [List.map_cons, List.sum_cons]
    have hzero : k ∉ ks → (ks.map fun k' => if k = k' then b else 0).sum = 0 := by
      intro hne
      refine List.sum_eq_zero fun x hx => ?_
      obtain ⟨k', hk', rfl⟩ := List.mem_map.mp hx
      have hkk : k ≠ k' := fun h => hne (h ▸ hk')
      exact if_neg hkk
    by_cases h : k = k₁
    · subst h
      rw [if_pos rfl, hzero hnd.1, add_zero]
    · rw [if_neg h, zero_add]
      exact sum_single hnd.2 ((List.mem_cons.mp hk).resolve_left h)

/-- **A sum over items, regrouped by their keys.** -/
theorem sum_groups (key : ι → κ) (f : ι → β) {ks : List κ} (hnd : ks.Nodup) :
    ∀ {xs : List ι}, (∀ x ∈ xs, key x ∈ ks) →
    (ks.map fun k => ((xs.filter fun x => key x = k).map f).sum).sum = (xs.map f).sum
  | [], _ => by
    refine List.sum_eq_zero fun x hx => ?_
    obtain ⟨k, -, rfl⟩ := List.mem_map.mp hx
    rfl
  | x :: xs, hk => by
    have split : ∀ k, (((x :: xs).filter fun y => key y = k).map f).sum =
        (if key x = k then f x else 0) + ((xs.filter fun y => key y = k).map f).sum := by
      intro k
      by_cases h : key x = k
      · simp [h]
      · simp [h]
    rw [List.map_congr_left fun k _ => split k, List.sum_map_add,
      sum_single hnd (hk x List.mem_cons_self),
      sum_groups key f hnd fun y hy => hk y (List.mem_cons_of_mem _ hy), List.map_cons,
      List.sum_cons]

end Keyed
end KubeCost
