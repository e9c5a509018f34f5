/-
# When the effective price is the only one

A lookup takes the first of the eligible rows in the order of `effectiveCatalogPriceSQL`:
more exact matches first, then the later start, then the higher version. Rows that tie
there come in any order, so each row that can come first is a possible answer
(`first_iff_answer`).

The order looks at everything by which two rows of the table differ but the price
version: two rows that can both come first are of one account, one start and one version
of the table, so they are two price versions that came in with imports of one clock
(`tied_key`). `unique_iff` says that the price is unique exactly if the first row has no
such rival.
-/
import Mathlib.Data.Prod.Lex
import KubeCost.Pricing.Retrieval

namespace KubeCost
namespace Pricing

open Keyed Replacing

variable {packages : Packages} {imports : List Import} {rows : List CatalogPriceRow}
  {query : EffectivePriceQuery} {a b : CatalogPriceRow}

/-! ### The first row -/

/-- What the lookup orders by. -/
def rank (query : EffectivePriceQuery) (row : CatalogPriceRow) : ℕ ×ₗ Instant ×ₗ ℕ :=
  toLex (exactMatches query row, toLex (row.effectiveStart, row.version))

theorem effectiveCatalogPriceOrder_iff :
    effectiveCatalogPriceOrder query a b = true ↔ rank query b ≤ rank query a := by
  unfold effectiveCatalogPriceOrder rank
  rw [Prod.Lex.toLex_le_toLex, Prod.Lex.toLex_le_toLex]
  by_cases hm : exactMatches query a = exactMatches query b
  · by_cases hs : a.effectiveStart = b.effectiveStart
    · simp [hm, hs]
    · simp [hm, hs, Ne.symm hs]
  · simp [hm, Ne.symm hm]

theorem order_trans (query : EffectivePriceQuery) (a b c : CatalogPriceRow)
    (hab : effectiveCatalogPriceOrder query a b = true)
    (hbc : effectiveCatalogPriceOrder query b c = true) :
    effectiveCatalogPriceOrder query a c = true := by
  rw [effectiveCatalogPriceOrder_iff] at hab hbc ⊢
  exact hbc.trans hab

theorem order_total (query : EffectivePriceQuery) (a b : CatalogPriceRow) :
    (effectiveCatalogPriceOrder query a b || effectiveCatalogPriceOrder query b a) = true := by
  rw [Bool.or_eq_true, effectiveCatalogPriceOrder_iff, effectiveCatalogPriceOrder_iff]
  exact le_total _ _

theorem perm_sorted (order : Order CatalogPriceRow) :
    ((order.visit (eligible rows query)).mergeSort (effectiveCatalogPriceOrder query)).Perm
      (eligible rows query) :=
  (List.mergeSort_perm _ _).trans (order.perm _)

/-- No eligible row has to come before the row. -/
def First (rows : List CatalogPriceRow) (query : EffectivePriceQuery) (row : CatalogPriceRow) : Prop :=
  row ∈ eligible rows query ∧
    ∀ r ∈ eligible rows query, effectiveCatalogPriceOrder query row r = true

/-- **The rows that can come first are the possible answers.** -/
theorem first_iff_answer :
    First rows query a ↔ ∃ order, effectiveCatalogPriceSQL order rows query = some a := by
  constructor
  · rintro ⟨hmem, hfirst⟩
    -- the row comes first when it is read first
    refine ⟨.of fun l => a :: l.erase a, ?_⟩
    have hvisit : (Order.of fun l => a :: l.erase a).visit (eligible rows query) =
        a :: (eligible rows query).erase a := if_pos (List.perm_cons_erase hmem).symm
    obtain ⟨before, after, hsorted, hrest, hbefore⟩ := List.mergeSort_cons
      (order_trans query) (order_total query) a ((eligible rows query).erase a)
    have hnil : before = [] := by
      refine List.eq_nil_iff_forall_not_mem.mpr fun r hr => ?_
      have hr' : r ∈ (eligible rows query).erase a :=
        (List.mergeSort_perm _ _).mem_iff.mp (hrest ▸ List.mem_append_left _ hr)
      have := hbefore r hr
      rw [hfirst r (List.mem_of_mem_erase hr')] at this
      cases this
    rw [effectiveCatalogPriceSQL, hvisit, hsorted, hnil]
    rfl
  · rintro ⟨order, hanswer⟩
    obtain ⟨rest, hsorted⟩ := List.head?_eq_some_iff.mp hanswer
    have hperm : (a :: rest).Perm (eligible rows query) := hsorted ▸ perm_sorted order
    refine ⟨hperm.mem_iff.mp List.mem_cons_self, fun r hr => ?_⟩
    rcases List.mem_cons.mp (hperm.mem_iff.mpr hr) with rfl | hr
    · exact effectiveCatalogPriceOrder_iff.mpr le_rfl
    · have hpairwise := List.pairwise_mergeSort (order_trans query) (order_total query)
        (order.visit (eligible rows query))
      rw [hsorted] at hpairwise
      exact (List.pairwise_cons.mp hpairwise).1 r hr

/-- No two rows tie at the first position. -/
def UniqueFirst (rows : List CatalogPriceRow) (query : EffectivePriceQuery) : Prop :=
  ∀ a b, First rows query a → First rows query b → a = b

/-- With one row that can come first, the answer does not depend on the order of the rows. -/
theorem UniqueFirst.answer (h : UniqueFirst rows query) (order order' : Order CatalogPriceRow) :
    effectiveCatalogPriceSQL order rows query = effectiveCatalogPriceSQL order' rows query := by
  refine Option.ext fun a => ?_
  have hle : ∀ o o' : Order CatalogPriceRow, effectiveCatalogPriceSQL o rows query = some a →
      effectiveCatalogPriceSQL o' rows query = some a := by
    intro o o' ho
    have hfirst := first_iff_answer.mpr ⟨o, ho⟩
    cases ho' : effectiveCatalogPriceSQL o' rows query with
    | none =>
      have hmem := (perm_sorted o').mem_iff.mpr hfirst.1
      rw [List.head?_eq_none_iff.mp ho'] at hmem
      exact absurd hmem List.not_mem_nil
    | some b => rw [h a b hfirst (first_iff_answer.mpr ⟨o', ho'⟩)]
  exact ⟨hle order order', hle order' order⟩

/-! ### Rows that tie -/

/-- A row of the table has a SKU: an import does not take a price without one. -/
theorem sku_ne (h : a ∈ eligible (catalog packages imports) query) : a.sku ≠ "" := by
  obtain ⟨i, -, input, hstored⟩ := mem_catalog.mp (mem_of_mem_final (List.mem_of_mem_filter h))
  obtain ⟨_, _, haccepted⟩ := hstored.accepted
  have hfields := required_of_validateCatalogPrice
    ((importCatalogPrices_eq_ok haccepted).1 input hstored.mem)
  have hrow := hstored.row_eq
  rw [catalogPriceRow] at hrow
  split at hrow
  · cases hrow
  · obtain rfl := Except.ok.inj hrow
    exact hfields ("sku", input.sku) (by simp [CatalogPriceInput.required])

theorem sku_eq (h : a ∈ eligible (catalog packages imports) query) : a.sku = query.sku := by
  obtain ⟨-, -, -, -, -, -, -, -, -, -, hsku⟩ :=
    effectiveCatalogPriceWhere_iff.mp (List.mem_filter.mp h).2
  exact hsku.resolve_right (sku_ne h)

/-- **Rows that tie differ in the price version only**, of all that the table keeps apart. -/
theorem tied_key (ha : a ∈ eligible (catalog packages imports) query)
    (hb : b ∈ eligible (catalog packages imports) query) (htie : rank query a = rank query b) :
    { a.sortingKey with priceVersion := b.priceVersion } = b.sortingKey ∧ a.version = b.version := by
  simp only [rank, EmbeddingLike.apply_eq_iff_eq, Prod.mk.injEq] at htie
  obtain ⟨hmatches, hstart, hversion⟩ := htie
  have hsku : a.sku = b.sku := (sku_eq ha).trans (sku_eq hb).symm
  obtain ⟨ht, hp, hr, hs, hres, hpo, -, -, -, hacc, -⟩ :=
    effectiveCatalogPriceWhere_iff.mp (List.mem_filter.mp ha).2
  obtain ⟨ht', hp', hr', hs', hres', hpo', -, -, -, hacc', -⟩ :=
    effectiveCatalogPriceWhere_iff.mp (List.mem_filter.mp hb).2
  have haccount : a.accountId = b.accountId := by
    rw [exactMatches, exactMatches, hsku] at hmatches
    have hmatches := Nat.add_right_cancel hmatches
    by_cases h : a.accountId = query.accountId
    · by_cases h' : b.accountId = query.accountId
      · rw [h, h']
      · rw [if_pos h, if_neg h'] at hmatches
        cases hmatches
    · by_cases h' : b.accountId = query.accountId
      · rw [if_neg h, if_pos h'] at hmatches
        cases hmatches
      · rw [hacc.resolve_left h, hacc'.resolve_left h']
  refine ⟨?_, hversion⟩
  simp only [CatalogPriceRow.sortingKey, ht, hp, hr, hs, hres, hpo, ht', hp', hr', hs', hres', hpo',
    hsku, haccount, hstart]

/-- The row is another price version of the same price, from imports of one clock. -/
def Rival (a b : CatalogPriceRow) : Prop :=
  { a.sortingKey with priceVersion := b.priceVersion } = b.sortingKey ∧
    a.priceVersion ≠ b.priceVersion ∧ a.version = b.version

theorem Rival.rank_eq (h : Rival a b) : rank query a = rank query b := by
  obtain ⟨hkey, -, hversion⟩ := h
  simp only [CatalogPriceRow.sortingKey, SortingKey.mk.injEq] at hkey
  obtain ⟨-, -, haccount, -, -, hsku, -, -, hstart, -⟩ := hkey
  simp only [rank, exactMatches, haccount, hsku, hstart, hversion]

/-- **When the effective price is unique.** For every history of imports and every query: no
two rows tie at the first position, so that every lookup gives one unit price and currency,
exactly if no eligible row is another price version of the first row with its version. -/
theorem unique_iff (packages : Packages) (imports : List Import) (query : EffectivePriceQuery) :
    (UniqueFirst (catalog packages imports) query ∧ ∀ order order' : Order CatalogPriceRow,
      (effectiveCatalogPriceSQL order (catalog packages imports) query).map
          (fun row => (row.unitPrice, row.currency)) =
        (effectiveCatalogPriceSQL order' (catalog packages imports) query).map
          fun row => (row.unitPrice, row.currency)) ↔
      ¬ ∃ a b, First (catalog packages imports) query a ∧
        b ∈ eligible (catalog packages imports) query ∧ Rival a b := by
  constructor
  · rintro ⟨hunique, -⟩ ⟨a, b, ha, hb, hrival⟩
    have hfirst : First (catalog packages imports) query b := by
      refine ⟨hb, fun r hr => ?_⟩
      rw [effectiveCatalogPriceOrder_iff, ← hrival.rank_eq, ← effectiveCatalogPriceOrder_iff]
      exact ha.2 r hr
    exact hrival.2.1 (congrArg _ (hunique a b ha hfirst))
  · intro hnone
    have hunique : UniqueFirst (catalog packages imports) query := by
      intro a b ha hb
      by_contra hne
      have htie : rank query a = rank query b :=
        le_antisymm (effectiveCatalogPriceOrder_iff.mp (hb.2 a ha.1))
          (effectiveCatalogPriceOrder_iff.mp (ha.2 b hb.1))
      obtain ⟨hkey, hversion⟩ := tied_key ha.1 hb.1 htie
      refine hnone ⟨a, b, ha, hb.1, hkey, fun hprice => hne ?_, hversion⟩
      -- with one price version they have one sorting key, and the table has one row of it
      rw [← hprice] at hkey
      exact List.inj_on_of_nodup_map nodup_final (List.mem_of_mem_filter ha.1)
        (List.mem_of_mem_filter hb.1) hkey
    refine ⟨hunique, fun order order' => ?_⟩
    rw [hunique.answer order order']

/-! ### Two price versions in one import -/

/-- A price by the hour, in two price versions. -/
def versionsImport : Import where
  tenantId := "t"
  prices := [nodePrice "hour" "36" "v1", nodePrice "hour" "40" "v2"]
  now := 1000000000

def laterRow : CatalogPriceRow := { hourRow with unitPrice := 40, priceVersion := "v2" }

theorem eligible_versionsImport : eligible (catalog plainPackages [versionsImport])
    (hourRow.query 1000000000) = [hourRow, laterRow] := by
  decide +kernel

/-- Both price versions are effective, and which of them a lookup gives is open. -/
theorem two_effective_prices :
    (importCatalogPrices plainPackages versionsImport).isOk = true ∧
    ¬ UniqueFirst (catalog plainPackages [versionsImport]) (hourRow.query 1000000000) ∧
    ∃ order order' : Order CatalogPriceRow,
      (effectiveCatalogPriceSQL order (catalog plainPackages [versionsImport])
        (hourRow.query 1000000000)).map (·.unitPrice) = some 36 ∧
      (effectiveCatalogPriceSQL order' (catalog plainPackages [versionsImport])
        (hourRow.query 1000000000)).map (·.unitPrice) = some 40 := by
  have htie : ∀ a ∈ [hourRow, laterRow], ∀ b ∈ [hourRow, laterRow],
      effectiveCatalogPriceOrder (hourRow.query 1000000000) a b = true := by decide +kernel
  have hfirst : ∀ a ∈ [hourRow, laterRow],
      First (catalog plainPackages [versionsImport]) (hourRow.query 1000000000) a := by
    intro a ha
    rw [First, eligible_versionsImport]
    exact ⟨ha, htie a ha⟩
  have hhour := hfirst hourRow (by simp)
  have hlater := hfirst laterRow (by simp)
  refine ⟨by decide +kernel, fun h => absurd (h _ _ hhour hlater) (by decide +kernel), ?_⟩
  obtain ⟨order, horder⟩ := first_iff_answer.mp hhour
  obtain ⟨order', horder'⟩ := first_iff_answer.mp hlater
  refine ⟨order, order', ?_, ?_⟩
  · rw [horder]
    rfl
  · rw [horder']
    rfl

end Pricing
end KubeCost
