/-
# Which imported prices can be looked up

The sorting key of `catalog_price_interval` has neither the unit nor the currency of a
price, so a price by the hour and one by the second, or one in dollars and one in euros,
take each other's place. `retrievable_iff` says when a price that was imported once is still
found: when no price of its sorting key with another unit or currency came after it, or
when another price that is still in the table has its unit and currency at that time.
-/
import KubeCost.Pricing.Catalog

namespace KubeCost
namespace Pricing

open Keyed Replacing

variable {packages : Packages} {fields : Order (String × String)} {rows : List CatalogPriceRow}
  {row r : CatalogPriceRow} {t : Instant}

/-- What makes a price the price it is. -/
def CatalogPriceRow.identity (row : CatalogPriceRow) : SortingKey × String × String :=
  (row.sortingKey, row.unit, row.currency)

/-- The time is in the interval of the price. -/
def CatalogPriceRow.Effective (row : CatalogPriceRow) (t : Instant) : Prop :=
  row.effectiveStart ≤ t ∧ ∀ stop ∈ row.effectiveEnd, t < stop

/-- A lookup of the request is for a query with an eligible row of the unit and the
currency. -/
def Finds (packages : Packages) (fields : Order (String × String)) (now : Instant)
    (rows : List CatalogPriceRow) (request : EffectivePriceRequest) (tenantID unit currency : String) :
    Prop :=
  ∃ query, effectivePriceQueryFromRequest packages fields now request tenantID = .ok query ∧
    ∃ row ∈ eligible rows query, row.unit = unit ∧ row.currency = currency

/-- A price of the sorting key with another unit or currency came after the price: its import
has a later clock, or the same clock and the price comes further on. -/
def Overtaken (rows : List CatalogPriceRow) (row : CatalogPriceRow) : Prop :=
  ∃ r ∈ rows, r.sortingKey = row.sortingKey ∧ (r.unit ≠ row.unit ∨ r.currency ≠ row.currency) ∧
    (row.version < r.version ∨ row.version = r.version ∧ [row, r].Sublist rows)

/-- Another price that matches the values of the row, and has its currency, is the last of
its own sorting key. -/
def Replaceable (rows : List CatalogPriceRow) (row : CatalogPriceRow) (t : Instant) : Prop :=
  ∃ r ≠ row, Last CatalogPriceRow.sortingKey byVersion rows r ∧
    effectiveCatalogPriceWhere (row.query t) r ∧ r.currency = row.currency

/-! ### The table -/

theorem mem_catalogPriceInterval : row ∈ catalogPriceInterval rows ↔
    Last CatalogPriceRow.sortingKey byVersion rows row := by
  apply mem_final_iff_last
  · intro a b c hab hbc
    simp only [byVersion, decide_eq_true_eq] at hab hbc ⊢
    exact hab.trans hbc
  · intro a b
    simp only [byVersion, decide_eq_true_eq]
    exact le_total _ _

theorem where_query_self : effectiveCatalogPriceWhere (row.query t) row = true ↔
    row.Effective t := by
  rw [effectiveCatalogPriceWhere_iff]
  simp [CatalogPriceRow.query, CatalogPriceRow.Effective]

theorem unit_of_where (h : effectiveCatalogPriceWhere (row.query t) r = true) :
    r.unit = row.unit := by
  obtain ⟨_, _, _, _, _, _, hunit, _⟩ := effectiveCatalogPriceWhere_iff.mp h
  exact hunit

/-- What stands after the only place of an element. -/
theorem mem_of_pair_sublist {α : Type*} {a b : α} {after : List α} : ∀ {before : List α},
    a ∉ before → [a, b].Sublist (before ++ a :: after) → b ∈ after
  | [], _, h => List.singleton_sublist.mp (by
      rcases List.cons_sublist_cons'.mp h with h | h
      · exact (List.sublist_cons_self _ _).trans h
      · exact h.2)
  | c :: before, ha, h => by
    rw [List.mem_cons, not_or] at ha
    rcases List.cons_sublist_cons'.mp h with h | h
    · exact mem_of_pair_sublist ha.2 h
    · exact absurd h.1 ha.1

/-- The only price of an identity, with what came before and after it. -/
theorem exists_split (hunique : (rows.filter fun r => r.identity = row.identity) = [row]) :
    ∃ before after, rows = before ++ row :: after ∧
      ∀ r, r ∈ before ∨ r ∈ after → r.identity ≠ row.identity := by
  obtain ⟨before, after, rfl, hbefore, _, hafter⟩ := List.filter_eq_cons_iff.mp hunique
  refine ⟨before, after, rfl, fun r hr => ?_⟩
  rcases hr with hr | hr
  · simpa using hbefore r hr
  · simpa using List.filter_eq_nil_iff.mp hafter r hr

/-- **A price that was imported once is in the table until it is overtaken.** -/
theorem last_iff_not_overtaken (hunique : (rows.filter fun r => r.identity = row.identity) = [row]) :
    Last CatalogPriceRow.sortingKey byVersion rows row ↔ ¬ Overtaken rows row := by
  obtain ⟨before, after, rfl, hothers⟩ := exists_split hunique
  have hbefore : row ∉ before := fun h => hothers row (.inl h) rfl
  have hafter : row ∉ after := fun h => hothers row (.inr h) rfl
  constructor
  · rintro ⟨before', after', hsplit, hle, hlt⟩ ⟨r, hr, hkey, -, hlater⟩
    obtain ⟨rfl, -, rfl⟩ := (List.append_cons_inj_of_notMem hbefore hafter).mp hsplit
    simp only [byVersion, decide_eq_true_eq, decide_eq_false_iff_not] at hle hlt
    rcases hlater with hlater | ⟨heq, hpair⟩
    · rcases List.mem_append.mp hr with hr | hr
      · exact absurd (hle r hr hkey) hlater.not_ge
      · rcases List.mem_cons.mp hr with rfl | hr
        · exact lt_irrefl _ hlater
        · exact hlt r hr hkey hlater.le
    · exact hlt r (mem_of_pair_sublist hbefore hpair) hkey heq.le
  · intro h
    -- a price of the sorting key that is not this price differs in the unit or the currency
    have hother : ∀ r, r ∈ before ∨ r ∈ after → r.sortingKey = row.sortingKey →
        r.unit ≠ row.unit ∨ r.currency ≠ row.currency := by
      intro r hr hkey
      have hne := hothers r hr
      simp only [CatalogPriceRow.identity, Ne, Prod.mk.injEq, hkey, true_and] at hne
      exact not_and_or.mp hne
    refine ⟨before, after, rfl, fun r hr hkey => ?_, fun r hr hkey => ?_⟩
    · rw [byVersion, decide_eq_true_eq]
      exact not_lt.mp fun hlater =>
        h ⟨r, List.mem_append_left _ hr, hkey, hother r (.inl hr) hkey, .inl hlater⟩
    · rw [byVersion, decide_eq_false_iff_not]
      intro hle
      refine h ⟨r, List.mem_append_right _ (List.mem_cons_of_mem _ hr), hkey,
        hother r (.inr hr) hkey, hle.lt_or_eq.imp_right fun heq => ⟨heq, ?_⟩⟩
      exact (List.cons_sublist_cons.mpr (List.singleton_sublist.mpr hr)).trans
        (List.sublist_append_right _ _)

/-- **When a price can be looked up.** For every history of imports, every price that was
imported once and every time in its interval: a lookup by the values of the price finds its
unit and currency exactly if no price of its sorting key with another unit or currency came
after it, or another price that is still in the table has them. -/
theorem retrievable_iff (packages : Packages) (imports : List Import) (row : CatalogPriceRow)
    (hunique : ((catalog packages imports).filter fun r => r.identity = row.identity) = [row])
    (t : Instant) (ht : row.Effective t) :
    ∀ i ∈ imports, ∀ input, Stored packages i input row →
      ∀ (fields : Order (String × String)) (now : Instant) (time : String),
        (input.lookup time).instant now = some t →
        (Finds packages fields now (catalog packages imports) (input.lookup time) i.tenantId
            row.unit row.currency ↔
          ¬ Overtaken (catalog packages imports) row ∨
            Replaceable (catalog packages imports) row t) := by
  intro i _ input hstored fields now time htime
  have hquery : effectivePriceQueryFromRequest packages fields now (input.lookup time) i.tenantId =
      .ok (row.query t) := hstored.query_lookup htime
  rw [← last_iff_not_overtaken hunique]
  constructor
  · rintro ⟨query, hq, r, hr, hunit, hcurrency⟩
    obtain rfl := Except.ok.inj (hquery.symm.trans hq)
    obtain ⟨hlast, hwhere⟩ := List.mem_filter.mp hr
    rw [mem_catalogPriceInterval] at hlast
    by_cases heq : r = row
    · exact .inl (heq ▸ hlast)
    · exact .inr ⟨r, heq, hlast, hwhere, hcurrency⟩
  · have found : ∀ r, Last CatalogPriceRow.sortingKey byVersion (catalog packages imports) r →
        effectiveCatalogPriceWhere (row.query t) r = true → r.currency = row.currency →
        Finds packages fields now (catalog packages imports) (input.lookup time) i.tenantId
          row.unit row.currency := by
      intro r hlast hwhere hcurrency
      exact ⟨row.query t, hquery, r,
        List.mem_filter.mpr ⟨mem_catalogPriceInterval.mpr hlast, hwhere⟩, unit_of_where hwhere,
        hcurrency⟩
    rintro (hlast | ⟨r, _, hlast, hwhere, hcurrency⟩)
    · exact found row hlast (where_query_self.mpr ht) rfl
    · exact found r hlast hwhere hcurrency

/-! ### A price by the hour and one by the second -/

/-- Whole numbers as prices, for texts that have their case already. -/
def plainPackages : Packages where
  casing := ⟨fun c => c, fun c => c, fun _ => rfl⟩
  newFromString s := (digitsValue s.toList).map fun n => (n : ℚ)

def nodePrice (unit unitPrice priceVersion : String) : CatalogPriceInput where
  provider := "aws"
  region := "us-east-1"
  service := "ec2"
  sku := "m5.large"
  resourceType := "node"
  unit := unit
  currency := "USD"
  unitPrice := unitPrice
  effectiveStart := 0
  priceVersion := priceVersion

/-- A price by the hour, and one by the second of the given version. -/
def nodeImport (priceVersion : String) : Import where
  tenantId := "t"
  prices := [nodePrice "hour" "36" "v1", nodePrice "second" "1" priceVersion]
  now := 1000000000

/-- The row of the price by the hour. -/
def hourRow : CatalogPriceRow where
  tenantId := "t"
  provider := "aws"
  accountId := ""
  region := "us-east-1"
  service := "ec2"
  sku := "m5.large"
  resourceType := "node"
  purchaseOption := "on_demand"
  unit := "hour"
  currency := "USD"
  unitPrice := 36
  effectiveStart := 0
  effectiveEnd := none
  source := "import"
  priceVersion := "v1"
  attributes := "null"
  ingestedAt := 1000000000
  version := 1000000000

theorem stored_hourRow {priceVersion : String}
    (h : (importCatalogPrices plainPackages (nodeImport priceVersion)).isOk = true) :
    Stored plainPackages (nodeImport priceVersion) (nodePrice "hour" "36" "v1") hourRow where
  accepted := by
    cases hok : importCatalogPrices plainPackages (nodeImport priceVersion) with
    | error problem =>
      rw [hok] at h
      cases h
    | ok result => exact ⟨result.1, result.2, rfl⟩
  mem := List.mem_cons_self
  row_eq := by
    -- the version of the other price does not matter
    change catalogPriceRow plainPackages (Import.price plainPackages (nodeImport "v1") _) = _
    decide +kernel

theorem hourRow_effective : hourRow.Effective 1000000000 :=
  ⟨by decide, fun _ h => by cases h⟩

theorem retrievable_iff_hourRow : Finds plainPackages Order.listed 0
    (catalog plainPackages [nodeImport "v2"])
    ((nodePrice "hour" "36" "v1").lookup "1970-01-01T00:00:01Z") "t" "hour" "USD" := by
  refine (retrievable_iff plainPackages [nodeImport "v2"] hourRow (by decide +kernel) 1000000000
    hourRow_effective (nodeImport "v2") List.mem_cons_self _ (stored_hourRow (by decide +kernel))
    Order.listed 0 _ (by decide +kernel)).mpr (.inl ?_)
  have hcatalog : (catalog plainPackages [nodeImport "v2"]).all (fun r =>
      r.sortingKey = hourRow.sortingKey → r.unit = "hour" ∧ r.currency = "USD") = true := by
    decide +kernel
  rintro ⟨r, hr, hkey, hother, _⟩
  have := List.all_eq_true.mp hcatalog r hr
  rw [decide_eq_true_eq] at this
  exact hother.elim (fun h => h (this hkey).1) fun h => h (this hkey).2

/-- The price by the second, of the same version, takes the place of the price by the hour. -/
theorem hourly_price_lost :
    Stored plainPackages (nodeImport "v1") (nodePrice "hour" "36" "v1") hourRow ∧
    ((catalog plainPackages [nodeImport "v1"]).filter fun r => r.identity = hourRow.identity) =
      [hourRow] ∧
    hourRow.Effective 1000000000 ∧
    ((nodePrice "hour" "36" "v1").lookup "1970-01-01T00:00:01Z").instant 0 = some 1000000000 ∧
    ¬ Finds plainPackages Order.listed 0 (catalog plainPackages [nodeImport "v1"])
      ((nodePrice "hour" "36" "v1").lookup "1970-01-01T00:00:01Z") "t" "hour" "USD" := by
  have hstored : Stored plainPackages (nodeImport "v1") (nodePrice "hour" "36" "v1") hourRow :=
    stored_hourRow (by decide +kernel)
  have htime : ((nodePrice "hour" "36" "v1").lookup "1970-01-01T00:00:01Z").instant 0 =
      some 1000000000 := by decide +kernel
  refine ⟨hstored, by decide +kernel, hourRow_effective, htime, ?_⟩
  rintro ⟨query, hquery, r, hr, _⟩
  obtain rfl := Except.ok.inj ((hstored.query_lookup htime).symm.trans hquery)
  have hnone : eligible (catalog plainPackages [nodeImport "v1"]) (hourRow.query 1000000000) = [] := by
    decide +kernel
  rw [hnone] at hr
  cases hr

end Pricing
end KubeCost
