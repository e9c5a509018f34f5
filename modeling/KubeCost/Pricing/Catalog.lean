/-
# The price catalog

`services/pricing/server.go`, `services/pricing/repository.go` and the table
`catalog_price_interval` of migration 010. An import checks and normalises its prices and
stores them under the time it came in; the table keeps the last price of each sorting key,
and a lookup takes the best of those that match (`effectiveCatalogPriceSQL`).

`mem_catalog` says which rows were inserted, and `query_of_input` that a lookup with the
values of an accepted price asks for the values of its row.

Times are whole seconds in the range of the columns, which keep them as they are, and no
row has expired. Strings are lists of code points, so `strings.ToLower` maps each of them;
what it maps them to is a parameter, and so is the parser of decimal numbers.
-/
import Mathlib.Algebra.Order.Field.Rat
import Mathlib.Data.List.Sort
import KubeCost.Checks
import KubeCost.Keyed
import KubeCost.Replacing
import KubeCost.Rfc3339
import KubeCost.Text

namespace KubeCost
namespace Pricing

open Keyed Replacing

/-! ### Texts -/

/-- `unicode.ToLower` and `unicode.ToUpper`. -/
structure Casing where
  toLower : Char → Char
  toUpper : Char → Char
  /-- A letter does not become a blank. -/
  isSpace_toLower : ∀ c, isSpace (toLower c) = isSpace c

/-- `strings.ToLower`. -/
def Casing.lower (casing : Casing) (s : String) : String :=
  String.ofList (s.toList.map casing.toLower)

/-- `strings.ToUpper`. -/
def Casing.upper (casing : Casing) (s : String) : String :=
  String.ofList (s.toList.map casing.toUpper)

/-- What the service takes from other packages: the case of letters, and
`decimal.NewFromString` with none for an error. -/
structure Packages where
  casing : Casing
  newFromString : String → Option ℚ

def valueOrDefaultString (value fallback : String) : String :=
  if trimSpace value ≠ "" then trimSpace value else fallback

/-- The loop over a map of named fields that have to be there; the map is visited in any
order. -/
def requireFields (order : Order (String × String)) (fields : List (String × String)) :
    Except String Unit :=
  match (order.visit fields).find? fun field => trimSpace field.2 = "" with
  | some (name, _) => .error (name ++ " is required")
  | none => .ok ()

/-! ### Prices -/

structure CatalogPriceInput where
  provider : String
  accountId : String := ""
  region : String
  service : String
  sku : String
  resourceType : String
  purchaseOption : String := ""
  unit : String
  currency : String
  unitPrice : String
  effectiveStart : Instant
  effectiveEnd : Option Instant := none
  source : String := ""
  priceVersion : String
  /-- As `json.Marshal` writes it. -/
  attributes : String := "null"
deriving DecidableEq

structure CatalogPrice extends CatalogPriceInput where
  tenantId : String
  ingestedAt : Instant
  version : ℕ
deriving DecidableEq

/-- A row of `catalog_price_interval`. -/
structure CatalogPriceRow where
  tenantId : String
  provider : String
  accountId : String
  region : String
  service : String
  sku : String
  resourceType : String
  purchaseOption : String
  unit : String
  currency : String
  unitPrice : ℚ
  effectiveStart : Instant
  effectiveEnd : Option Instant
  source : String
  priceVersion : String
  attributes : String
  ingestedAt : Instant
  version : ℕ
deriving DecidableEq

def CatalogPriceInput.required (price : CatalogPriceInput) : List (String × String) :=
  [("provider", price.provider), ("region", price.region), ("service", price.service),
    ("sku", price.sku), ("resource_type", price.resourceType), ("unit", price.unit),
    ("currency", price.currency), ("unit_price", price.unitPrice),
    ("price_version", price.priceVersion)]

def validateCatalogPrice (packages : Packages) (order : Order (String × String))
    (price : CatalogPriceInput) : Except String Unit := do
  requireFields order price.required
  rejectIf ((utf8 (trimSpace price.currency)).length ≠ 3) "currency must be a 3-letter code"
  rejectIf ((packages.newFromString price.unitPrice).isNone) "unit_price must be a decimal string"
  rejectIf (price.effectiveStart = Instant.zero) "effective_start is required"
  rejectIf (price.effectiveEnd.any fun stop => stop ≤ price.effectiveStart)
    "effective_end must be after effective_start"

def normalizeCatalogPrice (packages : Packages) (price : CatalogPriceInput) : CatalogPriceInput where
  provider := packages.casing.lower (trimSpace price.provider)
  accountId := trimSpace price.accountId
  region := trimSpace price.region
  service := trimSpace price.service
  sku := trimSpace price.sku
  resourceType := trimSpace price.resourceType
  purchaseOption := valueOrDefaultString price.purchaseOption "on_demand"
  unit := trimSpace price.unit
  currency := packages.casing.upper (trimSpace price.currency)
  unitPrice := trimSpace price.unitPrice
  effectiveStart := price.effectiveStart
  effectiveEnd := price.effectiveEnd
  source := valueOrDefaultString price.source "import"
  priceVersion := trimSpace price.priceVersion
  attributes := price.attributes

def catalogPriceRow (packages : Packages) (price : CatalogPrice) : Except String CatalogPriceRow :=
  match packages.newFromString price.unitPrice with
  | none => .error "invalid unit_price"
  | some unitPrice => .ok
    { tenantId := price.tenantId
      provider := price.provider
      accountId := price.accountId
      region := price.region
      service := price.service
      sku := price.sku
      resourceType := price.resourceType
      purchaseOption := price.purchaseOption
      unit := price.unit
      currency := price.currency
      unitPrice := unitPrice
      effectiveStart := price.effectiveStart
      effectiveEnd := price.effectiveEnd
      source := price.source
      priceVersion := price.priceVersion
      attributes := price.attributes
      ingestedAt := price.ingestedAt
      version := price.version }

/-! ### Imports -/

def maxImportBatch : ℕ := 1000

/-- What `writeProblem` answers. -/
structure Problem where
  status : ℕ
  code : String
  detail : String
deriving DecidableEq

structure ImportResponse where
  tenantId : String
  imported : ℕ
  ingestedAt : Instant
deriving DecidableEq

/-- A call of `importCatalogPrices` for an authenticated tenant. -/
structure Import where
  tenantId : String
  prices : List CatalogPriceInput
  now : Instant
  order : Order (String × String) := Order.listed
  /-- The error with which the database does not take the batch. -/
  refused : Option String := none

/-- The price that an import stores for an input. -/
def Import.price (packages : Packages) (i : Import) (input : CatalogPriceInput) : CatalogPrice where
  toCatalogPriceInput := normalizeCatalogPrice packages input
  tenantId := i.tenantId
  ingestedAt := i.now
  version := i.now.unixNano

/-- `Repository.ImportCatalogPrices`: the rows that are added to the table. -/
def importRows (packages : Packages) (prices : List CatalogPrice) (refused : Option String) :
    Except String (List CatalogPriceRow) := do
  let rows ← prices.mapM (catalogPriceRow packages)
  match refused with
  | none => .ok rows
  | some err => .error ("send catalog price batch: " ++ err)

/-- `importCatalogPrices`: the response and the rows that are added to the table. -/
def importCatalogPrices (packages : Packages) (i : Import) :
    Except Problem (ImportResponse × List CatalogPriceRow) := do
  rejectIf (i.prices.length = 0 ∨ i.prices.length > maxImportBatch)
    ⟨400, "invalid_request", "prices must contain 1 to 1000 items"⟩
  (i.prices.forM (validateCatalogPrice packages i.order)).mapError fun err =>
    ⟨400, "invalid_request", err⟩
  let rows ← (importRows packages (i.prices.map (i.price packages)) i.refused).mapError fun _ =>
    ⟨500, "import_failed", "catalog price import failed"⟩
  .ok (⟨i.tenantId, i.prices.length, i.now⟩, rows)

/-- The rows that were inserted, in their order; a request that fails inserts none. -/
def catalog (packages : Packages) (imports : List Import) : List CatalogPriceRow :=
  imports.flatMap fun i =>
    match importCatalogPrices packages i with
    | .ok (_, rows) => rows
    | .error _ => []

/-! ### The table -/

/-- The `ORDER BY` of `catalog_price_interval`. -/
structure SortingKey where
  tenantId : String
  provider : String
  accountId : String
  region : String
  service : String
  sku : String
  resourceType : String
  purchaseOption : String
  effectiveStart : Instant
  priceVersion : String
deriving DecidableEq

def CatalogPriceRow.sortingKey (row : CatalogPriceRow) : SortingKey :=
  ⟨row.tenantId, row.provider, row.accountId, row.region, row.service, row.sku,
    row.resourceType, row.purchaseOption, row.effectiveStart, row.priceVersion⟩

/-- `ReplacingMergeTree(version)`. -/
def byVersion (a b : CatalogPriceRow) : Bool := a.version ≤ b.version

/-- `kube_cost.catalog_price_interval FINAL`. -/
def catalogPriceInterval (rows : List CatalogPriceRow) : List CatalogPriceRow :=
  final CatalogPriceRow.sortingKey byVersion rows

/-! ### Lookups -/

structure EffectivePriceQuery where
  tenantId : String
  provider : String
  accountId : String
  region : String
  service : String
  sku : String
  resourceType : String
  purchaseOption : String
  unit : String
  time : Instant
deriving DecidableEq

/-- The values of a request; `time` is `at`. -/
structure EffectivePriceRequest where
  provider : String := ""
  accountId : String := ""
  region : String := ""
  service : String := ""
  sku : String := ""
  resourceType : String := ""
  purchaseOption : String := ""
  unit : String := ""
  time : String := ""

def EffectivePriceQuery.required (query : EffectivePriceQuery) : List (String × String) :=
  [("provider", query.provider), ("region", query.region), ("service", query.service),
    ("resource_type", query.resourceType), ("unit", query.unit)]

/-- The time that a request asks about. -/
def EffectivePriceRequest.instant (request : EffectivePriceRequest) (now : Instant) :
    Option Instant :=
  if trimSpace request.time = "" then some now else Instant.parseRFC3339 (trimSpace request.time)

/-- The query of a request for a time. -/
def EffectivePriceRequest.query (packages : Packages) (request : EffectivePriceRequest)
    (tenantID : String) (time : Instant) : EffectivePriceQuery where
  tenantId := tenantID
  provider := packages.casing.lower (trimSpace request.provider)
  accountId := trimSpace request.accountId
  region := trimSpace request.region
  service := trimSpace request.service
  sku := trimSpace request.sku
  resourceType := trimSpace request.resourceType
  purchaseOption := valueOrDefaultString request.purchaseOption "on_demand"
  unit := trimSpace request.unit
  time := time

def effectivePriceQueryFromRequest (packages : Packages) (order : Order (String × String))
    (now : Instant) (request : EffectivePriceRequest) (tenantID : String) :
    Except Problem EffectivePriceQuery := do
  (requireFields order (request.query packages tenantID Instant.zero).required).mapError fun err =>
    ⟨400, "invalid_request", err⟩
  match request.instant now with
  | none => .error ⟨400, "invalid_request", "at must be an RFC3339 timestamp"⟩
  | some time => .ok (request.query packages tenantID time)

/-- The `WHERE` of `effectiveCatalogPriceSQL`. -/
def effectiveCatalogPriceWhere (query : EffectivePriceQuery) (row : CatalogPriceRow) : Bool :=
  row.tenantId = query.tenantId && row.provider = query.provider && row.region = query.region &&
    row.service = query.service && row.resourceType = query.resourceType &&
    row.purchaseOption = query.purchaseOption && row.unit = query.unit &&
    row.effectiveStart ≤ query.time && row.effectiveEnd.all (fun stop => query.time < stop) &&
    (row.accountId = query.accountId || row.accountId = "") &&
    (row.sku = query.sku || row.sku = "")

/-- How many of the account and the SKU match other than as a wildcard. -/
def exactMatches (query : EffectivePriceQuery) (row : CatalogPriceRow) : ℕ :=
  (if row.accountId = query.accountId then 1 else 0) + (if row.sku = query.sku then 1 else 0)

/-- The `ORDER BY` of `effectiveCatalogPriceSQL`. -/
def effectiveCatalogPriceOrder (query : EffectivePriceQuery) (a b : CatalogPriceRow) : Bool :=
  if exactMatches query a ≠ exactMatches query b then exactMatches query b < exactMatches query a
  else if a.effectiveStart ≠ b.effectiveStart then b.effectiveStart < a.effectiveStart
  else b.version ≤ a.version

/-- The rows that match a query. -/
def eligible (rows : List CatalogPriceRow) (query : EffectivePriceQuery) : List CatalogPriceRow :=
  (catalogPriceInterval rows).filter (effectiveCatalogPriceWhere query)

/-- `effectiveCatalogPriceSQL`; rows that the order does not tell apart come in any order. -/
def effectiveCatalogPriceSQL (order : Order CatalogPriceRow) (rows : List CatalogPriceRow)
    (query : EffectivePriceQuery) : Option CatalogPriceRow :=
  ((order.visit (eligible rows query)).mergeSort (effectiveCatalogPriceOrder query)).head?

structure EffectivePriceResult where
  row : CatalogPriceRow
  matchedAt : Instant
deriving DecidableEq

/-- `effectiveCatalogPrice`, when the database answers. -/
def effectiveCatalogPrice (packages : Packages) (fields : Order (String × String))
    (order : Order CatalogPriceRow) (now : Instant) (rows : List CatalogPriceRow)
    (request : EffectivePriceRequest) (tenantID : String) : Except Problem EffectivePriceResult := do
  let query ← effectivePriceQueryFromRequest packages fields now request tenantID
  match effectiveCatalogPriceSQL order rows query with
  | none => .error ⟨404, "not_found", "effective catalog price not found"⟩
  | some row => .ok ⟨row, query.time⟩

/-! ### What an import checks and stores -/

variable {packages : Packages} {fields : Order (String × String)}

theorem requireFields_eq_ok {l : List (String × String)} {u : Unit} :
    requireFields fields l = .ok u ↔ ∀ field ∈ l, trimSpace field.2 ≠ "" := by
  have hvisit : (∀ field ∈ fields.visit l, trimSpace field.2 ≠ "") ↔
      ∀ field ∈ l, trimSpace field.2 ≠ "" :=
    forall_congr' fun field => imp_congr_left (fields.perm l).mem_iff
  rw [← hvisit, requireFields]
  cases hfind : (fields.visit l).find? fun field => trimSpace field.2 = "" with
  | none => simpa using hfind
  | some field =>
    have hblank : trimSpace field.2 = "" := by simpa using List.find?_some hfind
    constructor
    · intro h
      cases h
    · exact fun h => absurd hblank (h field (List.mem_of_find?_eq_some hfind))

theorem required_of_validateCatalogPrice {price : CatalogPriceInput} {u : Unit}
    (h : validateCatalogPrice packages fields price = .ok u) :
    ∀ field ∈ price.required, trimSpace field.2 ≠ "" :=
  requireFields_eq_ok.mp (check_bind_ok.mp h).1

theorem Casing.trimSpace_lower_ne {s : String} (casing : Casing) (h : trimSpace s ≠ "") :
    trimSpace (casing.lower (trimSpace s)) ≠ "" := by
  rw [← trimSpace_trimSpace, Ne, trimSpace_eq_empty_iff] at h
  rw [Ne, trimSpace_eq_empty_iff, Casing.lower, String.toList_ofList]
  refine fun hall => h fun c hc => ?_
  rw [← casing.isSpace_toLower c]
  exact hall _ (List.mem_map_of_mem hc)

/-- The import was accepted, and the row is what it stored for one of its prices. -/
structure Stored (packages : Packages) (i : Import) (input : CatalogPriceInput)
    (row : CatalogPriceRow) : Prop where
  accepted : ∃ response rows, importCatalogPrices packages i = .ok (response, rows)
  mem : input ∈ i.prices
  row_eq : catalogPriceRow packages (i.price packages input) = .ok row

theorem importRows_eq_ok {prices : List CatalogPrice} {refused : Option String}
    {rows : List CatalogPriceRow} (h : importRows packages prices refused = .ok rows) :
    prices.mapM (catalogPriceRow packages) = .ok rows := by
  obtain ⟨rows', hmap, h⟩ := bind_eq_ok.mp h
  cases refused with
  | none => exact Except.ok.inj h ▸ hmap
  | some err => cases h

/-- What an accepted import has checked, and what it stores. -/
theorem importCatalogPrices_eq_ok {i : Import} {response : ImportResponse}
    {rows : List CatalogPriceRow} (h : importCatalogPrices packages i = .ok (response, rows)) :
    (∀ input ∈ i.prices, validateCatalogPrice packages i.order input = .ok ()) ∧
      ∀ row, row ∈ rows ↔ ∃ input ∈ i.prices, catalogPriceRow packages (i.price packages input) = .ok row := by
  obtain ⟨_, h⟩ := check_bind_ok.mp h
  obtain ⟨hvalid, h⟩ := check_bind_ok.mp h
  obtain ⟨rows', hrows, h⟩ := bind_eq_ok.mp h
  obtain rfl : rows' = rows := congrArg Prod.snd (Except.ok.inj h)
  refine ⟨forM_eq_ok.mp (mapError_eq_ok.mp hvalid), fun row => ?_⟩
  rw [mem_of_mapM_ok (importRows_eq_ok (mapError_eq_ok.mp hrows))]
  simp only [List.mem_map, exists_exists_and_eq_and]

/-- **The rows of the table are those that accepted imports stored.** -/
theorem mem_catalog {imports : List Import} {row : CatalogPriceRow} :
    row ∈ catalog packages imports ↔ ∃ i ∈ imports, ∃ input, Stored packages i input row := by
  rw [catalog, List.mem_flatMap]
  refine exists_congr fun i => and_congr_right fun _ => ?_
  cases h : importCatalogPrices packages i with
  | error problem =>
    constructor
    · exact fun hrow => absurd hrow List.not_mem_nil
    · rintro ⟨input, ⟨_, _, hok⟩, _⟩
      rw [h] at hok
      cases hok
  | ok result =>
    obtain ⟨response, rows⟩ := result
    rw [(importCatalogPrices_eq_ok h).2]
    constructor
    · exact fun ⟨input, hmem, hrow⟩ => ⟨input, ⟨_, _, h⟩, hmem, hrow⟩
    · exact fun ⟨input, hstored⟩ => ⟨input, hstored.mem, hstored.row_eq⟩

/-! ### Looking up a price -/

theorem effectiveCatalogPriceWhere_iff {query : EffectivePriceQuery} {row : CatalogPriceRow} :
    effectiveCatalogPriceWhere query row = true ↔
      row.tenantId = query.tenantId ∧ row.provider = query.provider ∧ row.region = query.region ∧
      row.service = query.service ∧ row.resourceType = query.resourceType ∧
      row.purchaseOption = query.purchaseOption ∧ row.unit = query.unit ∧
      row.effectiveStart ≤ query.time ∧ (∀ stop ∈ row.effectiveEnd, query.time < stop) ∧
      (row.accountId = query.accountId ∨ row.accountId = "") ∧
      (row.sku = query.sku ∨ row.sku = "") := by
  simp only [effectiveCatalogPriceWhere, Bool.and_eq_true, Bool.or_eq_true, decide_eq_true_eq,
    Option.all_eq_true, and_assoc, Option.mem_def]

/-- The lookup of a price by its own values. -/
def CatalogPriceInput.lookup (input : CatalogPriceInput) (time : String) : EffectivePriceRequest where
  provider := input.provider
  accountId := input.accountId
  region := input.region
  service := input.service
  sku := input.sku
  resourceType := input.resourceType
  purchaseOption := input.purchaseOption
  unit := input.unit
  time := time

/-- The query for the values of a row. -/
def CatalogPriceRow.query (row : CatalogPriceRow) (time : Instant) : EffectivePriceQuery where
  tenantId := row.tenantId
  provider := row.provider
  accountId := row.accountId
  region := row.region
  service := row.service
  sku := row.sku
  resourceType := row.resourceType
  purchaseOption := row.purchaseOption
  unit := row.unit
  time := time

theorem Stored.query_eq {i : Import} {input : CatalogPriceInput} {row : CatalogPriceRow}
    (h : Stored packages i input row) (time : String) (t : Instant) :
    (input.lookup time).query packages i.tenantId t = row.query t := by
  have hrow := h.row_eq
  rw [catalogPriceRow] at hrow
  split at hrow
  · cases hrow
  · obtain rfl := Except.ok.inj hrow
    rfl

/-- **A lookup by the values of an accepted price asks for the values of its row.** -/
theorem Stored.query_lookup {i : Import} {input : CatalogPriceInput} {row : CatalogPriceRow}
    (h : Stored packages i input row) {now t : Instant} {time : String}
    (htime : (input.lookup time).instant now = some t) :
    effectivePriceQueryFromRequest packages fields now (input.lookup time) i.tenantId =
      .ok (row.query t) := by
  obtain ⟨_, _, haccepted⟩ := h.accepted
  have hfields := required_of_validateCatalogPrice
    ((importCatalogPrices_eq_ok haccepted).1 input h.mem)
  simp only [CatalogPriceInput.required, List.forall_mem_cons] at hfields
  obtain ⟨hprovider, hregion, hservice, _, hresource, hunit, _⟩ := hfields
  have hrequired : requireFields fields
      ((input.lookup time).query packages i.tenantId Instant.zero).required = .ok () := by
    rw [requireFields_eq_ok]
    simp only [EffectivePriceQuery.required, EffectivePriceRequest.query, CatalogPriceInput.lookup,
      List.forall_mem_cons, trimSpace_trimSpace]
    exact ⟨packages.casing.trimSpace_lower_ne hprovider, hregion, hservice, hresource, hunit,
      fun _ h => absurd h List.not_mem_nil⟩
  rw [effectivePriceQueryFromRequest, hrequired, htime, ← h.query_eq]
  rfl

end Pricing
end KubeCost
