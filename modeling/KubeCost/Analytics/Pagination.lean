/-
# Walking through the pages

A client asks an analytics endpoint for a query page by page: the first request has no
cursor, and each later one has the cursor of the page before. The limit may be another on
every page. While the result of the query stays the same, the walk ends and the pages make
up the result, no row left out and none twice (`walk_from`); the cursor of another query is
refused (`offset_encode_of_ne`).

What a client asks for is an `Asked`; a request asks for it when its texts say so
(`Request.Asks`), with whatever positive limit.
-/
import KubeCost.Analytics.Server

namespace KubeCost
namespace Analytics

/-! ### What is asked for -/

/-- A query without the page of it that is wanted. -/
@[ext]
structure Asked where
  tenantId : String
  clusterId : String
  start : Instant
  stop : Instant
  groupBy : String
  tenantId_ne : tenantId ≠ ""
  ordered : start < stop
  start_aligned : start.truncate Instant.hour = start
  stop_aligned : stop.truncate Instant.hour = stop
  groupBy_valid : validAnalyticsGroupBy groupBy = true

/-- The request comes from the gateway and its texts are those of the query; the limit is
positive, or there is none. -/
structure Request.Asks (r : Request) (asked : Asked) : Prop where
  trusted : r.untrusted = none
  tenant : trimSpace r.tenant = asked.tenantId
  cluster : trimSpace r.clusterId = asked.clusterId
  start : Instant.parseRFC3339 (trimSpace r.start) = some asked.start
  stop : Instant.parseRFC3339 (trimSpace r.stop) = some asked.stop
  groupBy : asked.groupBy = if trimSpace r.groupBy = "" then "namespace" else trimSpace r.groupBy
  limit : trimSpace r.limit = "" ∨ ∃ n > 0, parseInt (trimSpace r.limit) = some n

namespace Asked

variable (asked : Asked) (kind : CursorKind)

/-- The query for a page. -/
def query (limit offset : ℤ) (includeQuality : Bool) : AnalyticsQuery where
  tenantId := asked.tenantId
  clusterId := asked.clusterId
  start := asked.start
  stop := asked.stop
  groupBy := asked.groupBy
  limit := limit
  offset := offset
  includeQuality := includeQuality

/-- The cursor of the rows from an offset on. -/
def cursor (offset : ℤ) : AnalyticsCursor where
  kind := kind.name
  tenantId := asked.tenantId
  clusterId := asked.clusterId
  start := asked.start.rfc3339
  stop := asked.stop.rfc3339
  groupBy := asked.groupBy
  offset := offset

/-- The offset that a request for the query has with a cursor. -/
def offset (value : String) : Except Problem ℤ :=
  requestOffset value kind asked.tenantId asked.clusterId asked.start asked.stop asked.groupBy

end Asked

/-! ### Requests that are accepted -/

section

variable {r : Request} {asked : Asked} {kind : CursorKind}

theorem parseRequiredTime_ok {value name : String} {t : Instant}
    (h : Instant.parseRFC3339 (trimSpace value) = some t) : parseRequiredTime value name = .ok t := by
  have hne : trimSpace value ≠ "" := by
    intro hempty
    rw [hempty, show Instant.parseRFC3339 "" = none by decide] at h
    cases h
  rw [parseRequiredTime, if_neg hne, h]

theorem Request.Asks.requestLimit (h : r.Asks asked) : ∃ limit > 0, requestLimit r.limit = .ok limit := by
  rcases h.limit with hnone | ⟨n, hn, hparse⟩
  · exact ⟨defaultAnalyticsLimit, by decide, by rw [Analytics.requestLimit, if_pos hnone]⟩
  · refine ⟨n, hn, ?_⟩
    have hne : trimSpace r.limit ≠ "" := by
      intro hempty
      rw [hempty, show parseInt "" = none by decide] at hparse
      cases hparse
    rw [Analytics.requestLimit, if_neg hne, hparse]
    exact if_neg (not_le.mpr hn)

/-- Only the cursor of a request that asks for a query can be refused. -/
theorem Request.Asks.analyticsQuery (h : r.Asks asked) : ∃ limit > 0, ∀ kind value,
    analyticsQuery kind { r with cursor := value } =
      (asked.offset kind value).map fun offset => asked.query limit offset (boolQuery r.includeQuality) := by
  obtain ⟨limit, hlimit, hrequest⟩ := h.requestLimit
  refine ⟨limit, hlimit, fun kind value => ?_⟩
  have htenant : authenticatedTenant { r with cursor := value } = .ok asked.tenantId := by
    rw [authenticatedTenant, h.trusted]
    simp [h.tenant, asked.tenantId_ne]
  rw [Analytics.analyticsQuery, htenant]
  simp only [parseRequiredTime_ok h.start, parseRequiredTime_ok h.stop, hrequest, ← h.groupBy, h.cluster]
  simp only [Except.mapError, bind, Except.bind, rejectIf, asked.ordered, asked.start_aligned,
    asked.stop_aligned, asked.groupBy_valid, not_true_eq_false, ne_eq, or_self, Bool.true_eq_false, if_false]
  rw [Asked.offset]
  cases requestOffset value kind asked.tenantId asked.clusterId asked.start asked.stop asked.groupBy with
  | error problem => rfl
  | ok offset => rfl

/-- What is made of a cursor that the service encoded. -/
theorem offset_encode {cursor : AnalyticsCursor} (hlow : 0 ≤ cursor.offset)
    (hhigh : cursor.offset < 9223372036854775808) :
    asked.offset kind (encodeAnalyticsCursor cursor) =
      if cursor = asked.cursor kind cursor.offset then .ok cursor.offset
      else .error (invalidRequest "cursor does not match query") := by
  rw [Asked.offset, requestOffset, trimSpace_encodeAnalyticsCursor, if_neg (encodeAnalyticsCursor_ne cursor),
    decodeAnalyticsCursor_encode hlow hhigh]
  have hsame : cursor = asked.cursor kind cursor.offset ↔ ¬ (cursor.tenantId ≠ asked.tenantId ∨
      cursor.kind ≠ kind.name ∨ cursor.clusterId ≠ asked.clusterId ∨ cursor.start ≠ asked.start.rfc3339 ∨
      cursor.stop ≠ asked.stop.rfc3339 ∨ cursor.groupBy ≠ asked.groupBy) := by
    obtain ⟨kind', tenantId, clusterId, start, stop, groupBy, offset⟩ := cursor
    simp only [Asked.cursor, AnalyticsCursor.mk.injEq, not_or, not_not]
    tauto
  simp only [hsame, ite_not]

theorem CursorKind.name_inj {kind kind' : CursorKind} (h : kind.name = kind'.name) : kind = kind' := by
  have hall : ∀ kind kind' : CursorKind, kind.name = kind'.name → kind = kind' := by
    rintro (_ | _ | _) (_ | _ | _) <;> decide
  exact hall kind kind' h

/-- The text of an aligned instant determines it. -/
theorem rfc3339_aligned_inj {s t : Instant} (hs : s.truncate Instant.hour = s)
    (ht : t.truncate Instant.hour = t) (h : s.rfc3339 = t.rfc3339) : s = t := by
  -- instants that are whole hours and in the same second
  have hwhole : ∀ m n : ℤ, m - (m - -62135596800 * 1000000000) % (3600 * 1000000000) = m →
      n - (n - -62135596800 * 1000000000) % (3600 * 1000000000) = n →
      m / 1000000000 = n / 1000000000 → m = n := by
    omega
  exact hwhole s t hs ht (Instant.rfc3339_inj h)

/-- The cursors of two queries, or of two endpoints, differ. -/
theorem Asked.cursor_inj {asked asked' : Asked} {kind kind' : CursorKind} {offset offset' : ℤ}
    (h : asked.cursor kind offset = asked'.cursor kind' offset') : kind = kind' ∧ asked = asked' := by
  simp only [Asked.cursor, AnalyticsCursor.mk.injEq] at h
  obtain ⟨hkind, htenant, hcluster, hstart, hstop, hgroupBy, _⟩ := h
  exact ⟨CursorKind.name_inj hkind, Asked.ext htenant hcluster
    (rfc3339_aligned_inj asked.start_aligned asked'.start_aligned hstart)
    (rfc3339_aligned_inj asked.stop_aligned asked'.stop_aligned hstop) hgroupBy⟩

/-- **The cursor of a query is accepted for it.** -/
theorem offset_encode_self {offset : ℕ} (hfits : offset < 9223372036854775808) :
    asked.offset kind (encodeAnalyticsCursor (asked.cursor kind offset)) = .ok (offset : ℤ) := by
  rw [offset_encode (by simp only [Asked.cursor]; omega) (by simp only [Asked.cursor]; omega)]
  exact if_pos rfl

/-- **The cursor of another query, or of another endpoint, is refused.** -/
theorem offset_encode_of_ne {asked' : Asked} {kind' : CursorKind} {offset : ℕ}
    (hfits : offset < 9223372036854775808) (hother : (kind', asked') ≠ (kind, asked)) :
    asked.offset kind (encodeAnalyticsCursor (asked'.cursor kind' offset)) =
      .error (invalidRequest "cursor does not match query") := by
  rw [offset_encode (by simp only [Asked.cursor]; omega) (by simp only [Asked.cursor]; omega)]
  apply if_neg
  intro hsame
  obtain ⟨rfl, rfl⟩ := Asked.cursor_inj hsame
  exact hother rfl

end

/-! ### Walks -/

/-- The result of a query: its length is an `int`. -/
abbrev Results (α : Type) := { rows : List α // rows.length < 9223372036854775808 }

section

variable {α : Type} (kind : CursorKind)

/-- The repository while the result of the query does not change. -/
def fixed (results : Results α) (query : AnalyticsQuery) : Option (List α) := some (page query results.1)

/-- A client follows the cursors from page `n` on, for at most `fuel` pages. It stops at a page
without one; what it returns is the pages and the cursor it is left with. -/
def walk (results : Results α) (requests : ℕ → Request) :
    ℕ → ℕ → String → Except Problem (List (Result α) × String)
  | 0, _, cursor => .ok ([], cursor)
  | fuel + 1, n, cursor => do
    let result ← endpoint (fixed results) kind { requests n with cursor := cursor }
    if result.nextCursor = "" then return ([result], "")
    let (pages, last) ← walk results requests fuel (n + 1) result.nextCursor
    return (result :: pages, last)

variable {kind} (results : Results α) {asked : Asked} {r : Request}

theorem endpoint_eq (repository : AnalyticsQuery → Option (List α)) (kind : CursorKind) :
    ∃ failure, endpoint repository kind = answer repository kind failure := by
  cases kind with
  | usage => exact ⟨_, rfl⟩
  | costs => exact ⟨_, rfl⟩
  | allocation => exact ⟨_, rfl⟩

theorem normalizedAnalyticsLimit_pos (limit : ℤ) : 0 < normalizedAnalyticsLimit limit := by
  unfold normalizedAnalyticsLimit defaultAnalyticsLimit maxAnalyticsLimit
  split
  · decide
  · split <;> omega

theorem page_query (limit : ℤ) (offset : ℕ) (quality : Bool) :
    page (asked.query limit offset quality) results.1 =
      (results.1.drop offset).take ((normalizedAnalyticsLimit limit).toNat + 1) := by
  have hpos := normalizedAnalyticsLimit_pos limit
  have hoffset : (normalizedAnalyticsOffset offset).toNat = offset := by
    rw [normalizedAnalyticsOffset, if_neg (by omega), Int.toNat_natCast]
  have hfetch : (normalizedAnalyticsFetchLimit limit).toNat = (normalizedAnalyticsLimit limit).toNat + 1 := by
    rw [normalizedAnalyticsFetchLimit]
    omega
  rw [← hfetch]
  nth_rewrite 2 [← hoffset]
  rfl

/-- **What a page is.** The rows from the offset on, as many as the limit, and a cursor behind
them if there are more. -/
theorem paginate_page (limit : ℤ) (offset : ℕ) (quality : Bool) :
    ∃ count : ℕ, 0 < count ∧
      paginate (page (asked.query limit offset quality) results.1) (asked.query limit offset quality) kind =
        ((results.1.drop offset).take count,
          if results.1.length ≤ offset + count then ""
          else encodeAnalyticsCursor (asked.cursor kind (offset + count : ℕ))) := by
  have hpos := normalizedAnalyticsLimit_pos limit
  obtain ⟨count, hcount⟩ := Int.eq_ofNat_of_zero_le hpos.le
  have hfits := results.2
  refine ⟨count, by omega, ?_⟩
  rw [page_query, hcount, Int.toNat_natCast, paginate]
  simp only [Asked.query, hcount, Int.toNat_natCast, List.length_take, List.length_drop, Nat.cast_le]
  by_cases hlast : results.1.length ≤ offset + count
  · rw [if_pos (by omega), if_pos hlast, List.take_of_length_le (by simp only [List.length_drop]; omega),
      List.take_of_length_le (by simp only [List.length_drop]; omega)]
  · have hnext : Instant.wrap64 ((offset : ℤ) + count) = (offset + count : ℕ) := by
      rw [Instant.wrap64]
      omega
    rw [if_neg (by omega), if_neg hlast, List.take_take, Nat.min_eq_left (Nat.le_succ count), hnext]
    rfl

/-- One step of a walk: at a cursor for an offset the endpoint answers with the page there. -/
theorem endpoint_page (h : r.Asks asked) {value : String} {offset : ℕ}
    (hcursor : asked.offset kind value = .ok offset) :
    ∃ result, endpoint (fixed results) kind { r with cursor := value } = .ok result ∧
      ∃ count : ℕ, 0 < count ∧ result.rows = (results.1.drop offset).take count ∧
        result.nextCursor = if results.1.length ≤ offset + count then ""
          else encodeAnalyticsCursor (asked.cursor kind (offset + count : ℕ)) := by
  obtain ⟨limit, _, hquery⟩ := h.analyticsQuery
  obtain ⟨failure, hendpoint⟩ := endpoint_eq (fixed results) kind
  obtain ⟨count, hcount, hpage⟩ := paginate_page results limit offset (boolQuery r.includeQuality)
  rw [hendpoint, answer, hquery kind value, hcursor]
  refine ⟨_, rfl, count, hcount, ?_, ?_⟩
  · exact congrArg Prod.fst hpage
  · exact congrArg Prod.snd hpage

theorem walk_from {requests : ℕ → Request} (hasks : ∀ n, (requests n).Asks asked) (fuel n : ℕ) {value : String}
    {offset : ℕ} (hcursor : asked.offset kind value = .ok offset)
    (hfuel : results.1.length < offset + fuel) (hoffset : offset ≤ results.1.length) :
    ∃ pages, walk kind results requests fuel n value = .ok (pages, "") ∧
      pages.flatMap (·.rows) = results.1.drop offset := by
  -- the rows behind the offset become fewer with every page
  induction fuel generalizing n value offset with
  | zero => omega
  | succ fuel ih =>
    obtain ⟨result, hresult, count, hcount, hrows, hnext⟩ := endpoint_page results (hasks n) hcursor
    rw [walk, hresult]
    by_cases hlast : results.1.length ≤ offset + count
    · rw [if_pos hlast] at hnext
      refine ⟨[result], by simp [bind, Except.bind, hnext, pure, Except.pure], ?_⟩
      rw [List.flatMap_singleton, hrows, List.take_of_length_le (by simp only [List.length_drop]; omega)]
    · rw [if_neg hlast] at hnext
      have hfits := results.2
      have haccepted : asked.offset kind result.nextCursor = .ok ((offset + count : ℕ) : ℤ) := by
        rw [hnext, offset_encode_self (by omega)]
      obtain ⟨pages, hpages, hrest⟩ := ih (n + 1) haccepted (by omega) (by omega)
      have hne : result.nextCursor ≠ "" := hnext ▸ encodeAnalyticsCursor_ne _
      refine ⟨result :: pages, by simp [bind, Except.bind, hne, hpages, pure, Except.pure], ?_⟩
      rw [List.flatMap_cons, hrest, hrows, ← List.drop_drop, List.take_append_drop]

theorem offset_nonneg {value : String} {offset : ℤ} (h : asked.offset kind value = .ok offset) :
    0 ≤ offset := by
  rw [Asked.offset, requestOffset] at h
  split at h
  · obtain rfl := Except.ok.inj h
    exact le_rfl
  · split at h
    · cases h
    · rename_i cursor hdecode
      split at h
      · cases h
      · obtain rfl := Except.ok.inj h
        -- a negative offset is not decoded
        simp only [decodeAnalyticsCursor, Option.bind_eq_bind, Option.bind_eq_some_iff] at hdecode
        obtain ⟨_, _, _, _, _, _, hif⟩ := hdecode
        split at hif
        · cases hif
        · obtain rfl := Option.some.inj hif
          omega

/-- The cursors that an endpoint makes for a query. -/
theorem endpoint_cursor (h : r.Asks asked) {result : Result α}
    (hresult : endpoint (fixed results) kind r = .ok result) (hne : result.nextCursor ≠ "") :
    ∃ offset : ℕ, offset < 9223372036854775808 ∧
      result.nextCursor = encodeAnalyticsCursor (asked.cursor kind offset) := by
  obtain ⟨limit, _, hquery⟩ := h.analyticsQuery
  cases hcursor : asked.offset kind r.cursor with
  | error problem =>
    obtain ⟨failure, hendpoint⟩ := endpoint_eq (fixed results) kind
    rw [hendpoint, answer, show r = { r with cursor := r.cursor } from rfl, hquery, hcursor] at hresult
    cases hresult
  | ok offset =>
    obtain ⟨offset, rfl⟩ := Int.eq_ofNat_of_zero_le (offset_nonneg hcursor)
    obtain ⟨result', hresult', count, _, _, hnext⟩ := endpoint_page results h hcursor
    obtain rfl : result = result' := Except.ok.inj (hresult.symm.trans hresult')
    have hfits := results.2
    split at hnext
    · exact absurd hnext hne
    · exact ⟨offset + count, by omega, hnext⟩

/-- **Pagination is complete and exact.** Following the cursors of any of the endpoints, with
any positive limit on each page, ends after finitely many pages; every cursor on the way is
accepted, and the pages make up the result. A cursor that was made for another query, or by
another endpoint, is refused. -/
theorem pagination_exact {β : Type} (kind : CursorKind) (asked : Asked) (requests : ℕ → Request)
    (hasks : ∀ n, (requests n).Asks asked) :
    (∃ pages, walk kind results requests (results.1.length + 1) 0 "" = .ok (pages, "") ∧
      pages.flatMap (·.rows) = results.1) ∧
    ∀ (other : Results β) (kind' : CursorKind) (asked' : Asked) (r : Request) (result : Result β),
      r.Asks asked' → endpoint (fixed other) kind' r = .ok result → result.nextCursor ≠ "" →
      (kind', asked') ≠ (kind, asked) → ∀ n,
        analyticsQuery kind { requests n with cursor := result.nextCursor } =
          .error (invalidRequest "cursor does not match query") := by
  constructor
  · obtain ⟨pages, hwalk, hrows⟩ := walk_from results hasks (results.1.length + 1) 0
      (show asked.offset kind "" = .ok ((0 : ℕ) : ℤ) from rfl) (by omega) (by omega)
    exact ⟨pages, hwalk, hrows⟩
  · intro other kind' asked' r result hr hresult hne hother n
    obtain ⟨offset, hfits, hcursor⟩ := endpoint_cursor other hr hresult hne
    obtain ⟨limit, _, hquery⟩ := (hasks n).analyticsQuery
    rw [hquery, hcursor, offset_encode_of_ne hfits hother]
    rfl

end

/-- A day of a tenant's namespaces, two on the first page and one on each later page. -/
def januaryRequest (n : ℕ) : Request where
  tenant := "tenant-a"
  start := "2026-01-01T00:00:00Z"
  stop := "2026-01-02T00:00:00Z"
  limit := if n = 0 then "2" else "1"

def januaryAsked : Asked where
  tenantId := "tenant-a"
  clusterId := ""
  start := 1767225600000000000
  stop := 1767312000000000000
  groupBy := "namespace"
  tenantId_ne := by decide
  ordered := by decide
  start_aligned := by decide
  stop_aligned := by decide
  groupBy_valid := by decide

theorem januaryRequest_asks (n : ℕ) : (januaryRequest n).Asks januaryAsked where
  trusted := rfl
  tenant := show trimSpace "tenant-a" = "tenant-a" by decide
  cluster := show trimSpace "" = "" by decide
  start := show Instant.parseRFC3339 (trimSpace "2026-01-01T00:00:00Z") = some 1767225600000000000 by
    decide +kernel
  stop := show Instant.parseRFC3339 (trimSpace "2026-01-02T00:00:00Z") = some 1767312000000000000 by
    decide +kernel
  groupBy := rfl
  limit := by
    right
    rw [januaryRequest]
    split
    · exact ⟨2, by decide, by decide⟩
    · exact ⟨1, by decide, by decide⟩

def threeNamespaces : Results String := ⟨["payments", "search", "web"], by decide⟩

/-- The first page of the costs; its cursor is the base64 of the JSON object with the kind
`costs`, the tenant, the range, the grouping and the offset 2. -/
def firstPage : Result String where
  tenantId := "tenant-a"
  clusterId := ""
  start := 1767225600000000000
  stop := 1767312000000000000
  groupBy := "namespace"
  rows := ["payments", "search"]
  resultCount := 2
  limit := 2
  nextCursor := "eyJraW5kIjoiY29zdHMiLCJ0ZW5hbnRfaWQiOiJ0ZW5hbnQtYSIsInN0YXJ0IjoiMjAyNi0wMS0w" ++
    "MVQwMDowMDowMFoiLCJlbmQiOiIyMDI2LTAxLTAyVDAwOjAwOjAwWiIsImdyb3VwX2J5IjoibmFtZXNwYWNlIiwi" ++
    "b2Zmc2V0IjoyfQ"

theorem pagination_exact_january :
    (∃ pages, walk .usage threeNamespaces januaryRequest 4 0 "" = .ok (pages, "") ∧
      pages.flatMap (·.rows) = ["payments", "search", "web"]) ∧
    endpoint (fixed threeNamespaces) .costs (januaryRequest 0) = .ok firstPage ∧
    analyticsQuery .usage { januaryRequest 1 with cursor := firstPage.nextCursor } =
      .error (invalidRequest "cursor does not match query") := by
  have hfirst : endpoint (fixed threeNamespaces) .costs (januaryRequest 0) = .ok firstPage := by
    decide +kernel
  obtain ⟨hwalk, hother⟩ := pagination_exact threeNamespaces .usage januaryAsked januaryRequest
    januaryRequest_asks
  exact ⟨hwalk, hfirst, hother threeNamespaces .costs januaryAsked (januaryRequest 0) firstPage
    (januaryRequest_asks 0) hfirst (by decide +kernel) (by simp) 1⟩

end Analytics
end KubeCost
