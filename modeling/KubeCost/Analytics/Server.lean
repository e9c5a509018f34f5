/-
# The analytics endpoints

`services/query/server.go`: what `analyticsQuery` makes of a request, how `paginate` cuts
the rows of the repository to a page and makes the cursor of the next one, and the
endpoints of usage, costs and allocation. The cursor is JSON in base64, and what was
encoded is decoded (`decodeAnalyticsCursor_encode`).

The verdict of `trustedGateway` on a request is an input here; `Gateway.Auth` has the check
of the signature.
-/
import KubeCost.Analytics.Repository
import KubeCost.Base64
import KubeCost.Checks
import KubeCost.Gateway.Auth
import KubeCost.Json
import KubeCost.Rfc3339

namespace KubeCost
namespace Analytics

/-! ### Requests -/

/-- What `writeProblem` answers. -/
structure Problem where
  status : ℕ
  code : String
  detail : String
deriving DecidableEq

def invalidRequest (detail : String) : Problem := ⟨400, "invalid_request", detail⟩

/-- The parts of a request that the endpoints read: why the gateway is not trusted, if it is
not, the header of the tenant, and for each name what `values.Get` gives. -/
structure Request where
  untrusted : Option String := none
  tenant : String
  clusterId : String := ""
  start : String
  stop : String
  groupBy : String := ""
  limit : String := ""
  cursor : String := ""
  includeQuality : String := ""
deriving DecidableEq

def authenticatedTenant (r : Request) : Except Problem String :=
  match r.untrusted with
  | some reason => .error ⟨403, "forbidden", reason⟩
  | none =>
    if trimSpace r.tenant = "" then
      .error ⟨401, "unauthenticated", Gateway.tenantHeader ++ " is required"⟩
    else .ok (trimSpace r.tenant)

def parseRequiredTime (value name : String) : Except String Instant :=
  if trimSpace value = "" then .error (name ++ " is required")
  else match Instant.parseRFC3339 (trimSpace value) with
    | none => .error (name ++ " must be an RFC3339 timestamp")
    | some parsed => .ok parsed

def validAnalyticsGroupBy (groupBy : String) : Bool :=
  groupBy ∈ ["namespace", "cluster", "team", "project", "environment", "cost_center"]

/-- The case of a letter that is not of ASCII cannot make one of the words. -/
def boolQuery (value : String) : Bool := (trimSpace value).toLower ∈ ["true", "1", "yes"]

/-! ### Cursors -/

inductive CursorKind where
  | usage
  | costs
  | allocation
deriving DecidableEq

/-- `usageCursorKind`, `costsCursorKind` and `allocationCursorKind`. -/
def CursorKind.name : CursorKind → String
  | .usage => "usage"
  | .costs => "costs"
  | .allocation => "allocation"

structure AnalyticsCursor where
  kind : String := ""
  tenantId : String := ""
  clusterId : String := ""
  start : String := ""
  stop : String := ""
  groupBy : String := ""
  offset : ℤ := 0
deriving DecidableEq

namespace AnalyticsCursor

/-- The members of the JSON of a cursor: an empty cluster is left out. -/
def members (cursor : AnalyticsCursor) : List (String × Json.Scalar) :=
  [("kind", .text cursor.kind), ("tenant_id", .text cursor.tenantId)] ++
  (if cursor.clusterId = "" then [] else [("cluster_id", .text cursor.clusterId)]) ++
  [("start", .text cursor.start), ("end", .text cursor.stop), ("group_by", .text cursor.groupBy),
    ("offset", .int cursor.offset)]

/-- Where the members are stored. -/
def fields : List (String × (AnalyticsCursor → Json.Value → Option AnalyticsCursor)) :=
  [("kind", fun c v => (v.storeString c.kind).map fun s => { c with kind := s }),
   ("tenant_id", fun c v => (v.storeString c.tenantId).map fun s => { c with tenantId := s }),
   ("cluster_id", fun c v => (v.storeString c.clusterId).map fun s => { c with clusterId := s }),
   ("start", fun c v => (v.storeString c.start).map fun s => { c with start := s }),
   ("end", fun c v => (v.storeString c.stop).map fun s => { c with stop := s }),
   ("group_by", fun c v => (v.storeString c.groupBy).map fun s => { c with groupBy := s }),
   ("offset", fun c v => (v.storeInt c.offset).map fun n => { c with offset := n })]

end AnalyticsCursor

def encodeAnalyticsCursor (cursor : AnalyticsCursor) : String :=
  Base64.encode (utf8 (Json.object cursor.members))

def decodeAnalyticsCursor (value : String) : Option AnalyticsCursor := do
  let data ← Base64.decode value
  let cursor ← Json.unmarshal AnalyticsCursor.fields {} (← Json.parse data)
  if cursor.offset < 0 then none else some cursor

/-- What is stored of a cursor's own members is the cursor. -/
theorem AnalyticsCursor.unmarshal_members {cursor : AnalyticsCursor}
    (hlow : -9223372036854775808 ≤ cursor.offset) (hhigh : cursor.offset < 9223372036854775808) :
    Json.unmarshal fields {} (.object (cursor.members.map fun p => (p.1, p.2.value))) = some cursor := by
  have hoffset := parseInt_formatInt hlow hhigh
  obtain ⟨kind, tenantId, clusterId, start, stop, groupBy, offset⟩ := cursor
  -- an empty cluster is not written, and the cursor that is stored to has none
  by_cases hcluster : clusterId = ""
  · subst hcluster
    simp [Json.unmarshal, members, fields, Json.field, Json.Scalar.value, Json.Value.storeString,
      Json.Value.storeInt, hoffset]
  · simp [Json.unmarshal, members, fields, Json.field, hcluster, Json.Scalar.value,
      Json.Value.storeString, Json.Value.storeInt, hoffset]

/-- **A cursor that was encoded is decoded.** -/
theorem decodeAnalyticsCursor_encode {cursor : AnalyticsCursor} (hlow : 0 ≤ cursor.offset)
    (hhigh : cursor.offset < 9223372036854775808) :
    decodeAnalyticsCursor (encodeAnalyticsCursor cursor) = some cursor := by
  have hstored := AnalyticsCursor.unmarshal_members (Int.le_trans (by decide) hlow) hhigh
  simp only [decodeAnalyticsCursor, encodeAnalyticsCursor, Base64.decode_encode, Json.parse_object,
    hstored, Option.bind_eq_bind, Option.bind_some]
  rw [if_neg (by omega)]

theorem trimSpace_encodeAnalyticsCursor (cursor : AnalyticsCursor) :
    trimSpace (encodeAnalyticsCursor cursor) = encodeAnalyticsCursor cursor :=
  Base64.trimSpace_encode _

theorem encodeAnalyticsCursor_ne (cursor : AnalyticsCursor) : encodeAnalyticsCursor cursor ≠ "" := by
  apply Base64.encode_ne
  intro hempty
  have hrunes := Json.runes_utf8 (Json.object cursor.members)
  rw [hempty, Json.runes, Json.object, String.toList_ofList] at hrunes
  exact List.cons_ne_nil _ _ hrunes.symm

/-! ### Queries -/

/-- The limit that a request asks for. -/
def requestLimit (value : String) : Except Problem ℤ :=
  if trimSpace value = "" then .ok defaultAnalyticsLimit
  else match parseInt (trimSpace value) with
    | none => .error (invalidRequest "limit must be a positive integer")
    | some parsed =>
      if parsed ≤ 0 then .error (invalidRequest "limit must be a positive integer") else .ok parsed

/-- The offset that the cursor of a request has, which must be one of the query. -/
def requestOffset (value : String) (kind : CursorKind) (tenantId clusterId : String) (start stop : Instant)
    (groupBy : String) : Except Problem ℤ :=
  if trimSpace value = "" then .ok 0
  else match decodeAnalyticsCursor (trimSpace value) with
    | none => .error (invalidRequest "cursor is invalid")
    | some cursor =>
      if cursor.tenantId ≠ tenantId ∨ cursor.kind ≠ kind.name ∨ cursor.clusterId ≠ clusterId ∨
          cursor.start ≠ start.rfc3339 ∨ cursor.stop ≠ stop.rfc3339 ∨ cursor.groupBy ≠ groupBy then
        .error (invalidRequest "cursor does not match query")
      else .ok cursor.offset

/-- `analyticsQuery`. -/
def analyticsQuery (kind : CursorKind) (r : Request) : Except Problem AnalyticsQuery := do
  let tenantId ← authenticatedTenant r
  let start ← (parseRequiredTime r.start "start").mapError invalidRequest
  let stop ← (parseRequiredTime r.stop "end").mapError invalidRequest
  rejectIf (¬ start < stop) (invalidRequest "start must be before end")
  rejectIf (start.truncate Instant.hour ≠ start ∨ stop.truncate Instant.hour ≠ stop)
    (invalidRequest "start and end must be aligned to whole hours")
  let groupBy := if trimSpace r.groupBy = "" then "namespace" else trimSpace r.groupBy
  rejectIf (validAnalyticsGroupBy groupBy = false)
    (invalidRequest "group_by must be one of namespace, cluster, team, project, environment, cost_center")
  let limit ← requestLimit r.limit
  let offset ← requestOffset r.cursor kind tenantId (trimSpace r.clusterId) start stop groupBy
  return {
    tenantId := tenantId
    clusterId := trimSpace r.clusterId
    start := start
    stop := stop
    groupBy := groupBy
    limit := limit
    offset := offset
    includeQuality := boolQuery r.includeQuality }

/-! ### Pages -/

/-- `paginate`: the page and the cursor of the next one. -/
def paginate {α : Type*} (rows : List α) (query : AnalyticsQuery) (kind : CursorKind) : List α × String :=
  let limit := normalizedAnalyticsLimit query.limit
  if (rows.length : ℤ) ≤ limit then (rows, "")
  else (rows.take limit.toNat, encodeAnalyticsCursor {
    kind := kind.name
    tenantId := query.tenantId
    clusterId := query.clusterId
    start := query.start.rfc3339
    stop := query.stop.rfc3339
    groupBy := query.groupBy
    offset := Instant.wrap64 (query.offset + limit) })

/-- The part that `UsageResult`, `CostResult` and `AllocationResult` have in common. -/
structure Result (α : Type*) where
  tenantId : String
  clusterId : String
  start : Instant
  stop : Instant
  groupBy : String
  rows : List α
  resultCount : ℕ
  limit : ℤ
  nextCursor : String
deriving DecidableEq

section

variable {α : Type} (repository : AnalyticsQuery → Option (List α))

/-- What the three endpoints do with a request and what their repository answers. -/
def answer (kind : CursorKind) (failure : String) (r : Request) : Except Problem (Result α) := do
  let query ← analyticsQuery kind r
  match repository query with
  | none => throw ⟨500, "query_failed", failure⟩
  | some rows =>
    let (rows, nextCursor) := paginate rows query kind
    return {
      tenantId := query.tenantId
      clusterId := query.clusterId
      start := query.start
      stop := query.stop
      groupBy := query.groupBy
      rows := rows
      resultCount := rows.length
      limit := normalizedAnalyticsLimit query.limit
      nextCursor := nextCursor }

def usage (r : Request) : Except Problem (Result α) := answer repository .usage "usage query failed" r

def costs (r : Request) : Except Problem (Result α) := answer repository .costs "cost query failed" r

def allocation (r : Request) : Except Problem (Result α) :=
  answer repository .allocation "allocation query failed" r

/-- The endpoint that has cursors of a kind. -/
def endpoint : CursorKind → Request → Except Problem (Result α)
  | .usage => usage repository
  | .costs => costs repository
  | .allocation => allocation repository

end

end Analytics
end KubeCost
