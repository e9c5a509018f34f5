/-
# The inventory tables and their current views

`deploy/clickhouse/migrations/001_inventory_dimensions.sql` and
`007_inventory_event_operations.sql`. An inventory table is a
`ReplacingMergeTree(version)`: under `FINAL` it shows, of the rows that agree on
the `ORDER BY` columns, the one of the greatest version. The times are
`DateTime64(3)`, so a stored time is cut to the millisecond. A view `current_…`
takes the latest row of each entity and keeps it if its operation is `upsert`.
The time after which a row is deleted, 25 months for pods and containers and seven
years for the other kinds, is left out.

`mapPayload_columns` says what the columns that the tables and the views look at
hold, for all six kinds at once: the sorting key is the identity of the object,
the time and the event. `mapPayload_stored` says that a stored row does not depend
on the part of the time below the millisecond.
-/
import Mathlib.Data.Prod.Lex
import Mathlib.Data.String.Basic
import KubeCost.Replacing
import KubeCost.Ingestion.Repository

namespace KubeCost

/-- A time as a `DateTime64(3)` column has it. -/
def Timestamp.truncate (t : Timestamp) : Timestamp := ⟨t.seconds, t.nanos / 1000000 * 1000000⟩

/-- Milliseconds since the epoch. -/
def Timestamp.millis (t : Timestamp) : ℤ := t.seconds * 1000 + t.nanos / 1000000

theorem Timestamp.millis_truncate (t : Timestamp) : t.truncate.millis = t.millis := by
  simp only [Timestamp.truncate, Timestamp.millis]
  omega

namespace Ingestion

open Replacing

/-! ### Stored rows -/

def Value.stored : Value → Value
  | .time t => .time t.truncate
  | value => value

/-- The row as the table has it. -/
def MappedRow.stored (row : MappedRow) : MappedRow :=
  { row with values := row.values.map Value.stored }

/-- The value of a column. -/
def MappedRow.value (row : MappedRow) (column : String) : Value :=
  ((row.columns.zip row.values).lookup column).getD .null

/-- `ORDER BY` of the inventory tables. -/
def orderBy (table : String) : List String :=
  match table with
  | "cluster" => ["tenant_id", "cluster_id", "valid_from", "event_id"]
  | "namespace" => ["tenant_id", "cluster_id", "namespace_uid", "valid_from", "event_id"]
  | "deployment" =>
    ["tenant_id", "cluster_id", "namespace_uid", "deployment_uid", "valid_from", "event_id"]
  | "pod" => ["tenant_id", "cluster_id", "namespace_uid", "pod_uid", "valid_from", "event_id"]
  | "container" =>
    ["tenant_id", "cluster_id", "namespace_uid", "pod_uid", "container_name", "valid_from", "event_id"]
  | "node" => ["tenant_id", "cluster_id", "node_uid", "valid_from", "event_id"]
  | _ => []

/-- `PARTITION BY` of the current views. -/
def partitionBy (table : String) : List String :=
  match table with
  | "cluster" => ["tenant_id", "cluster_id"]
  | "namespace" => ["tenant_id", "cluster_id", "namespace_uid"]
  | "deployment" => ["tenant_id", "cluster_id", "deployment_uid"]
  | "pod" => ["tenant_id", "cluster_id", "pod_uid"]
  | "container" => ["tenant_id", "cluster_id", "pod_uid", "container_name"]
  | "node" => ["tenant_id", "cluster_id", "node_uid"]
  | _ => []

def MappedRow.sortingKey (row : MappedRow) : String × List Value :=
  (row.table, (orderBy row.table).map row.value)

def MappedRow.entity (row : MappedRow) : String × List Value :=
  (row.table, (partitionBy row.table).map row.value)

def MappedRow.version (row : MappedRow) : ℕ :=
  match row.value "version" with
  | .uint64 n => n
  | _ => 0

def MappedRow.observedAt (row : MappedRow) : ℤ :=
  match row.value "observed_at" with
  | .time t => t.millis
  | _ => 0

def MappedRow.eventId (row : MappedRow) : String :=
  match row.value "event_id" with
  | .uuid u => u
  | _ => ""

def byVersion (a b : MappedRow) : Bool := a.version ≤ b.version

/-- What the views order by: `observed_at`, then `version`, then `event_id`. -/
def MappedRow.rank (row : MappedRow) : ℤ ×ₗ ℕ ×ₗ String :=
  toLex (row.observedAt, toLex (row.version, row.eventId))

def byObservation (a b : MappedRow) : Bool := a.rank ≤ b.rank

/-- `SELECT … FROM table FINAL`; `rows` are what was inserted, in order. -/
def selectFinal (rows : List MappedRow) (table : String) : List MappedRow :=
  final MappedRow.sortingKey byVersion ((rows.filter (·.table = table)).map MappedRow.stored)

/-- The view `current_…` of a table. -/
def current (rows : List MappedRow) (table : String) : List MappedRow :=
  (final MappedRow.entity byObservation (selectFinal rows table)).filter
    (·.value "operation" = .string "upsert")

theorem byVersion_trans (a b c : MappedRow) (hab : byVersion a b = true)
    (hbc : byVersion b c = true) : byVersion a c = true := by
  simp only [byVersion, decide_eq_true_eq] at hab hbc ⊢
  exact hab.trans hbc

theorem byVersion_total (a b : MappedRow) : byVersion a b = true ∨ byVersion b a = true := by
  simp only [byVersion, decide_eq_true_eq]
  exact le_total _ _

theorem byObservation_trans (a b c : MappedRow) (hab : byObservation a b = true)
    (hbc : byObservation b c = true) : byObservation a c = true := by
  simp only [byObservation, decide_eq_true_eq] at hab hbc ⊢
  exact hab.trans hbc

theorem byObservation_total (a b : MappedRow) :
    byObservation a b = true ∨ byObservation b a = true := by
  simp only [byObservation, decide_eq_true_eq]
  exact le_total _ _

/-! ### The row of an observation -/

/-- The time of an observation's row: its own, or the receipt time. -/
def observedAtOf (received : Timestamp) (observation : Observation) : Timestamp :=
  match observation.observedAt with
  | some t => if t.isValid then t else received
  | none => received

def rowBase (batch : Batch) (observation : Observation) : RowBase :=
  ⟨batch.tenantId, batch.clusterId, observedAtOf batch.receivedAt observation,
    Hash.uuidSHA1 observation.eventId, observation.sequence⟩

/-- The kinds of `mapObservation`. -/
def mapPayload (base : RowBase) (payload : Option Payload) : Except String (Option MappedRow) :=
  match payload with
  | some (.clusterInventory inventory) => mapCluster base inventory
  | some (.nodeInventory inventory) => mapNode base inventory
  | some (.namespaceInventory inventory) => mapNamespace base inventory
  | some (.deploymentInventory inventory) => mapDeployment base inventory
  | some (.podInventory inventory) => mapPod base inventory
  | some (.containerInventory inventory) => mapContainer base inventory
  | _ => .ok none

theorem mapObservation_eq_ok {batch : Batch} {o : Observation} {r : Option MappedRow} :
    mapObservation batch o = .ok r ↔
      (batch.tenantId ≠ "" ∧ batch.clusterId ≠ "" ∧ o.eventId ≠ "" ∧ o.sequence ≠ 0) ∧
        mapPayload (rowBase batch o) o.payload = .ok r := by
  unfold mapObservation
  simp only [Bool.or_eq_true, decide_eq_true_eq, or_assoc]
  split
  · rename_i h
    refine ⟨fun h' => (nomatch h'), fun h' => ?_⟩
    obtain ⟨⟨ht, hc, he, hs⟩, -⟩ := h'
    rcases h with h | h | h | h
    · exact absurd h ht
    · exact absurd h hc
    · exact absurd h he
    · exact absurd h hs
  · rename_i h
    simp only [not_or] at h
    exact ⟨fun h' => ⟨h, h'⟩, fun h' => h'.2⟩

/-- The table of a kind and the columns of its sorting key that name the object. -/
def identity : Payload → String × List Value
  | .clusterInventory _ => ("cluster", [])
  | .nodeInventory i => ("node", [.string (getMetadata i.metadata).uid])
  | .namespaceInventory i => ("namespace", [.string (getMetadata i.metadata).uid])
  | .deploymentInventory i =>
    ("deployment", [.string (firstNonEmpty [i.namespaceUid, (getMetadata i.metadata).namespace]),
      .string (getMetadata i.metadata).uid])
  | .podInventory i =>
    ("pod", [.string (firstNonEmpty [i.namespaceUid, (getMetadata i.metadata).namespace]),
      .string (getMetadata i.metadata).uid])
  | .containerInventory i =>
    ("container", [.string (firstNonEmpty [i.namespaceUid, i.namespace]), .string i.podUid,
      .string i.containerName])
  | _ => ("", [])

theorem isInventory_iff {payload : Payload} : payload.isInventory = true ↔ (identity payload).1 ≠ "" := by
  cases payload <;> simp [Payload.isInventory, identity]

/-- The table of a kind and the columns by which its view tells entities apart. -/
def entityOf : Payload → String × List Value
  | .clusterInventory _ => ("cluster", [])
  | .nodeInventory i => ("node", [.string (getMetadata i.metadata).uid])
  | .namespaceInventory i => ("namespace", [.string (getMetadata i.metadata).uid])
  | .deploymentInventory i => ("deployment", [.string (getMetadata i.metadata).uid])
  | .podInventory i => ("pod", [.string (getMetadata i.metadata).uid])
  | .containerInventory i => ("container", [.string i.podUid, .string i.containerName])
  | _ => ("", [])

/-- What the tables and the views look at in a stored row. -/
structure Columns (base : RowBase) (payload : Payload) (row : MappedRow) : Prop where
  table : row.table = (identity payload).1
  sortingKey : row.stored.sortingKey = ((identity payload).1,
    .string base.tenantId :: .string base.clusterId :: ((identity payload).2 ++
      [.time base.observedAt.truncate, .uuid base.eventId]))
  entity : row.stored.entity = ((entityOf payload).1,
    .string base.tenantId :: .string base.clusterId :: (entityOf payload).2)
  version : row.stored.version = base.version
  observedAt : row.stored.observedAt = base.observedAt.millis
  eventId : row.stored.eventId = base.eventId
  operation : ∃ operation, operationName (Payload.record payload) = .ok operation ∧
    row.stored.value "operation" = .string operation

/-- **The columns that matter**, for a row of any kind. -/
theorem mapPayload_columns {base : RowBase} {payload : Payload} {row : MappedRow}
    (h : mapPayload base (some payload) = .ok (some row)) : Columns base payload row := by
  have htime : ∀ t : Timestamp, t.truncate.millis = t.millis := Timestamp.millis_truncate
  cases payload <;> simp only [mapPayload, Except.ok.injEq, reduceCtorEq] at h
  · obtain ⟨operation, hop, h⟩ := bind_eq_ok.mp h
    cases h
    exact ⟨rfl, rfl, rfl, rfl, htime _, rfl, operation, hop, rfl⟩
  all_goals
    obtain ⟨operation, hop, h⟩ := bind_eq_ok.mp h
    obtain ⟨-, h⟩ := check_bind_ok.mp h
    cases h
    exact ⟨rfl, rfl, rfl, rfl, htime _, rfl, operation, hop, rfl⟩

/-- Rows of one cluster share the sorting key when they are about one object, at one
millisecond, from one event. -/
theorem Columns.sortingKey_eq_iff {base base' : RowBase} {p p' : Payload} {row row' : MappedRow}
    (h : Columns base p row) (h' : Columns base' p' row')
    (htenant : base.tenantId = base'.tenantId) (hcluster : base.clusterId = base'.clusterId) :
    row.stored.sortingKey = row'.stored.sortingKey ↔ identity p = identity p' ∧
      base.observedAt.truncate = base'.observedAt.truncate ∧ base.eventId = base'.eventId := by
  rw [h.sortingKey, h'.sortingKey, htenant, hcluster, Prod.mk.injEq, List.cons.injEq,
    List.cons.injEq, Prod.ext_iff]
  simp only [true_and, and_assoc]
  refine and_congr_right fun _ => ⟨fun heq => ?_, fun ⟨hid, ht, he⟩ => by rw [hid, ht, he]⟩
  obtain ⟨hid, hlast⟩ := List.append_inj' heq rfl
  simp only [List.cons.injEq, Value.time.injEq, Value.uuid.injEq, and_true] at hlast
  exact ⟨hid, hlast⟩

/-- **A stored row does not see below the millisecond.** -/
theorem mapPayload_stored {base base' : RowBase} {payload : Option Payload} {row row' : MappedRow}
    (htenant : base.tenantId = base'.tenantId) (hcluster : base.clusterId = base'.clusterId)
    (htime : base.observedAt.truncate = base'.observedAt.truncate)
    (hevent : base.eventId = base'.eventId) (hversion : base.version = base'.version)
    (h : mapPayload base payload = .ok (some row))
    (h' : mapPayload base' payload = .ok (some row')) : row.stored = row'.stored := by
  rcases payload with _ | payload
  · cases h
  cases payload <;> simp only [mapPayload, Except.ok.injEq, reduceCtorEq] at h h'
  · obtain ⟨operation, hop, h⟩ := bind_eq_ok.mp h
    obtain ⟨operation', hop', h'⟩ := bind_eq_ok.mp h'
    rw [hop] at hop'
    cases hop'
    cases h
    cases h'
    simp only [MappedRow.stored, List.map_cons, List.map_nil, Value.stored, htenant, hcluster,
      htime, hevent, hversion]
  all_goals
    obtain ⟨operation, hop, h⟩ := bind_eq_ok.mp h
    obtain ⟨operation', hop', h'⟩ := bind_eq_ok.mp h'
    obtain ⟨-, h⟩ := check_bind_ok.mp h
    obtain ⟨-, h'⟩ := check_bind_ok.mp h'
    rw [hop] at hop'
    cases hop'
    cases h
    cases h'
    simp only [MappedRow.stored, List.map_cons, List.map_nil, Value.stored, htenant, hcluster,
      htime, hevent, hversion]

end Ingestion
end KubeCost
