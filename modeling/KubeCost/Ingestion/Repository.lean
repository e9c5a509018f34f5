/-
# Persisting batches into the inventory tables

`services/ingestion/persistence/repository.go`. `Repository.Persist` maps every
observation of the leased batches to a row of its kind's table
(`mapObservation`; metrics and events map to none), groups the rows by table
and inserts one group after the other, tables in name order. Nothing is
inserted when an observation is invalid; a failed insert stops the rest.

Key theorems: `persist_stored` (after a nil error every mapped row is stored)
and `mapObservation_inventory` (an inventory observation that maps at all maps
to a row).
-/
import Mathlib.Algebra.Ring.Nat
import Mathlib.Algebra.Ring.Int.Defs
import Mathlib.Data.String.Basic
import Mathlib.Data.List.Dedup
import KubeCost.Checks
import KubeCost.Text
import KubeCost.Ingestion.Queue

namespace KubeCost
namespace Ingestion

/-- A value of a row (`any` in the source): what the columns hold. -/
inductive Value
  | string (s : String)
  | uint64 (n : ℕ)
  | uint32 (n : ℕ)
  | time (t : Timestamp)
  | map (labels : Labels)
  | uuid (u : String)
  | null
deriving DecidableEq

structure MappedRow where
  table : String
  columns : List String
  values : List Value
deriving DecidableEq

/-! ### Conversions -/

/-- `nullableTime`: null for a missing or invalid timestamp. -/
def nullableTime (t : Option Timestamp) : Value :=
  match t with
  | some t => if t.isValid then .time t else .null
  | none => .null

def nonNegative (value : ℤ) : ℕ := if value ≤ 0 then 0 else value.toNat

def nonNegative32 (value : ℤ) : ℕ := if value ≤ 0 then 0 else value.toNat

/-- `gpuMilli`: thousandths, saturating at the largest `uint64`. -/
def gpuMilli (value : ℤ) : ℕ :=
  if value ≤ 0 then 0
  else if value > (2 ^ 64 - 1) / 1000 then 2 ^ 64 - 1
  else value.toNat * 1000

/-- `firstLabel`: the first of the keys with a non-blank value, trimmed. -/
def firstLabel (labels : Labels) (keys : List String) : String :=
  ((keys.map fun key => trimSpace (labelOf labels key)).find? (· != "")).getD ""

/-- `firstNonEmpty`: the first value that is not blank, as it stands. -/
def firstNonEmpty (values : List String) : String :=
  (values.find? fun value => trimSpace value != "").getD ""

structure Dimensions where
  team : String
  project : String
  environment : String
  costCenter : String

def promotedDimensions (labels : Labels) : Dimensions where
  team := firstLabel labels ["team", "app.kubernetes.io/team"]
  project := firstLabel labels ["project", "app.kubernetes.io/part-of"]
  environment := firstLabel labels ["environment", "env"]
  costCenter := firstLabel labels ["cost-center", "cost_center"]

/-! ### Rows -/

/-- An error that wraps `ErrInvalidInventory`. -/
def invalidInventory (detail : String) : String := "invalid inventory observation: " ++ detail

def operationName (record : Option InventoryRecord) : Except String String :=
  match getOperation record with
  | .upsert => .ok "upsert"
  | .delete => .ok "delete"
  | _ => .error (invalidInventory "inventory operation is required")

/-- What every inventory row starts from. -/
structure RowBase where
  tenantId : String
  clusterId : String
  observedAt : Timestamp
  eventId : String
  version : ℕ

def mapCluster (base : RowBase) (inventory : ClusterInventory) : Except String (Option MappedRow) := do
  let operation ← operationName inventory.record
  return some {
    table := "cluster"
    columns := ["tenant_id", "cluster_id", "cluster_name", "provider", "account_id",
      "region", "kubernetes_version", "labels", "operation", "valid_from",
      "valid_to", "observed_at", "event_id", "version"]
    values := [.string base.tenantId, .string base.clusterId, .string inventory.name,
      .string inventory.provider, .string inventory.accountId, .string inventory.region,
      .string inventory.kubernetesVersion, .map inventory.labels, .string operation,
      .time base.observedAt, .null, .time base.observedAt, .uuid base.eventId,
      .uint64 base.version] }

def mapNode (base : RowBase) (inventory : NodeInventory) : Except String (Option MappedRow) := do
  let operation ← operationName inventory.record
  let metadata := getMetadata inventory.metadata
  rejectIf (metadata.uid = "") (invalidInventory "node UID is required")
  let capacity := getResources inventory.capacity
  let allocatable := getResources inventory.allocatable
  return some {
    table := "node"
    columns := ["tenant_id", "cluster_id", "node_uid", "node_name", "provider_id",
      "instance_type", "architecture", "operating_system", "region", "zone",
      "purchase_option", "capacity_cpu_millicores", "allocatable_cpu_millicores",
      "capacity_memory_bytes", "allocatable_memory_bytes", "capacity_gpu_milli",
      "labels", "operation", "valid_from", "valid_to", "observed_at", "event_id", "version"]
    values := [.string base.tenantId, .string base.clusterId, .string metadata.uid,
      .string metadata.name, .string inventory.providerId, .string inventory.instanceType,
      .string inventory.architecture, .string inventory.operatingSystem, .string inventory.region,
      .string inventory.zone, .string inventory.capacityType,
      .uint64 (nonNegative capacity.getCpuMillicores),
      .uint64 (nonNegative allocatable.getCpuMillicores),
      .uint64 (nonNegative capacity.getMemoryBytes),
      .uint64 (nonNegative allocatable.getMemoryBytes),
      .uint64 (gpuMilli capacity.getGpuCount), .map metadata.labels, .string operation,
      .time base.observedAt, .null, .time base.observedAt, .uuid base.eventId,
      .uint64 base.version] }

def mapNamespace (base : RowBase) (inventory : NamespaceInventory) :
    Except String (Option MappedRow) := do
  let operation ← operationName inventory.record
  let metadata := getMetadata inventory.metadata
  rejectIf (metadata.uid = "") (invalidInventory "namespace UID is required")
  let dimensions := promotedDimensions metadata.labels
  return some {
    table := "namespace"
    columns := ["tenant_id", "cluster_id", "namespace_uid", "namespace_name", "phase",
      "team", "project", "environment", "cost_center", "labels", "operation",
      "valid_from", "valid_to", "observed_at", "event_id", "version"]
    values := [.string base.tenantId, .string base.clusterId, .string metadata.uid,
      .string metadata.name, .string inventory.phase, .string dimensions.team,
      .string dimensions.project, .string dimensions.environment, .string dimensions.costCenter,
      .map metadata.labels, .string operation, .time base.observedAt, .null,
      .time base.observedAt, .uuid base.eventId, .uint64 base.version] }

def mapDeployment (base : RowBase) (inventory : DeploymentInventory) :
    Except String (Option MappedRow) := do
  let operation ← operationName inventory.record
  let metadata := getMetadata inventory.metadata
  rejectIf (metadata.uid = "") (invalidInventory "deployment UID is required")
  let dimensions := promotedDimensions metadata.labels
  return some {
    table := "deployment"
    columns := ["tenant_id", "cluster_id", "namespace_uid", "deployment_uid",
      "namespace_name", "deployment_name", "desired_replicas", "available_replicas",
      "strategy", "team", "project", "environment", "cost_center", "labels",
      "operation", "valid_from", "valid_to", "observed_at", "event_id", "version"]
    values := [.string base.tenantId, .string base.clusterId,
      .string (firstNonEmpty [inventory.namespaceUid, metadata.namespace]), .string metadata.uid,
      .string metadata.namespace, .string metadata.name,
      .uint32 (nonNegative32 inventory.desiredReplicas),
      .uint32 (nonNegative32 inventory.availableReplicas), .string inventory.strategy,
      .string dimensions.team, .string dimensions.project, .string dimensions.environment,
      .string dimensions.costCenter, .map metadata.labels, .string operation,
      .time base.observedAt, .null, .time base.observedAt, .uuid base.eventId,
      .uint64 base.version] }

def mapPod (base : RowBase) (inventory : PodInventory) : Except String (Option MappedRow) := do
  let operation ← operationName inventory.record
  let metadata := getMetadata inventory.metadata
  rejectIf (metadata.uid = "") (invalidInventory "pod UID is required")
  return some {
    table := "pod"
    columns := ["tenant_id", "cluster_id", "namespace_uid", "deployment_uid", "pod_uid",
      "node_uid", "namespace_name", "deployment_name", "pod_name", "phase",
      "qos_class", "owner_kind", "owner_uid", "scheduled_at", "started_at",
      "finished_at", "labels", "operation", "valid_from", "valid_to",
      "observed_at", "event_id", "version"]
    values := [.string base.tenantId, .string base.clusterId,
      .string (firstNonEmpty [inventory.namespaceUid, metadata.namespace]),
      .string inventory.workloadUid, .string metadata.uid, .string inventory.nodeUid,
      .string metadata.namespace, .string "", .string metadata.name, .string inventory.phase,
      .string inventory.qosClass, .string inventory.workloadKind, .string inventory.workloadUid,
      nullableTime inventory.scheduledAt, nullableTime inventory.startedAt,
      nullableTime metadata.deletedAt, .map metadata.labels, .string operation,
      .time base.observedAt, .null, .time base.observedAt, .uuid base.eventId,
      .uint64 base.version] }

def mapContainer (base : RowBase) (inventory : ContainerInventory) :
    Except String (Option MappedRow) := do
  let operation ← operationName inventory.record
  rejectIf (inventory.podUid = "" ∨ inventory.containerName = "")
    (invalidInventory "container pod UID and name are required")
  let requests := getResources inventory.requests
  let limits := getResources inventory.limits
  return some {
    table := "container"
    columns := ["tenant_id", "cluster_id", "namespace_uid", "deployment_uid", "pod_uid",
      "owner_kind", "owner_uid", "container_name", "container_id", "image", "image_id",
      "restart_count", "cpu_request_millicores", "cpu_limit_millicores", "memory_request_bytes",
      "memory_limit_bytes", "gpu_request_milli", "operation", "valid_from",
      "valid_to", "observed_at", "event_id", "version"]
    values := [.string base.tenantId, .string base.clusterId,
      .string (firstNonEmpty [inventory.namespaceUid, inventory.namespace]),
      .string inventory.workloadUid, .string inventory.podUid, .string inventory.workloadKind,
      .string inventory.workloadUid, .string inventory.containerName,
      .string inventory.containerId, .string inventory.image, .string inventory.imageId,
      .uint32 (nonNegative32 inventory.restartCount),
      .uint64 (nonNegative requests.getCpuMillicores),
      .uint64 (nonNegative limits.getCpuMillicores),
      .uint64 (nonNegative requests.getMemoryBytes),
      .uint64 (nonNegative limits.getMemoryBytes),
      .uint64 (gpuMilli requests.getGpuCount), .string operation, .time base.observedAt,
      .null, .time base.observedAt, .uuid base.eventId, .uint64 base.version] }

/-- `mapObservation`: the row of an observation, `none` for the kinds that are
not stored. -/
def mapObservation (batch : Batch) (observation : Observation) :
    Except String (Option MappedRow) :=
  let observedAt := match observation.observedAt with
    | some t => if t.isValid then t else batch.receivedAt
    | none => batch.receivedAt
  let base : RowBase := ⟨batch.tenantId, batch.clusterId, observedAt,
    Hash.uuidSHA1 observation.eventId, observation.sequence⟩
  if base.tenantId = "" || base.clusterId = "" || observation.eventId = "" || base.version = 0 then
    .error (invalidInventory "tenant, cluster, event ID, and sequence are required")
  else
    match observation.payload with
    | some (.clusterInventory inventory) => mapCluster base inventory
    | some (.nodeInventory inventory) => mapNode base inventory
    | some (.namespaceInventory inventory) => mapNamespace base inventory
    | some (.deploymentInventory inventory) => mapDeployment base inventory
    | some (.podInventory inventory) => mapPod base inventory
    | some (.containerInventory inventory) => mapContainer base inventory
    | _ => .ok none

/-! ### Persist -/

/-- What `Store.Insert` did with a table's rows. A failed insert may have
reached the store. -/
inductive InsertOutcome
  | ok
  | failed (written : Bool)
deriving DecidableEq

inductive PersistError
  | invalidInventory (message : String)
  | insert (table : String)
deriving DecidableEq

/-- The rows of the observations in order, or the first invalid observation. -/
def mapObservations : List (Batch × Observation) → Except String (List MappedRow)
  | [] => .ok []
  | (batch, observation) :: rest => do
    let row ← mapObservation batch observation
    let rows ← mapObservations rest
    return row.toList ++ rows

/-- The observations of the batches in queue order, each with its batch. -/
def observationsOf (batches : List Batch) : List (Batch × Observation) :=
  batches.flatMap fun batch => batch.observationSet.observations.map fun o => (batch, o)

/-- The tables of the rows, each once, in name order. -/
def tableOrder (rows : List MappedRow) : List String :=
  (rows.map (·.table)).dedup.mergeSort (· ≤ ·)

/-- The insert loop: one table after the other, until one fails. -/
def insertTables (insert : String → InsertOutcome) (rows : List MappedRow) :
    List String → List MappedRow → Except PersistError Unit × List MappedRow
  | [], stored => (.ok (), stored)
  | table :: order, stored =>
    let group := rows.filter (·.table = table)
    match insert table with
    | .ok => insertTables insert rows order (stored ++ group)
    | .failed written => (.error (.insert table), if written then stored ++ group else stored)

/-- `Repository.Persist` on the store's rows. -/
def persist (insert : String → InsertOutcome) (stored : List MappedRow)
    (batches : List Batch) : Except PersistError Unit × List MappedRow :=
  match mapObservations (observationsOf batches) with
  | .error message => (.error (.invalidInventory message), stored)
  | .ok rows => insertTables insert rows (tableOrder rows) stored

/-! ### What a nil error means -/

/-- The row is what an observation of the batch maps to. -/
def IsRowOf (X : Batch) (row : MappedRow) : Prop :=
  ∃ o ∈ X.observationSet.observations, mapObservation X o = .ok (some row)

instance (X : Batch) (row : MappedRow) : Decidable (IsRowOf X row) :=
  inferInstanceAs (Decidable (∃ o ∈ X.observationSet.observations, _))

theorem mem_observationsOf_iff {batches : List Batch} {p : Batch × Observation} :
    p ∈ observationsOf batches ↔ p.1 ∈ batches ∧ p.2 ∈ p.1.observationSet.observations := by
  obtain ⟨batch, o⟩ := p
  unfold observationsOf
  rw [List.mem_flatMap]
  constructor
  · rintro ⟨b, hb, hmap⟩
    obtain ⟨o', ho', heq⟩ := List.mem_map.mp hmap
    cases heq
    exact ⟨hb, ho'⟩
  · rintro ⟨hb, ho⟩
    exact ⟨batch, hb, List.mem_map.mpr ⟨o, ho, rfl⟩⟩

theorem mapObservations_eq_ok_of_forall : ∀ {ps : List (Batch × Observation)},
    (∀ p ∈ ps, ∃ r, mapObservation p.1 p.2 = .ok r) → ∃ rows, mapObservations ps = .ok rows
  | [], _ => ⟨[], rfl⟩
  | (batch, o) :: ps, h => by
    obtain ⟨r, hr⟩ := h (batch, o) List.mem_cons_self
    obtain ⟨rows, hrows⟩ := mapObservations_eq_ok_of_forall fun p hp => h p (List.mem_cons_of_mem _ hp)
    exact ⟨r.toList ++ rows, by simp only [mapObservations, hr, hrows]; rfl⟩

/-- Every observation of a list that maps has been mapped, and its row is among
the rows. -/
theorem mapObservations_mem : ∀ {ps : List (Batch × Observation)} {rows : List MappedRow},
    mapObservations ps = .ok rows → ∀ p ∈ ps,
    ∃ r, mapObservation p.1 p.2 = .ok r ∧ ∀ row ∈ r, row ∈ rows
  | [], _, _, p, hp => by cases hp
  | (b, o) :: ps, rows, h, p, hp => by
    simp only [mapObservations] at h
    cases hr : mapObservation b o with
    | error e => rw [hr] at h; cases h
    | ok r =>
      rw [hr] at h
      cases hrs : mapObservations ps with
      | error e => simp only [hrs] at h; cases h
      | ok rest =>
        simp only [hrs] at h
        cases h
        rcases List.mem_cons.mp hp with rfl | hp
        · refine ⟨r, hr, fun row hrow => List.mem_append_left _ ?_⟩
          simpa using hrow
        · obtain ⟨r', h1, h2⟩ := mapObservations_mem hrs p hp
          exact ⟨r', h1, fun row hrow => List.mem_append_right _ (h2 row hrow)⟩

/-- The rows are those of the observations. -/
theorem exists_of_mem_rows : ∀ {ps : List (Batch × Observation)} {rows : List MappedRow},
    mapObservations ps = .ok rows → ∀ row ∈ rows,
    ∃ p ∈ ps, mapObservation p.1 p.2 = .ok (some row)
  | [], rows, h, row, hrow => by
    cases h
    cases hrow
  | (batch, o) :: ps, rows, h, row, hrow => by
    rw [mapObservations, bind_eq_ok] at h
    obtain ⟨r, hr, h⟩ := h
    rw [bind_eq_ok] at h
    obtain ⟨rest, hrest, h⟩ := h
    cases h
    rcases List.mem_append.mp hrow with hrow | hrow
    · rw [Option.mem_toList] at hrow
      subst hrow
      exact ⟨(batch, o), List.mem_cons_self, hr⟩
    · obtain ⟨p, hp, hmap⟩ := exists_of_mem_rows hrest row hrow
      exact ⟨p, List.mem_cons_of_mem _ hp, hmap⟩

theorem mem_tableOrder {rows : List MappedRow} {row : MappedRow} (h : row ∈ rows) :
    row.table ∈ tableOrder rows := by
  rw [tableOrder, List.mem_mergeSort, List.mem_dedup]
  exact List.mem_map_of_mem h

/-- No insert removes a row. -/
theorem insertTables_keeps (insert : String → InsertOutcome) (rows : List MappedRow) :
    ∀ (order : List String) (stored : List MappedRow), stored ⊆ (insertTables insert rows order stored).2
  | [], stored => List.Subset.refl _
  | table :: order, stored => by
    unfold insertTables
    split
    · exact List.Subset.trans (List.subset_append_left _ _) (insertTables_keeps insert rows order _)
    · simp only
      split
      · exact List.subset_append_left _ _
      · exact List.Subset.refl _

theorem insertTables_stored (insert : String → InsertOutcome) (rows : List MappedRow) :
    ∀ (order : List String) (stored : List MappedRow),
    (insertTables insert rows order stored).1 = .ok () →
    ∀ row ∈ rows, row.table ∈ order → row ∈ (insertTables insert rows order stored).2
  | [], _, _, _, _, ht => by cases ht
  | table :: order, stored, h, row, hrow, ht => by
    unfold insertTables at h ⊢
    split at h
    · rcases List.mem_cons.mp ht with ht | ht
      · apply insertTables_keeps
        exact List.mem_append_right _ (List.mem_filter.mpr ⟨hrow, by simpa using ht⟩)
      · exact insertTables_stored insert rows order _ h row hrow ht
    · cases h

/-- `persist` never removes a row. -/
theorem persist_keeps (insert : String → InsertOutcome) (stored : List MappedRow)
    (batches : List Batch) : stored ⊆ (persist insert stored batches).2 := by
  unfold persist
  split
  · exact List.Subset.refl _
  · exact insertTables_keeps insert _ _ _

/-- **A nil error means stored.** When `Persist` returns nil, every observation
of the batches has been mapped and its row, if it has one, is in the store. -/
theorem persist_stored {insert : String → InsertOutcome} {stored : List MappedRow}
    {batches : List Batch} (h : (persist insert stored batches).1 = .ok ()) {batch : Batch}
    (hb : batch ∈ batches) {o : Observation} (ho : o ∈ batch.observationSet.observations) :
    ∃ r, mapObservation batch o = .ok r ∧ ∀ row ∈ r, row ∈ (persist insert stored batches).2 := by
  unfold persist at h ⊢
  cases hm : mapObservations (observationsOf batches) with
  | error e => rw [hm] at h; cases h
  | ok rows =>
    simp only [hm] at h ⊢
    obtain ⟨r, h1, h2⟩ := mapObservations_mem hm (batch, o) (mem_observationsOf_iff.mpr ⟨hb, ho⟩)
    refine ⟨r, h1, fun row hrow => ?_⟩
    exact insertTables_stored insert rows _ _ h row (h2 row hrow) (mem_tableOrder (h2 row hrow))

/-- An inventory observation that maps, maps to a row. -/
theorem mapObservation_inventory {batch : Batch} {o : Observation} {payload : Payload}
    {r : Option MappedRow} (hp : o.payload = some payload) (hi : payload.isInventory = true)
    (h : mapObservation batch o = .ok r) : ∃ row, r = some row := by
  unfold mapObservation at h
  simp only at h
  split at h
  · cases h
  · rw [hp] at h
    cases payload <;> simp only [Payload.isInventory, Bool.false_eq_true] at hi
    -- the row is built after the operation and, but for the cluster, a check of the identity
    · obtain ⟨_, -, h⟩ := bind_eq_ok.mp h
      cases h; exact ⟨_, rfl⟩
    all_goals
      obtain ⟨_, -, h⟩ := bind_eq_ok.mp h
      obtain ⟨-, h⟩ := check_bind_ok.mp h
      cases h; exact ⟨_, rfl⟩

end Ingestion
end KubeCost
