/-
# The lineage normalizer

`tools/lineage-normalizer/main.go`: a row that came without the UID of its namespace has the
name of the namespace in `namespace_uid`. For each inventory table `run` counts the rows of
which that column is the name of a current namespace, and inserts copies of them with the
UID of the namespace and a higher version.

The tables of migration 001 have `namespace_uid` in their sorting keys, so a copy does not
take the place of its row: the row stays, merged or not, and matches again. `run_spec`
says that a run leaves rows to repair exactly if there were some, so a second run reports
none exactly if the first did (`converges_iff`).

The rows are those that the tables hold, in the order they came in; merges in the background
may drop rows before every statement (`Background`). `current_namespace` reads its table
under `FINAL`, so merges of that table are not seen. The seven years, or 25 months, after
which a row is deleted are left out.
-/
import Mathlib.Logic.Relation
import KubeCost.Ingestion.Tables
import KubeCost.Relational

namespace KubeCost
namespace Lineage

open Ingestion Relational Replacing

/-! ### Tables -/

structure LineageTable where
  name : String
  columns : List String
deriving DecidableEq

def deploymentTable : LineageTable where
  name := "deployment"
  columns :=
    ["tenant_id", "cluster_id", "namespace_uid", "deployment_uid",
      "namespace_name", "deployment_name", "desired_replicas", "available_replicas",
      "strategy", "team", "project", "environment", "cost_center", "labels",
      "operation", "valid_from", "valid_to", "observed_at", "event_id", "version"]

def podTable : LineageTable where
  name := "pod"
  columns :=
    ["tenant_id", "cluster_id", "namespace_uid", "deployment_uid", "pod_uid",
      "node_uid", "namespace_name", "deployment_name", "pod_name", "phase",
      "qos_class", "owner_kind", "owner_uid", "scheduled_at", "started_at",
      "finished_at", "labels", "operation", "valid_from", "valid_to",
      "observed_at", "event_id", "version"]

def containerTable : LineageTable where
  name := "container"
  columns :=
    ["tenant_id", "cluster_id", "namespace_uid", "deployment_uid", "pod_uid",
      "owner_kind", "owner_uid", "container_name", "container_id", "image", "image_id",
      "restart_count", "cpu_request_millicores", "cpu_limit_millicores",
      "memory_request_bytes", "memory_limit_bytes", "gpu_request_milli", "operation",
      "valid_from", "valid_to", "observed_at", "event_id", "version"]

def inventoryTables : List LineageTable := [deploymentTable, podTable, containerTable]

structure Config where
  tenantId : String := ""
  clusterId : String := ""
  table : String := "all"
  apply : Bool := false

def selectedTables (name : String) : Except String (List LineageTable) :=
  if trimSpace name = "" ∨ trimSpace name = "all" then .ok inventoryTables
  else
    match inventoryTables.find? (·.name = trimSpace name) with
    | some table => .ok [table]
    | none => .error ("unsupported table \"" ++ trimSpace name ++ "\"")

/-! ### Statements -/

def versionBump : ℕ := 1000000000000

/-- The `ON` of the statements. -/
def joinOn (t ns : MappedRow) : Bool :=
  t.value "tenant_id" = ns.value "tenant_id" && t.value "cluster_id" = ns.value "cluster_id" &&
    t.value "namespace_uid" = ns.value "namespace_name"

/-- `namespaceNameWhere`. -/
def namespaceNameWhere (cfg : Config) (t ns : MappedRow) : Bool :=
  ns.value "namespace_uid" ≠ t.value "namespace_uid" &&
    (trimSpace cfg.tenantId = "" || t.value "tenant_id" = .string (trimSpace cfg.tenantId)) &&
    (trimSpace cfg.clusterId = "" || t.value "cluster_id" = .string (trimSpace cfg.clusterId))

/-- The rows that a statement about a table selects, with the rows of `current_namespace`. -/
def matched (cfg : Config) (namespaces rows : List MappedRow) (table : String) :
    List (MappedRow × MappedRow) :=
  (innerJoin joinOn (rows.filter (·.table = table)) (current namespaces "namespace")).filter
    fun p => namespaceNameWhere cfg p.1 p.2

/-- What a column of the inserted row is. -/
def selectColumn (t ns : MappedRow) (column : String) : Value :=
  if column = "namespace_uid" then ns.value "namespace_uid"
  else if column = "version" then .uint64 ((t.version + versionBump) % 2 ^ 64)
  else t.value column

/-- The rows that `backfillInventorySQL` inserts. -/
def backfillInventory (cfg : Config) (namespaces rows : List MappedRow) (table : LineageTable) :
    List MappedRow :=
  (matched cfg namespaces rows table.name).map fun p =>
    ⟨table.name, table.columns, table.columns.map (selectColumn p.1 p.2)⟩

/-- The text of `namespaceNameWhere`. -/
def namespaceNameWhereSQL (cfg : Config) : String :=
  String.intercalate " AND " (["ns.namespace_uid != t.namespace_uid"] ++
    (if trimSpace cfg.tenantId = "" then [] else ["t.tenant_id = ?"]) ++
    (if trimSpace cfg.clusterId = "" then [] else ["t.cluster_id = ?"]))

/-- The text that the report shows. -/
def backfillInventorySQL (table : LineageTable) (cfg : Config) : String :=
  "\nINSERT INTO kube_cost." ++ table.name ++ " (" ++ String.intercalate ", " table.columns ++
    ")\nSELECT\n    " ++ String.intercalate ",\n    " (table.columns.map fun column =>
      if column = "namespace_uid" then "ns.namespace_uid"
      else if column = "version" then "toUInt64(t.version + " ++ toString versionBump ++ ")"
      else "t." ++ column) ++
    "\nFROM kube_cost." ++ table.name ++ " AS t\nINNER JOIN kube_cost.current_namespace AS ns\n" ++
    "    ON t.tenant_id = ns.tenant_id\n   AND t.cluster_id = ns.cluster_id\n" ++
    "   AND t.namespace_uid = ns.namespace_name\nWHERE " ++ namespaceNameWhereSQL cfg

/-! ### Runs -/

structure InventoryBackfill where
  table : String
  matchedRows : ℕ
  sql : String
deriving DecidableEq

structure MetricReplayImpact where
  table : String
  matchedRows : ℕ
  note : String
deriving DecidableEq

structure Report where
  applied : Bool
  inventoryBackfills : List InventoryBackfill
  metricReplayImpacts : List MetricReplayImpact
deriving DecidableEq

/-- What the database does besides: merges before a statement, and errors of statements. -/
structure Background where
  merge : ℕ → List MappedRow → List MappedRow
  merged : ∀ n rows, Merged MappedRow.sortingKey byVersion rows (merge n rows)
  fault : ℕ → Option String

/-- No merges and no errors. -/
def Background.quiet : Background := ⟨fun _ rows => rows, fun _ => Merged.refl, fun _ => none⟩

/-- The part of `run` for one table, with the statements `n` and `n + 1`. -/
def normalizeTable (namespaces : List MappedRow) (B : Background) (cfg : Config) (n : ℕ)
    (table : LineageTable) (rows : List MappedRow) :
    Except String (InventoryBackfill × List MappedRow) := do
  let rows := B.merge n rows
  attempt ("count " ++ table.name) (B.fault n)
  let count := (matched cfg namespaces rows table.name).length
  let backfill := ⟨table.name, count, backfillInventorySQL table cfg⟩
  if cfg.apply ∧ count > 0 then
    let rows := B.merge (n + 1) rows
    attempt ("backfill " ++ table.name) (B.fault (n + 1))
    return (backfill, rows ++ backfillInventory cfg namespaces rows table)
  else return (backfill, rows)

def normalizeTables (namespaces : List MappedRow) (B : Background) (cfg : Config) :
    ℕ → List LineageTable → List MappedRow →
      Except String (List InventoryBackfill × List MappedRow)
  | _, [], rows => .ok ([], rows)
  | n, table :: rest, rows => do
    let first ← normalizeTable namespaces B cfg n table rows
    let others ← normalizeTables namespaces B cfg (n + 2) rest first.2
    return (first.1 :: others.1, others.2)

/-- The part of `run` for a table of facts, of which `facts` are the rows. -/
def metricImpact (namespaces : List MappedRow) (B : Background) (cfg : Config) (n : ℕ)
    (table : String) (facts : List MappedRow) : Except String MetricReplayImpact := do
  attempt ("count " ++ table ++ " impact") (B.fault n)
  return ⟨table, (matched cfg namespaces facts table).length,
    "immutable fact rows are not rewritten; replay raw archived batches or rebuild " ++
      "derived facts after inventory normalization"⟩

/-- `run`: the report, and the rows of the inventory tables afterwards. -/
def run (namespaces facts : List MappedRow) (B : Background) (cfg : Config) (rows : List MappedRow) :
    Except String (Report × List MappedRow) := do
  let tables ← selectedTables cfg.table
  let result ← normalizeTables namespaces B cfg 0 tables rows
  let metrics ← metricImpact namespaces B cfg 6 "container_metrics_10s" facts
  let costs ← metricImpact namespaces B cfg 7 "namespace_cost_1h" facts
  return (⟨cfg.apply, result.1, [metrics, costs]⟩, result.2)

/-! ### Rows to repair -/

variable {namespaces facts rows rows' : List MappedRow} {B : Background} {cfg : Config}
  {table : LineageTable} {n : ℕ}

/-- The table has a row with the name of a current namespace for its UID. -/
def HasMatch (cfg : Config) (namespaces rows : List MappedRow) (table : String) : Prop :=
  ∃ t ∈ rows, t.table = table ∧ ∃ ns ∈ current namespaces "namespace",
    joinOn t ns = true ∧ namespaceNameWhere cfg t ns = true

theorem matched_eq_nil_iff {table : String} :
    matched cfg namespaces rows table = [] ↔ ¬ HasMatch cfg namespaces rows table := by
  simp only [matched, innerJoin, HasMatch, List.filter_eq_nil_iff, List.mem_flatMap, List.mem_map,
    List.mem_filter, decide_eq_true_eq]
  constructor
  · rintro h ⟨t, ht, htable, ns, hns, hon, hwhere⟩
    exact h (t, ns) ⟨t, ⟨ht, htable⟩, ns, ⟨hns, hon⟩, rfl⟩ hwhere
  · rintro h p ⟨t, ⟨ht, htable⟩, ns, ⟨hns, hon⟩, rfl⟩ hwhere
    exact h ⟨t, ht, htable, ns, hns, hon, hwhere⟩

theorem HasMatch.mono {table : String} (h : HasMatch cfg namespaces rows table)
    (hrows : ∀ t ∈ rows, t ∈ rows') : HasMatch cfg namespaces rows' table := by
  obtain ⟨t, ht, hmatch⟩ := h
  exact ⟨t, hrows t ht, hmatch⟩

/-- The sorting keys of the inventory tables begin with the columns that the statements
look at. -/
theorem take_sortingKey (htable : table ∈ inventoryTables) {t : MappedRow}
    (ht : t.table = table.name) : t.sortingKey.2.take 3 =
      [t.value "tenant_id", t.value "cluster_id", t.value "namespace_uid"] := by
  simp only [inventoryTables, List.mem_cons, List.not_mem_nil, or_false] at htable
  rcases htable with rfl | rfl | rfl <;>
    simp [MappedRow.sortingKey, ht, orderBy, deploymentTable, podTable, containerTable]

/-- Merges neither remove the last row to repair nor make one. -/
theorem hasMatch_merged (htable : table ∈ inventoryTables)
    (h : Merged MappedRow.sortingKey byVersion rows rows') :
    HasMatch cfg namespaces rows' table.name ↔ HasMatch cfg namespaces rows table.name := by
  refine ⟨fun hmatch => hmatch.mono fun t ht => h.sublist.subset ht, ?_⟩
  rintro ⟨t, ht, htab, ns, hns, hon, hwhere⟩
  obtain ⟨t', ht', hkey⟩ := h.exists_key byVersion_trans byVersion_total ht
  have htab' : t'.table = table.name := (congrArg Prod.fst hkey).trans htab
  have hcols : [t'.value "tenant_id", t'.value "cluster_id", t'.value "namespace_uid"] =
      [t.value "tenant_id", t.value "cluster_id", t.value "namespace_uid"] := by
    rw [← take_sortingKey htable htab', ← take_sortingKey htable htab, hkey]
  simp only [List.cons.injEq, and_true] at hcols
  obtain ⟨htenant, hcluster, huid⟩ := hcols
  refine ⟨t', ht', htab', ns, hns, ?_, ?_⟩
  · rw [joinOn, htenant, hcluster, huid]
    exact hon
  · rw [namespaceNameWhere, htenant, hcluster, huid]
    exact hwhere

/-- Nor do the copies: there are none if no row matches. -/
theorem hasMatch_backfill {other : String} :
    HasMatch cfg namespaces (rows ++ backfillInventory cfg namespaces rows table) other ↔
      HasMatch cfg namespaces rows other := by
  refine ⟨?_, fun h => h.mono fun t ht => List.mem_append_left _ ht⟩
  rintro ⟨t, ht, htab, hmatch⟩
  rcases List.mem_append.mp ht with ht | ht
  · exact ⟨t, ht, htab, hmatch⟩
  · obtain ⟨p, hp, rfl⟩ := List.mem_map.mp ht
    by_contra hnone
    have hnil : matched cfg namespaces rows table.name = [] := by
      rw [matched_eq_nil_iff, show table.name = other from htab]
      exact hnone
    rw [hnil] at hp
    exact List.not_mem_nil hp

/-! ### What a run leaves -/

/-- What the statements about one table, or several, do to the rows: no table gets rows to
repair or loses them all, and if none of `tables` has any, nothing is inserted. -/
structure Effect (cfg : Config) (namespaces : List MappedRow) (tables : List LineageTable)
    (rows rows' : List MappedRow) : Prop where
  hasMatch : ∀ table ∈ inventoryTables,
    (HasMatch cfg namespaces rows' table.name ↔ HasMatch cfg namespaces rows table.name)
  merged : (∀ table ∈ tables, ¬ HasMatch cfg namespaces rows table.name) →
    Merged MappedRow.sortingKey byVersion rows rows'

/-- What the report says about a table. -/
structure Reported (cfg : Config) (namespaces rows : List MappedRow) (backfill : InventoryBackfill)
    (table : LineageTable) : Prop where
  mem : table ∈ inventoryTables
  name : backfill.table = table.name
  matchedRows : backfill.matchedRows = 0 ↔ ¬ HasMatch cfg namespaces rows table.name

theorem normalizeTable_spec (htable : table ∈ inventoryTables)
    {result : InventoryBackfill × List MappedRow}
    (h : normalizeTable namespaces B cfg n table rows = .ok result) :
    Reported cfg namespaces rows result.1 table ∧
      Effect cfg namespaces [table] rows result.2 := by
  have hmerge := B.merged n rows
  have hfirst : ∀ other ∈ inventoryTables, (HasMatch cfg namespaces (B.merge n rows) other.name ↔
      HasMatch cfg namespaces rows other.name) := fun other hother => hasMatch_merged hother hmerge
  have hzero : (matched cfg namespaces (B.merge n rows) table.name).length = 0 ↔
      ¬ HasMatch cfg namespaces rows table.name := by
    rw [List.length_eq_zero_iff, matched_eq_nil_iff, hfirst table htable]
  unfold normalizeTable at h
  obtain ⟨-, h⟩ := check_bind_ok.mp h
  dsimp only at h
  split at h
  · rename_i hcond
    obtain ⟨-, h⟩ := check_bind_ok.mp h
    obtain rfl := Except.ok.inj h
    refine ⟨⟨htable, rfl, hzero⟩, fun other hother => ?_, fun hnone => ?_⟩
    · rw [hasMatch_backfill, hasMatch_merged hother (B.merged (n + 1) _), hfirst other hother]
    · have := hzero.mpr (hnone table List.mem_cons_self)
      omega
  · obtain rfl := Except.ok.inj h
    exact ⟨⟨htable, rfl, hzero⟩, hfirst, fun _ => hmerge⟩

/-- **The loop over the tables.** The second part of the invariant carries the first over the
statements before: what is reported of a table is what it had at the start. -/
theorem normalizeTables_spec {tables : List LineageTable}
    (htables : ∀ table ∈ tables, table ∈ inventoryTables)
    {result : List InventoryBackfill × List MappedRow}
    (h : normalizeTables namespaces B cfg n tables rows = .ok result) :
    List.Forall₂ (Reported cfg namespaces rows) result.1 tables ∧
      Effect cfg namespaces tables rows result.2 := by
  induction tables generalizing n rows result with
  | nil =>
    obtain rfl := Except.ok.inj h
    exact ⟨List.Forall₂.nil, fun _ _ => Iff.rfl, fun _ => Merged.refl rows⟩
  | cons table rest ih =>
    rw [normalizeTables] at h
    obtain ⟨first, hfirst, h⟩ := bind_eq_ok.mp h
    obtain ⟨others, hothers, h⟩ := bind_eq_ok.mp h
    obtain rfl := Except.ok.inj h
    rw [List.forall_mem_cons] at htables
    obtain ⟨hreported, heffect⟩ := normalizeTable_spec htables.1 hfirst
    obtain ⟨hreports, heffects⟩ := ih htables.2 hothers
    refine ⟨List.Forall₂.cons hreported ?_, fun other hother => ?_, fun hnone => ?_⟩
    · refine hreports.imp fun b other hother => ⟨hother.mem, hother.name, ?_⟩
      rw [hother.matchedRows, heffect.hasMatch other hother.mem]
    · rw [heffects.hasMatch other hother, heffect.hasMatch other hother]
    · rw [List.forall_mem_cons] at hnone
      refine (heffect.merged ?_).trans (heffects.merged fun other hother => ?_)
      · simpa using hnone.1
      · rw [heffect.hasMatch other (htables.2 other hother)]
        exact hnone.2 other hother

theorem selectedTables_subset {name : String} {tables : List LineageTable}
    (h : selectedTables name = .ok tables) : ∀ table ∈ tables, table ∈ inventoryTables := by
  unfold selectedTables at h
  split at h
  · obtain rfl := Except.ok.inj h
    exact fun _ h => h
  · split at h
    · rename_i hfind
      obtain rfl := Except.ok.inj h
      intro table htable
      rw [List.mem_singleton.mp htable]
      exact List.mem_of_find?_eq_some hfind
    · nomatch h

/-- The report says of each selected table that no row matched. -/
def ReportsNone (cfg : Config) (report : Report) : Prop :=
  ∃ tables, selectedTables cfg.table = .ok tables ∧
    report.inventoryBackfills.map (fun b => (b.table, b.matchedRows)) =
      tables.map fun table => (table.name, 0)

/-- No selected table has a row to repair. -/
def NoneToRepair (cfg : Config) (namespaces rows : List MappedRow) : Prop :=
  ∀ tables, selectedTables cfg.table = .ok tables → ∀ table ∈ tables,
    ¬ HasMatch cfg namespaces rows table.name

theorem reports_zero_iff {backfills : List InventoryBackfill} {tables : List LineageTable}
    (h : List.Forall₂ (Reported cfg namespaces rows) backfills tables) :
    backfills.map (fun b => (b.table, b.matchedRows)) = tables.map (fun table => (table.name, 0)) ↔
      ∀ table ∈ tables, ¬ HasMatch cfg namespaces rows table.name := by
  induction h with
  | nil => simp
  | cons hb _ ih =>
    rw [List.map_cons, List.map_cons, List.cons.injEq, ih, List.forall_mem_cons, Prod.mk.injEq,
      ← hb.matchedRows]
    simp only [hb.name, true_and]

/-- A run that returns, in the parts that the inventory tables see. -/
theorem run_eq_ok {report : Report} (h : run namespaces facts B cfg rows = .ok (report, rows')) :
    ∃ tables, selectedTables cfg.table = .ok tables ∧
      normalizeTables namespaces B cfg 0 tables rows = .ok (report.inventoryBackfills, rows') := by
  unfold run at h
  obtain ⟨tables, htables, h⟩ := bind_eq_ok.mp h
  obtain ⟨result, hresult, h⟩ := bind_eq_ok.mp h
  obtain ⟨metrics, -, h⟩ := bind_eq_ok.mp h
  obtain ⟨costs, -, h⟩ := bind_eq_ok.mp h
  obtain ⟨hreport, hrows⟩ := Prod.mk.inj (Except.ok.inj h)
  refine ⟨tables, htables, ?_⟩
  rw [hresult, ← hreport, ← hrows]

theorem noneToRepair_iff {tables : List LineageTable} (h : selectedTables cfg.table = .ok tables) :
    NoneToRepair cfg namespaces rows ↔
      ∀ table ∈ tables, ¬ HasMatch cfg namespaces rows table.name := by
  constructor
  · intro hnone
    exact hnone tables h
  · intro hnone tables' h'
    rw [h] at h'
    exact Except.ok.inj h' ▸ hnone

/-- **What a run says and leaves.** It reports nothing exactly if there was nothing to repair;
there is something to repair after it exactly if there was before; and with nothing to repair
only merges change the rows. -/
theorem run_spec {report : Report} (h : run namespaces facts B cfg rows = .ok (report, rows')) :
    (ReportsNone cfg report ↔ NoneToRepair cfg namespaces rows) ∧
      (NoneToRepair cfg namespaces rows' ↔ NoneToRepair cfg namespaces rows) ∧
      (NoneToRepair cfg namespaces rows → Merged MappedRow.sortingKey byVersion rows rows') := by
  obtain ⟨tables, htables, h⟩ := run_eq_ok h
  have hsub := selectedTables_subset htables
  obtain ⟨hreports, heffect⟩ := normalizeTables_spec hsub h
  rw [noneToRepair_iff htables, noneToRepair_iff htables]
  refine ⟨?_, ?_, heffect.merged⟩
  · rw [← reports_zero_iff hreports]
    constructor
    · rintro ⟨tables', htables', hmap⟩
      rw [htables] at htables'
      rw [hmap, Except.ok.inj htables']
    · intro hmap
      exact ⟨tables, htables, hmap⟩
  · exact forall₂_congr fun table htable => not_congr (heffect.hasMatch table (hsub table htable))

theorem normalizeTable_quiet (n : ℕ) (rows : List MappedRow) :
    ∃ result, normalizeTable namespaces .quiet cfg n table rows = .ok result := by
  by_cases h : cfg.apply ∧ (matched cfg namespaces rows table.name).length > 0
  · exact ⟨_, check_bind_ok.mpr ⟨rfl, (if_pos h).trans rfl⟩⟩
  · exact ⟨_, check_bind_ok.mpr ⟨rfl, (if_neg h).trans rfl⟩⟩

theorem normalizeTables_quiet (tables : List LineageTable) (n : ℕ) (rows : List MappedRow) :
    ∃ result, normalizeTables namespaces .quiet cfg n tables rows = .ok result := by
  induction tables generalizing n rows with
  | nil => exact ⟨([], rows), rfl⟩
  | cons table rest ih =>
    obtain ⟨first, hfirst⟩ := normalizeTable_quiet n rows
    obtain ⟨others, hothers⟩ := ih (n + 2) first.2
    exact ⟨_, bind_eq_ok.mpr ⟨first, hfirst, bind_eq_ok.mpr ⟨others, hothers, rfl⟩⟩⟩

/-- Without errors of statements a run returns. -/
theorem run_quiet {tables : List LineageTable} (h : selectedTables cfg.table = .ok tables)
    (rows : List MappedRow) :
    ∃ report rows', run namespaces facts .quiet cfg rows = .ok (report, rows') := by
  obtain ⟨result, hresult⟩ : ∃ result,
      normalizeTables namespaces .quiet cfg 0 tables rows = .ok result :=
    normalizeTables_quiet tables 0 rows
  exact ⟨_, result.2, bind_eq_ok.mpr ⟨tables, h, bind_eq_ok.mpr ⟨result, hresult, rfl⟩⟩⟩

/-! ### Runs again -/

/-- A run that returned took the rows from the first to the second. -/
def Rerun (namespaces facts : List MappedRow) (cfg : Config) (rows rows' : List MappedRow) : Prop :=
  ∃ B report, run namespaces facts B cfg rows = .ok (report, rows')

/-- The normalizer is done with the rows: a run says so, and runs change nothing that
the tables show. -/
structure Converges (namespaces facts : List MappedRow) (cfg : Config) (rows : List MappedRow) :
    Prop where
  settled : ∀ B report rows', run namespaces facts B cfg rows = .ok (report, rows') →
    ReportsNone cfg report
  stable : ∀ rows', Relation.ReflTransGen (Rerun namespaces facts cfg) rows rows' → ∀ row,
    row ∈ final MappedRow.sortingKey byVersion rows' ↔
      row ∈ final MappedRow.sortingKey byVersion rows

theorem reruns_merged (hnone : NoneToRepair cfg namespaces rows)
    (h : Relation.ReflTransGen (Rerun namespaces facts cfg) rows rows') :
    NoneToRepair cfg namespaces rows' ∧ Merged MappedRow.sortingKey byVersion rows rows' := by
  induction h with
  | refl => exact ⟨hnone, Merged.refl rows⟩
  | tail _ hstep ih =>
    obtain ⟨B, report, hrun⟩ := hstep
    obtain ⟨-, hafter, hmerged⟩ := run_spec hrun
    exact ⟨hafter.mpr ih.1, ih.2.trans (hmerged ih.1)⟩

/-- **One run is enough exactly if none was needed.** -/
theorem converges_iff {report : Report} (h : run namespaces facts B cfg rows = .ok (report, rows')) :
    Converges namespaces facts cfg rows' ↔ NoneToRepair cfg namespaces rows := by
  obtain ⟨-, hafter, -⟩ := run_spec h
  rw [← hafter]
  constructor
  · intro hconv
    obtain ⟨tables, htables, -⟩ := run_eq_ok h
    obtain ⟨again, rows'', hagain⟩ : ∃ again rows'',
        run namespaces facts .quiet cfg rows' = .ok (again, rows'') := run_quiet htables rows'
    exact (run_spec hagain).1.mp (hconv.settled _ _ _ hagain)
  · intro hnone
    constructor
    · intro B' again rows'' hagain
      exact (run_spec hagain).1.mpr hnone
    · intro rows'' hruns
      exact (reruns_merged hnone hruns).2.shown

/-! ### A namespace and its deployment -/

def shopNamespace : MappedRow where
  table := "namespace"
  columns := ["tenant_id", "cluster_id", "namespace_uid", "namespace_name", "operation", "valid_from",
    "observed_at", "event_id", "version"]
  values := [.string "t", .string "c", .string "uid-1", .string "shop", .string "upsert",
    .time ⟨100, 0⟩, .time ⟨100, 0⟩, .uuid "e1", .uint64 1]

/-- A row of the deployment `cart`, with what the agent said for the UID of its namespace. -/
def cartDeployment (namespaceUid : String) : MappedRow where
  table := "deployment"
  columns := deploymentTable.columns
  values := [.string "t", .string "c", .string namespaceUid, .string "uid-2", .string "shop",
    .string "cart", .uint32 2, .uint32 2, .string "RollingUpdate", .string "", .string "",
    .string "", .string "", .map [], .string "upsert", .time ⟨100, 0⟩, .null, .time ⟨100, 0⟩,
    .uuid "e2", .uint64 2]

def applyAll : Config where
  apply := true

theorem converges_iff_repaired : ∃ report rows',
    run [shopNamespace] [] .quiet applyAll [cartDeployment "uid-1"] = .ok (report, rows') ∧
      Converges [shopNamespace] [] applyAll rows' := by
  obtain ⟨report, rows', h⟩ : ∃ report rows',
      run [shopNamespace] [] .quiet applyAll [cartDeployment "uid-1"] = .ok (report, rows') :=
    run_quiet (by decide +kernel : selectedTables applyAll.table = .ok inventoryTables) _
  refine ⟨report, rows', h, (converges_iff h).mpr ?_⟩
  rw [noneToRepair_iff (by decide +kernel : selectedTables applyAll.table = .ok inventoryTables)]
  intro table htable
  rw [← matched_eq_nil_iff]
  revert table
  decide +kernel

/-- The copy has the UID in its key, so the row with the name stays, and the second run finds
it again. -/
theorem repaired_row_matches_again : ∃ first second,
    run [shopNamespace] [] .quiet applyAll [cartDeployment "shop"] = .ok first ∧
      run [shopNamespace] [] .quiet applyAll first.2 = .ok second ∧
      first.1.inventoryBackfills.map (·.matchedRows) = [1, 0, 0] ∧
      second.1.inventoryBackfills.map (·.matchedRows) = [1, 0, 0] ∧
      ¬ Converges [shopNamespace] [] applyAll first.2 := by
  have h : (run [shopNamespace] [] .quiet applyAll [cartDeployment "shop"] >>= fun first =>
      run [shopNamespace] [] .quiet applyAll first.2 >>= fun second =>
        .ok (first.1.inventoryBackfills.map (·.matchedRows),
          second.1.inventoryBackfills.map (·.matchedRows))) =
      Except.ok ([1, 0, 0], [1, 0, 0]) := by decide +kernel
  obtain ⟨first, hfirst, h⟩ := bind_eq_ok.mp h
  obtain ⟨second, hsecond, h⟩ := bind_eq_ok.mp h
  obtain ⟨hcount, hcount'⟩ := Prod.mk.inj (Except.ok.inj h)
  refine ⟨first, second, hfirst, hsecond, hcount, hcount', fun hconv => ?_⟩
  obtain ⟨tables, -, hnone⟩ := hconv.settled _ _ _ hsecond
  have hone : 1 ∈ second.1.inventoryBackfills.map (·.matchedRows) := by
    rw [hcount']
    exact List.mem_cons_self
  obtain ⟨b, hb, hb1⟩ := List.mem_map.mp hone
  have hmem : (b.table, b.matchedRows) ∈ tables.map fun table => (table.name, 0) := by
    rw [← hnone]
    exact List.mem_map_of_mem hb
  obtain ⟨table, -, heq⟩ := List.mem_map.mp hmem
  have hb0 : 0 = b.matchedRows := congrArg Prod.snd heq
  omega

end Lineage
end KubeCost
