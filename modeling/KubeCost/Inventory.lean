/-
# Inventory tables and their current views

`deploy/clickhouse/migrations` 001 and 007: the tables `node` and `namespace` keep
every inventory event, and the views `current_node` and `current_namespace` show
of each object the last event, unless that is a deletion.

The view has at most one row for an object (`filter_current`), and an event changes
at most the row of its own object (`currentAt_append`).
-/
import KubeCost.Replacing
import KubeCost.Time

namespace KubeCost
namespace Inventory

open Replacing

/-- The values of the column `operation`. -/
inductive Operation
  | upsert
  | delete
deriving DecidableEq

/-- A row of an inventory table: the columns of the object behind the columns
that every inventory table has. `version` and `event_id` only rank rows. -/
structure Row (α : Type) where
  tenantId : String
  clusterId : String
  uid : String
  columns : α
  operation : Operation
  validFrom : UTC
  observedAt : UTC
  eventId : ℕ
  version : ℕ
deriving DecidableEq

/-- The columns of `node` and of `namespace` that the services read. -/
structure NodeColumns where
  allocatableCpuMillicores : UInt64
deriving DecidableEq

structure NamespaceColumns where
  namespaceName : String
deriving DecidableEq

abbrev Node := Row NodeColumns
abbrev Namespace := Row NamespaceColumns

variable {α : Type}

/-- `ORDER BY (tenant_id, cluster_id, <uid>, valid_from, event_id)` of the tables. -/
def Row.sortingKey (row : Row α) : String × String × String × UTC × ℕ :=
  (row.tenantId, row.clusterId, row.uid, row.validFrom, row.eventId)

/-- `PARTITION BY tenant_id, cluster_id, <uid>` of the views. -/
def Row.object (row : Row α) : String × String × String := (row.tenantId, row.clusterId, row.uid)

/-- `ReplacingMergeTree(version)`. -/
def byVersion (a b : Row α) : Bool := a.version ≤ b.version

/-- `ORDER BY observed_at DESC, version DESC, event_id DESC`: `a` does not come
before `b`. -/
def byObservation (a b : Row α) : Bool :=
  if a.observedAt ≠ b.observedAt then a.observedAt < b.observedAt
  else if a.version ≠ b.version then a.version < b.version
  else a.eventId ≤ b.eventId

/-- The last event of each object. -/
def latest (table : List (Row α)) : List (Row α) :=
  final Row.object byObservation (final Row.sortingKey byVersion table)

/-- `current_node` and `current_namespace`. -/
def current (table : List (Row α)) : List (Row α) :=
  (latest table).filter fun row => row.operation = .upsert

/-- The row that the view has for an object. -/
def currentAt (table : List (Row α)) (object : String × String × String) : Option (Row α) :=
  ((latest table).find? fun row => row.object = object).filter fun row => row.operation = .upsert

variable {table : List (Row α)} {object : String × String × String}

/-- **The view has at most one row for an object.** -/
theorem filter_current :
    (current table).filter (fun row => row.object = object) = (currentAt table object).toList := by
  rw [current, List.filter_comm, latest, filter_final, currentAt, latest]
  cases (final Row.object byObservation (final Row.sortingKey byVersion table)).find?
      fun row => row.object = object with
  | none => rfl
  | some row =>
    rw [Option.toList_some, List.filter_cons, Option.filter_some]
    split <;> rfl

theorem find?_current {p : Row α → Bool} (hp : ∀ row, p row = decide (row.object = object)) :
    (current table).find? p = currentAt table object := by
  rw [← List.head?_filter, List.filter_congr fun row _ => hp row, filter_current]
  cases currentAt table object <;> rfl

theorem length_filter_current_le {p : Row α → Bool}
    (hp : ∀ row, p row = decide (row.object = object)) : ((current table).filter p).length ≤ 1 := by
  rw [List.filter_congr fun row _ => hp row, filter_current]
  cases currentAt table object <;> simp

/-- Rows with one sorting key are about one object. -/
theorem object_eq {row row' : Row α} (h : row.sortingKey = row'.sortingKey) :
    row.object = row'.object := by
  simp only [Row.sortingKey, Prod.mk.injEq] at h
  simp only [Row.object, h]

/-- **An event leaves the rows of the other objects alone.** -/
theorem currentAt_append {event : Row α} (hne : event.object ≠ object) :
    currentAt (table ++ [event]) object = currentAt table object := by
  have hfilter : (final Row.sortingKey byVersion (table ++ [event])).filter
        (fun row => row.object = object) =
      (final Row.sortingKey byVersion table).filter fun row => row.object = object := by
    rw [final_append]
    refine filter_place_of_ne (fun row hrow => decide_eq_false fun h => hne ?_) _
    rw [← object_eq hrow, h]
  rw [currentAt, currentAt, latest, latest, ← List.head?_filter, filter_final_eq, hfilter,
    ← filter_final_eq, List.head?_filter]

end Inventory
end KubeCost
