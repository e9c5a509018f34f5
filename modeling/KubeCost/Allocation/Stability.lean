/-
# Costs of a past hour under later inventory events

`NamespaceCosts` joins the usage of an hour with the inventory as it is now: the query
reads `current_node`, not the node as it was in the hour. A node that is deleted, or
whose capacity changes, long after the hour changes the costs of the hour, although
the data model says that allocation joins metadata as of the observation window.

`stable_iff` says exactly which events leave the costs of an hour alone: events about
namespaces, events about nodes without requests in the hour, and events that leave
the node in the view with a capacity that divides the price as before.
`changed_by_deletion` is a node deleted a month later.
-/
import Mathlib.Algebra.Order.BigOperators.Group.List
import Mathlib.Tactic.FieldSimp
import Mathlib.Tactic.Linarith
import KubeCost.Allocation.Conservation
import KubeCost.Allocation.Rows

namespace KubeCost
namespace Allocation

open Relational Inventory

/-! ### Events -/

/-- The usage and the inventory tables. -/
structure Store where
  containerMetrics : List ContainerMetric
  node : List Node
  ns : List Namespace

/-- The tables as the query sees them, through the views. -/
def Store.tables (store : Store) : Tables :=
  ⟨store.containerMetrics, current store.node, current store.ns⟩

/-- An inventory event: an upsert or a deletion, as the row's operation says. -/
inductive Event
  | node (row : Node)
  | ns (row : Namespace)

def Event.observedAt : Event → UTC
  | .node row => row.observedAt
  | .ns row => row.observedAt

def Store.record (store : Store) : Event → Store
  | .node row => { store with node := store.node ++ [row] }
  | .ns row => { store with ns := store.ns ++ [row] }

abbrev Costs := ℚ × ℚ × ℚ × ℚ

/-- The direct, idle, network and control-plane costs of a row. -/
def costs (item : NamespaceCost) : Costs :=
  (item.directCost, item.idleCost, item.networkCost, item.controlPlaneCost)

/-- The costs that `NamespaceCosts` returns for a namespace and an hour. -/
def costsAt (store : Store) (query : Query) (options : AllocationOptions)
    (clusterId namespaceUid : String) (hour : UTC) : Costs :=
  sumAt costs clusterId namespaceUid hour.rfc3339 (namespaceCosts store.tables query options)

/-- The event leaves every cost of the hour as it was. -/
def Stable (store : Store) (query : Query) (options : AllocationOptions) (hour : UTC)
    (event : Event) : Prop :=
  ∀ clusterId namespaceUid, costsAt (store.record event) query options clusterId namespaceUid hour =
    costsAt store query options clusterId namespaceUid hour

/-- What the price of a node-hour is divided by; for a node that the view does not have,
what was requested. -/
def capacity (requests : NodeRequests) (node : Option Node) : ℚ :=
  (node.map fun node => greatestCapacity node requests).getD
    (float64 requests.nodeCpuRequestCoreMilliseconds)

/-- The event leaves alone what the hour's costs depend on: a node with requests in the
hour stays in the view, or out of it, and its capacity stays. (When the requests of
the cluster-hour add up to 0 as `UInt64`, only idle cost is reported, and there it
makes no difference whether the node is in the view.) -/
def Keeps (store : Store) (query : Query) (hour : UTC) : Event → Prop
  | .ns _ => True
  | .node row => ∀ requests ∈ nodeRequests store.tables query,
      (requests.tenantId, requests.clusterId, requests.nodeUid) = row.object →
      requests.bucketStart = hour →
      capacity requests (currentAt (store.node ++ [row]) row.object) =
        capacity requests (currentAt store.node row.object) ∧
      (clusterTotal store.tables query requests.clusterHour > 0 →
        (currentAt (store.node ++ [row]) row.object).isSome =
          (currentAt store.node row.object).isSome)

/-! ### The shares of a row of `usage` and of a node-hour -/

def joinedCosts (options : AllocationOptions) (row : Joined) : Costs :=
  (options.nodeHourlyCostUSD * weight row, 0,
    float64 row.usage.networkBytes / 1073741824 * options.networkCostPerGiBUSD,
    options.controlPlaneHourlyCostUSD * (float64 row.usage.cpuRequestCoreMilliseconds /
      float64 row.clusterRequests.clusterCpuRequestCoreMilliseconds))

def idleCosts (cost : ℚ) : Costs := (0, cost, 0, 0)

variable {store : Store} {query : Query} {options : AllocationOptions}
  {clusterId namespaceUid bucketStart : String}

theorem costs_allocatedRow (key : NamespaceHour) (rows : List Joined) :
    costs (allocatedRow options key rows).scan = (rows.map fun row => joinedCosts options row).sum := by
  simp only [joinedCosts, sum_prodMk, List.map_const', List.sum_replicate, nsmul_zero]
  rfl

theorem costs_idleRow (key : ClusterHour) (rows : List (NodeRequests × Node)) :
    costs (idleRow options key rows).scan =
      (rows.map fun row => idleCosts (idleShare options row)).sum := by
  simp only [idleCosts, Prod.mk_zero_zero, sum_prodMk, List.map_const', List.sum_replicate, nsmul_zero]
  rfl

theorem unique_tables (store : Store) (query : Query) : Unique store.tables query :=
  ⟨fun _ _ => length_filter_current_le (onNode_eq _ _ _),
    fun row _ => length_filter_current_le (onNamespace_eq row)⟩

/-! ### The costs of an hour -/

/-- What a row of `usage` costs when its node divides the price by `capacity`. -/
def rowCosts (options : AllocationOptions) (row : Usage) (capacity : ℚ) (clusterTotal : UInt64) :
    Costs :=
  (options.nodeHourlyCostUSD * (float64 row.cpuRequestCoreMilliseconds / capacity), 0,
    float64 row.networkBytes / 1073741824 * options.networkCostPerGiBUSD,
    options.controlPlaneHourlyCostUSD *
      (float64 row.cpuRequestCoreMilliseconds / float64 clusterTotal))

/-- The object that a row of `usage`, or of `node_requests`, is about. -/
def Usage.nodeObject (row : Usage) : String × String × String :=
  (row.tenantId, row.clusterId, row.nodeUid)

def NodeRequests.nodeObject (requests : NodeRequests) : String × String × String :=
  (requests.tenantId, requests.clusterId, requests.nodeUid)

/-- What a row of `usage` adds to the costs of its namespace. -/
def usageCosts (store : Store) (query : Query) (options : AllocationOptions) (row : Usage) : Costs :=
  let requests : NodeRequests := ⟨row.nodeHour, nodeTotal store.tables query row.nodeHour⟩
  let node := currentAt store.node row.nodeObject
  if requests.nodeCpuRequestCoreMilliseconds > 0 ∧
      clusterTotal store.tables query row.clusterHour > 0 ∧ node.isSome = true then
    rowCosts options row (capacity requests node) (clusterTotal store.tables query row.clusterHour)
  else 0

/-- What a node-hour adds to the idle cost of its cluster. -/
def idleOf (store : Store) (options : AllocationOptions) (requests : NodeRequests) : ℚ :=
  options.nodeHourlyCostUSD * (1 - float64 requests.nodeCpuRequestCoreMilliseconds /
    capacity requests (currentAt store.node requests.nodeObject))

theorem float64_pos {n : UInt64} (h : n > 0) : 0 < float64 n :=
  Nat.cast_pos.mpr (UInt64.lt_iff_toNat_lt.mp h)

theorem capacity_ge (requests : NodeRequests) (node : Option Node) :
    float64 requests.nodeCpuRequestCoreMilliseconds ≤ capacity requests node := by
  cases node with
  | none => exact le_refl _
  | some node => exact le_max_right _ _

theorem idle_eq {requests : NodeRequests} (hpos : requests.nodeCpuRequestCoreMilliseconds > 0) :
    ((store.tables.currentNode.find? (onNode requests.tenantId requests.clusterId
      requests.nodeUid)).map fun current => idleCosts (idleShare options (requests, current))).getD 0 =
      idleCosts (idleOf store options requests) := by
  have hfind : store.tables.currentNode.find? (onNode requests.tenantId requests.clusterId
      requests.nodeUid) = currentAt store.node requests.nodeObject :=
    find?_current (onNode_eq _ _ _)
  have hreq := float64_pos hpos
  rw [hfind, idleOf]
  cases currentAt store.node requests.nodeObject with
  | none =>
    rw [capacity, Option.map_none, Option.getD_none, Option.map_none, Option.getD_none,
      div_self hreq.ne', sub_self, mul_zero]
    rfl
  | some node =>
    have hcap := lt_of_lt_of_le hreq (capacity_ge requests (some node))
    have hle := sub_nonneg.mpr (capacity_ge requests (some node))
    rw [capacity, Option.map_some, Option.getD_some] at hcap hle ⊢
    rw [Option.map_some, Option.getD_some, idleShare, max_eq_left hle, mul_div_assoc, sub_div,
      div_self hcap.ne']

theorem usage_eq {row : Usage} (hrow : row ∈ usage store.tables query) :
    ((joinOf store.tables query row).map fun partners => joinedCosts options partners).getD 0 =
      usageCosts store query options row := by
  have hfind : nodeOf store.tables row = currentAt store.node row.nodeObject :=
    find?_current (onNode_eq _ _ _)
  rw [joinOf, nodeRequestsOf_eq hrow, clusterRequestsOf_eq hrow, hfind, usageCosts]
  by_cases hnode : nodeTotal store.tables query row.nodeHour > 0
  · by_cases hcluster : clusterTotal store.tables query row.clusterHour > 0
    · cases hcurrent : currentAt store.node row.nodeObject with
      | none => simp
      | some node =>
        simp only [hnode, hcluster, if_true, Option.bind_some, Option.map_some, Option.getD_some,
          Option.isSome_some, and_self]
        rfl
    · simp [hnode, hcluster]
  · simp [hnode]

/-- **The costs of a namespace in an hour**, as sums of what the rows of `usage` and the
node-hours add. -/
theorem costsAt_eq (hour : UTC) :
    costsAt store query options clusterId namespaceUid hour =
      (((usage store.tables query).filter fun row => row.clusterId = clusterId &&
        row.namespaceUid = namespaceUid && row.bucketStart.rfc3339 = hour.rfc3339).map
          (usageCosts store query (normalizeAllocationOptions options))).sum +
      (((nodeRequests store.tables query).filter fun requests => requests.clusterId = clusterId &&
        idleNamespaceUID = namespaceUid && requests.bucketStart.rfc3339 = hour.rfc3339).map
          fun requests =>
            idleCosts (idleOf store (normalizeAllocationOptions options) requests)).sum := by
  rw [costsAt, sumAt_rows (unique_tables store query) costs_allocatedRow costs_idleRow]
  congr 2
  · refine List.map_congr_left fun row hrow => ?_
    exact usage_eq (List.mem_filter.mp hrow).1
  · refine List.map_congr_left fun requests hrequests => ?_
    exact idle_eq (mem_nodeRequests.mp (List.mem_filter.mp hrequests).1).1

/-- The direct costs come from the rows of `usage`, the idle costs from the node-hours. -/
theorem direct_at (hour : UTC) : (costsAt store query options clusterId namespaceUid hour).1 =
    (((usage store.tables query).filter fun row => row.clusterId = clusterId &&
      row.namespaceUid = namespaceUid && row.bucketStart.rfc3339 = hour.rfc3339).map
        fun row => (usageCosts store query (normalizeAllocationOptions options) row).1).sum := by
  rw [costsAt_eq, Prod.fst_add, ← AddMonoidHom.coe_fst, map_list_sum, map_list_sum, List.map_map,
    List.map_map]
  refine (add_eq_left.mpr (List.sum_eq_zero fun x hx => ?_)).trans rfl
  obtain ⟨requests, -, rfl⟩ := List.mem_map.mp hx
  rfl

theorem idle_at (hour : UTC) : (costsAt store query options clusterId namespaceUid hour).2.1 =
    (((nodeRequests store.tables query).filter fun requests => requests.clusterId = clusterId &&
      idleNamespaceUID = namespaceUid && requests.bucketStart.rfc3339 = hour.rfc3339).map
        (idleOf store (normalizeAllocationOptions options))).sum := by
  have hidle : ∀ x : Costs, x.2.1 = ((AddMonoidHom.fst ℚ (ℚ × ℚ)).comp
      (AddMonoidHom.snd ℚ (ℚ × ℚ × ℚ))) x := fun _ => rfl
  rw [costsAt_eq, hidle, map_add, map_list_sum, map_list_sum, List.map_map, List.map_map]
  refine (add_eq_right.mpr (List.sum_eq_zero fun x hx => ?_)).trans rfl
  obtain ⟨row, -, rfl⟩ := List.mem_map.mp hx
  rw [Function.comp_apply, usageCosts]
  split <;> rfl

/-! ### Events that keep the costs -/

variable {event : Event} {t : UTC}

theorem usage_record (event : Event) :
    usage (store.record event).tables query = usage store.tables query := by
  cases event <;> rfl

theorem nodeRequests_record (event : Event) :
    nodeRequests (store.record event).tables query = nodeRequests store.tables query := by
  cases event <;> rfl

theorem nodeTotal_record (event : Event) (hour : NodeHour) :
    nodeTotal (store.record event).tables query hour = nodeTotal store.tables query hour := by
  cases event <;> rfl

theorem clusterTotal_record (event : Event) (hour : ClusterHour) :
    clusterTotal (store.record event).tables query hour = clusterTotal store.tables query hour := by
  cases event <;> rfl

/-- An event leaves alone the node-hours of other nodes. -/
theorem currentAt_record {object : String × String × String}
    (hne : ∀ row, event = .node row → row.object ≠ object) :
    currentAt (store.record event).node object = currentAt store.node object := by
  cases event with
  | node row => exact currentAt_append (hne row rfl)
  | ns row => rfl

theorem Keeps.at (h : Keeps store query t event) {requests : NodeRequests}
    (hrequests : requests ∈ nodeRequests store.tables query) (ht : requests.bucketStart = t) :
    capacity requests (currentAt (store.record event).node requests.nodeObject) =
      capacity requests (currentAt store.node requests.nodeObject) ∧
    (clusterTotal store.tables query requests.clusterHour > 0 →
      (currentAt (store.record event).node requests.nodeObject).isSome =
        (currentAt store.node requests.nodeObject).isSome) := by
  by_cases hobject : ∃ row, event = .node row ∧ row.object = requests.nodeObject
  · obtain ⟨row, rfl, hrow⟩ := hobject
    rw [← hrow]
    exact h requests hrequests hrow.symm ht
  · rw [currentAt_record fun row hevent hrow => hobject ⟨row, hevent, hrow⟩]
    exact ⟨rfl, fun _ => rfl⟩

theorem clusterHour_nodeHour {row : Usage} (hrow : row ∈ usage store.tables query) (total : UInt64) :
    (⟨row.nodeHour, total⟩ : NodeRequests).clusterHour = row.clusterHour := by
  simp only [NodeRequests.clusterHour, Usage.nodeHour, startOfHour_usage hrow, Usage.clusterHour]

theorem Keeps.usageCosts (h : Keeps store query t.startOfHour event) {row : Usage}
    (hrow : row ∈ usage store.tables query) (ht : row.bucketStart = t.startOfHour) :
    usageCosts (store.record event) query options row = Allocation.usageCosts store query options row := by
  rw [Allocation.usageCosts, Allocation.usageCosts, nodeTotal_record, clusterTotal_record]
  by_cases hpos : nodeTotal store.tables query row.nodeHour > 0 ∧
      clusterTotal store.tables query row.clusterHour > 0
  · have hkeeps := h.at (mem_nodeRequests.mpr ⟨hpos.1, row, hrow, rfl⟩)
      ((startOfHour_usage hrow).trans ht)
    rw [clusterHour_nodeHour hrow] at hkeeps
    have hcapacity : capacity ⟨row.nodeHour, nodeTotal store.tables query row.nodeHour⟩
        (currentAt (store.record event).node row.nodeObject) =
        capacity ⟨row.nodeHour, nodeTotal store.tables query row.nodeHour⟩
          (currentAt store.node row.nodeObject) := hkeeps.1
    have hsome : (currentAt (store.record event).node row.nodeObject).isSome =
        (currentAt store.node row.nodeObject).isSome := hkeeps.2 hpos.2
    exact if_congr (by rw [hsome]) (by rw [hcapacity]) rfl
  · rw [if_neg fun hall => hpos ⟨hall.1, hall.2.1⟩, if_neg fun hall => hpos ⟨hall.1, hall.2.1⟩]

theorem Keeps.stable (h : Keeps store query t.startOfHour event) :
    Stable store query options t.startOfHour event := by
  intro clusterId namespaceUid
  rw [costsAt_eq, costsAt_eq, usage_record, nodeRequests_record]
  congr 2
  · refine List.map_congr_left fun row hrow => ?_
    obtain ⟨hrow, hat⟩ := List.mem_filter.mp hrow
    rw [Bool.and_eq_true, decide_eq_true_eq] at hat
    exact h.usageCosts hrow (bucketStart_of_text hrow hat.2)
  · refine List.map_congr_left fun requests hrequests => ?_
    obtain ⟨hrequests, hat⟩ := List.mem_filter.mp hrequests
    rw [Bool.and_eq_true, decide_eq_true_eq] at hat
    have ht : requests.bucketStart = t.startOfHour := by
      obtain ⟨-, row, hrow, rfl⟩ := mem_nodeRequests.mp hrequests
      rw [Usage.nodeHour, startOfHour_usage hrow] at hat ⊢
      exact bucketStart_of_text hrow hat.2
    rw [idleOf, idleOf, (h.at hrequests ht).1]

/-! ### Events that do not -/

/-- Sums that agree at all items but one agree there too. -/
theorem eq_of_sum_eq {α : Type*} {l : List α} {f g : α → ℚ} {a : α} (ha : a ∈ l)
    (hsum : (l.map f).sum = (l.map g).sum) (hother : ∀ x ∈ l, x ≠ a → f x = g x) : f a = g a := by
  by_contra hne
  rcases lt_or_gt_of_ne hne with hlt | hgt
  · refine (List.sum_lt_sum f g (fun x hx => ?_) ⟨a, ha, hlt⟩).ne hsum
    by_cases hx' : x = a
    · rw [hx']
      exact hlt.le
    · exact (hother x hx hx').le
  · refine (List.sum_lt_sum g f (fun x hx => ?_) ⟨a, ha, hgt⟩).ne hsum.symm
    by_cases hx' : x = a
    · rw [hx']
      exact hgt.le
    · exact (hother x hx hx').ge

theorem nodeHourlyCost_pos (options : AllocationOptions) :
    0 < (normalizeAllocationOptions options).nodeHourlyCostUSD := by
  rw [normalizeAllocationOptions]
  dsimp only
  split
  · rw [defaultNodeHourlyCostUSD]
    norm_num
  · rename_i h
    exact not_le.mp h

theorem bucketStart_of_requests {requests : NodeRequests}
    (hrequests : requests ∈ nodeRequests store.tables query)
    (h : requests.bucketStart.rfc3339 = t.startOfHour.rfc3339) :
    requests.bucketStart = t.startOfHour := by
  obtain ⟨-, row, hrow, rfl⟩ := mem_nodeRequests.mp hrequests
  rw [Usage.nodeHour, startOfHour_usage hrow] at h ⊢
  exact bucketStart_of_text hrow h

variable {row : Node} {requests : NodeRequests}

/-- A stable idle cost means a stable capacity. -/
theorem Stable.capacity (h : Stable store query options t.startOfHour (.node row))
    (hrequests : requests ∈ nodeRequests store.tables query) (hobject : requests.nodeObject = row.object)
    (ht : requests.bucketStart = t.startOfHour) :
    capacity requests (currentAt (store.node ++ [row]) row.object) =
      Allocation.capacity requests (currentAt store.node row.object) := by
  have hsum := congrArg (fun costs : Costs => costs.2.1) (h requests.clusterId idleNamespaceUID)
  simp only [idle_at, nodeRequests_record] at hsum
  -- the other node-hours of the cluster and the hour are about other nodes
  have heq := eq_of_sum_eq (List.mem_filter.mpr ⟨hrequests, by simp [ht]⟩) hsum
    fun other hother hne => by
      obtain ⟨hother, hat⟩ := List.mem_filter.mp hother
      rw [Bool.and_eq_true, decide_eq_true_eq] at hat
      rw [idleOf, idleOf, currentAt_record fun row' hrow' hobject' => hne ?_]
      cases hrow'
      refine nodeRequests_ext hother hrequests ?_
      have hsame := hobject'.symm.trans hobject.symm
      have hhour := (bucketStart_of_requests hother hat.2).trans ht.symm
      simp only [NodeRequests.nodeObject, Prod.mk.injEq] at hsame
      obtain ⟨⟨tenantId, clusterId, nodeUid, bucketStart⟩, total⟩ := other
      simp only at hsame hhour
      simp only [hsame, hhour]
  have hreq := float64_pos (mem_nodeRequests.mp hrequests).1
  rw [idleOf, idleOf, hobject] at heq
  have hshare := sub_right_inj.mp (mul_left_cancel₀ (nodeHourlyCost_pos options).ne' heq)
  rw [div_eq_mul_inv, div_eq_mul_inv] at hshare
  exact inv_inj.mp (mul_left_cancel₀ hreq.ne' hshare)

/-- A row of `usage` has a direct cost when its node is in the view. -/
theorem direct_pos_iff {row : Usage} (hprice : 0 < options.nodeHourlyCostUSD)
    (hnode : nodeTotal store.tables query row.nodeHour > 0)
    (hcluster : clusterTotal store.tables query row.clusterHour > 0)
    (hcpu : row.cpuRequestCoreMilliseconds > 0) :
    0 < (usageCosts store query options row).1 ↔
      (currentAt store.node row.nodeObject).isSome = true := by
  rw [usageCosts]
  by_cases hsome : (currentAt store.node row.nodeObject).isSome = true
  · rw [if_pos ⟨hnode, hcluster, hsome⟩]
    refine iff_of_true (mul_pos hprice (div_pos (float64_pos hcpu) ?_)) hsome
    exact lt_of_lt_of_le (float64_pos hnode)
      (capacity_ge ⟨row.nodeHour, nodeTotal store.tables query row.nodeHour⟩ _)
  · rw [if_neg fun hall => hsome hall.2.2]
    exact iff_of_false (lt_irrefl _) hsome

/-- Where direct costs are reported, stable ones mean that the node stays in the view,
or out of it. -/
theorem Stable.isSome (h : Stable store query options t.startOfHour (.node row))
    (hrequests : requests ∈ nodeRequests store.tables query) (hobject : requests.nodeObject = row.object)
    (ht : requests.bucketStart = t.startOfHour)
    (hcluster : clusterTotal store.tables query requests.clusterHour > 0) :
    (currentAt (store.node ++ [row]) row.object).isSome =
      (currentAt store.node row.object).isSome := by
  obtain ⟨hpos, first, hfirst, rfl⟩ := mem_nodeRequests.mp hrequests
  -- some row of the node-hour requested CPU
  obtain ⟨used, hused, hcpu⟩ : ∃ used ∈ usageOfNode store.tables query first.nodeHour,
      used.cpuRequestCoreMilliseconds > 0 := by
    by_contra hnone
    refine UInt64.lt_irrefl 0 (hpos.trans_eq (List.sum_eq_zero fun x hx => ?_))
    obtain ⟨used, hused, rfl⟩ := List.mem_map.mp hx
    exact UInt64.le_zero_iff.mp (UInt64.not_lt.mp fun hlt => hnone ⟨used, hused, hlt⟩)
  obtain ⟨hused, hhour⟩ := List.mem_filter.mp hused
  rw [decide_eq_true_eq] at hhour
  rw [← hhour] at hpos hobject ht hcluster
  rw [clusterHour_nodeHour hused] at hcluster
  have htused : used.bucketStart = t.startOfHour := (startOfHour_usage hused).symm.trans ht
  have hobject : used.nodeObject = row.object := hobject
  have hsum := congrArg (fun costs : Costs => costs.1) (h used.clusterId used.namespaceUid)
  simp only [direct_at, usage_record] at hsum
  -- the other rows of the namespace and the hour are about other nodes
  have heq := eq_of_sum_eq (List.mem_filter.mpr ⟨hused, by simp [htused]⟩) hsum
    fun other hother hne => by
      obtain ⟨hother, hat⟩ := List.mem_filter.mp hother
      simp only [Bool.and_eq_true, decide_eq_true_eq] at hat
      rw [usageCosts, usageCosts, nodeTotal_record, clusterTotal_record,
        currentAt_record fun row' hrow' hobject' => hne ?_]
      cases hrow'
      refine usage_ext hother hused ?_
      have hsame := hobject'.symm.trans hobject.symm
      have hhour := (bucketStart_of_text hother hat.2).trans htused.symm
      simp only [Usage.nodeObject, Prod.mk.injEq] at hsame
      have hns := hat.1.2
      obtain ⟨⟨tenantId, clusterId, nodeUid, namespaceUid, bucketStart⟩, cpu, network⟩ := other
      simp only at hsame hhour hns
      simp only [hsame, hhour, hns]
  rw [Bool.eq_iff_iff, ← hobject,
    ← direct_pos_iff (nodeHourlyCost_pos options) hpos hcluster hcpu, ← heq]
  have hpos' : nodeTotal (store.record (.node row)).tables query used.nodeHour > 0 := hpos
  exact (direct_pos_iff (nodeHourlyCost_pos options) hpos' hcluster hcpu).symm

/-- **Which events leave the costs of an hour alone.** For every content of the tables,
every query, options, hour and event. -/
theorem stable_iff (store : Store) (query : Query) (options : AllocationOptions) (t : UTC)
    (event : Event) :
    Stable store query options t.startOfHour event ↔ Keeps store query t.startOfHour event := by
  constructor
  · intro h
    cases event with
    | ns row => trivial
    | node row =>
      intro requests hrequests hobject ht
      exact ⟨h.capacity hrequests hobject ht, h.isSome hrequests hobject ht⟩
  · exact Keeps.stable

/-! ### A node deleted a month later -/

def plainStore : Store := ⟨plainMetrics, [plainNode], []⟩

def nextMonth : UTC := { UTC.newYear with month := 2, month_le := by omega }

def plainDeletion : Event :=
  .node { plainNode with
    operation := .delete, validFrom := nextMonth, observedAt := nextMonth, eventId := 2, version := 2 }

/-- The deletion is observed after the end of the hour, and erases its costs. -/
theorem changed_by_deletion :
    UTC.newYear < plainDeletion.observedAt.startOfHour ∧
    costsAt plainStore plainQuery ⟨2, 1, 0⟩ "c" "a" .newYear = (1 / 2, 0, 0, 1 / 3) ∧
    costsAt (plainStore.record plainDeletion) plainQuery ⟨2, 1, 0⟩ "c" "a" .newYear = 0 ∧
    ¬ Stable plainStore plainQuery ⟨2, 1, 0⟩ UTC.newYear plainDeletion := by
  have hbefore : costsAt plainStore plainQuery ⟨2, 1, 0⟩ "c" "a" .newYear = (1 / 2, 0, 0, 1 / 3) := by
    rw [costsAt_eq]
    decide +kernel
  have hafter : costsAt (plainStore.record plainDeletion) plainQuery ⟨2, 1, 0⟩ "c" "a" .newYear =
      0 := by
    rw [costsAt_eq]
    decide +kernel
  refine ⟨by decide, hbefore, hafter, fun h => ?_⟩
  have hsame := h "c" "a"
  rw [hbefore, hafter] at hsame
  exact absurd hsame (by decide +kernel)

end Allocation
end KubeCost
