/-
# What the server accepts can be persisted

The server checks a hello and a batch (`services/ingestion/server/server.go`), and the
repository checks every observation again when it maps it to a row
(`services/ingestion/persistence/repository.go`). The two are written apart, and
`Worker.Run` gives up on the first observation that the repository refuses.
`accepted_persistable` says that it never has to: what the server queues, the repository
maps, and persists once, in the table of its kind, in the order of the queue.

`Persist` collects the rows of a table in one `Insert` under the columns of the first of
them. `persist_eq_insertAll` says that this is `persist`, which groups the rows
themselves: rows of one table have the same columns.
-/
import KubeCost.Ingestion.Resend

namespace KubeCost
namespace Ingestion

/-! ### The shape of a row -/

/-- The table of a kind; metrics and events have none. -/
def tableOf : Option Payload → Option String
  | some (.clusterInventory _) => some "cluster"
  | some (.nodeInventory _) => some "node"
  | some (.namespaceInventory _) => some "namespace"
  | some (.deploymentInventory _) => some "deployment"
  | some (.podInventory _) => some "pod"
  | some (.containerInventory _) => some "container"
  | _ => none

/-- **A payload maps to a row of its kind's table**, with a value for each column. -/
theorem mapPayload_shape {base : RowBase} {payload : Option Payload} {r : Option MappedRow}
    (h : mapPayload base payload = .ok r) : r.map (·.table) = tableOf payload ∧
      ∀ row ∈ r, row.values.length = row.columns.length := by
  rcases payload with _ | payload
  · cases h
    exact ⟨rfl, fun row hrow => by cases hrow⟩
  cases payload <;> simp only [mapPayload] at h
  case clusterInventory =>
    obtain ⟨operation, -, h⟩ := bind_eq_ok.mp h
    cases h
    exact ⟨rfl, fun row hrow => by cases hrow; rfl⟩
  case nodeInventory | namespaceInventory | deploymentInventory | podInventory |
      containerInventory =>
    obtain ⟨operation, -, h⟩ := bind_eq_ok.mp h
    obtain ⟨-, h⟩ := check_bind_ok.mp h
    cases h
    exact ⟨rfl, fun row hrow => by cases hrow; rfl⟩
  all_goals
    cases h
    exact ⟨rfl, fun row hrow => by cases hrow⟩

/-- Rows of one table have the same columns. -/
theorem columns_eq_of_table {base base' : RowBase} {p p' : Option Payload} {row row' : MappedRow}
    (h : mapPayload base p = .ok (some row)) (h' : mapPayload base' p' = .ok (some row'))
    (htable : row.table = row'.table) : row.columns = row'.columns := by
  have hp : tableOf p = some row.table := (mapPayload_shape h).1.symm
  have hp' : tableOf p' = some row.table := by
    rw [htable]
    exact (mapPayload_shape h').1.symm
  rcases p with _ | p
  · cases h
  rcases p' with _ | p'
  · cases h'
  -- one table has one kind; the kinds without a table have no row
  have hkind := hp.trans hp'.symm
  clear hp hp' htable
  cases p <;> cases p' <;> simp [tableOf] at hkind
  case clusterInventory.clusterInventory =>
    obtain ⟨_, -, h⟩ := bind_eq_ok.mp h
    obtain ⟨_, -, h'⟩ := bind_eq_ok.mp h'
    cases h
    cases h'
    rfl
  case nodeInventory.nodeInventory | namespaceInventory.namespaceInventory |
      deploymentInventory.deploymentInventory | podInventory.podInventory |
      containerInventory.containerInventory =>
    obtain ⟨_, -, h⟩ := bind_eq_ok.mp h
    obtain ⟨_, -, h'⟩ := bind_eq_ok.mp h'
    obtain ⟨-, h⟩ := check_bind_ok.mp h
    obtain ⟨-, h'⟩ := check_bind_ok.mp h'
    cases h
    cases h'
    rfl
  all_goals cases h

/-! ### The inserts of `Persist` -/

/-- What `Store.Insert` is handed. -/
structure Insert where
  table : String
  columns : List String
  rows : List (List Value)
deriving DecidableEq

/-- The locals of the loop of `Persist`. -/
structure Grouped where
  grouped : String → Option Insert
  order : List String

/-- One row of the loop of `Persist`. -/
def Grouped.add (g : Grouped) (row : MappedRow) : Grouped :=
  match g.grouped row.table with
  | none =>
    { grouped := Function.update g.grouped row.table (some ⟨row.table, row.columns, [row.values]⟩)
      order := g.order ++ [row.table] }
  | some insert =>
    { g with
      grouped := Function.update g.grouped row.table
        (some { insert with rows := insert.rows ++ [row.values] }) }

def groupRows (rows : List MappedRow) : Grouped := rows.foldl Grouped.add ⟨fun _ => none, []⟩

/-- The inserts in the order in which `Persist` makes them. -/
def inserts (rows : List MappedRow) : List Insert :=
  ((groupRows rows).order.mergeSort (· ≤ ·)).filterMap (groupRows rows).grouped

/-- The rows that an insert adds to its table. -/
def Insert.mapped (call : Insert) : List MappedRow :=
  call.rows.map fun values => ⟨call.table, call.columns, values⟩

/-- The second loop of `Persist`. -/
def insertAll (insert : String → InsertOutcome) :
    List Insert → List MappedRow → Except PersistError Unit × List MappedRow
  | [], stored => (.ok (), stored)
  | call :: calls, stored =>
    match insert call.table with
    | .ok => insertAll insert calls (stored ++ call.mapped)
    | .failed written =>
      (.error (.insert call.table), if written then stored ++ call.mapped else stored)

/-- Rows of one table have the same columns. -/
def Uniform (rows : List MappedRow) : Prop :=
  ∀ row ∈ rows, ∀ row' ∈ rows, row.table = row'.table → row.columns = row'.columns

theorem uniform_of_mapped {ps : List (Batch × Observation)} {rows : List MappedRow}
    (h : mapObservations ps = .ok rows) : Uniform rows := by
  intro row hrow row' hrow' htable
  obtain ⟨p, -, hp⟩ := exists_of_mem_rows h row hrow
  obtain ⟨p', -, hp'⟩ := exists_of_mem_rows h row' hrow'
  exact columns_eq_of_table (mapObservation_eq_ok.mp hp).2 (mapObservation_eq_ok.mp hp').2 htable

/-- What the loop has collected from the rows it has seen. -/
structure Collected (rows : List MappedRow) (g : Grouped) : Prop where
  nodup : g.order.Nodup
  order : ∀ t, t ∈ g.order ↔ t ∈ rows.map (·.table)
  grouped : ∀ t, t ∈ g.order ↔ ∃ call, g.grouped t = some call
  mapped : ∀ t call, g.grouped t = some call →
    call.table = t ∧ call.mapped = rows.filter (·.table = t)

section

variable {rows : List MappedRow} {g : Grouped} {row : MappedRow}

theorem Collected.columns_eq (h : Collected rows g) (hrows : Uniform (rows ++ [row]))
    {call : Insert} (hcall : g.grouped row.table = some call) : call.columns = row.columns := by
  obtain ⟨htable, hmapped⟩ := h.mapped _ _ hcall
  have hin : row.table ∈ rows.map (·.table) := (h.order _).mp ((h.grouped _).mpr ⟨call, hcall⟩)
  obtain ⟨first, hfirst, heq⟩ := List.mem_map.mp hin
  have hmem : first ∈ call.mapped := by
    rw [hmapped]
    exact List.mem_filter.mpr ⟨hfirst, by simpa using heq⟩
  obtain ⟨values, -, rfl⟩ := List.mem_map.mp hmem
  exact hrows _ (List.mem_append_left _ hfirst) row
    (List.mem_append_right _ (List.mem_singleton_self row)) heq

theorem filter_append_other {t : String} (ht : t ≠ row.table) :
    (rows ++ [row]).filter (·.table = t) = rows.filter (·.table = t) := by
  simp [List.filter_append, ht.symm]

theorem filter_append_same : (rows ++ [row]).filter (·.table = row.table) =
    rows.filter (·.table = row.table) ++ [row] := by
  simp [List.filter_append]

/-- The insert of one table changes; the tables with an insert are the old ones and this. -/
theorem Collected.grouped_update (h : Collected rows g) (new : Insert) (t : String) :
    (∃ call, Function.update g.grouped row.table (some new) t = some call) ↔
      t ∈ g.order ∨ t = row.table := by
  rw [h.grouped t, Function.update_apply]
  by_cases ht : t = row.table
  · simp [ht]
  · simp [ht]

theorem Collected.mapped_update (h : Collected rows g) {new : Insert} (htable : new.table = row.table)
    (hmapped : new.mapped = rows.filter (·.table = row.table) ++ [row]) (t : String) (call : Insert)
    (hcall : Function.update g.grouped row.table (some new) t = some call) :
    call.table = t ∧ call.mapped = (rows ++ [row]).filter (·.table = t) := by
  rcases Machine.update_eq_some hcall with ⟨rfl, heq⟩ | ⟨ht, hold⟩
  · cases heq
    exact ⟨htable, hmapped.trans filter_append_same.symm⟩
  · rw [filter_append_other ht]
    exact h.mapped t call hold

theorem mem_tables_concat {t : String} :
    t ∈ (rows ++ [row]).map (·.table) ↔ t ∈ rows.map (·.table) ∨ t = row.table := by
  rw [List.map_append, List.mem_append, List.map_singleton, List.mem_singleton]

/-- The first row of a table. -/
theorem Collected.add_new (h : Collected rows g) (hg : g.grouped row.table = none) :
    Collected (rows ++ [row])
      { grouped := Function.update g.grouped row.table (some ⟨row.table, row.columns, [row.values]⟩)
        order := g.order ++ [row.table] } := by
  have hnew : row.table ∉ g.order := fun hin => by
    obtain ⟨call, hcall⟩ := (h.grouped _).mp hin
    rw [hg] at hcall
    cases hcall
  have hempty : rows.filter (·.table = row.table) = [] := by
    rw [List.filter_eq_nil_iff]
    intro row' hrow' heq
    exact hnew ((h.order _).mpr (List.mem_map.mpr ⟨row', hrow', of_decide_eq_true heq⟩))
  refine ⟨?_, fun t => ?_, fun t => ?_, h.mapped_update rfl ?_⟩
  · show (g.order ++ [row.table]).Nodup
    rw [← List.concat_eq_append]
    exact h.nodup.concat hnew
  · rw [mem_tables_concat, ← h.order, List.mem_append, List.mem_singleton]
  · rw [h.grouped_update, List.mem_append, List.mem_singleton]
  · rw [hempty]
    rfl

/-- One more row of a table. -/
theorem Collected.add_old (h : Collected rows g) (hrows : Uniform (rows ++ [row])) {insert : Insert}
    (hg : g.grouped row.table = some insert) :
    Collected (rows ++ [row])
      { g with
        grouped := Function.update g.grouped row.table
          (some { insert with rows := insert.rows ++ [row.values] }) } := by
  have hold : row.table ∈ g.order := (h.grouped _).mpr ⟨insert, hg⟩
  obtain ⟨htable, hmapped⟩ := h.mapped _ _ hg
  have hsame : ∀ t, t ∈ g.order ↔ t ∈ g.order ∨ t = row.table := fun t =>
    ⟨.inl, fun ht => ht.elim id fun heq => heq ▸ hold⟩
  refine ⟨h.nodup, fun t => ?_, fun t => ?_, h.mapped_update htable ?_⟩
  · rw [mem_tables_concat, ← h.order, ← hsame]
  · rw [h.grouped_update, ← hsame]
  · rw [← hmapped]
    simp only [Insert.mapped, List.map_append, List.map_cons, List.map_nil, htable,
      h.columns_eq hrows hg]

theorem Collected.add (h : Collected rows g) (hrows : Uniform (rows ++ [row])) :
    Collected (rows ++ [row]) (g.add row) := by
  unfold Grouped.add
  cases hg : g.grouped row.table with
  | none => exact h.add_new hg
  | some insert => exact h.add_old hrows hg

end

theorem Collected.foldl : ∀ {rest rows : List MappedRow} {g : Grouped}, Collected rows g →
    Uniform (rows ++ rest) → Collected (rows ++ rest) (rest.foldl Grouped.add g)
  | [], rows, g, h, _ => by rwa [List.append_nil]
  | row :: rest, rows, g, h, hrows => by
    rw [← List.singleton_append, ← List.append_assoc] at hrows ⊢
    exact (h.add fun a ha b hb => hrows a (List.mem_append_left _ ha) b
      (List.mem_append_left _ hb)).foldl hrows

theorem collected_groupRows {rows : List MappedRow} (h : Uniform rows) :
    Collected rows (groupRows rows) := by
  have hempty : Collected [] ⟨fun _ => none, []⟩ :=
    ⟨List.nodup_nil, fun _ => Iff.rfl, fun t => by simp, fun _ _ hcall => by cases hcall⟩
  exact hempty.foldl h

theorem sorted (l : List String) :
    (l.mergeSort (· ≤ ·)).Pairwise fun a b => decide (a ≤ b) = true := by
  refine List.pairwise_mergeSort (fun a b c hab hbc => ?_) (fun a b => ?_) l
  · exact decide_eq_true (le_trans (of_decide_eq_true hab) (of_decide_eq_true hbc))
  · rw [Bool.or_eq_true, decide_eq_true_eq, decide_eq_true_eq]
    exact le_total a b

/-- The tables in the order of the inserts. -/
theorem Collected.order_eq {rows : List MappedRow} {g : Grouped} (h : Collected rows g) :
    g.order.mergeSort (· ≤ ·) = tableOrder rows := by
  unfold tableOrder
  have hperm : g.order.Perm (rows.map (·.table)).dedup :=
    (List.perm_ext_iff_of_nodup h.nodup (List.nodup_dedup _)).mpr fun t => by
      rw [h.order t, List.mem_dedup]
  refine List.Perm.eq_of_pairwise (fun a b _ _ hab hba => ?_) (sorted _) (sorted _)
    ((List.mergeSort_perm _ _).trans (hperm.trans (List.mergeSort_perm _ _).symm))
  exact le_antisymm (of_decide_eq_true hab) (of_decide_eq_true hba)

theorem Collected.insertTables_eq {rows : List MappedRow} {g : Grouped} (h : Collected rows g)
    (insert : String → InsertOutcome) : ∀ {order : List String}, order ⊆ g.order →
    ∀ stored, insertTables insert rows order stored =
      insertAll insert (order.filterMap g.grouped) stored
  | [], _, stored => rfl
  | table :: order, hsub, stored => by
    obtain ⟨hin, hrest⟩ := List.cons_subset.mp hsub
    obtain ⟨call, hcall⟩ := (h.grouped _).mp hin
    obtain ⟨htable, hmapped⟩ := h.mapped _ _ hcall
    rw [List.filterMap_cons_some hcall, insertTables, insertAll, htable, hmapped]
    cases insert table with
    | ok => exact h.insertTables_eq insert hrest _
    | failed written => rfl

/-- **`Persist` as the source writes it**: one `Insert` for each table. -/
theorem persist_eq_insertAll (insert : String → InsertOutcome) (stored : List MappedRow)
    (batches : List Batch) : persist insert stored batches =
      match mapObservations (observationsOf batches) with
      | .error message => (.error (.invalidInventory message), stored)
      | .ok rows => insertAll insert (inserts rows) stored := by
  unfold persist
  cases hm : mapObservations (observationsOf batches) with
  | error message => rfl
  | ok rows =>
    have h := collected_groupRows (uniform_of_mapped hm)
    simp only [inserts, h.order_eq]
    refine h.insertTables_eq insert (fun t ht => ?_) stored
    rw [← h.order_eq] at ht
    exact (List.mergeSort_perm _ _).mem_iff.mp ht

/-! ### What the server queues -/

/-- The batch is one that `validateBatch` accepted, or a suffix of it, for the cluster of a
hello that `validateHello` accepted. -/
def Queued (C : Codec) (X : Batch) : Prop :=
  ∃ hello config batch, validateHello hello = .ok () ∧ validateBatch C config batch = .ok () ∧
    X.tenantId = hello.tenantId ∧ X.clusterId = hello.clusterId ∧
    (X.observationSet = batch ∨ ∃ p, X.observationSet = suffixAfter C batch p)

variable {C : Codec} {X : Batch} {batches : List Batch}

/-- **Every observation of a queued batch maps.** -/
theorem Queued.maps (h : Queued C X) {o : Observation} (ho : o ∈ X.observationSet.observations) :
    ∃ r, mapObservation X o = .ok r := by
  obtain ⟨hello, config, batch, hhello, hbatch, htenant, hcluster, hset⟩ := h
  have hmem : o ∈ batch.observations := by
    rcases hset with hset | ⟨p, hset⟩
    · rwa [← hset]
    · rw [hset] at ho
      exact suffixAfter_subset C batch p ho
  have ok := (validateBatch_iff C config batch).mp hbatch
  obtain ⟨i, hi⟩ := List.mem_iff_getElem?.mp hmem
  have hok := ok.observations i o hi
  obtain ⟨ht, hc, -⟩ := (validateHello_iff hello).mp hhello
  obtain ⟨r, hr⟩ := mapPayload_ok (rowBase X o) hok.inventory
  refine ⟨r, mapObservation_eq_ok.mpr ⟨⟨htenant ▸ ht, hcluster ▸ hc, hok.eventId, ?_⟩, hr⟩⟩
  have := hok.sequence
  have := ok.first
  omega

theorem mapObservations_ok (h : ∀ X ∈ batches, Queued C X) :
    ∃ rows, mapObservations (observationsOf batches) = .ok rows := by
  refine mapObservations_eq_ok_of_forall fun p hp => ?_
  obtain ⟨hX, ho⟩ := mem_observationsOf_iff.mp hp
  exact (h p.1 hX).maps ho

/-- The rows of a table are those of the observations of its kind, in their order. -/
theorem forall₂_rows (table : String) : ∀ {ps : List (Batch × Observation)} {rows : List MappedRow},
    mapObservations ps = .ok rows →
    List.Forall₂ (fun p row => mapObservation p.1 p.2 = .ok (some row))
      (ps.filter fun p => tableOf p.2.payload = some table) (rows.filter (·.table = table))
  | [], rows, h => by
    cases h
    exact .nil
  | (batch, o) :: ps, rows, h => by
    rw [mapObservations, bind_eq_ok] at h
    obtain ⟨r, hr, h⟩ := h
    rw [bind_eq_ok] at h
    obtain ⟨rest, hrest, h⟩ := h
    cases h
    have hshape := (mapPayload_shape (mapObservation_eq_ok.mp hr).2).1
    have ih := forall₂_rows table hrest
    cases r with
    | none =>
      rw [List.filter_cons_of_neg (by simp [← hshape])]
      exact ih
    | some row =>
      by_cases ht : row.table = table
      · rw [List.filter_cons_of_pos (by simp [← hshape, ht]), Option.toList_some,
          List.singleton_append, List.filter_cons_of_pos (by simpa using ht)]
        exact .cons hr ih
      · rw [List.filter_cons_of_neg (by simp [← hshape, ht]), Option.toList_some,
          List.singleton_append, List.filter_cons_of_neg (by simpa using ht)]
        exact ih

theorem insertTables_ok (rows : List MappedRow) : ∀ (order : List String) (stored : List MappedRow),
    (insertTables (fun _ => .ok) rows order stored).1 = .ok ()
  | [], _ => rfl
  | _ :: order, _ => insertTables_ok rows order _

/-- A failed insert is not an invalid observation. -/
theorem insertTables_ne_invalid (insert : String → InsertOutcome) (rows : List MappedRow)
    (message : String) : ∀ (order : List String) (stored : List MappedRow),
    (insertTables insert rows order stored).1 ≠ .error (.invalidInventory message)
  | [], _ => by simp [insertTables]
  | table :: order, stored => by
    unfold insertTables
    split
    · exact insertTables_ne_invalid insert rows message order _
    · simp

theorem persist_ne_invalid (h : ∀ X ∈ batches, Queued C X) (insert : String → InsertOutcome)
    (stored : List MappedRow) (message : String) :
    (persist insert stored batches).1 ≠ .error (.invalidInventory message) := by
  obtain ⟨rows, hrows⟩ := mapObservations_ok h
  unfold persist
  rw [hrows]
  exact insertTables_ne_invalid insert rows message _ stored

/-- **Validation implies persistability.** Every observation of a batch that the server
queues maps, an inventory observation to a row of its kind's table with a value for each
column. So `Persist` never returns `ErrInvalidInventory` and the worker does not stop;
and when the inserts succeed, each table has grown by one row for each observation of its
kind, in the order of the queue. -/
theorem accepted_persistable (C : Codec) :
    (∀ X, Queued C X → ∀ o ∈ X.observationSet.observations, ∃ r, mapObservation X o = .ok r ∧
      r.map (·.table) = tableOf o.payload ∧ ∀ row ∈ r, row.values.length = row.columns.length) ∧
    ∀ batches : List Batch, (∀ X ∈ batches, Queued C X) →
      (∀ insert stored message,
        (persist insert stored batches).1 ≠ .error (.invalidInventory message)) ∧
      (∀ E w insert w', w.worker = .persisting batches → World.work E w (.persist insert) = some w' →
        w'.worker ≠ .stopped) ∧
      ∀ stored, (persist (fun _ => .ok) stored batches).1 = .ok () ∧
        ∀ table, ∃ new, (persist (fun _ => .ok) stored batches).2.filter (·.table = table) =
            stored.filter (·.table = table) ++ new ∧
          List.Forall₂ (fun p row => mapObservation p.1 p.2 = .ok (some row))
            ((observationsOf batches).filter fun p => tableOf p.2.payload = some table) new := by
  refine ⟨fun X hX o ho => ?_, fun batches hall => ⟨persist_ne_invalid hall, ?_, fun stored => ?_⟩⟩
  · obtain ⟨r, hr⟩ := hX.maps ho
    exact ⟨r, hr, mapPayload_shape (mapObservation_eq_ok.mp hr).2⟩
  · intro E w insert w' hworker hstep
    have hvalid := persist_ne_invalid hall insert w.stored
    unfold World.work at hstep
    simp only [hworker] at hstep
    rcases hp : persist insert w.stored batches with ⟨(_ | _) | _, stored⟩
    · exact absurd (congrArg Prod.fst hp) (hvalid _)
    all_goals
      rw [hp] at hstep
      cases hstep
      simp
  · obtain ⟨rows, hrows⟩ := mapObservations_ok hall
    refine ⟨?_, fun table => ⟨_, filter_persist hrows stored table, forall₂_rows table hrows⟩⟩
    unfold persist
    rw [hrows]
    exact insertTables_ok rows _ stored

theorem queued_plainCopy (received : Timestamp) : Queued plainCodec (plainCopy received) :=
  ⟨plainHello, plainEnv.config, plainBatch, by decide, by decide +kernel, rfl, rfl, .inl rfl⟩

theorem accepted_persistable_plainCopy :
    ((observationsOf [plainCopy ⟨0, 1⟩, plainCopy ⟨0, 2⟩]).filter fun p =>
      tableOf p.2.payload = some "cluster").length = 2 ∧
    ((persist (fun _ => .ok) [] [plainCopy ⟨0, 1⟩, plainCopy ⟨0, 2⟩]).2.filter
      (·.table = "cluster")).length = 2 := by
  have hall : ∀ X ∈ [plainCopy ⟨0, 1⟩, plainCopy ⟨0, 2⟩], Queued plainCodec X := by
    simp [queued_plainCopy]
  obtain ⟨-, h⟩ := ((accepted_persistable plainCodec).2 _ hall).2.2 []
  obtain ⟨new, hnew, hrows⟩ := h "cluster"
  rw [hnew]
  exact ⟨rfl, hrows.length_eq.symm⟩

end Ingestion
end KubeCost
