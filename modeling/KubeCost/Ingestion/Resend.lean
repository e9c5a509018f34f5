/-
# Sending a batch again

The agent sends a batch again until it is acknowledged, so the observations of one
batch may be persisted several times: each time under the receipt time of that
copy, and without the records the watermark covered by then. The contract
(`proto/cost/v1/agent/README.md`) wants this to be idempotent, and the tables are
meant to see to it: copies of a row share the sorting key, and `FINAL` shows one.

The sorting key has the time of the observation, which is the receipt time when the
observation carries none, and `validateBatch` does not ask for one. So the copies
of such an observation are different rows (`shown_twice`). `resend_iff` says exactly
when re-sending is idempotent: when every observation sent again keeps its sorting
key (`Settled`).
-/
import KubeCost.Ingestion.Tables
import KubeCost.Ingestion.Watermark

namespace KubeCost
namespace Ingestion

open Replacing

/-! ### Persisting copies -/

/-- One `Persist` for each copy, into a store that takes every insert. -/
def persistEach (stored : List MappedRow) : List Batch → List MappedRow
  | [] => stored
  | copy :: copies => persistEach (persist (fun _ => .ok) stored [copy]).2 copies

theorem insertTables_accepting (rows : List MappedRow) : ∀ (order : List String)
    (stored : List MappedRow), (insertTables (fun _ => .ok) rows order stored).2 =
      stored ++ order.flatMap fun table => rows.filter (·.table = table)
  | [], stored => (List.append_nil _).symm
  | table :: order, stored => by
    rw [insertTables]
    simp only
    rw [insertTables_accepting rows order, List.flatMap_cons, List.append_assoc]

/-- The groups of a table are the table's rows, each once. -/
theorem filter_groups (rows : List MappedRow) (table : String) : ∀ {order : List String},
    order.Nodup → (order.flatMap fun t => rows.filter (·.table = t)).filter (·.table = table) =
      if table ∈ order then rows.filter (·.table = table) else []
  | [], _ => rfl
  | t :: order, hnodup => by
    have hgroup : (rows.filter (·.table = t)).filter (·.table = table) =
        if t = table then rows.filter (·.table = table) else [] := by
      rw [List.filter_filter]
      split
      · rename_i h
        subst h
        simp only [Bool.and_self]
      · rename_i h
        rw [List.filter_eq_nil_iff]
        intro row _ hrow
        simp only [Bool.and_eq_true, decide_eq_true_eq] at hrow
        exact h (hrow.2.symm.trans hrow.1)
    rw [List.nodup_cons] at hnodup
    rw [List.flatMap_cons, List.filter_append, hgroup, filter_groups rows table hnodup.2]
    by_cases ht : t = table
    · subst ht
      rw [if_pos rfl, if_neg hnodup.1, List.append_nil, if_pos List.mem_cons_self]
    · have hmem : table ∈ t :: order ↔ table ∈ order := by
        rw [List.mem_cons]
        exact or_iff_right (Ne.symm ht)
      rw [if_neg ht, List.nil_append]
      exact if_congr hmem.symm rfl rfl

/-- Persisting adds the rows of the batches to their tables. -/
theorem filter_persist {batches : List Batch} {rows : List MappedRow}
    (h : mapObservations (observationsOf batches) = .ok rows) (stored : List MappedRow)
    (table : String) : (persist (fun _ => .ok) stored batches).2.filter (·.table = table) =
      stored.filter (·.table = table) ++ rows.filter (·.table = table) := by
  have hnodup : (tableOrder rows).Nodup :=
    (List.mergeSort_perm _ _).nodup_iff.mpr (List.nodup_dedup _)
  unfold persist
  rw [h]
  simp only
  rw [insertTables_accepting, List.filter_append, filter_groups rows table hnodup]
  split
  · rfl
  · rename_i habsent
    congr 1
    rw [eq_comm, List.filter_eq_nil_iff]
    intro row hrow hin
    exact habsent (of_decide_eq_true hin ▸ mem_tableOrder hrow)

/-! ### Accepted observations map -/

theorem operationName_ok {record : Option InventoryRecord}
    (h : validateInventoryRecord record = .ok ()) : ∃ operation, operationName record = .ok operation := by
  unfold validateInventoryRecord at h
  unfold operationName
  cases hop : getOperation record with
  | upsert => exact ⟨_, rfl⟩
  | delete => exact ⟨_, rfl⟩
  | unspecified => rw [hop] at h; cases h
  | unrecognized n => rw [hop] at h; cases h

/-- What `validateBatch` accepts can be mapped. -/
theorem mapPayload_ok (base : RowBase) {o : Observation}
    (h : validateInventoryObservation o = .ok ()) : ∃ r, mapPayload base o.payload = .ok r := by
  unfold validateInventoryObservation at h
  rcases hp : o.payload with _ | payload
  · exact ⟨none, rfl⟩
  rw [hp] at h
  cases payload <;> simp only [mapPayload, validateObject, check_bind_ok, rejectIf_eq_ok] at h ⊢
  case clusterInventory i =>
    obtain ⟨operation, hop⟩ := operationName_ok h
    exact ⟨_, bind_eq_ok.mpr ⟨operation, hop, rfl⟩⟩
  case nodeInventory i | namespaceInventory i | deploymentInventory i | podInventory i |
      containerInventory i =>
    obtain ⟨operation, hop⟩ := operationName_ok h.1
    exact ⟨_, bind_eq_ok.mpr ⟨operation, hop, check_bind_ok.mpr ⟨rejectIf_eq_ok.mpr h.2, rfl⟩⟩⟩
  all_goals exact ⟨none, rfl⟩

/-! ### Copies of a batch -/

/-- The batch, or what a watermark left of it, as the stream's session hands it to the
queue. -/
structure Copy (hello : AgentHello) (b : ObservationBatch) (q : Batch) : Prop where
  tenant : q.tenantId = hello.tenantId
  cluster : q.clusterId = hello.clusterId
  suffix : q.observationSet.observations <:+ b.observations

/-- The observation has one of the six inventory payloads. -/
def IsInventory (o : Observation) : Prop := ∃ payload, o.payload = some payload ∧ payload.isInventory = true

/-- **The sorting key of the observation's row is settled** by its first copy: the
observation says when it was made, or both copies came in one millisecond, or a
later observation of the batch already has a row with the new key. -/
def Settled (first copy : Batch) (o : Observation) : Prop :=
  (∃ t, o.observedAt = some t ∧ t.isValid = true) ∨
  copy.receivedAt.truncate = first.receivedAt.truncate ∨
  ∃ o' ∈ first.observationSet.observations, o.sequence < o'.sequence ∧
    o'.payload.map identity = o.payload.map identity ∧
    Hash.uuidSHA1 o'.eventId = Hash.uuidSHA1 o.eventId ∧
    (observedAtOf first.receivedAt o').truncate = copy.receivedAt.truncate

theorem observedAtOf_eq (received : Timestamp) {o : Observation}
    (h : ¬ ∃ t, o.observedAt = some t ∧ t.isValid = true) : observedAtOf received o = received := by
  unfold observedAtOf
  cases ho : o.observedAt with
  | none => rfl
  | some t => exact if_neg fun hvalid => h ⟨t, ho, hvalid⟩

theorem observedAtOf_valid (received received' : Timestamp) {o : Observation}
    (h : ∃ t, o.observedAt = some t ∧ t.isValid = true) :
    observedAtOf received o = observedAtOf received' o := by
  obtain ⟨t, ho, hvalid⟩ := h
  simp only [observedAtOf, ho, hvalid, if_true]

section

variable {C : Codec} {config : Config} {b : ObservationBatch} {hello : AgentHello}
  {first copy : Batch} {copies : List Batch} {row row' : MappedRow} {o o' : Observation}

theorem BatchOk.eq_of_sequence (hb : BatchOk C config b) (ho : o ∈ b.observations)
    (ho' : o' ∈ b.observations) (h : o.sequence = o'.sequence) : o = o' := by
  obtain ⟨i, hi⟩ := List.mem_iff_getElem?.mp ho
  obtain ⟨j, hj⟩ := List.mem_iff_getElem?.mp ho'
  have hseq := (hb.observations i o hi).sequence
  have hseq' := (hb.observations j o' hj).sequence
  have hij : i = j := by omega
  rw [hij, hj] at hi
  exact (Option.some.inj hi).symm

variable (hb : BatchOk C config b) (hhello : validateHello hello = .ok ())

include hb hhello

theorem Copy.maps (hcopy : Copy hello b copy) (ho : o ∈ copy.observationSet.observations) :
    ∃ r, mapObservation copy o = .ok r ∧ mapPayload (rowBase copy o) o.payload = .ok r := by
  obtain ⟨i, hi⟩ := List.mem_iff_getElem?.mp (hcopy.suffix.subset ho)
  have hok := hb.observations i o hi
  obtain ⟨htenant, hcluster, -⟩ := (validateHello_iff hello).mp hhello
  obtain ⟨r, hr⟩ := mapPayload_ok (rowBase copy o) hok.inventory
  have hsequence : o.sequence ≠ 0 := by
    have := hok.sequence
    have := hb.first
    omega
  refine ⟨r, mapObservation_eq_ok.mpr ⟨⟨?_, ?_, hok.eventId, hsequence⟩, hr⟩, hr⟩
  · rwa [hcopy.tenant]
  · rwa [hcopy.cluster]

/-- The rows that the copies add to the tables. -/
theorem persistEach_rows : ∀ {copies : List Batch}, (∀ copy ∈ copies, Copy hello b copy) →
    ∃ more : List MappedRow, (∀ row, row ∈ more ↔ ∃ copy ∈ copies, IsRowOf copy row) ∧
      ∀ stored table, (persistEach stored copies).filter (·.table = table) =
        stored.filter (·.table = table) ++ more.filter (·.table = table)
  | [], _ => ⟨[], fun row => by simp, fun stored table => (List.append_nil _).symm⟩
  | copy :: copies, h => by
    have hcopy := h copy List.mem_cons_self
    obtain ⟨rows, hrows⟩ : ∃ rows, mapObservations (observationsOf [copy]) = .ok rows := by
      refine mapObservations_eq_ok_of_forall fun p hp => ?_
      obtain ⟨hq, ho⟩ := mem_observationsOf_iff.mp hp
      rw [List.mem_singleton.mp hq] at ho ⊢
      obtain ⟨r, hr, -⟩ := hcopy.maps hb hhello ho
      exact ⟨r, hr⟩
    have hmem : ∀ row, row ∈ rows ↔ IsRowOf copy row := by
      intro row
      constructor
      · intro hrow
        obtain ⟨p, hp, hmap⟩ := exists_of_mem_rows hrows row hrow
        obtain ⟨hq, ho⟩ := mem_observationsOf_iff.mp hp
        rw [List.mem_singleton.mp hq] at ho hmap
        exact ⟨p.2, ho, hmap⟩
      · rintro ⟨o, ho, hmap⟩
        obtain ⟨r, hr, hrow⟩ := mapObservations_mem hrows (copy, o)
          (mem_observationsOf_iff.mpr ⟨List.mem_singleton_self _, ho⟩)
        rw [hmap] at hr
        cases hr
        exact hrow row rfl
    obtain ⟨more, hmore, hfilter⟩ :=
      persistEach_rows fun q hq => h q (List.mem_cons_of_mem _ hq)
    refine ⟨rows ++ more, fun row => ?_, fun stored table => ?_⟩
    · rw [List.mem_append, hmem, hmore, List.exists_mem_cons_iff]
    · rw [persistEach, hfilter, filter_persist hrows, List.filter_append, List.append_assoc]

/-- A row of a copy is the row of an inventory observation. -/
theorem Copy.columns (hcopy : Copy hello b copy) (hrow : IsRowOf copy row) :
    ∃ o ∈ copy.observationSet.observations, ∃ payload, o.payload = some payload ∧
      payload.isInventory = true ∧ mapPayload (rowBase copy o) o.payload = .ok (some row) ∧
      Columns (rowBase copy o) payload row := by
  obtain ⟨o, ho, hmap⟩ := hrow
  obtain ⟨r, hr, hpayload⟩ := hcopy.maps hb hhello ho
  rw [hr] at hmap
  cases hmap
  rcases hp : o.payload with _ | payload
  · rw [hp] at hpayload
    cases hpayload
  · have hkind : payload.isInventory = true := by
      rw [hp] at hpayload
      cases payload <;> first | rfl | cases hpayload
    refine ⟨o, ho, payload, hp, hkind, hp ▸ hpayload, ?_⟩
    rw [hp] at hpayload
    exact mapPayload_columns hpayload

/-- An inventory observation of a copy has a row. -/
theorem Copy.exists_row (hcopy : Copy hello b copy) (ho : o ∈ copy.observationSet.observations)
    (hkind : IsInventory o) : ∃ row, IsRowOf copy row ∧
      mapPayload (rowBase copy o) o.payload = .ok (some row) := by
  obtain ⟨payload, hp, hi⟩ := hkind
  obtain ⟨r, hr, hpayload⟩ := hcopy.maps hb hhello ho
  obtain ⟨row, rfl⟩ := mapObservation_inventory hp hi hr
  exact ⟨row, ⟨o, ho, hr⟩, hpayload⟩

/-- The first copy has a row with the key of the new one, as high, exactly if the key
was settled. -/
theorem settled_iff (hfirst : Copy hello b first) (hall : first.observationSet.observations = b.observations)
    (hcopy : Copy hello b copy) (ho : o ∈ copy.observationSet.observations) {payload : Payload}
    (hp : o.payload = some payload) (hkind : payload.isInventory = true)
    (hrow : Columns (rowBase copy o) payload row) :
    (∃ old, IsRowOf first old ∧ old.stored.sortingKey = row.stored.sortingKey ∧
        byVersion row.stored old.stored = true) ↔ Settled first copy o := by
  have htenant : first.tenantId = copy.tenantId := hfirst.tenant.trans hcopy.tenant.symm
  have hcluster : first.clusterId = copy.clusterId := hfirst.cluster.trans hcopy.cluster.symm
  have hob : o ∈ first.observationSet.observations := hall ▸ hcopy.suffix.subset ho
  constructor
  · rintro ⟨old, hold, hkey, hle⟩
    obtain ⟨o', ho', payload', hp', -, -, hcolumns⟩ := hfirst.columns hb hhello hold
    obtain ⟨hid, htime, hevent⟩ := (hcolumns.sortingKey_eq_iff hrow htenant hcluster).mp hkey
    simp only [rowBase] at htime hevent
    simp only [byVersion, hrow.version, hcolumns.version, rowBase, decide_eq_true_eq] at hle
    by_cases hdated : ∃ t, o.observedAt = some t ∧ t.isValid = true
    · exact .inl hdated
    rw [observedAtOf_eq copy.receivedAt hdated] at htime
    rcases Nat.lt_or_eq_of_le hle with hlt | heq
    · exact .inr (.inr ⟨o', ho', hlt, by rw [hp, hp', Option.map_some, Option.map_some, hid], hevent, htime⟩)
    · -- the observation itself, which has the receipt time of each copy
      have hsame : o = o' := hb.eq_of_sequence (hall ▸ hob) (hall ▸ ho') heq
      rw [← hsame, observedAtOf_eq first.receivedAt hdated] at htime
      exact .inr (.inl htime.symm)
  · intro h
    -- the row of an observation of the batch with the new key will do
    have hfrom : ∀ o' ∈ first.observationSet.observations, o.sequence ≤ o'.sequence →
        o'.payload.map identity = some (identity payload) →
        Hash.uuidSHA1 o'.eventId = Hash.uuidSHA1 o.eventId →
        (observedAtOf first.receivedAt o').truncate = (observedAtOf copy.receivedAt o).truncate →
        ∃ old, IsRowOf first old ∧ old.stored.sortingKey = row.stored.sortingKey ∧
          byVersion row.stored old.stored = true := by
      intro o' ho' hle hid hevent htime
      obtain ⟨payload', hp', hid⟩ := Option.map_eq_some_iff.mp hid
      have hkind' : payload'.isInventory = true := by
        rw [isInventory_iff, hid]
        exact isInventory_iff.mp hkind
      obtain ⟨old, hold, hmap⟩ := hfirst.exists_row hb hhello ho' ⟨payload', hp', hkind'⟩
      rw [hp'] at hmap
      have hcolumns := mapPayload_columns hmap
      refine ⟨old, hold, ?_, ?_⟩
      · exact (hcolumns.sortingKey_eq_iff hrow htenant hcluster).mpr ⟨hid, htime, hevent⟩
      · simp only [byVersion, hrow.version, hcolumns.version, rowBase, decide_eq_true_eq]
        exact hle
    have hself : o.payload.map identity = some (identity payload) := by rw [hp, Option.map_some]
    by_cases hdated : ∃ t, o.observedAt = some t ∧ t.isValid = true
    · exact hfrom o hob le_rfl hself rfl (by rw [observedAtOf_valid first.receivedAt copy.receivedAt hdated])
    rcases h with h | h | ⟨o', ho', hlt, hid, hevent, htime⟩
    · exact absurd h hdated
    · refine hfrom o hob le_rfl hself rfl ?_
      rw [observedAtOf_eq _ hdated, observedAtOf_eq _ hdated, h]
    · refine hfrom o' ho' hlt.le (hid.trans hself) hevent ?_
      rw [htime, observedAtOf_eq _ hdated]

/-- Rows of one sorting key and one version are one row. -/
theorem stored_eq_of_tie (hfirst : Copy hello b first) (hcopy : Copy hello b copy)
    (hrow : IsRowOf first row) (hrow' : IsRowOf copy row')
    (hkey : row.stored.sortingKey = row'.stored.sortingKey)
    (hversion : row.stored.version = row'.stored.version) : row.stored = row'.stored := by
  obtain ⟨o, ho, payload, hp, -, hmap, hcolumns⟩ := hfirst.columns hb hhello hrow
  obtain ⟨o', ho', payload', hp', -, hmap', hcolumns'⟩ := hcopy.columns hb hhello hrow'
  have htenant : first.tenantId = copy.tenantId := hfirst.tenant.trans hcopy.tenant.symm
  have hcluster : first.clusterId = copy.clusterId := hfirst.cluster.trans hcopy.cluster.symm
  rw [hcolumns.version, hcolumns'.version] at hversion
  have hsame : o = o' :=
    hb.eq_of_sequence (hfirst.suffix.subset ho) (hcopy.suffix.subset ho') hversion
  subst hsame
  obtain ⟨-, htime, -⟩ := (hcolumns.sortingKey_eq_iff hcolumns' htenant hcluster).mp hkey
  exact mapPayload_stored htenant hcluster htime rfl rfl hmap hmap'

end

/-- **When re-sending is idempotent.** A batch that `validateBatch` accepts is persisted,
and then copies of it under other receipt times. Whatever the tables held before,
`FINAL` shows what it showed after the first copy exactly if every inventory
observation sent again has a settled sorting key. -/
theorem resend_iff {C : Codec} {config : Config} {b : ObservationBatch} {hello : AgentHello}
    {first : Batch} {copies : List Batch} (hb : validateBatch C config b = .ok ())
    (hhello : validateHello hello = .ok ()) (hfirst : Copy hello b first)
    (hall : first.observationSet.observations = b.observations)
    (hcopies : ∀ copy ∈ copies, Copy hello b copy) :
    (∀ stored table, selectFinal (persistEach stored (first :: copies)) table =
        selectFinal (persistEach stored [first]) table) ↔
      ∀ copy ∈ copies, ∀ o ∈ copy.observationSet.observations, IsInventory o →
        Settled first copy o := by
  rw [validateBatch_iff] at hb
  obtain ⟨rows, hrows, hone⟩ :=
    persistEach_rows hb hhello (List.forall_mem_singleton.mpr hfirst)
  obtain ⟨more, hmore, hagain⟩ := persistEach_rows hb hhello hcopies
  simp only [List.mem_singleton, exists_eq_left] at hrows
  -- the rows of the table: those from before, those of the first copy, those of the others
  have hfinal : ∀ stored table, selectFinal (persistEach stored (first :: copies)) table =
      final MappedRow.sortingKey byVersion (((stored.filter (·.table = table)).map MappedRow.stored ++
        (rows.filter (·.table = table)).map MappedRow.stored) ++
        (more.filter (·.table = table)).map MappedRow.stored) := by
    intro stored table
    rw [selectFinal, show persistEach stored (first :: copies) =
      persistEach (persistEach stored [first]) copies from rfl, hagain, hone, List.map_append,
      List.map_append]
  have hfinalOnce : ∀ stored table, selectFinal (persistEach stored [first]) table =
      final MappedRow.sortingKey byVersion ((stored.filter (·.table = table)).map MappedRow.stored ++
        (rows.filter (·.table = table)).map MappedRow.stored) := by
    intro stored table
    rw [selectFinal, hone, List.map_append]
  have hold : ∀ {table row}, row ∈ (rows.filter (·.table = table)).map MappedRow.stored ↔
      ∃ old, IsRowOf first old ∧ old.table = table ∧ old.stored = row := by
    intro table row
    simp only [List.mem_map, List.mem_filter, hrows, decide_eq_true_eq, and_assoc]
  have hnew : ∀ {table row}, row ∈ (more.filter (·.table = table)).map MappedRow.stored ↔
      ∃ new, (∃ copy ∈ copies, IsRowOf copy new) ∧ new.table = table ∧ new.stored = row := by
    intro table row
    simp only [List.mem_map, List.mem_filter, hmore, decide_eq_true_eq, and_assoc]
  constructor
  · intro h copy hcopy o ho hkind
    obtain ⟨payload, hp, hi⟩ := hkind
    obtain ⟨row, hrow, hmap⟩ := (hcopies copy hcopy).exists_row hb hhello ho ⟨payload, hp, hi⟩
    rw [hp] at hmap
    refine (settled_iff hb hhello hfirst hall (hcopies copy hcopy) ho hp hi
      (mapPayload_columns hmap)).mp ?_
    have hsame := h [] row.table
    rw [hfinal, hfinalOnce, List.filter_nil, List.map_nil, List.nil_append] at hsame
    obtain ⟨old, hmem, hkey, hle⟩ := exists_of_final_append byVersion_trans byVersion_total hsame
      (hnew.mpr ⟨row, ⟨copy, hcopy, hrow⟩, rfl, rfl⟩)
    obtain ⟨old, hrow', -, rfl⟩ := hold.mp hmem
    exact ⟨old, hrow', hkey, hle⟩
  · intro h stored table
    rw [hfinal, hfinalOnce]
    apply final_append_of_forall byVersion_trans byVersion_total
    · intro a ha c hc hkey hac hca
      obtain ⟨a, hrow, -, rfl⟩ := hold.mp ha
      obtain ⟨c, ⟨copy, hcopy, hrow'⟩, -, rfl⟩ := hnew.mp hc
      simp only [byVersion, decide_eq_true_eq] at hac hca
      exact stored_eq_of_tie hb hhello hfirst (hcopies copy hcopy) hrow hrow' hkey
        (Nat.le_antisymm hac hca)
    · intro c hc
      obtain ⟨c, ⟨copy, hcopy, hrow'⟩, rfl, rfl⟩ := hnew.mp hc
      obtain ⟨o, ho, payload, hp, hi, -, hcolumns⟩ := (hcopies copy hcopy).columns hb hhello hrow'
      obtain ⟨old, hrow, hkey, hle⟩ := (settled_iff hb hhello hfirst hall (hcopies copy hcopy) ho
        hp hi hcolumns).mpr (h copy hcopy o ho ⟨payload, hp, hi⟩)
      exact ⟨old.stored, hold.mpr ⟨old, hrow, congrArg Prod.fst hkey, rfl⟩, hkey, hle⟩

/-- The batch of the plain run as it came in at this time. -/
def plainCopy (received : Timestamp) : Batch :=
  ⟨"t", "c", "a", 0, received, plainBatch, none⟩

theorem copy_plainCopy (received : Timestamp) : Copy plainHello plainBatch (plainCopy received) :=
  ⟨rfl, rfl, List.suffix_rfl⟩

theorem resend_iff_plainCopy : validateBatch plainCodec plainEnv.config plainBatch = .ok () ∧
    ∀ stored table, selectFinal (persistEach stored [plainCopy ⟨0, 1⟩, plainCopy ⟨0, 2⟩]) table =
      selectFinal (persistEach stored [plainCopy ⟨0, 1⟩]) table := by
  have hcopies : ∀ copy ∈ [plainCopy ⟨0, 2⟩], Copy plainHello plainBatch copy :=
    List.forall_mem_singleton.mpr (copy_plainCopy _)
  have hb : validateBatch plainCodec plainEnv.config plainBatch = .ok () := by decide +kernel
  refine ⟨hb, (resend_iff hb (by decide) (copy_plainCopy ⟨0, 1⟩) rfl hcopies).mpr ?_⟩
  intro copy hcopy o _ _
  rw [List.mem_singleton.mp hcopy]
  exact .inr (.inl rfl)

/-- **An observation without a time is shown twice.** The batch is accepted; its second
copy comes in a millisecond after the first and adds a row to the table. -/
theorem shown_twice : validateBatch plainCodec plainEnv.config plainBatch = .ok () ∧
    (selectFinal (persistEach [] [plainCopy ⟨0, 0⟩]) "cluster").length = 1 ∧
    (selectFinal (persistEach [] [plainCopy ⟨0, 0⟩, plainCopy ⟨0, 1000000⟩]) "cluster").length = 2 := by
  decide +kernel

end Ingestion
end KubeCost
