/-
# A batch that cannot be stored

The loop of `Worker.Run` over a queue that nobody else uses: it leases the first
batches, persists them together, and commits the lease or puts it back in front. An
iteration is a run of the service's steps (`run_next`).

A store that fails every insert with a row of one batch holds up the lease with that
batch for ever, and everything behind it: the other batches are all committed exactly if
none of them has such a row and the batch is harmless or the last one, alone in its lease
(`others_committed_iff`).
-/
import Mathlib.Logic.Function.Iterate
import KubeCost.Ingestion.Server
import KubeCost.Machine

namespace KubeCost
namespace Ingestion

/-- `Store`: what `Insert` does with the rows of a table. -/
abbrev Store := String → List MappedRow → InsertOutcome

/-- The outcomes of the inserts of one `Persist`: one insert for each table, with all its
rows. -/
def Store.inserts (store : Store) (batches : List Batch) : String → InsertOutcome :=
  match mapObservations (observationsOf batches) with
  | .error _ => fun _ => .ok
  | .ok rows => fun table => store table (rows.filter (·.table = table))

/-- What the loop of `Worker.Run` works on. -/
structure Loop where
  queue : Queue Batch
  stored : List MappedRow
  committed : List Batch
  /-- `Run` has returned an error. -/
  stopped : Bool

/-- An iteration of the loop; without items it waits in `Acquire`. -/
def Loop.next (store : Store) (batchSize : ℕ) (w : Loop) : Loop :=
  if w.stopped then w
  else
    match w.queue.acquire batchSize with
    | none => w
    | some (lease, queue) =>
      match persist (store.inserts lease) w.stored lease with
      | (.ok (), stored) =>
        { w with queue := queue.commit lease, stored := stored, committed := w.committed ++ lease }
      | (.error (.invalidInventory _), stored) =>
        { w with queue := queue.retry lease, stored := stored, stopped := true }
      | (.error (.insert _), stored) => { w with queue := queue.retry lease, stored := stored }

/-! ### The loop is the worker of the service -/

/-- What the service's worker has of it, between two iterations. -/
def World.loop (w : World) : Loop where
  queue := w.queue
  stored := w.stored
  committed := w.persisted
  stopped := match w.worker with
    | .stopped => true
    | _ => false

/-- `Lease.Commit` closes the channels one after the other. -/
theorem run_markPersisted (E : Env) : ∀ (pending lease : List Batch) (w : World),
    w.worker = .committing lease pending →
    ∃ steps, Machine.run (step E) w steps = some { w with
      closed := w.closed ++ pending.flatMap (fun item => item.persisted.toList)
      worker := .committing lease [] }
  | [], lease, w, h => ⟨[], by simp [Machine.run, ← h]⟩
  | item :: pending, lease, w, h => by
    obtain ⟨steps, hsteps⟩ := run_markPersisted E pending lease
      { w with closed := w.closed ++ item.persisted.toList, worker := .committing lease pending } rfl
    refine ⟨.markPersisted :: steps, ?_⟩
    simp only [Machine.run, step, Action.sid, World.work, h, Option.bind_some, hsteps,
      List.flatMap_cons, List.append_assoc]

/-- **An iteration is a run of the service's worker.** -/
theorem run_next (E : Env) (store : Store) (w : World) (idle : w.worker = .idle) :
    ∃ steps w', Machine.run (step E) w steps = some w' ∧
      w'.loop = w.loop.next store E.batchSize := by
  have hrunning : w.loop.stopped = false := by simp [World.loop, idle]
  unfold Loop.next
  rw [hrunning]
  simp only [Bool.false_eq_true, if_false]
  cases hacquire : w.queue.acquire E.batchSize with
  | none => exact ⟨[], w, rfl, by simp only [World.loop, hacquire]⟩
  | some leased =>
    obtain ⟨lease, queue⟩ := leased
    simp only [World.loop, hacquire]
    rcases hpersist : persist (store.inserts lease) w.stored lease with ⟨e | ⟨⟩, stored⟩
    · cases e with
      | invalidInventory message =>
        refine ⟨[.lease, .persist (store.inserts lease)], { w with
          queue := queue.retry lease, stored := stored, worker := .stopped }, ?_, rfl⟩
        simp only [Machine.run, step, Action.sid, World.work, idle, hacquire, hpersist,
          Option.bind_some]
      | insert table =>
        refine ⟨[.lease, .persist (store.inserts lease)], { w with
          queue := queue.retry lease, stored := stored, worker := .idle }, ?_, ?_⟩
        · simp only [Machine.run, step, Action.sid, World.work, idle, hacquire, hpersist,
          Option.bind_some]
        · rfl
    · -- the lease is persisted; its channels are closed, and it is committed
      obtain ⟨steps, hsteps⟩ := run_markPersisted E lease lease
        { w with
          queue := queue, stored := stored, worker := .committing lease lease
          persisted := w.persisted ++ lease } rfl
      refine ⟨.lease :: .persist (store.inserts lease) :: (steps ++ [.commit]), { w with
        queue := queue.commit lease, stored := stored, worker := .idle
        closed := w.closed ++ lease.flatMap (fun item => item.persisted.toList)
        persisted := w.persisted ++ lease }, ?_, ?_⟩
      · simp only [Machine.run, step, Action.sid, World.work, idle, hacquire, hpersist,
          Option.bind_some]
        rw [Machine.run_append, hsteps]
        rfl
      · rfl

/-! ### When a lease is persisted -/

/-- The store fails the inserts that have a row of the batch, and no others. -/
def Rejects (store : Store) (X : Batch) : Prop :=
  ∀ table rows, store table rows = .ok ↔ ∀ row ∈ rows, ¬ IsRowOf X row

/-- Every observation of the batch maps, and to no row that the store rejects. -/
def Clear (X batch : Batch) : Prop :=
  ∀ o ∈ batch.observationSet.observations,
    ∃ r, mapObservation batch o = .ok r ∧ ∀ row ∈ r, ¬ IsRowOf X row

/-- `Clear` as a check. -/
def clear (X batch : Batch) : Bool :=
  batch.observationSet.observations.all fun o =>
    match mapObservation batch o with
    | .ok r => r.toList.all fun row => !decide (IsRowOf X row)
    | .error _ => false

theorem clear_iff {X batch : Batch} : clear X batch = true ↔ Clear X batch := by
  unfold clear Clear
  rw [List.all_eq_true]
  refine forall₂_congr fun o _ => ?_
  cases mapObservation batch o with
  | error e => simp
  | ok r => simp

instance (X batch : Batch) : Decidable (Clear X batch) := decidable_of_iff _ clear_iff

theorem insertTables_eq_ok_iff (insert : String → InsertOutcome) (rows : List MappedRow) :
    ∀ (order : List String) (stored : List MappedRow),
    (insertTables insert rows order stored).1 = .ok () ↔ ∀ table ∈ order, insert table = .ok
  | [], stored => by simp [insertTables]
  | table :: order, stored => by
    unfold insertTables
    cases h : insert table with
    | ok =>
      simp only [insertTables_eq_ok_iff insert rows order, List.forall_mem_cons, h, true_and]
    | failed written =>
      simp [h]

/-- **A lease is persisted exactly if each of its batches is clear.** -/
theorem persist_eq_ok_iff {store : Store} {X : Batch} (hstore : Rejects store X)
    (stored : List MappedRow) (lease : List Batch) :
    (persist (store.inserts lease) stored lease).1 = .ok () ↔ ∀ batch ∈ lease, Clear X batch := by
  unfold persist Store.inserts
  cases hmap : mapObservations (observationsOf lease) with
  | error message =>
    simp only [reduceCtorEq, false_iff, not_forall]
    by_contra hclear
    have hall : ∀ p ∈ observationsOf lease, ∃ r, mapObservation p.1 p.2 = .ok r := by
      intro p hp
      obtain ⟨hb, ho⟩ := mem_observationsOf_iff.mp hp
      by_contra hne
      refine hclear ⟨p.1, hb, fun h => ?_⟩
      obtain ⟨r, hr, -⟩ := h p.2 ho
      exact hne ⟨r, hr⟩
    obtain ⟨rows, hrows⟩ := mapObservations_eq_ok_of_forall hall
    cases hmap.symm.trans hrows
  | ok rows =>
    simp only [insertTables_eq_ok_iff]
    constructor
    · intro hinserts batch hb o ho
      obtain ⟨r, hr, hmem⟩ := mapObservations_mem hmap (batch, o) (mem_observationsOf_iff.mpr ⟨hb, ho⟩)
      refine ⟨r, hr, fun row hrow => ?_⟩
      have hin := hmem row hrow
      exact (hstore _ _).mp (hinserts row.table (mem_tableOrder hin)) row
        (List.mem_filter.mpr ⟨hin, by simp⟩)
    · intro hclear table _
      rw [hstore]
      intro row hrow
      obtain ⟨p, hp, hmapped⟩ := exists_of_mem_rows hmap row (List.mem_filter.mp hrow).1
      obtain ⟨hb, ho⟩ := mem_observationsOf_iff.mp hp
      obtain ⟨r, hr, hnot⟩ := hclear p.1 hb p.2 ho
      obtain rfl : r = some row := Except.ok.inj (hr.symm.trans hmapped)
      exact hnot row rfl

/-! ### Iterations -/

variable {store : Store} {X : Batch} {batchSize : ℕ} {w : Loop} {items : List Batch}

theorem acquire_of_items (hsize : 1 ≤ batchSize) {q : Queue Batch} (h : q.items ≠ []) :
    ∃ queue, q.acquire batchSize = some (q.items.take batchSize, queue) ∧
      queue.items = q.items.drop batchSize := by
  have hlength : q.items.length > 0 := List.length_pos_iff.mpr h
  have hmin : q.items.take (min batchSize q.items.length) = q.items.take batchSize :=
    List.take_eq_take_min.symm
  unfold Queue.acquire
  simp only [if_pos hlength, Nat.max_eq_right hsize, hmin]
  exact ⟨_, rfl, List.drop_eq_drop_min.symm⟩

/-- A lease of clear batches is committed. -/
theorem next_of_clear (hstore : Rejects store X) (hsize : 1 ≤ batchSize) (hrun : w.stopped = false)
    (hclear : ∀ batch ∈ w.queue.items.take batchSize, Clear X batch) :
    (w.next store batchSize).committed = w.committed ++ w.queue.items.take batchSize ∧
      (w.next store batchSize).queue.items = w.queue.items.drop batchSize ∧
      (w.next store batchSize).stopped = false := by
  unfold Loop.next
  simp only [hrun, Bool.false_eq_true, if_false]
  by_cases hempty : w.queue.items = []
  · have hacquire : w.queue.acquire batchSize = none := by simp [Queue.acquire, hempty]
    simp [hacquire, hempty, hrun]
  · obtain ⟨queue, hacquire, hrest⟩ := acquire_of_items hsize hempty
    have hok := (persist_eq_ok_iff hstore w.stored _).mpr hclear
    rcases hpersist : persist (store.inserts (w.queue.items.take batchSize)) w.stored
        (w.queue.items.take batchSize) with ⟨e | ⟨⟩, stored⟩
    · rw [hpersist] at hok
      cases hok
    · simp only [hacquire, hpersist, Queue.commit_items]
      exact ⟨trivial, hrest, trivial⟩

/-- A lease with a batch that is not clear is put back. -/
theorem next_of_not_clear (hstore : Rejects store X) (hsize : 1 ≤ batchSize)
    (hblocked : w.stopped = true ∨ ∃ batch ∈ w.queue.items.take batchSize, ¬ Clear X batch) :
    (w.next store batchSize).committed = w.committed ∧
      (w.next store batchSize).queue.items = w.queue.items := by
  unfold Loop.next
  by_cases hstopped : w.stopped = true
  · simp [hstopped]
  obtain ⟨batch, hbatch, hnot⟩ := hblocked.resolve_left hstopped
  simp only [hstopped, Bool.false_eq_true, if_false]
  have hne : w.queue.items ≠ [] := fun h => by
    rw [h, List.take_nil] at hbatch
    cases hbatch
  obtain ⟨queue, hacquire, hrest⟩ := acquire_of_items hsize hne
  have hfails : (persist (store.inserts (w.queue.items.take batchSize)) w.stored
      (w.queue.items.take batchSize)).1 ≠ .ok () :=
    fun h => hnot ((persist_eq_ok_iff hstore w.stored _).mp h batch hbatch)
  have hback : (queue.retry (w.queue.items.take batchSize)).items = w.queue.items := by
    rw [Queue.retry_items, hrest, List.take_append_drop]
  rcases hpersist : persist (store.inserts (w.queue.items.take batchSize)) w.stored
      (w.queue.items.take batchSize) with ⟨e | ⟨⟩, stored⟩
  · cases e with
    | invalidInventory message =>
      simp only [hacquire, hpersist]
      exact ⟨trivial, hback⟩
    | insert table =>
      simp only [hacquire, hpersist]
      exact ⟨trivial, hback⟩
  · rw [hpersist] at hfails
    exact absurd rfl hfails

theorem take_succ_mul (items : List Batch) (m batchSize : ℕ) : items.take ((m + 1) * batchSize) =
    items.take (m * batchSize) ++ (items.drop (m * batchSize)).take batchSize := by
  rw [Nat.succ_mul, List.take_add]

/-- A queue with these items and a worker that has committed nothing. -/
structure Begins (w : Loop) (items : List Batch) : Prop where
  queued : w.queue.items = items
  committed : w.committed = []
  running : w.stopped = false

/-- Leases of clear batches are committed one after the other. -/
theorem iterate_of_clear (hstore : Rejects store X) (hsize : 1 ≤ batchSize) (h : Begins w items) :
    ∀ m : ℕ, (∀ batch ∈ items.take (m * batchSize), Clear X batch) →
      ((Loop.next store batchSize)^[m] w).committed = items.take (m * batchSize) ∧
      ((Loop.next store batchSize)^[m] w).queue.items = items.drop (m * batchSize) ∧
      ((Loop.next store batchSize)^[m] w).stopped = false
  | 0, _ => by simp [h.queued, h.committed, h.running]
  | m + 1, hclear => by
    have hprev : ∀ batch ∈ items.take (m * batchSize), Clear X batch := fun batch hb =>
      hclear batch (List.take_subset_take_left _ (Nat.mul_le_mul_right _ (Nat.le_succ m)) hb)
    obtain ⟨hcommitted, hitems, hrun⟩ := iterate_of_clear hstore hsize h m hprev
    have hlease : ∀ batch ∈ (items.drop (m * batchSize)).take batchSize, Clear X batch :=
      fun batch hb => hclear batch (by rw [take_succ_mul]; exact List.mem_append_right _ hb)
    rw [Function.iterate_succ_apply']
    rw [← hitems] at hlease
    obtain ⟨hcommitted', hitems', hrun'⟩ := next_of_clear hstore hsize hrun hlease
    refine ⟨?_, ?_, hrun'⟩
    · rw [hcommitted', hcommitted, hitems, take_succ_mul]
    · rw [hitems', hitems, List.drop_drop, Nat.succ_mul]

/-- Whatever was committed is a number of whole leases from the front, all clear. -/
theorem iterate_committed (hstore : Rejects store X) (hsize : 1 ≤ batchSize) (h : Begins w items) :
    ∀ n : ℕ, ∃ m : ℕ, ((Loop.next store batchSize)^[n] w).committed = items.take (m * batchSize) ∧
      ((Loop.next store batchSize)^[n] w).queue.items = items.drop (m * batchSize) ∧
      ∀ batch ∈ items.take (m * batchSize), Clear X batch
  | 0 => ⟨0, by simp [h.queued, h.committed]⟩
  | n + 1 => by
    obtain ⟨m, hcommitted, hitems, hclear⟩ := iterate_committed hstore hsize h n
    rw [Function.iterate_succ_apply']
    by_cases hgo : ((Loop.next store batchSize)^[n] w).stopped = false ∧
        ∀ batch ∈ (items.drop (m * batchSize)).take batchSize, Clear X batch
    · obtain ⟨hrun, hlease⟩ := hgo
      rw [← hitems] at hlease
      obtain ⟨hcommitted', hitems', -⟩ := next_of_clear hstore hsize hrun hlease
      refine ⟨m + 1, ?_, ?_, ?_⟩
      · rw [hcommitted', hcommitted, hitems, take_succ_mul]
      · rw [hitems', hitems, List.drop_drop, Nat.succ_mul]
      · intro batch hb
        rw [take_succ_mul] at hb
        rcases List.mem_append.mp hb with hb | hb
        · exact hclear batch hb
        · rw [hitems] at hlease
          exact hlease batch hb
    · have hblocked : ((Loop.next store batchSize)^[n] w).stopped = true ∨
          ∃ batch ∈ ((Loop.next store batchSize)^[n] w).queue.items.take batchSize,
            ¬ Clear X batch := by
        rw [not_and_or, Bool.not_eq_false] at hgo
        refine hgo.imp_right fun hnot => ?_
        rw [hitems]
        push Not at hnot
        exact hnot
      obtain ⟨hcommitted', hitems'⟩ := next_of_not_clear hstore hsize hblocked
      exact ⟨m, by rw [hcommitted', hcommitted], by rw [hitems', hitems], hclear⟩

/-- **When one batch that cannot be stored holds up no other.** The others have no row that
the store rejects; and the batch has none either, or it is the last one and alone in its
lease. -/
theorem others_committed_iff (hstore : Rejects store X) (hsize : 1 ≤ batchSize)
    (h : Begins w items) (hdistinct : items.Nodup) (hX : X ∈ items) :
    (∃ n, ∀ batch ∈ items, batch ≠ X → batch ∈ ((Loop.next store batchSize)^[n] w).committed) ↔
      (∀ batch ∈ items, batch ≠ X → Clear X batch) ∧
      (Clear X X ∨ items.getLast? = some X ∧ batchSize ∣ items.length - 1) := by
  constructor
  · rintro ⟨n, hall⟩
    obtain ⟨m, hcommitted, -, hclear⟩ := iterate_committed hstore hsize h n
    rw [hcommitted] at hall
    refine ⟨fun batch hb hne => hclear batch (hall batch hb hne), ?_⟩
    by_cases hself : Clear X X
    · exact .inl hself
    refine .inr ?_
    -- what is left in the queue is the batch alone
    have hsplit := List.take_append_drop (m * batchSize) items
    have hnd := hdistinct
    rw [← hsplit, List.nodup_append] at hnd
    have honly : ∀ batch ∈ items.drop (m * batchSize), batch = X := by
      intro batch hb
      by_contra hne
      exact hnd.2.2 batch (hall batch (List.mem_of_mem_drop hb) hne) batch hb rfl
    have hmem : X ∈ items.drop (m * batchSize) := by
      rw [← hsplit, List.mem_append] at hX
      exact hX.resolve_left fun hin => hself (hclear X hin)
    have hlast : items.drop (m * batchSize) = [X] := by
      refine List.perm_singleton.mp ((List.perm_ext_iff_of_nodup hnd.2.1 (List.nodup_singleton X)).mpr ?_)
      intro batch
      rw [List.mem_singleton]
      exact ⟨honly batch, fun heq => heq ▸ hmem⟩
    have hlength : items.length - m * batchSize = 1 := by
      rw [← List.length_drop, hlast, List.length_singleton]
    refine ⟨?_, ⟨m, ?_⟩⟩
    · rw [← hsplit, hlast, List.getLast?_append]
      rfl
    · rw [Nat.mul_comm]
      omega
  · rintro ⟨hothers, hself | ⟨hlast, m, hm⟩⟩
    · have hclear : ∀ batch ∈ items.take (items.length * batchSize), Clear X batch := by
        intro batch hb
        by_cases hb' : batch = X
        · rwa [hb']
        · exact hothers batch (List.mem_of_mem_take hb) hb'
      refine ⟨items.length, fun batch hb _ => ?_⟩
      rw [(iterate_of_clear hstore hsize h items.length hclear).1,
        List.take_of_length_le (Nat.le_mul_of_pos_right _ hsize)]
      exact hb
    · -- the leases before the last batch have only the others
      obtain ⟨front, rfl⟩ := List.getLast?_eq_some_iff.mp hlast
      have hfront : (front ++ [X]).take (m * batchSize) = front := by
        rw [List.length_append, List.length_singleton] at hm
        rw [List.take_append_of_le_length (by rw [Nat.mul_comm]; omega)]
        exact List.take_of_length_le (by rw [Nat.mul_comm]; omega)
      have hnot : X ∉ front := fun hin =>
        (List.nodup_append.mp hdistinct).2.2 X hin X (List.mem_singleton_self X) rfl
      have hclear : ∀ batch ∈ (front ++ [X]).take (m * batchSize), Clear X batch := by
        intro batch hb
        rw [hfront] at hb
        exact hothers batch (List.mem_append_left _ hb) fun heq => hnot (heq ▸ hb)
      refine ⟨m, fun batch hb hne => ?_⟩
      rw [(iterate_of_clear hstore hsize h m hclear).1, hfront]
      exact (List.mem_append.mp hb).resolve_right fun hin => hne (List.mem_singleton.mp hin)

/-! ### Two clusters -/

/-- A store that fails exactly on the rows of the batch. -/
def storeWithout (X : Batch) : Store := fun _ rows =>
  if ∀ row ∈ rows, ¬ IsRowOf X row then .ok else .failed false

theorem rejects_storeWithout (X : Batch) : Rejects (storeWithout X) X := by
  intro table rows
  unfold storeWithout
  split
  · rename_i h
    simpa using h
  · rename_i h
    simpa using h

/-- A batch with the inventory of a cluster, for examples. -/
def clusterBatch (cluster : String) : Batch where
  tenantId := "t"
  clusterId := cluster
  agentInstance := "a"
  sessionId := 0
  receivedAt := ⟨0, 0⟩
  observationSet := ⟨"b", 1, 1, none, [], [{
    sequence := 1
    eventId := "e"
    observedAt := some ⟨0, 0⟩
    payload := some (.clusterInventory { record := some ⟨.upsert, "", false⟩ }) }]⟩
  persisted := none

/-- A queue with two batches, and the worker before its first iteration. -/
def plainLoop (first second : Batch) : Loop := ⟨⟨[first, second], 2, 0, true⟩, [], [], false⟩

theorem others_committed_iff_last : ∃ n, ∀ batch ∈ [clusterBatch "c", clusterBatch "x"],
    batch ≠ clusterBatch "x" → batch ∈ ((Loop.next (storeWithout (clusterBatch "x")) 1)^[n]
      (plainLoop (clusterBatch "c") (clusterBatch "x"))).committed := by
  have hbegins : Begins (plainLoop (clusterBatch "c") (clusterBatch "x"))
      [clusterBatch "c", clusterBatch "x"] := ⟨rfl, rfl, rfl⟩
  refine (others_committed_iff (rejects_storeWithout (clusterBatch "x")) (Nat.le_refl 1)
    hbegins ?_ ?_).mpr ⟨?_, .inr ⟨rfl, 1, rfl⟩⟩
  · decide +kernel
  · exact List.mem_cons_of_mem _ (List.mem_singleton_self _)
  · decide +kernel

/-- **A batch at the front holds up the other cluster**, however often the worker tries. -/
theorem held_up_for_ever : ¬ ∃ n, ∀ batch ∈ [clusterBatch "x", clusterBatch "c"],
    batch ≠ clusterBatch "x" → batch ∈ ((Loop.next (storeWithout (clusterBatch "x")) 1)^[n]
      (plainLoop (clusterBatch "x") (clusterBatch "c"))).committed := by
  have hfront : ¬ Clear (clusterBatch "x") (clusterBatch "x") := by decide +kernel
  have hdiffer : clusterBatch "c" ≠ clusterBatch "x" := by decide +kernel
  have hbegins : Begins (plainLoop (clusterBatch "x") (clusterBatch "c"))
      [clusterBatch "x", clusterBatch "c"] := ⟨rfl, rfl, rfl⟩
  rintro ⟨n, hall⟩
  obtain ⟨m, hcommitted, -, hclear⟩ := iterate_committed
    (rejects_storeWithout (clusterBatch "x")) (Nat.le_refl 1) hbegins n
  have hin := hall (clusterBatch "c") (List.mem_cons_of_mem _ (List.mem_singleton_self _)) hdiffer
  rw [hcommitted] at hin
  cases m with
  | zero => simp at hin
  | succ m => exact hfront (hclear _ (by simp))

end Ingestion
end KubeCost
