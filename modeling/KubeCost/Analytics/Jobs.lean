/-
# Query jobs

`services/query/query_jobs.go`: the store of the asynchronous queries, which keeps the
jobs that were created last and forgets the others, and the workers that run the jobs.
A worker goes on when its job is gone and still calls the store with the job's id. In
every interleaving the map and the order list of the store agree (`Inv`), a job that is
gone stays gone, and the status of a job only moves forward (`job_store`).

What the execution of a query gives is an input: any error, or any manifest and result.
-/
import Mathlib.Data.List.Nodup
import KubeCost.Analytics.Server
import KubeCost.Machine

namespace KubeCost
namespace Analytics
namespace Jobs

/-! ### Types -/

inductive Status where
  | queued
  | running
  | succeeded
  | failed
deriving DecidableEq

structure QueryJobRequest where
  queryType : String
  clusterId : String := ""
  start : String
  stop : String
  groupBy : String := ""
  limit : ℤ := 0
  includeQuality : Bool := false
deriving DecidableEq

structure AsyncAnalyticsQuery where
  clusterId : String
  start : Instant
  stop : Instant
  groupBy : String
  limit : ℤ
  includeQuality : Bool
deriving DecidableEq

structure QueryManifest where
  resultType : String
  schemaVersion : String
  contentType : String
  rowCount : ℕ
  byteSize : ℕ
  sha256 : String
  generatedAt : Instant
  inline : Bool
deriving DecidableEq

structure QueryJobResult (ρ : Type) where
  queryId : String
  tenantId : String
  queryType : String
  status : Status
  createdAt : Instant
  startedAt : Option Instant := none
  finishedAt : Option Instant := none
  query : AsyncAnalyticsQuery
  manifest : Option QueryManifest := none
  error : String := ""
  result : Option ρ := none
deriving DecidableEq

structure QueryJobStore (ρ : Type) where
  maxJobs : ℤ
  order : List String
  jobs : String → Option (QueryJobResult ρ)

variable {ρ : Type}

/-! ### The store -/

namespace QueryJobStore

/-- The bound that `newQueryJobStore` sets. -/
def capacity (maxJobs : ℤ) : ℤ := if maxJobs ≤ 0 then 1000 else maxJobs

theorem capacity_pos (maxJobs : ℤ) : 0 < capacity maxJobs := by
  unfold capacity
  split <;> omega

/-- `newQueryJobStore`. -/
def new (maxJobs : ℤ) : QueryJobStore ρ := ⟨capacity maxJobs, [], fun _ => none⟩

/-- The loop of `evictLocked`. -/
def evict (maxJobs : ℤ) : List String → (String → Option (QueryJobResult ρ)) → QueryJobStore ρ
  | [], jobs => ⟨maxJobs, [], jobs⟩
  | oldest :: rest, jobs =>
    if (oldest :: rest).length > maxJobs then evict maxJobs rest (Function.update jobs oldest none)
    else ⟨maxJobs, oldest :: rest, jobs⟩

def evictLocked (s : QueryJobStore ρ) : QueryJobStore ρ := evict s.maxJobs s.order s.jobs

def create (s : QueryJobStore ρ) (queryID tenantID queryType : String) (query : AnalyticsQuery)
    (now : Instant) : QueryJobStore ρ × QueryJobResult ρ :=
  let job : QueryJobResult ρ :=
    { queryId := queryID
      tenantId := tenantID
      queryType := queryType
      status := .queued
      createdAt := now
      query :=
        { clusterId := query.clusterId
          start := query.start
          stop := query.stop
          groupBy := query.groupBy
          limit := normalizedAnalyticsLimit query.limit
          includeQuality := query.includeQuality } }
  (evictLocked { s with jobs := Function.update s.jobs queryID (some job), order := s.order ++ [queryID] },
    job)

def get (s : QueryJobStore ρ) (tenantID queryID : String) : Option (QueryJobResult ρ) :=
  (s.jobs queryID).filter fun job => job.tenantId = tenantID

/-- What `start`, `succeed` and `fail` do with the job that `get` finds. -/
def modify (s : QueryJobStore ρ) (tenantID queryID : String)
    (f : QueryJobResult ρ → QueryJobResult ρ) : QueryJobStore ρ × Bool :=
  match s.get tenantID queryID with
  | none => (s, false)
  | some job => ({ s with jobs := Function.update s.jobs queryID (some (f job)) }, true)

def start (s : QueryJobStore ρ) (tenantID queryID : String) (now : Instant) : QueryJobStore ρ × Bool :=
  s.modify tenantID queryID fun job => { job with status := .running, startedAt := some now }

def succeed (s : QueryJobStore ρ) (tenantID queryID : String) (manifest : QueryManifest) (result : ρ)
    (now : Instant) : QueryJobStore ρ × Bool :=
  s.modify tenantID queryID fun job =>
    { job with status := .succeeded, finishedAt := some now, manifest := some manifest, result := some result }

def fail (s : QueryJobStore ρ) (tenantID queryID err : String) (now : Instant) : QueryJobStore ρ × Bool :=
  s.modify tenantID queryID fun job =>
    { job with status := .failed, finishedAt := some now, error := err }

end QueryJobStore

/-! ### Requests and workers -/

/-- `asyncAnalyticsQuery`: the query and its type. -/
def asyncAnalyticsQuery (request : QueryJobRequest) (tenantID : String) :
    Except Problem (AnalyticsQuery × String) := do
  let queryType := trimSpace request.queryType
  rejectIf (queryType ∉ [CursorKind.usage.name, CursorKind.costs.name, CursorKind.allocation.name])
    (invalidRequest "query_type must be one of usage, costs, allocation")
  let start ← (parseRequiredTime request.start "start").mapError invalidRequest
  let stop ← (parseRequiredTime request.stop "end").mapError invalidRequest
  rejectIf (¬ start < stop) (invalidRequest "start must be before end")
  rejectIf (start.truncate Instant.hour ≠ start ∨ stop.truncate Instant.hour ≠ stop)
    (invalidRequest "start and end must be aligned to whole hours")
  let groupBy := if trimSpace request.groupBy = "" then "namespace" else trimSpace request.groupBy
  rejectIf (validAnalyticsGroupBy groupBy = false)
    (invalidRequest "group_by must be one of namespace, cluster, team, project, environment, cost_center")
  rejectIf (request.limit < 0) (invalidRequest "limit must be a positive integer")
  let limit := if request.limit = 0 then defaultAnalyticsLimit else request.limit
  return (
    { tenantId := tenantID
      clusterId := trimSpace request.clusterId
      start := start
      stop := stop
      groupBy := groupBy
      limit := limit
      includeQuality := request.includeQuality }, queryType)

/-- How far `runQueryJob` has come. -/
inductive Phase where
  | launched
  | started
  | finished
deriving DecidableEq

/-- A call of `runQueryJob`. -/
structure Worker where
  query : AnalyticsQuery
  phase : Phase

/-- The store, the worker of each id, and the jobs that were created with their tenants. -/
structure World (ρ : Type) where
  store : QueryJobStore ρ
  workers : String → Option Worker
  created : List (String × String)

/-- What takes the lock of the store. -/
inductive Action (ρ : Type) where
  /-- `createQueryJob`, with the id that `newQueryID` generates. -/
  | create (queryID tenantID : String) (request : QueryJobRequest) (now : Instant)
  | start (queryID : String) (now : Instant)
  | succeed (queryID : String) (manifest : QueryManifest) (result : ρ) (now : Instant)
  | fail (queryID err : String) (now : Instant)
  | get (tenantID queryID : String)

namespace World

def initial (maxJobs : ℤ) : World ρ := ⟨.new maxJobs, fun _ => none, []⟩

/-- The worker of an id goes on with a call of the store. -/
def proceed (w : World ρ) (queryID : String) (before after : Phase)
    (call : String → QueryJobStore ρ × Bool) : Option (World ρ) :=
  match w.workers queryID with
  | none => none
  | some worker =>
    if worker.phase = before then
      some { w with
        store := (call worker.query.tenantId).1
        workers := Function.update w.workers queryID (some { worker with phase := after }) }
    else none

def step (w : World ρ) : Action ρ → Option (World ρ)
  | .create queryID tenantID request now =>
    match asyncAnalyticsQuery request tenantID with
    | .error _ => some w
    | .ok (query, queryType) =>
      -- the generated ids are distinct
      if queryID ∈ w.created.map Prod.fst then none
      else some
        { store := (w.store.create queryID tenantID queryType query now).1
          workers := Function.update w.workers queryID (some ⟨query, .launched⟩)
          created := w.created ++ [(queryID, tenantID)] }
  | .start queryID now =>
    w.proceed queryID .launched .started fun tenantID => w.store.start tenantID queryID now
  | .succeed queryID manifest result now =>
    w.proceed queryID .started .finished fun tenantID => w.store.succeed tenantID queryID manifest result now
  | .fail queryID err now =>
    w.proceed queryID .started .finished fun tenantID => w.store.fail tenantID queryID err now
  | .get _ _ => some w

end World

/-! ### What a step does -/

/-- The moves of a status. -/
inductive Status.Next : Status → Status → Prop
  | start : Next .queued .running
  | succeed : Next .running .succeeded
  | fail : Next .running .failed

/-- The job of a worker that has come so far. -/
def QueryJobResult.Fits (job : QueryJobResult ρ) : Phase → Prop
  | .launched =>
    job.status = .queued ∧ job.startedAt = none ∧ job.finishedAt = none ∧ job.manifest = none
  | .started =>
    job.status = .running ∧ job.startedAt.isSome ∧ job.finishedAt = none ∧ job.manifest = none
  | .finished =>
    job.startedAt.isSome ∧ job.finishedAt.isSome ∧
      (job.status = .succeeded ∧ job.manifest.isSome ∨ job.status = .failed ∧ job.manifest = none)

/-- What a call of a worker does to its job, if the job is still there. -/
structure Advances (before after : Phase) (f : QueryJobResult ρ → QueryJobResult ρ) : Prop where
  tenantId : ∀ job, (f job).tenantId = job.tenantId
  fits : ∀ job : QueryJobResult ρ, job.Fits before → (f job).Fits after
  next : ∀ job : QueryJobResult ρ, job.Fits before → job.status.Next (f job).status

theorem advances_start (now : Instant) : Advances .launched .started
    fun job : QueryJobResult ρ => { job with status := .running, startedAt := some now } where
  tenantId _ := rfl
  fits _ h := ⟨rfl, rfl, h.2.2.1, h.2.2.2⟩
  next job h := by
    rw [h.1]
    exact .start

theorem advances_succeed (manifest : QueryManifest) (result : ρ) (now : Instant) :
    Advances .started .finished fun job : QueryJobResult ρ =>
      { job with status := .succeeded, finishedAt := some now, manifest := some manifest,
                 result := some result } where
  tenantId _ := rfl
  fits _ h := ⟨h.2.1, rfl, .inl ⟨rfl, rfl⟩⟩
  next job h := by
    rw [h.1]
    exact .succeed

theorem advances_fail (err : String) (now : Instant) : Advances .started .finished
    fun job : QueryJobResult ρ =>
      { job with status := .failed, finishedAt := some now, error := err } where
  tenantId _ := rfl
  fits _ h := ⟨h.2.1, rfl, .inr ⟨rfl, h.2.2.2⟩⟩
  next job h := by
    rw [h.1]
    exact .fail

theorem asyncAnalyticsQuery_tenantId {request : QueryJobRequest} {tenantID queryType : String}
    {query : AnalyticsQuery} (h : asyncAnalyticsQuery request tenantID = .ok (query, queryType)) :
    query.tenantId = tenantID := by
  simp only [asyncAnalyticsQuery, bind_eq_ok] at h
  obtain ⟨_, _, _, _, _, _, _, _, _, _, _, _, _, _, h⟩ := h
  obtain ⟨rfl, -⟩ := Prod.mk.inj (Except.ok.inj h)
  rfl

section

variable {w w' : World ρ} {a : Action ρ}

theorem proceed_cases {queryID : String} {before after : Phase}
    {f : QueryJobResult ρ → QueryJobResult ρ} (hf : Advances before after f)
    (h : (w.proceed queryID before after fun tenantID => w.store.modify tenantID queryID f) = some w') :
    ∃ query, w.workers queryID = some ⟨query, before⟩ ∧
      w' = { w with
        store := (w.store.modify query.tenantId queryID f).1
        workers := Function.update w.workers queryID (some ⟨query, after⟩) } := by
  unfold World.proceed at h
  split at h
  · cases h
  · rename_i worker hworker
    split at h
    · rename_i hphase
      cases h
      subst hphase
      exact ⟨worker.query, hworker, rfl⟩
    · cases h

/-- **What a step does**: nothing, a new job, or the next call of a worker. -/
theorem step_cases (h : w.step a = some w') :
    w' = w ∨
    (∃ queryID queryType query now, queryID ∉ w.created.map Prod.fst ∧
      w' = { store := (w.store.create queryID query.tenantId queryType query now).1
             workers := Function.update w.workers queryID (some ⟨query, .launched⟩)
             created := w.created ++ [(queryID, query.tenantId)] }) ∨
    (∃ queryID query before after f, Advances before after f ∧
      w.workers queryID = some ⟨query, before⟩ ∧
      w' = { w with
        store := (w.store.modify query.tenantId queryID f).1
        workers := Function.update w.workers queryID (some ⟨query, after⟩) }) := by
  cases a with
  | create queryID tenantID request now =>
    simp only [World.step] at h
    split at h
    · exact .inl (Option.some.inj h).symm
    · rename_i query queryType hquery
      split at h
      · cases h
      · rename_i hfresh
        obtain rfl := asyncAnalyticsQuery_tenantId hquery
        exact .inr (.inl ⟨queryID, queryType, query, now, hfresh, (Option.some.inj h).symm⟩)
  | start queryID now =>
    obtain ⟨query, hworker, hw⟩ := proceed_cases (advances_start now) h
    exact .inr (.inr ⟨queryID, query, _, _, _, advances_start now, hworker, hw⟩)
  | succeed queryID manifest result now =>
    obtain ⟨query, hworker, hw⟩ := proceed_cases (advances_succeed manifest result now) h
    exact .inr (.inr ⟨queryID, query, _, _, _, advances_succeed manifest result now, hworker, hw⟩)
  | fail queryID err now =>
    obtain ⟨query, hworker, hw⟩ := proceed_cases (advances_fail err now) h
    exact .inr (.inr ⟨queryID, query, _, _, _, advances_fail err now, hworker, hw⟩)
  | get tenantID queryID => exact .inl (Option.some.inj h).symm

end

/-! ### The calls of the store -/

section

variable {s : QueryJobStore ρ} {jobs : String → Option (QueryJobResult ρ)}

/-- **What eviction leaves**: the last of the order, and the jobs of the others are gone. -/
theorem evict_eq (maxJobs : ℕ) : ∀ (order : List String) (jobs : String → Option (QueryJobResult ρ)),
    QueryJobStore.evict maxJobs order jobs =
      ⟨maxJobs, order.drop (order.length - maxJobs),
        fun id => if id ∈ order.take (order.length - maxJobs) then none else jobs id⟩
  | [], jobs => by simp [QueryJobStore.evict]
  | oldest :: rest, jobs => by
    unfold QueryJobStore.evict
    by_cases hfull : maxJobs < (oldest :: rest).length
    · have hcount : (oldest :: rest).length - maxJobs = rest.length - maxJobs + 1 := by
        simp only [List.length_cons] at hfull ⊢
        omega
      rw [if_pos (Nat.cast_lt.mpr hfull), evict_eq maxJobs rest, hcount, List.drop_succ_cons,
        List.take_succ_cons]
      congr 1
      funext id
      by_cases hid : id = oldest
      · simp [hid]
      · simp [hid]
    · rw [if_neg (by omega), Nat.sub_eq_zero_of_le (Nat.le_of_not_lt hfull)]
      simp

/-- Eviction keeps the map and the order list in step. -/
theorem evict_keys {maxJobs : ℕ} {order : List String} (hnodup : order.Nodup)
    (hkeys : ∀ id, (jobs id).isSome ↔ id ∈ order) (id : String) :
    ((QueryJobStore.evict maxJobs order jobs).jobs id).isSome ↔
      id ∈ (QueryJobStore.evict maxJobs order jobs).order := by
  have hdisjoint := List.disjoint_take_drop hnodup (le_refl (order.length - maxJobs))
  rw [evict_eq]
  by_cases hgone : id ∈ order.take (order.length - maxJobs)
  · simp only [if_pos hgone, Option.isSome_none, Bool.false_eq_true, false_iff]
    exact hdisjoint hgone
  · simp only [if_neg hgone, hkeys]
    constructor
    · intro hid
      rw [← List.take_append_drop (order.length - maxJobs) order] at hid
      exact (List.mem_append.mp hid).resolve_left hgone
    · exact List.mem_of_mem_drop

theorem evict_jobs {maxJobs : ℕ} {order : List String} {id : String} {job : QueryJobResult ρ}
    (h : (QueryJobStore.evict maxJobs order jobs).jobs id = some job) : jobs id = some job := by
  rw [evict_eq] at h
  simp only at h
  split at h
  · cases h
  · exact h

theorem get_eq_some {tenantID queryID : String} {job : QueryJobResult ρ} :
    s.get tenantID queryID = some job ↔ s.jobs queryID = some job ∧ job.tenantId = tenantID := by
  rw [QueryJobStore.get, Option.filter_eq_some_iff, decide_eq_true_eq]

/-- A call for a job that the tenant has changes that job only. -/
theorem modify_of_some {queryID : String} {job : QueryJobResult ρ}
    (h : s.jobs queryID = some job) (f : QueryJobResult ρ → QueryJobResult ρ) :
    (s.modify job.tenantId queryID f).1 =
      { s with jobs := Function.update s.jobs queryID (some (f job)) } := by
  rw [QueryJobStore.modify, get_eq_some.mpr ⟨h, rfl⟩]

/-- A call for a job that is gone does nothing. -/
theorem modify_of_none {tenantID queryID : String} (h : s.jobs queryID = none)
    (f : QueryJobResult ρ → QueryJobResult ρ) : (s.modify tenantID queryID f).1 = s := by
  rw [QueryJobStore.modify, QueryJobStore.get, h]
  rfl

theorem modify_of_ne {tenantID queryID id : String} (h : id ≠ queryID)
    (f : QueryJobResult ρ → QueryJobResult ρ) : (s.modify tenantID queryID f).1.jobs id = s.jobs id := by
  unfold QueryJobStore.modify
  split
  · rfl
  · exact Function.update_of_ne h _ _

end

/-! ### Every reachable state -/

/-- The map and the order list hold the jobs that were created last, and each of these jobs
is where its worker left it. -/
structure Inv (n : ℕ) (w : World ρ) : Prop where
  maxJobs : w.store.maxJobs = n
  distinct : (w.created.map Prod.fst).Nodup
  order : w.store.order = (w.created.map Prod.fst).drop (w.created.length - n)
  keys : ∀ id, (w.store.jobs id).isSome ↔ id ∈ w.store.order
  workers : ∀ id query phase, w.workers id = some ⟨query, phase⟩ → (id, query.tenantId) ∈ w.created
  jobs : ∀ id job, w.store.jobs id = some job →
    ∃ query phase, w.workers id = some ⟨query, phase⟩ ∧ job.tenantId = query.tenantId ∧ job.Fits phase

/-- The worker of one id is another or further on; every worker still has a job of its
tenant. -/
theorem created_of_update {workers : String → Option Worker} {created : List (String × String)}
    (h : ∀ id query phase, workers id = some ⟨query, phase⟩ → (id, query.tenantId) ∈ created)
    {queryID : String} {query : AnalyticsQuery} (hmem : (queryID, query.tenantId) ∈ created) (phase : Phase) :
    ∀ id query' phase', Function.update workers queryID (some ⟨query, phase⟩) id = some ⟨query', phase'⟩ →
      (id, query'.tenantId) ∈ created := by
  intro id query' phase' hid
  rcases Machine.update_eq_some hid with ⟨rfl, heq⟩ | ⟨-, hold⟩
  · cases heq
    exact hmem
  · exact h id query' phase' hold

namespace Inv

variable {n : ℕ} {w : World ρ}

theorem initial (maxJobs : ℤ) :
    Inv (QueryJobStore.capacity maxJobs).toNat (World.initial maxJobs : World ρ) where
  maxJobs := (Int.toNat_of_nonneg (QueryJobStore.capacity_pos maxJobs).le).symm
  distinct := List.nodup_nil
  order := by simp [World.initial, QueryJobStore.new]
  keys id := by simp [World.initial, QueryJobStore.new]
  workers id query phase h := by cases h
  jobs id job h := by cases h

theorem create (h : Inv n w) {queryID queryType : String} {query : AnalyticsQuery} {now : Instant}
    (hfresh : queryID ∉ w.created.map Prod.fst) :
    Inv n { store := (w.store.create queryID query.tenantId queryType query now).1
            workers := Function.update w.workers queryID (some ⟨query, .launched⟩)
            created := w.created ++ [(queryID, query.tenantId)] } := by
  have hstore : (w.store.create queryID query.tenantId queryType query now).1 =
      QueryJobStore.evict n (w.store.order ++ [queryID]) (Function.update w.store.jobs queryID
        (some (w.store.create queryID query.tenantId queryType query now).2)) := by
    rw [← h.maxJobs]
    rfl
  generalize hjob : (w.store.create queryID query.tenantId queryType query now).2 = job at hstore
  have htenant : job.tenantId = query.tenantId := hjob ▸ rfl
  have hqueued : job.Fits .launched := hjob ▸ ⟨rfl, rfl, rfl, rfl⟩
  have hnew : queryID ∉ w.store.order := fun hmem => hfresh (List.mem_of_mem_drop (h.order ▸ hmem))
  have hdistinct : ((w.created ++ [(queryID, query.tenantId)]).map Prod.fst).Nodup := by
    rw [List.map_append]
    exact h.distinct.append (List.nodup_singleton _) (by simpa using hfresh)
  have hlisted : (w.store.order ++ [queryID]).Nodup := by
    refine List.Nodup.append ?_ (List.nodup_singleton _) (by simpa using hnew)
    rw [h.order]
    exact h.distinct.sublist (List.drop_sublist _ _)
  rw [hstore]
  refine ⟨?_, hdistinct, ?_, ?_, ?_, ?_⟩
  · rw [evict_eq]
  · have hlast : w.store.order ++ [queryID] =
        ((w.created ++ [(queryID, query.tenantId)]).map Prod.fst).drop (w.created.length - n) := by
      rw [h.order, List.map_append, List.drop_append_of_le_length (by simp)]
      rfl
    rw [evict_eq, hlast, List.drop_drop]
    simp only [List.length_drop, List.length_map, List.length_append, List.length_singleton]
    congr 1
    omega
  · refine evict_keys hlisted fun id => ?_
    by_cases hid : id = queryID
    · simp [hid]
    · simp [hid, h.keys]
  · exact created_of_update (fun id query' phase hworker =>
      List.mem_append_left _ (h.workers id query' phase hworker))
      (List.mem_append_right _ List.mem_cons_self) .launched
  · intro id job' hjob'
    rcases Machine.update_eq_some (evict_jobs hjob') with ⟨rfl, heq⟩ | ⟨hid, hkept⟩
    · cases heq
      exact ⟨query, .launched, Function.update_self .., htenant, hqueued⟩
    · simpa only [Function.update_of_ne hid] using h.jobs id job' hkept

theorem advance (h : Inv n w) {queryID : String} {query : AnalyticsQuery} {before after : Phase}
    {f : QueryJobResult ρ → QueryJobResult ρ} (hf : Advances before after f)
    (hworker : w.workers queryID = some ⟨query, before⟩) :
    Inv n { w with
      store := (w.store.modify query.tenantId queryID f).1
      workers := Function.update w.workers queryID (some ⟨query, after⟩) } := by
  have hworkers := created_of_update h.workers (h.workers queryID query before hworker) after
  cases hjob : w.store.jobs queryID with
  | none =>
    -- the job is gone
    rw [modify_of_none hjob]
    refine ⟨h.maxJobs, h.distinct, h.order, h.keys, hworkers, fun id job hid => ?_⟩
    have hne : id ≠ queryID := by
      rintro rfl
      rw [hjob] at hid
      cases hid
    simpa only [Function.update_of_ne hne] using h.jobs id job hid
  | some job =>
    obtain ⟨query', phase, hworker', htenant, hfits⟩ := h.jobs queryID job hjob
    rw [hworker, Option.some.injEq, Worker.mk.injEq] at hworker'
    obtain ⟨rfl, rfl⟩ := hworker'
    rw [← htenant, modify_of_some hjob]
    refine ⟨h.maxJobs, h.distinct, h.order, fun id => ?_, hworkers, fun id job' hid => ?_⟩
    · by_cases heq : id = queryID
      · subst heq
        have hlisted := (h.keys id).mp (by rw [hjob]; rfl)
        simp only [Function.update_self, Option.isSome_some, hlisted]
      · simp only [Function.update_of_ne heq, h.keys]
    · rcases Machine.update_eq_some hid with ⟨rfl, heq⟩ | ⟨hne, hold⟩
      · cases heq
        exact ⟨query, after, Function.update_self .., (hf.tenantId job).trans htenant, hf.fits job hfits⟩
      · simpa only [Function.update_of_ne hne] using h.jobs id job' hold

theorem step (h : Inv n w) {a : Action ρ} {w' : World ρ} (hstep : w.step a = some w') : Inv n w' := by
  obtain rfl | ⟨queryID, queryType, query, now, hfresh, rfl⟩ |
    ⟨queryID, query, before, after, f, hf, hworker, rfl⟩ := step_cases hstep
  · exact h
  · exact h.create hfresh
  · exact h.advance hf hworker

theorem reach (maxJobs : ℤ) (h : Machine.Reach World.step Machine.Always (World.initial maxJobs) w) :
    Inv (QueryJobStore.capacity maxJobs).toNat w :=
  h.invariant (initial maxJobs) fun _ _ _ hinv _ hstep => hinv.step hstep

end Inv

/-! ### Jobs over time -/

section

variable {w w' : World ρ} {a : Action ρ} {n : ℕ}

theorem created_step (h : w.step a = some w') : w.created <+: w'.created := by
  obtain rfl | ⟨queryID, queryType, query, now, hfresh, rfl⟩ |
    ⟨queryID, query, before, after, f, hf, hworker, rfl⟩ := step_cases h
  · exact List.prefix_rfl
  · exact List.prefix_append _ _
  · exact List.prefix_rfl

theorem created_reach (h : Machine.Reach World.step Machine.Always w w') : w.created <+: w'.created :=
  h.invariant (I := fun v => w.created <+: v.created) List.prefix_rfl
    fun _ _ _ hbefore _ hstep => hbefore.trans (created_step hstep)

/-- A job that was created and is no longer among the last stays away. -/
theorem gone (h : Inv n w) (h' : Inv n w') (hreach : Machine.Reach World.step Machine.Always w w')
    {id : String} (hid : id ∈ w.created.map Prod.fst) (hgone : id ∉ w.store.order) :
    id ∉ w'.store.order := by
  obtain ⟨later, hlater⟩ := created_reach hreach
  have hold : id ∈ (w.created.map Prod.fst).take (w.created.length - n) := by
    rw [h.order] at hgone
    rw [← List.take_append_drop (w.created.length - n) (w.created.map Prod.fst)] at hid
    exact (List.mem_append.mp hid).resolve_right hgone
  have hearlier : id ∈ (w'.created.map Prod.fst).take (w'.created.length - n) := by
    have hmore : w.created.length - n ≤ w'.created.length - n := by
      rw [← hlater, List.length_append]
      omega
    rw [← hlater, List.map_append, List.take_append]
    rw [← hlater] at hmore
    exact List.mem_append_left _ ((List.take_subset_take_left _ hmore) hold)
  rw [h'.order]
  exact List.disjoint_take_drop h'.distinct (le_refl _) hearlier

/-- A job as `create` stores it and leaves the others. -/
theorem create_jobs (h : Inv n w) {queryID queryType id : String} {query : AnalyticsQuery} {now : Instant}
    {job : QueryJobResult ρ}
    (hjob : (w.store.create queryID query.tenantId queryType query now).1.jobs id = some job) :
    id = queryID ∧ job.status = .queued ∨ w.store.jobs id = some job := by
  simp only [QueryJobStore.create, QueryJobStore.evictLocked, h.maxJobs] at hjob
  have hkept := evict_jobs hjob
  by_cases hid : id = queryID
  · subst hid
    rw [Function.update_self, Option.some.injEq] at hkept
    exact .inl ⟨rfl, by rw [← hkept]⟩
  · rw [Function.update_of_ne hid] at hkept
    exact .inr hkept

/-- **One move at a time.** A job is new and queued, or the step leaves its status as it is or
moves it on. -/
theorem status_step (h : Inv n w) (hstep : w.step a = some w') {id : String} {job' : QueryJobResult ρ}
    (hjob' : w'.store.jobs id = some job') :
    w.store.jobs id = none ∧ job'.status = .queued ∨
      ∃ job, w.store.jobs id = some job ∧ (job'.status = job.status ∨ job.status.Next job'.status) := by
  obtain rfl | ⟨queryID, queryType, query, now, hfresh, rfl⟩ |
    ⟨queryID, query, before, after, f, hf, hworker, rfl⟩ := step_cases hstep
  · exact .inr ⟨job', hjob', .inl rfl⟩
  · rcases create_jobs h hjob' with ⟨rfl, hqueued⟩ | hjob
    · have hnew : ¬ (w.store.jobs id).isSome := by
        rw [h.keys, h.order]
        exact fun hmem => hfresh (List.mem_of_mem_drop hmem)
      exact .inl ⟨Option.not_isSome_iff_eq_none.mp hnew, hqueued⟩
    · exact .inr ⟨job', hjob, .inl rfl⟩
  · by_cases heq : id = queryID
    · subst heq
      cases hjob : w.store.jobs id with
      | none =>
        simp only [modify_of_none hjob, hjob] at hjob'
        cases hjob'
      | some job =>
        obtain ⟨query', phase, hworker', htenant, hfits⟩ := h.jobs id job hjob
        rw [hworker, Option.some.injEq, Worker.mk.injEq] at hworker'
        obtain ⟨rfl, rfl⟩ := hworker'
        simp only [← htenant, modify_of_some hjob, Function.update_self, Option.some.injEq] at hjob'
        exact .inr ⟨job, rfl, .inr (hjob' ▸ hf.next job hfits)⟩
    · simp only [modify_of_ne heq] at hjob'
      exact .inr ⟨job', hjob', .inl rfl⟩

end

/-- Which times and which manifest a job of each status has. -/
def QueryJobResult.Proper (job : QueryJobResult ρ) : Prop :=
  (job.startedAt.isSome ↔ job.status ≠ .queued) ∧
  (job.finishedAt.isSome ↔ job.status = .succeeded ∨ job.status = .failed) ∧
  (job.manifest.isSome ↔ job.status = .succeeded)

theorem QueryJobResult.Fits.proper {job : QueryJobResult ρ} {phase : Phase} (h : job.Fits phase) :
    job.Proper := by
  unfold QueryJobResult.Proper
  cases phase with
  | launched =>
    obtain ⟨hstatus, hstarted, hfinished, hmanifest⟩ := h
    simp [hstatus, hstarted, hfinished, hmanifest]
  | started =>
    obtain ⟨hstatus, hstarted, hfinished, hmanifest⟩ := h
    simp [hstatus, hstarted, hfinished, hmanifest]
  | finished =>
    obtain ⟨hstarted, hfinished, ⟨hstatus, hmanifest⟩ | ⟨hstatus, hmanifest⟩⟩ := h
    · simp [hstatus, hstarted, hfinished, hmanifest]
    · simp [hstatus, hstarted, hfinished, hmanifest]

/-- **The store in every interleaving.** The map and the order list have the same ids, those
of the jobs that were created last and no more than the bound. A job that is gone stays gone,
whatever its worker still does. A job begins queued and moves on one status at a time, with
the times and the manifest of its status, and is shown only to the tenant that created it. -/
theorem job_store (maxJobs : ℤ) {w : World ρ}
    (h : Machine.Reach World.step Machine.Always (World.initial maxJobs) w) :
    w.store.order.Nodup ∧
    (∀ id, (w.store.jobs id).isSome ↔ id ∈ w.store.order) ∧
    (w.store.order.length : ℤ) ≤ QueryJobStore.capacity maxJobs ∧
    w.store.order =
      (w.created.map Prod.fst).drop (w.created.length - (QueryJobStore.capacity maxJobs).toNat) ∧
    (∀ w', Machine.Reach World.step Machine.Always w w' →
      ∀ id ∈ w.created.map Prod.fst, id ∉ w.store.order → w'.store.jobs id = none) ∧
    (∀ a w', w.step a = some w' → ∀ id job', w'.store.jobs id = some job' →
      w.store.jobs id = none ∧ job'.status = .queued ∨
      ∃ job, w.store.jobs id = some job ∧ (job'.status = job.status ∨ job.status.Next job'.status)) ∧
    (∀ id job, w.store.jobs id = some job → job.Proper) ∧
    ∀ tenantID queryID job, w.store.get tenantID queryID = some job → (queryID, tenantID) ∈ w.created := by
  have hinv := Inv.reach maxJobs h
  refine ⟨?_, hinv.keys, ?_, hinv.order, ?_, ?_, ?_, ?_⟩
  · rw [hinv.order]
    exact hinv.distinct.sublist (List.drop_sublist _ _)
  · have hpos := QueryJobStore.capacity_pos maxJobs
    rw [hinv.order, List.length_drop, List.length_map]
    omega
  · intro w' hreach id hid hgone
    have hinv' : Inv (QueryJobStore.capacity maxJobs).toNat w' :=
      hreach.invariant hinv fun _ _ _ hinv _ hstep => hinv.step hstep
    have haway := gone hinv hinv' hreach hid hgone
    rwa [← hinv'.keys, Option.not_isSome_iff_eq_none] at haway
  · exact fun a w' hstep id job' hjob' => status_step hinv hstep hjob'
  · intro id job hjob
    obtain ⟨_, _, _, _, hfits⟩ := hinv.jobs id job hjob
    exact hfits.proper
  · intro tenantID queryID job hget
    obtain ⟨hjob, rfl⟩ := get_eq_some.mp hget
    obtain ⟨query, phase, hworker, htenant, _⟩ := hinv.jobs queryID job hjob
    rw [htenant]
    exact hinv.workers queryID query phase hworker

def dayRequest : QueryJobRequest where
  queryType := "costs"
  start := "2026-01-01T00:00:00Z"
  stop := "2026-01-02T00:00:00Z"

def dayManifest : QueryManifest := ⟨"costs", "query-result-v1", "application/json", 0, 2, "", 4, true⟩

/-- The store has room for one job; the first one finishes after the second was created. -/
def lateRun : List (Action Unit) :=
  [.create "q1" "tenant-a" dayRequest 0, .start "q1" 1, .create "q2" "tenant-b" dayRequest 2,
    .start "q2" 3, .succeed "q1" dayManifest () 4, .succeed "q2" dayManifest () 5]

theorem job_store_lateRun : ∃ w : World Unit,
    Machine.run World.step (World.initial 1) lateRun = some w ∧
    w.store.order = ["q2"] ∧ w.store.jobs "q1" = none ∧
    (∀ w', Machine.Reach World.step Machine.Always w w' → w'.store.jobs "q1" = none) ∧
    ∃ job, w.store.jobs "q2" = some job ∧ job.status = .succeeded ∧ job.Proper := by
  have hrun : (Machine.run World.step (World.initial 1) lateRun).map (fun w =>
      (w.store.order, w.created.map Prod.fst, w.store.jobs "q1", (w.store.jobs "q2").map (·.status))) =
      some (["q2"], ["q1", "q2"], none, some .succeeded) := by
    decide +kernel
  obtain ⟨w, hw, hfacts⟩ := Option.map_eq_some_iff.mp hrun
  simp only [Prod.mk.injEq] at hfacts
  obtain ⟨horder, hcreated, hgone, hjob⟩ := hfacts
  obtain ⟨job, hjob, hstatus⟩ := Option.map_eq_some_iff.mp hjob
  have hreach : Machine.Reach World.step Machine.Always (World.initial 1) w :=
    .of_run (fun _ _ _ => trivial) hw
  obtain ⟨-, -, -, -, hstays, -, hproper, -⟩ := job_store 1 hreach
  refine ⟨w, hw, horder, hgone, fun w' hw' => ?_, job, hjob, hstatus, hproper "q2" job hjob⟩
  exact hstays w' hw' "q1" (by simp [hcreated]) (by simp [horder])

end Jobs
end Analytics
end KubeCost
