/-
# The bounded lease queue

`services/ingestion/queue`: producers append with `tryEnqueue`, a consumer
leases a run of items from the front with `acquire` and either commits the
lease or puts it back in front with `retry`. Leased items keep their place in
the capacity (`inFlight`) until then. Each function is one critical section of
the source; `ready` is the one-token channel that wakes a parked consumer.
-/
import KubeCost.Wire

namespace KubeCost
namespace Ingestion

/-- `queue.Batch`: a validated batch with its origin. The Go batch owns a
channel that is closed when it is persisted; here the channel is its number. -/
structure Batch where
  tenantId : String
  clusterId : String
  agentInstance : String
  sessionId : ℕ
  receivedAt : Timestamp
  observationSet : ObservationBatch
  persisted : Option ℕ
deriving DecidableEq

structure Queue (α : Type) where
  items : List α
  capacity : ℕ
  inFlight : ℕ
  ready : Bool

namespace Queue

variable {α : Type}

/-- `New`: a capacity below one is one. -/
def new (capacity : ℕ) : Queue α := ⟨[], max 1 capacity, 0, false⟩

/-- `signalLocked`: a token is offered, and dropped when one is waiting. -/
def signalLocked (q : Queue α) : Queue α := { q with ready := true }

/-- `TryEnqueue`; `none` is `ErrFull`. -/
def tryEnqueue (q : Queue α) (item : α) : Option (Queue α) :=
  if q.items.length + q.inFlight ≥ q.capacity then none
  else some { q with items := q.items ++ [item] }.signalLocked

/-- `Acquire`, once there are items: the lease and the queue it leaves. -/
def acquire (q : Queue α) (maximum : ℕ) : Option (List α × Queue α) :=
  if q.items.length > 0 then
    let count := min (max 1 maximum) q.items.length
    some (q.items.take count,
      { q with items := q.items.drop count, inFlight := q.inFlight + count }.signalLocked)
  else none

/-- `Dequeue`, once there are items: what it takes is gone from the queue. -/
def dequeue (q : Queue α) (maximum : ℕ) : Option (List α × Queue α) :=
  if q.items.length > 0 then
    let count := min (max 1 maximum) q.items.length
    let rest := { q with items := q.items.drop count }
    some (q.items.take count, if rest.items.length > 0 then rest.signalLocked else rest)
  else none

/-- The critical section of `Lease.Commit`. -/
def commit (q : Queue α) (lease : List α) : Queue α :=
  { q with inFlight := q.inFlight - lease.length }.signalLocked

/-- `Lease.Retry`: the items go back in front. -/
def retry (q : Queue α) (lease : List α) : Queue α :=
  { q with items := lease ++ q.items, inFlight := q.inFlight - lease.length }.signalLocked

def depth (q : Queue α) : ℕ := q.items.length

theorem tryEnqueue_items {q q' : Queue α} {item : α} (h : q.tryEnqueue item = some q') :
    q'.items = q.items ++ [item] := by
  unfold tryEnqueue at h
  split at h
  · cases h
  · cases h; rfl

theorem acquire_items {q q' : Queue α} {m : ℕ} {lease : List α} (h : q.acquire m = some (lease, q')) :
    lease ++ q'.items = q.items := by
  unfold acquire at h
  split at h
  · cases h; exact List.take_append_drop _ _
  · cases h

@[simp] theorem commit_items (q : Queue α) (lease : List α) : (q.commit lease).items = q.items := rfl

@[simp] theorem retry_items (q : Queue α) (lease : List α) :
    (q.retry lease).items = lease ++ q.items := rfl

end Queue

end Ingestion
end KubeCost
