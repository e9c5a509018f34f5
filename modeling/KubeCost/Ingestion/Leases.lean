/-
# The lease queue over whole runs

`services/ingestion/queue` with any number of producers and consumers. A lease is held
until its `sync.Once` is taken by `Commit` or `Retry`; whoever calls one of them later
does nothing. `Commit` closes the channels of the lease's batches one after the other,
outside the lock, and then gives the capacity back; a lease counts as open until then.
A state keeps what the queue has and a record of what happened: the batches that
`TryEnqueue` accepted, those of committed leases, those that `Dequeue` took, and the
channels that were closed.

`Integrity` says that no batch is lost, doubled or counted twice. It holds in every
state that a run reaches when each accepted batch has a channel of its own. Batches are
committed in the order they came in when a consumer settles its lease before it takes
the next (both in `lease_queue`), and not always otherwise (`committed_out_of_order`).
-/
import Mathlib.Algebra.BigOperators.Group.List.Basic
import Mathlib.Algebra.Order.Ring.Nat
import Mathlib.Data.List.Nodup
import KubeCost.Machine
import KubeCost.Ingestion.Queue

namespace KubeCost
namespace Ingestion
namespace Leases

/-- How far a lease is. `committing` has the batches whose channels are to be closed
yet. -/
inductive Phase
  | held
  | committing (left : List Batch)
  | committed
  | retried
deriving DecidableEq

structure Lease where
  items : List Batch
  phase : Phase
deriving DecidableEq

/-- What an open lease keeps in flight. -/
def Lease.inFlight (lease : Lease) : List Batch :=
  match lease.phase with
  | .held | .committing _ => lease.items
  | .committed | .retried => []

/-- The batches that the loop of a running `Commit` has passed. -/
def Lease.marked (lease : Lease) : List Batch :=
  match lease.phase with
  | .committing left => lease.items.take (lease.items.length - left.length)
  | _ => []

structure State where
  queue : Queue Batch
  leases : List Lease
  enqueued : List Batch
  committed : List Batch
  dequeued : List Batch
  closed : List ℕ

/-- `New`. -/
def State.start (capacity : ℕ) : State where
  queue := .new capacity
  leases := []
  enqueued := []
  committed := []
  dequeued := []
  closed := []

/-- The batches of the open leases. -/
def State.leased (s : State) : List Batch := s.leases.flatMap Lease.inFlight

/-- The batches that a running `Commit` has passed. -/
def State.marked (s : State) : List Batch := s.leases.flatMap Lease.marked

inductive Action
  | tryEnqueue (batch : Batch)
  | acquire (maximum : ℕ)
  | dequeue (maximum : ℕ)
  /-- A parked consumer takes the token of `ready` and looks again. -/
  | wake
  /-- A call of `Commit`; it takes the lease's `once` if nobody has. -/
  | commit (i : ℕ)
  /-- The next `markPersisted` of a running `Commit`. -/
  | markPersisted (i : ℕ)
  /-- The critical section at the end of `Commit`. -/
  | release (i : ℕ)
  | retry (i : ℕ)

def step (s : State) : Action → Option State
  | .tryEnqueue batch =>
    match s.queue.tryEnqueue batch with
    | none => some s
    | some queue => some { s with queue := queue, enqueued := s.enqueued ++ [batch] }
  | .acquire maximum =>
    match s.queue.acquire maximum with
    | none => none
    | some (items, queue) => some { s with queue := queue, leases := s.leases ++ [⟨items, .held⟩] }
  | .dequeue maximum =>
    match s.queue.dequeue maximum with
    | none => none
    | some (items, queue) => some { s with queue := queue, dequeued := s.dequeued ++ items }
  | .wake => if s.queue.ready then some { s with queue := { s.queue with ready := false } } else none
  | .commit i =>
    match s.leases[i]? with
    | some ⟨items, .held⟩ => some { s with leases := s.leases.set i ⟨items, .committing items⟩ }
    | some _ => some s
    | none => none
  | .markPersisted i =>
    match s.leases[i]? with
    | some ⟨items, .committing (batch :: left)⟩ =>
      some { s with
        leases := s.leases.set i ⟨items, .committing left⟩
        closed := s.closed ++ batch.persisted.toList }
    | _ => none
  | .release i =>
    match s.leases[i]? with
    | some ⟨items, .committing []⟩ =>
      some { s with
        queue := s.queue.commit items
        leases := s.leases.set i ⟨items, .committed⟩
        committed := s.committed ++ items }
    | _ => none
  | .retry i =>
    match s.leases[i]? with
    | some ⟨items, .held⟩ =>
      some { s with queue := s.queue.retry items, leases := s.leases.set i ⟨items, .retried⟩ }
    | some _ => some s
    | none => none

/-- An enqueued batch has a notification channel, which no accepted batch has. -/
def Fresh (s : State) : Action → Prop
  | .tryEnqueue batch => batch.persisted.isSome ∧ ∀ b ∈ s.enqueued, b.persisted ≠ batch.persisted
  | _ => True

/-- A consumer that takes a lease only when none is open, and never dequeues. -/
def OneAtATime (s : State) : Action → Prop
  | .acquire _ => s.leased = []
  | .dequeue _ => False
  | _ => True

/-! ### What a step can do -/

/-- Everything that a step can do, guards included. -/
inductive Step (s : State) : Action → State → Prop
  | full {batch} (full : s.queue.items.length + s.queue.inFlight ≥ s.queue.capacity) :
    Step s (.tryEnqueue batch) s
  | enqueued {batch} (room : s.queue.items.length + s.queue.inFlight < s.queue.capacity) :
    Step s (.tryEnqueue batch)
      { s with
        queue := { s.queue with items := s.queue.items ++ [batch] }.signalLocked
        enqueued := s.enqueued ++ [batch] }
  | acquired {maximum items rest} (split : s.queue.items = items ++ rest) (some : items ≠ []) :
    Step s (.acquire maximum)
      { s with
        queue := { s.queue with
          items := rest, inFlight := s.queue.inFlight + items.length }.signalLocked
        leases := s.leases ++ [⟨items, .held⟩] }
  | dequeued {maximum items rest ready} (split : s.queue.items = items ++ rest) :
    Step s (.dequeue maximum)
      { s with
        queue := { s.queue with items := rest, ready := ready }
        dequeued := s.dequeued ++ items }
  | woken : Step s .wake { s with queue := { s.queue with ready := false } }
  | committing {i items} (here : s.leases[i]? = some ⟨items, .held⟩) :
    Step s (.commit i) { s with leases := s.leases.set i ⟨items, .committing items⟩ }
  | settled {i a} (a_eq : a = .commit i ∨ a = .retry i) : Step s a s
  | marked {i items batch left} (here : s.leases[i]? = some ⟨items, .committing (batch :: left)⟩) :
    Step s (.markPersisted i)
      { s with
        leases := s.leases.set i ⟨items, .committing left⟩
        closed := s.closed ++ batch.persisted.toList }
  | released {i items} (here : s.leases[i]? = some ⟨items, .committing []⟩) :
    Step s (.release i)
      { s with
        queue := s.queue.commit items
        leases := s.leases.set i ⟨items, .committed⟩
        committed := s.committed ++ items }
  | retried {i items} (here : s.leases[i]? = some ⟨items, .held⟩) :
    Step s (.retry i)
      { s with queue := s.queue.retry items, leases := s.leases.set i ⟨items, .retried⟩ }

variable {s s' : State} {a : Action}

theorem step_cases (h : step s a = some s') : Step s a s' := by
  cases a with
  | tryEnqueue batch =>
    simp only [step, Queue.tryEnqueue] at h
    by_cases hfull : s.queue.items.length + s.queue.inFlight ≥ s.queue.capacity
    · simp only [hfull, if_true] at h
      cases h
      exact .full hfull
    · simp only [hfull, if_false] at h
      cases h
      exact .enqueued (by omega)
  | acquire maximum =>
    simp only [step, Queue.acquire] at h
    by_cases hitems : s.queue.items.length > 0
    · simp only [hitems, if_true] at h
      cases h
      have hsplit := (List.take_append_drop (min (max 1 maximum) s.queue.items.length)
        s.queue.items).symm
      have hlength : (s.queue.items.take (min (max 1 maximum) s.queue.items.length)).length =
          min (max 1 maximum) s.queue.items.length := by
        rw [List.length_take]
        omega
      have hsome : s.queue.items.take (min (max 1 maximum) s.queue.items.length) ≠ [] := fun h => by
        rw [h, List.length_nil] at hlength
        omega
      have hstep : Step s (.acquire maximum) _ := .acquired hsplit hsome
      rwa [hlength] at hstep
    · simp only [hitems, if_false] at h
      cases h
  | dequeue maximum =>
    simp only [step, Queue.dequeue] at h
    by_cases hitems : s.queue.items.length > 0
    · simp only [hitems, if_true] at h
      cases h
      have hsplit := (List.take_append_drop (min (max 1 maximum) s.queue.items.length)
        s.queue.items).symm
      split
      · exact .dequeued hsplit
      · exact .dequeued hsplit
    · simp only [hitems, if_false] at h
      cases h
  | wake =>
    simp only [step] at h
    split at h
    · cases h
      exact .woken
    · cases h
  | commit i =>
    simp only [step] at h
    split at h
    · rename_i here
      cases h
      exact .committing here
    · cases h
      exact .settled (.inl rfl)
    · cases h
  | markPersisted i =>
    simp only [step] at h
    split at h
    · rename_i here
      cases h
      exact .marked here
    · cases h
  | release i =>
    simp only [step] at h
    split at h
    · rename_i here
      cases h
      exact .released here
    · cases h
  | retry i =>
    simp only [step] at h
    split at h
    · rename_i here
      cases h
      exact .retried here
    · cases h
      exact .settled (.inr rfl)
    · cases h

/-! ### The invariant -/

/-- The batch is told over the channel. -/
def notifies (channel : ℕ) (batch : Batch) : Bool := batch.persisted == some channel

/-- What every step keeps. The places are counted by an arbitrary test, so that one field
says how many batches there are and where each of them is. -/
structure Inv (s : State) : Prop where
  bounded : s.queue.items.length + s.queue.inFlight ≤ s.queue.capacity
  inFlight : s.queue.inFlight = s.leased.length
  places : ∀ p : Batch → Bool, s.queue.items.countP p + s.leased.countP p + s.committed.countP p +
    s.dequeued.countP p = s.enqueued.countP p
  own : (s.enqueued.map (·.persisted)).Nodup
  channel : ∀ batch ∈ s.enqueued, batch.persisted.isSome
  closed : ∀ c, s.closed.count c = s.committed.countP (notifies c) + s.marked.countP (notifies c)
  committing : ∀ lease ∈ s.leases, ∀ left, lease.phase = .committing left → left <:+ lease.items

/-- Counting over the leases when one of them changes. -/
theorem countP_flatMap_set (f : Lease → List Batch) (p : Batch → Bool) {lease : Lease} (new : Lease) :
    ∀ {leases : List Lease} {i : ℕ}, leases[i]? = some lease →
      ((leases.set i new).flatMap f).countP p + (f lease).countP p =
        (leases.flatMap f).countP p + (f new).countP p
  | first :: leases, 0, h => by
    cases h
    simp only [List.set_cons_zero, List.flatMap_cons, List.countP_append]
    omega
  | first :: leases, i + 1, h => by
    have ih := countP_flatMap_set f p new (i := i) h
    simp only [List.set_cons_succ, List.flatMap_cons, List.countP_append]
    omega

theorem length_leased_set {lease : Lease} (new : Lease) {i : ℕ} (h : s.leases[i]? = some lease) :
    ((s.leases.set i new).flatMap Lease.inFlight).length + lease.inFlight.length =
      s.leased.length + new.inFlight.length := by
  have := countP_flatMap_set Lease.inFlight (fun _ => true) new h
  simpa only [State.leased, List.countP_true] using this

/-- The batches that `Commit` has passed, when its loop is at `left`. -/
theorem marked_of_suffix (pre left : List Batch) :
    Lease.marked ⟨pre ++ left, .committing left⟩ = pre := by
  simp [Lease.marked]

/-- A lease that changes its phase keeps the rule for the leases. -/
theorem Inv.committing_set (h : Inv s) {i : ℕ} {new : Lease}
    (hnew : ∀ left, new.phase = .committing left → left <:+ new.items) :
    ∀ lease ∈ s.leases.set i new, ∀ left, lease.phase = .committing left → left <:+ lease.items := by
  intro lease hlease
  rcases List.mem_or_eq_of_mem_set hlease with hold | rfl
  · exact h.committing lease hold
  · exact hnew

theorem inv_start (capacity : ℕ) : Inv (State.start capacity) where
  bounded := Nat.zero_le _
  inFlight := rfl
  places := fun _ => rfl
  own := List.nodup_nil
  channel := fun _ h => absurd h List.not_mem_nil
  closed := fun _ => rfl
  committing := fun _ h => absurd h List.not_mem_nil

theorem Inv.enqueued (h : Inv s) {batch : Batch} (hfresh : Fresh s (.tryEnqueue batch))
    (room : s.queue.items.length + s.queue.inFlight < s.queue.capacity) :
    Inv { s with
      queue := { s.queue with items := s.queue.items ++ [batch] }.signalLocked
      enqueued := s.enqueued ++ [batch] } := by
  obtain ⟨hsome, hnew⟩ := hfresh
  refine { h with bounded := ?_, places := ?_, own := ?_, channel := ?_ }
  · simp only [Queue.signalLocked, List.length_append, List.length_singleton]
    omega
  · intro p
    have hplaces := h.places p
    simp only [Queue.signalLocked, List.countP_append, State.leased] at hplaces ⊢
    omega
  · rw [List.map_append, List.nodup_append]
    refine ⟨h.own, List.nodup_singleton _, fun channel hc channel' hc' => ?_⟩
    obtain ⟨b, hb, rfl⟩ := List.mem_map.mp hc
    rw [List.mem_singleton.mp hc']
    exact hnew b hb
  · intro b hb
    rcases List.mem_append.mp hb with hb | hb
    · exact h.channel b hb
    · rwa [List.mem_singleton.mp hb]

theorem Inv.acquired (h : Inv s) {items rest : List Batch} (split : s.queue.items = items ++ rest) :
    Inv { s with
      queue := { s.queue with
        items := rest, inFlight := s.queue.inFlight + items.length }.signalLocked
      leases := s.leases ++ [⟨items, .held⟩] } := by
  have hbounded := h.bounded
  have hinFlight := h.inFlight
  rw [split, List.length_append] at hbounded
  refine { h with bounded := ?_, inFlight := ?_, places := ?_, closed := ?_, committing := ?_ }
  · simp only [Queue.signalLocked]
    omega
  · simp only [Queue.signalLocked, State.leased, List.flatMap_append, List.flatMap_singleton,
      List.length_append, Lease.inFlight] at hinFlight ⊢
    omega
  · intro p
    have hplaces := h.places p
    rw [split] at hplaces
    simp only [Queue.signalLocked, State.leased, List.flatMap_append, List.flatMap_singleton,
      List.countP_append, Lease.inFlight] at hplaces ⊢
    omega
  · intro c
    have hclosed := h.closed c
    simp only [State.marked, List.flatMap_append, List.flatMap_singleton, List.countP_append,
      Lease.marked, List.countP_nil] at hclosed ⊢
    omega
  · intro lease hlease left hphase
    rcases List.mem_append.mp hlease with hold | hnew
    · exact h.committing lease hold left hphase
    · rw [List.mem_singleton.mp hnew] at hphase
      cases hphase

theorem Inv.dequeued (h : Inv s) {items rest : List Batch} {ready : Bool}
    (split : s.queue.items = items ++ rest) :
    Inv { s with
      queue := { s.queue with items := rest, ready := ready }
      dequeued := s.dequeued ++ items } := by
  have hbounded := h.bounded
  rw [split, List.length_append] at hbounded
  refine { h with bounded := ?_, places := ?_ }
  · show rest.length + s.queue.inFlight ≤ s.queue.capacity
    omega
  · intro p
    have hplaces := h.places p
    rw [split] at hplaces
    simp only [State.leased, List.countP_append] at hplaces ⊢
    omega

/-- `Commit` takes the lease; nothing is closed yet. -/
theorem Inv.begun (h : Inv s) {i : ℕ} {items : List Batch}
    (here : s.leases[i]? = some ⟨items, .held⟩) :
    Inv { s with leases := s.leases.set i ⟨items, .committing items⟩ } := by
  refine { h with inFlight := ?_, places := ?_, closed := ?_, committing := ?_ }
  · have hlength := length_leased_set ⟨items, .committing items⟩ here
    have hinFlight := h.inFlight
    simp only [Lease.inFlight, State.leased] at hlength hinFlight ⊢
    omega
  · intro p
    have hplaces := h.places p
    have hcount := countP_flatMap_set Lease.inFlight p ⟨items, .committing items⟩ here
    simp only [Lease.inFlight, State.leased] at hplaces hcount ⊢
    omega
  · intro c
    have hclosed := h.closed c
    have hcount := countP_flatMap_set Lease.marked (notifies c)
      ⟨items, .committing items⟩ here
    simp only [Lease.marked, State.marked, Nat.sub_self, List.take_zero, List.countP_nil]
      at hclosed hcount ⊢
    omega
  · exact h.committing_set fun left hleft => by
      cases hleft
      exact List.suffix_refl _

/-- One more channel is closed, and its batch joins those that `Commit` has passed. -/
theorem Inv.marked (h : Inv s) {i : ℕ} {items left : List Batch} {batch : Batch}
    (here : s.leases[i]? = some ⟨items, .committing (batch :: left)⟩) :
    Inv { s with
      leases := s.leases.set i ⟨items, .committing left⟩
      closed := s.closed ++ batch.persisted.toList } := by
  obtain ⟨pre, rfl⟩ := h.committing _ (List.mem_of_getElem? here) _ rfl
  refine { h with inFlight := ?_, places := ?_, closed := ?_, committing := ?_ }
  · have hlength := length_leased_set ⟨pre ++ batch :: left, .committing left⟩ here
    have hinFlight := h.inFlight
    simp only [Lease.inFlight, State.leased] at hlength hinFlight ⊢
    omega
  · intro p
    have hplaces := h.places p
    have hcount := countP_flatMap_set Lease.inFlight p
      ⟨pre ++ batch :: left, .committing left⟩ here
    simp only [Lease.inFlight, State.leased] at hplaces hcount ⊢
    omega
  · intro c
    have hclosed := h.closed c
    have hcount := countP_flatMap_set Lease.marked (notifies c)
      ⟨pre ++ batch :: left, .committing left⟩ here
    have hnext : Lease.marked ⟨pre ++ batch :: left, .committing left⟩ = pre ++ [batch] := by
      have := marked_of_suffix (pre ++ [batch]) left
      rwa [List.append_assoc] at this
    have hone : batch.persisted.toList.count c = [batch].countP (notifies c) := by
      cases hb : batch.persisted with
      | none => simp [notifies, hb]
      | some channel => simp [notifies, hb, List.count_cons, List.countP_cons]
    rw [marked_of_suffix, hnext, List.countP_append] at hcount
    simp only [State.marked, List.count_append] at hclosed ⊢
    omega
  · exact h.committing_set fun left' hleft => by
      cases hleft
      exact ⟨pre ++ [batch], by rw [List.append_assoc]; rfl⟩

theorem Inv.released (h : Inv s) {i : ℕ} {items : List Batch}
    (here : s.leases[i]? = some ⟨items, .committing []⟩) :
    Inv { s with
      queue := s.queue.commit items
      leases := s.leases.set i ⟨items, .committed⟩
      committed := s.committed ++ items } := by
  have hlength := length_leased_set ⟨items, .committed⟩ here
  have hinFlight := h.inFlight
  have hbounded := h.bounded
  simp only [Lease.inFlight, State.leased, List.length_nil] at hlength hinFlight
  refine { h with bounded := ?_, inFlight := ?_, places := ?_, closed := ?_, committing := ?_ }
  · simp only [Queue.commit, Queue.signalLocked]
    omega
  · simp only [Queue.commit, Queue.signalLocked, State.leased]
    omega
  · intro p
    have hplaces := h.places p
    have hcount := countP_flatMap_set Lease.inFlight p ⟨items, .committed⟩ here
    simp only [Lease.inFlight, State.leased, List.countP_nil, List.countP_append,
      Queue.commit_items] at hplaces hcount ⊢
    omega
  · intro c
    have hclosed := h.closed c
    have hcount := countP_flatMap_set Lease.marked (notifies c) ⟨items, .committed⟩ here
    have hall : Lease.marked ⟨items, .committing []⟩ = items := by
      simp [Lease.marked]
    rw [hall] at hcount
    simp only [Lease.marked, State.marked, List.countP_nil, List.countP_append] at hclosed hcount ⊢
    omega
  · exact h.committing_set fun left hleft => by cases hleft

theorem Inv.retried (h : Inv s) {i : ℕ} {items : List Batch}
    (here : s.leases[i]? = some ⟨items, .held⟩) :
    Inv { s with queue := s.queue.retry items, leases := s.leases.set i ⟨items, .retried⟩ } := by
  have hlength := length_leased_set ⟨items, .retried⟩ here
  have hinFlight := h.inFlight
  have hbounded := h.bounded
  simp only [Lease.inFlight, State.leased, List.length_nil] at hlength hinFlight
  refine { h with bounded := ?_, inFlight := ?_, places := ?_, closed := ?_, committing := ?_ }
  · simp only [Queue.retry, Queue.signalLocked, List.length_append]
    omega
  · simp only [Queue.retry, Queue.signalLocked, State.leased]
    omega
  · intro p
    have hplaces := h.places p
    have hcount := countP_flatMap_set Lease.inFlight p ⟨items, .retried⟩ here
    simp only [Lease.inFlight, State.leased, List.countP_nil, List.countP_append,
      Queue.retry_items] at hplaces hcount ⊢
    omega
  · intro c
    have hclosed := h.closed c
    have hcount := countP_flatMap_set Lease.marked (notifies c) ⟨items, .retried⟩ here
    simp only [Lease.marked, State.marked, List.countP_nil] at hclosed hcount ⊢
    omega
  · exact h.committing_set fun left hleft => by cases hleft

/-- **One step keeps the invariant.** -/
theorem Inv.step (h : Inv s) (hfresh : Fresh s a) (hs : Step s a s') : Inv s' := by
  cases hs with
  | full => exact h
  | enqueued room => exact h.enqueued hfresh room
  | acquired split => exact h.acquired split
  | dequeued split => exact h.dequeued split
  | woken => exact { h with }
  | committing here => exact h.begun here
  | settled => exact h
  | marked here => exact h.marked here
  | released here => exact h.released here
  | retried here => exact h.retried here

/-! ### What the invariant gives -/

/-- No batch is lost, doubled or counted twice. A batch of `leased` is in an open lease, and
one of `marked` in a lease whose `Commit` is running and has passed it. -/
structure Integrity (s : State) : Prop where
  bounded : s.queue.items.length + s.queue.inFlight ≤ s.queue.capacity
  inFlight_eq : s.queue.inFlight = (s.leases.map fun lease => lease.inFlight.length).sum
  one_place : ∀ batch ∈ s.enqueued, s.queue.items.count batch + s.leased.count batch +
    s.committed.count batch + s.dequeued.count batch = 1
  full_iff : ∀ batch, s.queue.tryEnqueue batch = none ↔
    s.queue.items.length + s.queue.inFlight = s.queue.capacity
  full_unchanged : ∀ batch, s.queue.tryEnqueue batch = none → step s (.tryEnqueue batch) = some s
  closed_once : s.closed.Nodup
  closed_iff : ∀ batch ∈ s.enqueued, ∀ c, batch.persisted = some c →
    (c ∈ s.closed ↔ batch ∈ s.committed ∨ batch ∈ s.marked)

theorem Lease.marked_sublist (lease : Lease) : lease.marked.Sublist lease.inFlight := by
  unfold Lease.marked Lease.inFlight
  cases lease.phase with
  | committing left => exact List.take_sublist _ _
  | held | committed | retried => exact List.nil_sublist _

/-- What a running `Commit` has passed is in an open lease. -/
theorem marked_sublist_leased (s : State) : s.marked.Sublist s.leased := by
  unfold State.marked State.leased
  induction s.leases with
  | nil => exact List.Sublist.refl _
  | cons lease leases ih =>
    rw [List.flatMap_cons, List.flatMap_cons]
    exact lease.marked_sublist.append ih

theorem Inv.mem_enqueued (h : Inv s) {batch : Batch} (hmem : batch ∈ s.committed ∨ batch ∈ s.marked) :
    batch ∈ s.enqueued := by
  have hplaces := h.places (· == batch)
  have hpos : 0 < s.committed.countP (· == batch) + s.leased.countP (· == batch) := by
    rcases hmem with hmem | hmem
    · exact Nat.add_pos_left (List.count_pos_iff.mpr hmem) _
    · exact Nat.add_pos_right _ (List.count_pos_iff.mpr ((marked_sublist_leased s).subset hmem))
  have hin : 0 < s.enqueued.countP (· == batch) := by omega
  obtain ⟨b, hb, heq⟩ := List.countP_pos_iff.mp hin
  rwa [← eq_of_beq heq]

/-- No two accepted batches are told over one channel. -/
theorem Inv.countP_notifies_le (h : Inv s) (c : ℕ) : s.enqueued.countP (notifies c) ≤ 1 := by
  have hcount := List.nodup_iff_count_le_one.mp h.own (some c)
  rwa [List.count, List.countP_map] at hcount

theorem Inv.integrity (h : Inv s) : Integrity s where
  bounded := h.bounded
  inFlight_eq := by rw [h.inFlight, State.leased, List.length_flatMap]
  one_place := by
    intro batch hbatch
    have hcount : s.enqueued.count batch = 1 :=
      List.count_eq_one_of_mem (List.Nodup.of_map _ h.own) hbatch
    have hplaces := h.places (· == batch)
    unfold List.count at hcount ⊢
    omega
  full_iff := by
    intro batch
    have hbounded := h.bounded
    unfold Queue.tryEnqueue
    split
    · simp only [true_iff]
      omega
    · simp only [reduceCtorEq, false_iff]
      omega
  full_unchanged := by
    intro batch hfull
    simp only [Leases.step, hfull]
  closed_once := by
    rw [List.nodup_iff_count_le_one]
    intro c
    have hclosed := h.closed c
    have hone := h.countP_notifies_le c
    have hplaces := h.places (notifies c)
    have hle := (marked_sublist_leased s).countP_le (p := notifies c)
    omega
  closed_iff := by
    intro batch hbatch c hc
    have hcount : c ∈ s.closed ↔
        0 < s.committed.countP (notifies c) + s.marked.countP (notifies c) := by
      rw [← h.closed c]
      exact List.count_pos_iff.symm
    -- the batch of a channel is the only one that has it
    have huniq : ∀ b, (b ∈ s.committed ∨ b ∈ s.marked) → notifies c b = true → b = batch :=
      fun b hb hn => List.inj_on_of_nodup_map h.own (h.mem_enqueued hb) hbatch
        ((eq_of_beq hn).trans hc.symm)
    have hself : notifies c batch = true := beq_iff_eq.mpr hc
    rw [hcount, Nat.add_pos_iff_pos_or_pos, List.countP_pos_iff, List.countP_pos_iff]
    constructor
    · rintro (⟨b, hb, hn⟩ | ⟨b, hb, hn⟩)
      · rw [← huniq b (.inl hb) hn]
        exact .inl hb
      · rw [← huniq b (.inr hb) hn]
        exact .inr hb
    · rintro (hb | hb)
      · exact .inl ⟨batch, hb, hself⟩
      · exact .inr ⟨batch, hb, hself⟩

/-! ### The order of the commits -/

/-- A change of phase that leaves what a lease keeps in flight. -/
theorem flatMap_set_of_eq {f : Lease → List Batch} {lease : Lease} (new : Lease) :
    ∀ {leases : List Lease} {i : ℕ}, leases[i]? = some lease → f new = f lease →
      (leases.set i new).flatMap f = leases.flatMap f
  | first :: leases, 0, h, heq => by
    cases h
    rw [List.set_cons_zero, List.flatMap_cons, List.flatMap_cons, heq]
  | first :: leases, i + 1, h, heq => by
    rw [List.set_cons_succ, List.flatMap_cons, List.flatMap_cons,
      flatMap_set_of_eq new (i := i) h heq]

/-- Only one lease keeps something in flight. -/
theorem flatMap_eq_of_single {f : Lease → List Batch} {lease : Lease} :
    ∀ {leases : List Lease} {i : ℕ}, leases[i]? = some lease →
      (∀ j other, j ≠ i → leases[j]? = some other → f other = []) → leases.flatMap f = f lease
  | first :: leases, 0, h, hothers => by
    cases h
    have hrest : leases.flatMap f = [] := by
      rw [List.flatMap_eq_nil_iff]
      intro other hother
      obtain ⟨j, hj⟩ := List.mem_iff_getElem?.mp hother
      exact hothers (j + 1) other (by omega) hj
    rw [List.flatMap_cons, hrest, List.append_nil]
  | first :: leases, i + 1, h, hothers => by
    have hfirst : f first = [] := hothers 0 first (by omega) rfl
    rw [List.flatMap_cons, hfirst, List.nil_append]
    exact flatMap_eq_of_single (i := i) h fun j other hj hother =>
      hothers (j + 1) other (by omega) hother

/-- With one open lease at a time, everything that was accepted stands in its order:
committed, leased, waiting. -/
structure Ordered (s : State) : Prop where
  order : s.committed ++ s.leased ++ s.queue.items = s.enqueued
  single : ∀ (i j : ℕ) (lease other : Lease), s.leases[i]? = some lease → s.leases[j]? = some other →
    lease.inFlight ≠ [] → other.inFlight ≠ [] → i = j

/-- The open lease is all that is leased. -/
theorem Ordered.leased_eq (h : Ordered s) {i : ℕ} {lease : Lease} (here : s.leases[i]? = some lease)
    (hne : lease.inFlight ≠ []) : s.leased = lease.inFlight := by
  refine flatMap_eq_of_single here fun j other hj hother => ?_
  by_contra hopen
  exact hj (h.single j i other lease hother here hopen hne)

/-- A lease that changes leaves at most one lease open, if it was open itself. -/
theorem Ordered.single_set (h : Ordered s) {i : ℕ} {lease new : Lease}
    (here : s.leases[i]? = some lease) (hopen : new.inFlight ≠ [] → lease.inFlight ≠ []) :
    ∀ (j k : ℕ) (l l' : Lease), (s.leases.set i new)[j]? = some l → (s.leases.set i new)[k]? = some l' →
      l.inFlight ≠ [] → l'.inFlight ≠ [] → j = k := by
  -- what is found in the changed list was open before
  have hbefore : ∀ (j : ℕ) (l : Lease), (s.leases.set i new)[j]? = some l → l.inFlight ≠ [] →
      ∃ l₀ : Lease, s.leases[j]? = some l₀ ∧ l₀.inFlight ≠ [] := by
    intro j l hl hne
    by_cases hj : i = j
    · subst hj
      rw [List.getElem?_set_self', here] at hl
      cases hl
      exact ⟨lease, here, hopen hne⟩
    · rw [List.getElem?_set_ne hj] at hl
      exact ⟨l, hl, hne⟩
  intro j k l l' hj hk hne hne'
  obtain ⟨l₀, hl₀, hopen₀⟩ := hbefore j l hj hne
  obtain ⟨l₁, hl₁, hopen₁⟩ := hbefore k l' hk hne'
  exact h.single j k l₀ l₁ hl₀ hl₁ hopen₀ hopen₁

/-- A lease that is settled: nothing is leased afterwards. -/
theorem Ordered.settle (h : Ordered s) {i : ℕ} {items : List Batch} {phase : Phase} (phase' : Phase)
    (here : s.leases[i]? = some ⟨items, phase⟩) (hopen : Lease.inFlight ⟨items, phase⟩ = items)
    (hclosed : Lease.inFlight ⟨items, phase'⟩ = []) (hne : items ≠ []) :
    s.leased = items ∧ (s.leases.set i ⟨items, phase'⟩).flatMap Lease.inFlight = [] := by
  have hleased := h.leased_eq here (by rwa [hopen])
  rw [hopen] at hleased
  refine ⟨hleased, List.length_eq_zero_iff.mp ?_⟩
  have hlength := length_leased_set ⟨items, phase'⟩ here
  rw [hleased, hopen, hclosed, List.length_nil] at hlength
  omega

/-- **One step keeps the order.** -/
theorem Ordered.step (h : Ordered s) (hok : OneAtATime s a) (hs : Step s a s') : Ordered s' := by
  have horder := h.order
  cases hs with
  | full | settled => exact h
  | woken => exact { h with }
  | @enqueued batch =>
    refine { h with order := ?_ }
    simp only [Queue.signalLocked, State.leased] at horder ⊢
    rw [← List.append_assoc, horder]
  | @acquired maximum items rest split hsome =>
    -- nothing was leased, so the new lease is the only open one
    have hnone : ∀ lease ∈ s.leases, lease.inFlight = [] := List.flatMap_eq_nil_iff.mp hok
    refine ⟨?_, ?_⟩
    · rw [show s.leased = [] from hok, split, List.append_nil] at horder
      simp only [Queue.signalLocked, State.leased, List.flatMap_append, List.flatMap_singleton]
      rw [show s.leases.flatMap Lease.inFlight = [] from hok, List.nil_append, List.append_assoc]
      exact horder
    · have hlast : ∀ (i : ℕ) (lease : Lease), (s.leases ++ [⟨items, .held⟩])[i]? = some lease →
          lease.inFlight ≠ [] → i = s.leases.length := by
        intro i lease hi hne
        rcases Nat.lt_or_ge i s.leases.length with hlt | hge
        · rw [List.getElem?_append_left hlt] at hi
          exact absurd (hnone lease (List.mem_of_getElem? hi)) hne
        · have hbound := (List.getElem?_eq_some_iff.mp hi).1
          rw [List.length_append, List.length_singleton] at hbound
          omega
      intro i j lease other hi hj hne hne'
      rw [hlast i lease hi hne, hlast j other hj hne']
  | dequeued => exact hok.elim
  | @committing i items here =>
    refine ⟨?_, h.single_set here (fun hne => hne)⟩
    have hleased := flatMap_set_of_eq (f := Lease.inFlight) ⟨items, .committing items⟩ here rfl
    simp only [State.leased] at horder ⊢
    rw [hleased, horder]
  | @marked i items batch left here =>
    refine ⟨?_, h.single_set here (fun hne => hne)⟩
    have hleased := flatMap_set_of_eq (f := Lease.inFlight) ⟨items, .committing left⟩ here rfl
    simp only [State.leased] at horder ⊢
    rw [hleased, horder]
  | @released i items here =>
    refine ⟨?_, h.single_set here (fun hne => absurd rfl hne)⟩
    by_cases hne : items = []
    · subst hne
      have hleased := flatMap_set_of_eq (f := Lease.inFlight) ⟨[], .committed⟩ here rfl
      simp only [State.leased, Queue.commit_items, List.append_nil] at horder ⊢
      rw [hleased, horder]
    · obtain ⟨hleased, hnone⟩ := h.settle .committed here rfl rfl hne
      simp only [State.leased, Queue.commit_items]
      rw [hnone, List.append_nil, ← horder, hleased]
  | @retried i items here =>
    refine ⟨?_, h.single_set here (fun hne => absurd rfl hne)⟩
    by_cases hne : items = []
    · subst hne
      have hleased := flatMap_set_of_eq (f := Lease.inFlight) ⟨[], .retried⟩ here rfl
      simp only [State.leased, Queue.retry_items, List.nil_append] at horder ⊢
      rw [hleased, horder]
    · obtain ⟨hleased, hnone⟩ := h.settle .retried here rfl rfl hne
      simp only [State.leased, Queue.retry_items]
      rw [hnone, List.append_nil, ← horder, hleased, List.append_assoc]

/-! ### Whole runs -/

/-- **No batch is lost, doubled or counted twice**, in any run in which every enqueued batch
has a channel of its own; and a consumer that settles its lease before it takes the next
commits the batches in the order they were enqueued. -/
theorem lease_queue (capacity : ℕ) :
    (∀ s, Machine.Reach step Fresh (State.start capacity) s → Integrity s) ∧
    ∀ s, Machine.Reach step OneAtATime (State.start capacity) s → s.committed <+: s.enqueued := by
  constructor
  · intro s h
    have inv : Inv s :=
      h.invariant (inv_start capacity) fun _ _ _ hi hfresh hs => hi.step hfresh (step_cases hs)
    exact inv.integrity
  · intro s h
    have start : Ordered (State.start capacity) :=
      ⟨rfl, fun i j lease other hi => by simp [State.start] at hi⟩
    have inv : Ordered s :=
      h.invariant start fun _ _ _ hi hok hs => hi.step hok (step_cases hs)
    rw [← inv.order, List.append_assoc]
    exact List.prefix_append _ _

/-! ### Two leases at once -/

/-- A batch told over a channel, for examples. -/
def plainItem (channel : ℕ) : Batch where
  tenantId := "t"
  clusterId := "c"
  agentInstance := "a"
  sessionId := 0
  receivedAt := ⟨0, 0⟩
  observationSet := ⟨"b", 1, 1, none, [], []⟩
  persisted := some channel

/-- A consumer takes a lease on each of two batches and commits the second one first. -/
def crossedLeases : List Action :=
  [.tryEnqueue (plainItem 1), .tryEnqueue (plainItem 2), .acquire 1, .acquire 1,
    .commit 1, .markPersisted 1, .release 1, .commit 0, .markPersisted 0, .release 0]

/-- **The consumer decides the order of the commits** when it holds two leases. -/
theorem committed_out_of_order : ∃ s,
    Machine.run step (State.start 2) crossedLeases = some s ∧
    s.enqueued = [plainItem 1, plainItem 2] ∧ s.committed = [plainItem 2, plainItem 1] ∧
    ¬ s.committed <+: s.enqueued := by
  have hrun : (Machine.run step (State.start 2) crossedLeases).map
      (fun s => (s.enqueued, s.committed)) =
      some ([plainItem 1, plainItem 2], [plainItem 2, plainItem 1]) := by decide
  obtain ⟨s, hs, hlogs⟩ := Option.map_eq_some_iff.mp hrun
  obtain ⟨henqueued, hcommitted⟩ := Prod.mk.inj hlogs
  refine ⟨s, hs, henqueued, hcommitted, ?_⟩
  rw [henqueued, hcommitted]
  decide

end Leases
end Ingestion
end KubeCost
