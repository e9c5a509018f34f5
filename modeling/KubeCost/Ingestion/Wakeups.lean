/-
# Consumers that wait for the ingestion queue

`services/ingestion/queue/queue.go` with its callers as goroutines: any number of them
call `TryEnqueue`, `Acquire`, `Dequeue`, `Commit` and `Retry`, each step of a call at any
time. A critical section that ends with a send is two steps here, and in between the
goroutine holds the mutex.

Whenever items are left a send follows, and a consumer that has received the token looks
at the items before anything else, cancelled or not. So nobody is parked beside items
without a token under way (`never_strands`).
-/
import KubeCost.Ingestion.Queue
import KubeCost.Machine
import KubeCost.Waiters

namespace KubeCost
namespace Ingestion
namespace Wakeups

/-- The calls that may wait. -/
inductive Call
  | acquire (maximum : ℕ)
  | dequeue (maximum : ℕ)

/-- The queue, whose channel is that of the waiters, and the open leases. -/
structure State (α : Type) where
  queue : Queue α
  leases : List (List α)
  waiters : Waiters Call

variable {α : Type}

/-- `New`. -/
def State.start (capacity : ℕ) : State α := ⟨.new capacity, [], .new⟩

/-- The critical section of a goroutine that is going to send. -/
def State.update (s : State α) (t : ℕ) (queue : Queue α) (leases : List (List α)) : State α :=
  { queue := { queue with ready := s.queue.ready }, leases := leases, waiters := s.waiters.hold t }

/-- One round of the loop of `Acquire` or `Dequeue`, up to the release of the mutex. -/
def State.round (s : State α) (t : ℕ) : Call → State α
  | .acquire maximum =>
    match s.queue.acquire maximum with
    | some (items, queue) => s.update t queue (s.leases ++ [items])
    | none => { s with waiters := s.waiters.wait t (.acquire maximum) }
  | .dequeue maximum =>
    match s.queue.dequeue maximum with
    | some (_, queue) =>
      if queue.items.length > 0 then s.update t queue s.leases
      else { s with queue := queue, waiters := s.waiters.leave t }
    | none => { s with waiters := s.waiters.wait t (.dequeue maximum) }

inductive Action (α : Type)
  | tryEnqueue (t : ℕ) (item : α)
  /-- A call of `Acquire` or `Dequeue` takes the mutex. -/
  | call (t : ℕ) (call : Call)
  /-- A consumer that has received the token takes the mutex. -/
  | resume (t : ℕ)
  | select (t : ℕ)
  | cancel (t : ℕ)
  /-- `Commit` of an open lease; its channels are closed before. -/
  | commit (t i : ℕ)
  | retry (t i : ℕ)
  | signal

def step (s : State α) : Action α → Option (State α)
  | .tryEnqueue t item =>
    if s.waiters.free t then
      match s.queue.tryEnqueue item with
      | none => some s
      | some queue => some (s.update t queue s.leases)
    else none
  | .call t call => if s.waiters.free t then some (s.round t call) else none
  | .resume t =>
    match s.waiters.place t, s.waiters.mutex with
    | .woken call, none => some (s.round t call)
    | _, _ => none
  | .select t => (s.waiters.select t).map fun waiters => { s with waiters := waiters }
  | .cancel t => (s.waiters.cancel t).map fun waiters => { s with waiters := waiters }
  | .commit t i =>
    match s.leases[i]? with
    | some items =>
      if s.waiters.free t then some (s.update t (s.queue.commit items) (s.leases.eraseIdx i)) else none
    | none => none
  | .retry t i =>
    match s.leases[i]? with
    | some items =>
      if s.waiters.free t then some (s.update t (s.queue.retry items) (s.leases.eraseIdx i)) else none
    | none => none
  | .signal => s.waiters.signal.map fun waiters => { s with waiters := waiters }

/-- **A stranded consumer**: items are left, no token is in the channel, with a consumer or
about to be sent, and somebody is parked. -/
def Stranded (s : State α) : Prop :=
  s.queue.items ≠ [] ∧ s.waiters.Quiet ∧ s.waiters.parked ≠ []

/-! ### The invariant -/

structure Inv (s : State α) : Prop where
  consistent : s.waiters.Consistent
  served : s.waiters.mutex = none → s.queue.items ≠ [] → s.waiters.Served

variable {s s' : State α} {t : ℕ}

theorem inv_start (capacity : ℕ) : Inv (State.start capacity : State α) :=
  ⟨Waiters.consistent_new, fun _ h => absurd rfl h⟩

theorem Inv.update (h : Inv s) (ht : ∀ call, s.waiters.place t ≠ .selecting call) (queue : Queue α)
    (leases : List (List α)) : Inv (s.update t queue leases) :=
  ⟨h.consistent.hold ht, fun hmutex => nomatch hmutex⟩

/-- A goroutine that looked at an empty queue, or emptied it. -/
theorem inv_of_empty (h : s.waiters.Consistent) (hempty : s.queue.items = []) : Inv s :=
  ⟨h, fun _ hne => absurd hempty hne⟩

/-- **A round**: items that are left are sent for. -/
theorem Inv.round (h : Inv s) (ht : ∀ call, s.waiters.place t ≠ .selecting call) (call : Call) :
    Inv (s.round t call) := by
  have hnone : ∀ {n : ℕ}, ¬ n > 0 → n = 0 := fun hn => Nat.eq_zero_of_not_pos hn
  cases call with
  | acquire maximum =>
    rw [State.round]
    split
    · exact h.update ht _ _
    · rename_i hacquire
      refine inv_of_empty (h.consistent.wait ht _) ?_
      unfold Queue.acquire at hacquire
      split at hacquire
      · cases hacquire
      · exact List.eq_nil_of_length_eq_zero (hnone ‹_›)
  | dequeue maximum =>
    rw [State.round]
    split
    · split
      · exact h.update ht _ _
      · exact inv_of_empty (h.consistent.leave ht) (List.eq_nil_of_length_eq_zero (hnone ‹_›))
    · rename_i hdequeue
      refine inv_of_empty (h.consistent.wait ht _) ?_
      unfold Queue.dequeue at hdequeue
      split at hdequeue
      · cases hdequeue
      · exact List.eq_nil_of_length_eq_zero (hnone ‹_›)

theorem Inv.step (h : Inv s) {a : Action α} (hs : step s a = some s') : Inv s' := by
  cases a with
  | tryEnqueue t item =>
    obtain ⟨hfree, hs⟩ := Option.ite_none_right_eq_some.mp hs
    split at hs <;> cases hs
    · exact h
    · exact h.update (Waiters.not_selecting_of_free hfree) _ _
  | call t call =>
    obtain ⟨hfree, hs⟩ := Option.ite_none_right_eq_some.mp hs
    cases hs
    exact h.round (Waiters.not_selecting_of_free hfree) call
  | resume t =>
    simp only [Wakeups.step] at hs
    split at hs
    · rename_i call hplace hmutex
      cases hs
      exact h.round (Waiters.not_selecting_of_woken hplace) call
    · cases hs
  | select t =>
    obtain ⟨waiters, hselect, rfl⟩ := Option.map_eq_some_iff.mp hs
    refine ⟨h.consistent.select hselect, fun hmutex hitems => ?_⟩
    exact (h.served (Waiters.select_mutex hselect ▸ hmutex) hitems).select hselect
  | cancel t =>
    obtain ⟨waiters, hcancel, rfl⟩ := Option.map_eq_some_iff.mp hs
    refine ⟨h.consistent.cancel hcancel, fun hmutex hitems => ?_⟩
    exact (h.served (Waiters.cancel_mutex hcancel ▸ hmutex) hitems).cancel hcancel
  | commit t i =>
    simp only [Wakeups.step] at hs
    split at hs
    · obtain ⟨hfree, hs⟩ := Option.ite_none_right_eq_some.mp hs
      cases hs
      exact h.update (Waiters.not_selecting_of_free hfree) _ _
    · cases hs
  | retry t i =>
    simp only [Wakeups.step] at hs
    split at hs
    · obtain ⟨hfree, hs⟩ := Option.ite_none_right_eq_some.mp hs
      cases hs
      exact h.update (Waiters.not_selecting_of_free hfree) _ _
    · cases hs
  | signal =>
    obtain ⟨waiters, hsignal, rfl⟩ := Option.map_eq_some_iff.mp hs
    exact ⟨h.consistent.signal hsignal, fun _ _ => Waiters.served_signal h.consistent hsignal⟩

/-- **The queue never strands a consumer.** Whatever the callers do and in whatever order,
and whoever is cancelled: while items are left, a token is in the channel, or somebody
has received one and will look, or somebody is about to send one, or nobody is parked. -/
theorem never_strands {capacity : ℕ}
    (h : Machine.Reach step Machine.Always (State.start capacity) s) : ¬ Stranded s := by
  have inv : Inv s := h.invariant (inv_start capacity) fun _ _ _ hinv _ hstep => hinv.step hstep
  rintro ⟨hitems, hquiet, hparked⟩
  obtain ⟨t, ht⟩ := List.exists_mem_of_ne_nil _ hparked
  exact (inv.served hquiet.2.1 hitems).not_parked inv.consistent hquiet ht

/-- Two consumers are parked, two items come, and one of the consumers takes one. -/
def twoConsumers : List (Action ℕ) :=
  [.call 1 (.acquire 1), .call 2 (.dequeue 1), .select 1, .select 2, .tryEnqueue 3 10, .signal,
    .tryEnqueue 3 11, .signal, .resume 1, .signal]

theorem never_strands_twoConsumers : ∃ s, Machine.run step (State.start 2) twoConsumers = some s ∧
    s.queue.items = [11] ∧ ¬ Stranded s := by
  have hrun : (Machine.run step (State.start 2) twoConsumers).map (·.queue.items) = some [11] := by
    decide
  obtain ⟨s, hs, hitems⟩ := Option.map_eq_some_iff.mp hrun
  exact ⟨s, hs, hitems, never_strands (.of_run (fun _ _ _ => trivial) hs)⟩

end Wakeups
end Ingestion
end KubeCost
