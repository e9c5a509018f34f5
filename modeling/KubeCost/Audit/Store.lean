/-
# The audit store

`services/audit/store.go`: one bounded list of events for all tenants, the oldest of
which are dropped when there are too many. `list` shows a tenant its own events only,
but the bound counts everybody's: which of its events a tenant still sees depends on
how many calls the other tenants make (`noninterference_iff`), and a busy neighbour
erases its trail (`trail_erased`).
-/
import Mathlib.Data.Int.Notation
import Mathlib.Data.List.Induction
import KubeCost.Text
import KubeCost.Time

namespace KubeCost
namespace Audit

/-! ### Types -/

structure EventRequest where
  actorId : String
  action : String
  resourceType : String
  resourceId : String
  outcome : String
  details : RawMessage := none
deriving DecidableEq

structure Event where
  auditId : String
  tenantId : String
  actorId : String
  action : String
  resourceType : String
  resourceId : String
  outcome : String
  details : RawMessage
  occurredAt : Instant
deriving DecidableEq

/-- The empty texts and a limit of 0 ask for no filter. -/
structure EventFilter where
  actorId : String := ""
  resourceType : String := ""
  resourceId : String := ""
  limit : ℤ := 0
deriving DecidableEq

structure Store where
  maxEvents : ℤ
  events : List Event
deriving DecidableEq

def defaultMaxEvents : ℤ := 1000

def newStore (maxEvents : ℤ) : Store := ⟨if maxEvents ≤ 0 then defaultMaxEvents else maxEvents, []⟩

/-- `newAuditID`, from the random bytes or, when there are none, the clock. -/
def newAuditID (random : Option (Fin 16 → UInt8)) (clock : Instant) : String :=
  match random with
  | some data => "audit_" ++ hexEncode (List.ofFn data)
  | none => "audit-" ++ formatInt clock

/-! ### Calls -/

/-- The part of `Append` under the lock. -/
def Store.add (s : Store) (event : Event) : Store :=
  let events := s.events ++ [event]
  if events.length > s.maxEvents then
    { s with events := events.drop (events.length - s.maxEvents).toNat }
  else { s with events := events }

/-- `Append`. -/
def Store.append (s : Store) (tenantID : String) (request : EventRequest) (now : Instant)
    (auditID : String) : Store × Event :=
  let event : Event :=
    { auditId := auditID
      tenantId := tenantID
      actorId := request.actorId
      action := request.action
      resourceType := request.resourceType
      resourceId := request.resourceId
      outcome := request.outcome
      details := cloneRawMessage request.details
      occurredAt := now }
  (s.add event, event)

/-- The events that `List` does not pass over. -/
def EventFilter.passes (filter : EventFilter) (tenantID : String) (event : Event) : Bool :=
  !(event.tenantId ≠ tenantID ||
    (filter.actorId ≠ "" && event.actorId ≠ filter.actorId) ||
    (filter.resourceType ≠ "" && event.resourceType ≠ filter.resourceType) ||
    (filter.resourceId ≠ "" && event.resourceId ≠ filter.resourceId))

/-- The loop of `List`; the events come the latest first. -/
def scan (passes : Event → Bool) (limit : ℤ) : List Event → List Event → List Event
  | [], result => result
  | event :: earlier, result =>
    if (result.length : ℤ) < limit then
      scan passes limit earlier
        (if passes event then result ++ [{ event with details := cloneRawMessage event.details }]
          else result)
    else result

/-- `List`. -/
def Store.list (s : Store) (tenantID : String) (filter : EventFilter) : List Event :=
  let limit := if filter.limit ≤ 0 then 100 else filter.limit
  scan (filter.passes tenantID) limit s.events.reverse []

/-- A call of `Append`. -/
structure Call where
  tenantId : String
  request : EventRequest
  now : Instant
  random : Option (Fin 16 → UInt8) := none
  clock : Instant := 0

def Store.call (s : Store) (call : Call) : Store × Event :=
  s.append call.tenantId call.request call.now (newAuditID call.random call.clock)

/-- The event of a call, the same in every store. -/
def Call.event (call : Call) : Event := ((newStore 0).call call).2

/-- The store after the calls. -/
def Store.after (s : Store) (calls : List Call) : Store := calls.foldl (fun s call => (s.call call).1) s

/-! ### What the store keeps -/

/-- The last elements of a list, at most that many. -/
def latest {α : Type} (n : ℕ) (l : List α) : List α := l.drop (l.length - n)

theorem latest_append {α : Type} {n : ℕ} (hn : 0 < n) (l : List α) (a : α) :
    latest n (latest n l ++ [a]) = latest n (l ++ [a]) := by
  unfold latest
  rw [← List.drop_append_of_le_length (by omega), List.drop_drop]
  congr 1
  simp only [List.length_drop, List.length_append, List.length_singleton]
  omega

theorem map_latest {α β : Type} (f : α → β) (n : ℕ) (l : List α) :
    (latest n l).map f = latest n (l.map f) := by
  rw [latest, latest, List.map_drop, List.length_map]

theorem latest_suffix {α : Type} (n : ℕ) (l : List α) : latest n l <:+ l := List.drop_suffix _ _

/-- The bound of a new store. -/
def capacity (maxEvents : ℤ) : ℕ := (newStore maxEvents).maxEvents.toNat

theorem newStore_maxEvents (maxEvents : ℤ) : (newStore maxEvents).maxEvents = capacity maxEvents ∧
    0 < capacity maxEvents := by
  unfold capacity newStore defaultMaxEvents
  split <;> simp only <;> omega

theorem add_events {s : Store} {n : ℕ} (h : s.maxEvents = n) (event : Event) :
    (s.add event).maxEvents = n ∧ (s.add event).events = latest n (s.events ++ [event]) := by
  unfold Store.add latest
  by_cases hfull : ((s.events ++ [event]).length : ℤ) > s.maxEvents
  · simp only [if_pos hfull]
    refine ⟨h, ?_⟩
    congr 1
    omega
  · simp only [if_neg hfull]
    refine ⟨h, ?_⟩
    rw [show (s.events ++ [event]).length - n = 0 by omega, List.drop_zero]

/-- **The store has the latest events of all tenants.** -/
theorem after_events (maxEvents : ℤ) (calls : List Call) :
    ((newStore maxEvents).after calls).maxEvents = capacity maxEvents ∧
      ((newStore maxEvents).after calls).events =
        latest (capacity maxEvents) (calls.map Call.event) := by
  obtain ⟨hmax, hpos⟩ := newStore_maxEvents maxEvents
  induction calls using List.reverseRecOn with
  | nil => exact ⟨hmax, List.drop_nil.symm⟩
  | append_singleton calls call ih =>
    have hafter : (newStore maxEvents).after (calls ++ [call]) =
        ((newStore maxEvents).after calls).add call.event := List.foldl_append
    obtain ⟨hmax', hevents⟩ := add_events ih.1 call.event
    refine ⟨by rw [hafter, hmax'], ?_⟩
    rw [hafter, hevents, ih.2, latest_append hpos, List.map_append]
    rfl

/-! ### What a tenant sees -/

/-- The event without its generated id. -/
def Event.anonymous (event : Event) : Event := { event with auditId := "" }

/-- The events of a tenant in the store, without their ids. -/
def Store.trail (s : Store) (tenantID : String) : List Event :=
  (s.events.filter fun event => event.tenantId = tenantID).map Event.anonymous

theorem scan_eq (passes : Event → Bool) (limit : ℤ) : ∀ (events result : List Event),
    scan passes limit events result = result ++ ((events.filter passes).take
      (limit - result.length).toNat).map fun event => { event with details := cloneRawMessage event.details }
  | [], result => by simp [scan]
  | event :: earlier, result => by
    unfold scan
    by_cases hroom : (result.length : ℤ) < limit
    · rw [if_pos hroom, scan_eq passes limit earlier]
      by_cases hpass : passes event = true
      · have hcount : (limit - result.length).toNat = (limit - (result.length + 1 : ℕ)).toNat + 1 := by
          omega
        simp [hpass, hcount]
      · simp [hpass]
    · rw [if_neg hroom, show (limit - result.length).toNat = 0 by omega]
      simp

/-- The limit that `List` uses. -/
def EventFilter.count (filter : EventFilter) : ℕ :=
  (if filter.limit ≤ 0 then 100 else filter.limit).toNat

/-- What a tenant is shown is a function of its trail. -/
theorem list_anonymous (s : Store) (tenantID : String) (filter : EventFilter) :
    (s.list tenantID filter).map Event.anonymous =
      (((s.trail tenantID).reverse.filter (filter.passes tenantID)).take filter.count).map
        fun event => { event with details := cloneRawMessage event.details } := by
  have hpasses : ∀ event ∈ s.events.reverse, filter.passes tenantID event =
      (filter.passes tenantID event.anonymous && decide (event.tenantId = tenantID)) := by
    intro event _
    by_cases htenant : event.tenantId = tenantID
    · simp [htenant, EventFilter.passes, Event.anonymous]
    · simp [htenant, EventFilter.passes]
  unfold Store.list Store.trail EventFilter.count
  simp only [scan_eq, List.nil_append, List.length_nil, Int.ofNat_zero, Int.sub_zero, List.map_map]
  rw [List.filter_congr hpasses, ← List.filter_filter, ← List.map_reverse, ← List.filter_reverse,
    List.filter_map, ← List.map_take, List.map_map]
  rfl

/-! ### Two histories -/

/-- The calls of a tenant, without the ids that are generated for them. -/
def contents (tenantID : String) (calls : List Call) : List (EventRequest × Instant) :=
  (calls.filter fun call => call.tenantId = tenantID).map fun call => (call.request, call.now)

/-- How many of the latest calls are the tenant's. -/
def retained (n : ℕ) (tenantID : String) (calls : List Call) : ℕ :=
  ((latest n calls).filter fun call => call.tenantId = tenantID).length

/-- The event of a call of the tenant, without its id. -/
def recordedAs (tenantID : String) (content : EventRequest × Instant) : Event :=
  (Call.event ⟨tenantID, content.1, content.2, none, 0⟩).anonymous

/-- The trail of a tenant is the end of its own calls, as long as the latest calls of all
tenants have room for it. -/
theorem trail_after (maxEvents : ℤ) (tenantID : String) (calls : List Call) :
    (((newStore maxEvents).after calls).trail tenantID <:+
        (contents tenantID calls).map (recordedAs tenantID)) ∧
      (((newStore maxEvents).after calls).trail tenantID).length =
        retained (capacity maxEvents) tenantID calls := by
  have htrail : ((newStore maxEvents).after calls).trail tenantID =
      ((latest (capacity maxEvents) calls).filter fun call => call.tenantId = tenantID).map
        fun call => call.event.anonymous := by
    unfold Store.trail
    rw [(after_events maxEvents calls).2, ← map_latest, List.filter_map, List.map_map]
    rfl
  have hcontents : (contents tenantID calls).map (recordedAs tenantID) =
      (calls.filter fun call => call.tenantId = tenantID).map fun call => call.event.anonymous := by
    unfold contents
    rw [List.map_map]
    refine List.map_congr_left fun call hcall => ?_
    have htenant : call.tenantId = tenantID := of_decide_eq_true (List.mem_filter.mp hcall).2
    subst htenant
    rfl
  rw [htrail, hcontents]
  refine ⟨?_, List.length_map _⟩
  exact ((latest_suffix _ calls).filter _).map _

/-- **Which histories a tenant cannot tell apart.** Two histories agree on the tenant's
calls. Then every list that the tenant asks for is the same after both, up to the
generated ids, exactly if the same number of its calls are among the latest calls. -/
theorem noninterference_iff (maxEvents : ℤ) {tenantID : String} {calls calls' : List Call}
    (hsame : contents tenantID calls = contents tenantID calls') :
    (∀ filter, (((newStore maxEvents).after calls).list tenantID filter).map Event.anonymous =
        (((newStore maxEvents).after calls').list tenantID filter).map Event.anonymous) ↔
      retained (capacity maxEvents) tenantID calls = retained (capacity maxEvents) tenantID calls' := by
  obtain ⟨hsuffix, hlength⟩ := trail_after maxEvents tenantID calls
  obtain ⟨hsuffix', hlength'⟩ := trail_after maxEvents tenantID calls'
  rw [← hsame] at hsuffix'
  rw [← hlength, ← hlength']
  generalize (newStore maxEvents).after calls = s at *
  generalize (newStore maxEvents).after calls' = s' at *
  constructor
  · intro hlist
    -- the filter that lets the whole trail through
    have hfull : ∀ (s : Store) (n : ℕ), (s.trail tenantID).length ≤ n →
        ((s.list tenantID ⟨"", "", "", n + 1⟩).map Event.anonymous).length =
          (s.trail tenantID).length := by
      intro s n hn
      have hall : ∀ event ∈ (s.trail tenantID).reverse,
          EventFilter.passes ⟨"", "", "", n + 1⟩ tenantID event = true := by
        intro event hevent
        obtain ⟨e, he, rfl⟩ := List.mem_map.mp (List.mem_reverse.mp hevent)
        have htenant : e.tenantId = tenantID := of_decide_eq_true (List.mem_filter.mp he).2
        simp [EventFilter.passes, Event.anonymous, htenant]
      have hcount : EventFilter.count ⟨"", "", "", n + 1⟩ = n + 1 := by
        unfold EventFilter.count
        simp only
        split <;> omega
      rw [list_anonymous, List.length_map, List.filter_eq_self.mpr hall, List.length_take,
        List.length_reverse, hcount]
      omega
    have h := hlist ⟨"", "", "", max (s.trail tenantID).length (s'.trail tenantID).length + 1⟩
    have hlen := congrArg List.length h
    rwa [hfull s _ (by omega), hfull s' _ (by omega)] at hlen
  · intro hcount filter
    have htrail : s.trail tenantID = s'.trail tenantID :=
      (List.suffix_of_suffix_length_le hsuffix hsuffix' hcount.le).eq_of_length hcount
    rw [list_anonymous, list_anonymous, htrail]

/-- A call of a tenant. -/
def logs (tenantID : String) : Call :=
  ⟨tenantID, ⟨"user", "delete", "policy", "p1", "succeeded", none⟩, 0, none, 0⟩

theorem noninterference_iff_neighbour : contents "a" [logs "a"] = contents "a" [logs "a", logs "b"] ∧
    ∀ filter, (((newStore 2).after [logs "a"]).list "a" filter).map Event.anonymous =
      (((newStore 2).after [logs "a", logs "b"]).list "a" filter).map Event.anonymous := by
  have hsame : contents "a" [logs "a"] = contents "a" [logs "a", logs "b"] := by decide
  exact ⟨hsame, (noninterference_iff 2 hsame).mpr (by decide)⟩

/-- **A neighbour erases a trail.** The histories differ in one call of another tenant, and
the tenant's only event is no longer there. -/
theorem trail_erased : contents "a" [logs "a"] = contents "a" [logs "a", logs "b"] ∧
    ((newStore 1).after [logs "a"]).list "a" {} ≠ [] ∧
    ((newStore 1).after [logs "a", logs "b"]).list "a" {} = [] := by
  decide

end Audit
end KubeCost
