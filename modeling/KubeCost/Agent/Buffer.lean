/-
# The agent's buffer

`agent/transport/buffer.go`: published observations get the next sequence
number and wait, in order, until the server says they are persisted or rejects
them for good. Each function is one critical section of the source; where the
source waits on `notify` and tries again, the result here says so. Sequence
numbers are natural numbers: no process publishes 2^64 observations.
-/
import KubeCost.Checks
import KubeCost.Text
import KubeCost.Wire

namespace KubeCost
namespace Agent

/-- `inventory.Event`. -/
structure Event where
  key : String
  observation : Option Observation
deriving DecidableEq

/-- `Event.Validate`; the observation it finds is the one with a payload. -/
def Event.validate (event : Event) : Except String Observation :=
  if event.key = "" then .error "inventory event key is required"
  else
    match event.observation with
    | none => .error "inventory event payload is required"
    | some observation =>
      if observation.payload = none then .error "inventory event payload is required"
      else .ok observation

structure Buffer where
  entries : List Observation
  next : ℕ
  persisted : ℕ
  capacity : ℕ
  notify : Bool
  closed : Bool
deriving DecidableEq

namespace Buffer

/-- `NewBuffer`. -/
def new (capacity : ℕ) : Buffer where
  entries := []
  next := 1
  persisted := 0
  capacity := capacity
  notify := false
  closed := false

/-- `signal`: a token is offered, and dropped when one is waiting. -/
def signal (b : Buffer) : Buffer := { b with notify := true }

/-- `eventID`: the hash of the key and the observation without its number. The
clock is read only when the observation does not encode. -/
def eventID (C : Codec) (clock key : String) (observation : Observation) : String :=
  let data := match C.marshal { observation with sequence := 0, eventId := "" } with
    | some data => data
    | none => utf8 (key ++ ":" ++ toString observation.sequence ++ ":" ++ clock)
  hexEncode (Hash.sha256 (utf8 (key ++ "\x00") ++ data))

/-- What one round of `Publish` comes to. -/
inductive Published
  | invalid (message : String)
  | closed
  /-- The buffer is full: `Publish` waits on `notify`. -/
  | full
  | done (b : Buffer) (observation : Observation)

/-- The observation as it enters the buffer. -/
def stamp (C : Codec) (clock key : String) (next : ℕ) (observation : Observation) : Observation :=
  let numbered := { observation with sequence := next }
  { numbered with eventId := eventID C clock key numbered }

def publish (C : Codec) (clock : String) (event : Event) (b : Buffer) : Published :=
  match event.validate with
  | .error message => .invalid message
  | .ok observation =>
    if b.closed then .closed
    else if b.entries.length < b.capacity then
      let stamped := stamp C clock event.key b.next observation
      .done { b with next := b.next + 1, entries := b.entries ++ [stamped] }.signal stamped
    else .full

/-- The number of the entry at an index. -/
def sequenceAt (entries : List Observation) (i : ℕ) : ℕ := ((entries[i]?).map (·.sequence)).getD 0

/-- The loop of `Batch`: the count goes down while the last of the first `count`
entries is not where a run from the first one would have it. -/
def contiguousCount (entries : List Observation) : ℕ → ℕ
  | 0 => 0
  | 1 => 1
  | count + 2 =>
    if sequenceAt entries (count + 1) ≠ sequenceAt entries 0 + (count + 1) then
      contiguousCount entries (count + 1)
    else count + 2

/-- `Batch`, once there are entries; none when it has to wait. -/
def batch (b : Buffer) (maximum : ℕ) : List Observation :=
  b.entries.take (contiguousCount b.entries (min maximum b.entries.length))

/-- `Acknowledge`. -/
def acknowledge (b : Buffer) (persistedThrough : ℕ) (terminal : List ℕ) : Buffer :=
  { b with
    entries := b.entries.filter fun o => !(o.sequence ≤ persistedThrough || o.sequence ∈ terminal)
    persisted := max b.persisted persistedThrough }.signal

/-- `Close`. -/
def close (b : Buffer) : Buffer := { b with closed := true }.signal

theorem batch_subset (b : Buffer) (maximum : ℕ) : b.batch maximum ⊆ b.entries :=
  List.take_subset _ _

theorem mem_acknowledge {b : Buffer} {n : ℕ} {terminal : List ℕ} {o : Observation} :
    o ∈ (b.acknowledge n terminal).entries ↔
      o ∈ b.entries ∧ n < o.sequence ∧ o.sequence ∉ terminal := by
  simp [acknowledge, signal]

/-- What `Acknowledge` drops has a number up to the watermark or a terminal one. -/
theorem dropped {b : Buffer} {n : ℕ} {terminal : List ℕ} {o : Observation} (h : o ∈ b.entries)
    (hd : o ∉ (b.acknowledge n terminal).entries) : o.sequence ≤ n ∨ o.sequence ∈ terminal := by
  by_contra hne
  rw [not_or, not_le] at hne
  exact hd (mem_acknowledge.mpr ⟨h, hne⟩)

/-- A publish appends one observation with the next number. -/
theorem publish_done {C : Codec} {clock : String} {event : Event} {b b' : Buffer}
    {o : Observation} (h : b.publish C clock event = .done b' o) :
    o.sequence = b.next ∧ b'.entries = b.entries ++ [o] ∧ b'.next = b.next + 1 ∧
      b'.persisted = b.persisted := by
  unfold publish at h
  split at h
  · cases h
  · split at h
    · cases h
    · split at h
      · cases h
        exact ⟨rfl, rfl, rfl, rfl⟩
      · cases h

end Buffer

end Agent
end KubeCost
