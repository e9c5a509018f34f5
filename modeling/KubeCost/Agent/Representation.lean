/-
# The buffer as the process holds it

`agent/transport/buffer.go` once more, at the level of the machine: the entries are a
slice over an array that `Acknowledge` filters in place, and the sequence numbers are
`uint64`, whose sums wrap around.

Below `2 ^ 64 - 1` publishes no sum wraps, so every operation is the one of `Buffer`
(`publish_toBuffer`, `batch_toBuffer`, `acknowledge_toBuffer`). `Run` is the buffer with
the numbers it has given out; `run_ok` says what every run keeps, and `representation`
what follows for the entries, for `Acknowledge` and for `Batch`.
-/
import Mathlib.Data.List.Chain
import KubeCost.Delivery.Limits
import KubeCost.Slice

namespace KubeCost
namespace Agent

open Buffer Delivery

/-! ### The operations -/

structure StoredBuffer where
  entries : Slice Observation
  next : ℕ
  persisted : ℕ
  capacity : ℕ
  notify : Bool
  closed : Bool

namespace StoredBuffer

def errClosed : String := "inventory buffer is closed"

/-- `NewBuffer`. -/
def new (capacity : ℕ) : StoredBuffer where
  entries := .nil
  next := 1
  persisted := 0
  capacity := capacity
  notify := false
  closed := false

def signal (b : StoredBuffer) : StoredBuffer := { b with notify := true }

/-- A round of `Publish`; `none` when it waits on `notify`. -/
def publish (C : Codec) (clock : String) (spare : List Observation) (event : Event)
    (b : StoredBuffer) : Except String (Option (StoredBuffer × Observation)) := do
  let observation ← event.validate
  if b.closed then .error errClosed
  else if b.entries.length < b.capacity then
    let stamped := stamp C clock event.key b.next observation
    return some ({ b with
      next := (b.next + 1) % 2 ^ 64
      entries := b.entries.append spare stamped }.signal, stamped)
  else return none

/-- The loop of `Batch`. -/
def contiguousCount (entries : List Observation) : ℕ → ℕ
  | 0 => 0
  | 1 => 1
  | count + 2 =>
    if sequenceAt entries (count + 1) ≠ (sequenceAt entries 0 + (count + 1)) % 2 ^ 64 then
      contiguousCount entries (count + 1)
    else count + 2

/-- A round of `Batch`: the buffer afterwards and copies of entries; `none` when it waits. -/
def batch (b : StoredBuffer) (maximum : ℕ) :
    Except String (Option (StoredBuffer × List Observation)) :=
  if 0 < b.entries.length then
    let count := if maximum > b.entries.length then b.entries.length else maximum
    .ok (some (b, b.entries.values.take (contiguousCount b.entries.values count)))
  else if b.closed then .error errClosed
  else .ok none

/-- `Acknowledge`. -/
def acknowledge (b : StoredBuffer) (persistedThrough : ℕ) (terminal : List ℕ) : StoredBuffer :=
  { b with
    entries := b.entries.filterInPlace fun o =>
      !(o.sequence ≤ persistedThrough || o.sequence ∈ terminal)
    persisted := if persistedThrough > b.persisted then persistedThrough else b.persisted }.signal

/-- `Close`. -/
def close (b : StoredBuffer) : StoredBuffer := { b with closed := true }.signal

/-- The buffer without its array. -/
def toBuffer (b : StoredBuffer) : Buffer where
  entries := b.entries.values
  next := b.next
  persisted := b.persisted
  capacity := b.capacity
  notify := b.notify
  closed := b.closed

/-! ### Nothing wraps -/

section

variable {C : Codec} {clock : String} {spare : List Observation} {event : Event}
  {b b' : StoredBuffer} {o : Observation} {os : List Observation}

/-- What a successful publish finds and leaves. -/
theorem publish_eq_some (h : b.publish C clock spare event = .ok (some (b', o))) :
    ∃ observation, event.validate = .ok observation ∧ ¬ b.closed ∧ b.entries.length < b.capacity ∧
      o = stamp C clock event.key b.next observation ∧
      b' = { b with next := (b.next + 1) % 2 ^ 64, entries := b.entries.append spare o }.signal := by
  obtain ⟨observation, hvalid, h⟩ := bind_eq_ok.mp h
  refine ⟨observation, hvalid, ?_⟩
  split at h
  · cases h
  · next hopen =>
    split at h
    · next hroom =>
      cases h
      exact ⟨hopen, hroom, rfl, rfl⟩
    · cases h

/-- **`Publish` appends the observation with the next number.** -/
theorem publish_toBuffer (hnext : b.next + 1 < 2 ^ 64)
    (h : b.publish C clock spare event = .ok (some (b', o))) :
    b.toBuffer.publish C clock event = .done b'.toBuffer o := by
  obtain ⟨observation, hvalid, hopen, hroom, rfl, rfl⟩ := publish_eq_some h
  have hlength : b.toBuffer.entries.length < b.toBuffer.capacity := by
    rw [toBuffer, Slice.length_values]
    exact hroom
  have hopen : ¬ b.toBuffer.closed := hopen
  rw [Buffer.publish, hvalid]
  simp only []
  rw [if_neg hopen, if_pos hlength, Nat.mod_eq_of_lt hnext]
  simp only [toBuffer, signal, Buffer.signal, Slice.values_append]

theorem acknowledge_toBuffer (b : StoredBuffer) (n : ℕ) (terminal : List ℕ) :
    (b.acknowledge n terminal).toBuffer = b.toBuffer.acknowledge n terminal := by
  have hmax : (if n > b.persisted then n else b.persisted) = max b.persisted n := by
    rw [Nat.max_def]
    split <;> split <;> omega
  simp only [acknowledge, Buffer.acknowledge, toBuffer, signal, Buffer.signal,
    Slice.values_filterInPlace, hmax]

/-- In order of their numbers, the entries are at least as far apart as their places. -/
theorem sequenceAt_zero_add_le (hsorted : Increasing os) {i : ℕ} (hi : i < os.length) :
    sequenceAt os 0 + i ≤ sequenceAt os i := by
  obtain ⟨hrun, hgap⟩ := leading_sequence hsorted hi
  by_cases h : i < (leading os).length
  · exact (hrun h).symm.le
  · exact (hgap (by omega)).le

theorem sequenceAt_lt {n : ℕ} (hbelow : ∀ o ∈ os, o.sequence < n) {i : ℕ} (hi : i < os.length) :
    sequenceAt os i < n := by
  rw [sequenceAt, List.getElem?_eq_getElem hi]
  exact hbelow _ (List.getElem_mem hi)

theorem contiguousCount_eq_of_lt (hsorted : Increasing os) (hbelow : ∀ o ∈ os, o.sequence < 2 ^ 64) :
    ∀ {count : ℕ}, count ≤ os.length → contiguousCount os count = Buffer.contiguousCount os count
  | 0, _ => rfl
  | 1, _ => rfl
  | count + 2, h => by
    have hle := sequenceAt_zero_add_le hsorted (show count + 1 < os.length by omega)
    have hlt := sequenceAt_lt hbelow (show count + 1 < os.length by omega)
    rw [contiguousCount, Buffer.contiguousCount, Nat.mod_eq_of_lt (hle.trans_lt hlt),
      contiguousCount_eq_of_lt hsorted hbelow (by omega)]

/-- **`Batch` returns the run at the front and leaves the buffer alone.** -/
theorem batch_toBuffer (hsorted : Increasing b.entries.values)
    (hbelow : ∀ o ∈ b.entries.values, o.sequence < 2 ^ 64) (hne : b.entries.values ≠ [])
    (maximum : ℕ) : b.batch maximum = .ok (some (b, b.toBuffer.batch maximum)) := by
  have hlength := Slice.length_values b.entries
  have hpos : 0 < b.entries.length := by
    rw [← hlength]
    exact List.length_pos_iff.mpr hne
  have hmin : (if maximum > b.entries.length then b.entries.length else maximum) =
      min maximum b.entries.values.length := by
    rw [hlength]
    split <;> omega
  rw [batch, if_pos hpos]
  simp only [hmin, contiguousCount_eq_of_lt hsorted hbelow (Nat.min_le_right _ _)]
  rfl

end

/-! ### Runs -/

/-- The buffer and the numbers it has given out. -/
structure Run where
  buffer : StoredBuffer
  assigned : List ℕ

inductive Action
  | publish (clock : String) (spare : List Observation) (event : Event)
  | batch (maximum : ℕ)
  | acknowledge (persistedThrough : ℕ) (terminal : List ℕ)
  | close

namespace Run

def new (capacity : ℕ) : Run := ⟨.new capacity, []⟩

/-- One successful call. -/
def step (C : Codec) (r : Run) : Action → Option Run
  | .publish clock spare event =>
    match r.buffer.publish C clock spare event with
    | .ok (some (buffer, observation)) => some ⟨buffer, r.assigned ++ [observation.sequence]⟩
    | _ => none
  | .batch maximum =>
    match r.buffer.batch maximum with
    | .ok (some (buffer, _)) => some ⟨buffer, r.assigned⟩
    | _ => none
  | .acknowledge persistedThrough terminal =>
    some ⟨r.buffer.acknowledge persistedThrough terminal, r.assigned⟩
  | .close => some ⟨r.buffer.close, r.assigned⟩

/-- What the process keeps as long as its numbers do not wrap around. -/
structure Ok (capacity : ℕ) (r : Run) : Prop where
  capacity_eq : r.buffer.capacity = capacity
  length_le : r.buffer.entries.length ≤ capacity
  increasing : Increasing r.buffer.entries.values
  below : ∀ o ∈ r.buffer.entries.values, o.sequence < r.buffer.next
  next : r.buffer.next = r.assigned.length + 1
  assigned : r.assigned = List.range' 1 r.assigned.length

variable {C : Codec} {capacity : ℕ} {r r' : Run} {a : Action}

theorem batch_eq_self {b b' : StoredBuffer} {maximum : ℕ} {os : List Observation}
    (h : b.batch maximum = .ok (some (b', os))) : b' = b := by
  unfold batch at h
  split at h
  · cases h
    rfl
  · split at h <;> cases h

theorem Ok.publish {clock : String} {spare : List Observation} {event : Event}
    {buffer : StoredBuffer} {o : Observation} (h : Ok capacity r)
    (hfew : r.assigned.length + 1 < 2 ^ 64 - 1)
    (hpub : r.buffer.publish C clock spare event = .ok (some (buffer, o))) :
    Ok capacity ⟨buffer, r.assigned ++ [o.sequence]⟩ := by
  have hbound : r.buffer.next + 1 < 2 ^ 64 := by
    have := h.next
    omega
  have hdone := publish_toBuffer hbound hpub
  obtain ⟨hsequence, hentries, hnext, -⟩ := publish_done hdone
  obtain ⟨hsorted, hbelow⟩ := publish_increasing h.increasing h.below hdone
  obtain ⟨-, -, -, hroom, -, hbuffer⟩ := publish_eq_some hpub
  refine ⟨?_, ?_, hsorted, hbelow, ?_, ?_⟩
  · rw [hbuffer]
    exact h.capacity_eq
  · have hgrown := congrArg List.length hentries
    rw [List.length_append, List.length_singleton] at hgrown
    have hold := Slice.length_values r.buffer.entries
    have hnew := Slice.length_values buffer.entries
    have hcapacity := h.capacity_eq
    simp only [toBuffer] at hgrown
    show buffer.entries.length ≤ capacity
    omega
  · rw [List.length_append, List.length_singleton, ← h.next]
    exact hnext
  · have hnumber : o.sequence = 1 + 1 * r.assigned.length := by
      rw [hsequence]
      show r.buffer.next = _
      rw [h.next]
      omega
    show r.assigned ++ [o.sequence] = _
    rw [List.length_append, List.length_singleton, List.range'_concat, ← hnumber, ← h.assigned]

/-- What a successful call does. -/
inductive Move (C : Codec) (r : Run) : Run → Prop
  | published {clock : String} {spare : List Observation} {event : Event} {buffer : StoredBuffer}
      {o : Observation} (result : r.buffer.publish C clock spare event = .ok (some (buffer, o))) :
      Move C r ⟨buffer, r.assigned ++ [o.sequence]⟩
  | batched : Move C r r
  | acknowledged (n : ℕ) (terminal : List ℕ) :
      Move C r ⟨r.buffer.acknowledge n terminal, r.assigned⟩
  | closed : Move C r ⟨r.buffer.close, r.assigned⟩

theorem step_move (h : r.step C a = some r') : Move C r r' := by
  cases a with
  | publish clock spare event =>
    simp only [step] at h
    split at h
    · next hpub =>
      cases h
      exact .published hpub
    · cases h
  | batch maximum =>
    simp only [step] at h
    split at h
    · next hbatch =>
      cases h
      rw [batch_eq_self hbatch]
      exact .batched
    · cases h
  | acknowledge n terminal =>
    cases h
    exact .acknowledged n terminal
  | close =>
    cases h
    exact .closed

theorem Ok.acknowledge (h : Ok capacity r) (n : ℕ) (terminal : List ℕ) :
    Ok capacity ⟨r.buffer.acknowledge n terminal, r.assigned⟩ := by
  have hvalues : (r.buffer.acknowledge n terminal).entries.values =
      (r.buffer.toBuffer.acknowledge n terminal).entries := by
    rw [← acknowledge_toBuffer]
    rfl
  refine ⟨h.capacity_eq, ?_, ?_, ?_, h.next, h.assigned⟩
  · show (r.buffer.acknowledge n terminal).entries.length ≤ capacity
    rw [← Slice.length_values, hvalues]
    refine (List.length_filter_le _ _).trans ?_
    show r.buffer.entries.values.length ≤ capacity
    rw [Slice.length_values]
    exact h.length_le
  · show Increasing (r.buffer.acknowledge n terminal).entries.values
    rw [hvalues]
    exact h.increasing.filter _
  · intro o ho
    rw [hvalues] at ho
    exact h.below o (mem_acknowledge.mp ho).1

/-- **One call keeps the representation.** -/
theorem Ok.move (h : Ok capacity r) (hmove : Move C r r')
    (hfew : r'.assigned.length < 2 ^ 64 - 1) : Ok capacity r' := by
  cases hmove with
  | published result =>
    rw [List.length_append, List.length_singleton] at hfew
    exact h.publish hfew result
  | batched => exact h
  | acknowledged n terminal => exact h.acknowledge n terminal
  | closed => exact ⟨h.capacity_eq, h.length_le, h.increasing, h.below, h.next, h.assigned⟩

theorem Move.assigned_length_le (hmove : Move C r r') : r.assigned.length ≤ r'.assigned.length := by
  cases hmove with
  | published =>
    rw [List.length_append]
    exact Nat.le_add_right _ _
  | batched | acknowledged | closed => exact Nat.le_refl _

/-- **Every run keeps the representation.** -/
theorem run_ok (hreach : Machine.Reach (Run.step C) Machine.Always (Run.new capacity) r)
    (hfew : r.assigned.length < 2 ^ 64 - 1) : Ok capacity r := by
  refine hreach.invariant (I := fun r => r.assigned.length < 2 ^ 64 - 1 → Ok capacity r) ?_ ?_ hfew
  · intro _
    exact ⟨rfl, Nat.zero_le _, List.Pairwise.nil, fun _ ho => absurd ho List.not_mem_nil, rfl, rfl⟩
  · intro r a r' ih _ hstep hfew
    have hmove := step_move hstep
    exact (ih (hmove.assigned_length_le.trans_lt hfew)).move hmove hfew

end Run

/-! ### The run at the front -/

/-- Each observation has the number after the one before it. -/
def Consecutive (os : List Observation) : Prop := os.IsChain fun o o' => o'.sequence = o.sequence + 1

/-- The longest part of the entries from their front, up to `maximum`, whose numbers are
consecutive. -/
structure LongestRun (maximum : ℕ) (entries batch : List Observation) : Prop where
  initial : batch <+: entries
  length_le : batch.length ≤ maximum
  consecutive : Consecutive batch
  longest : ∀ other, other <+: entries → other.length ≤ maximum → Consecutive other →
    other.length ≤ batch.length

theorem consecutive_leadingFrom : ∀ (n : ℕ) (o : Observation) (rest : List Observation),
    o.sequence + 1 = n → Consecutive (o :: leadingFrom n rest)
  | _, _, [], _ => List.isChain_singleton _
  | n, o, a :: rest, h => by
    unfold leadingFrom
    split
    · next ha =>
      refine List.isChain_cons_cons.mpr ⟨by omega, ?_⟩
      exact consecutive_leadingFrom (n + 1) a rest (by omega)
    · exact List.isChain_singleton _

theorem consecutive_leading : ∀ os : List Observation, Consecutive (leading os)
  | [] => List.isChain_nil
  | o :: rest => consecutive_leadingFrom _ o rest rfl

/-- A consecutive part from the front is within the run. -/
theorem length_le_leadingFrom : ∀ (n : ℕ) (o : Observation) (other rest : List Observation),
    o.sequence + 1 = n → other <+: rest → Consecutive (o :: other) →
    other.length ≤ (leadingFrom n rest).length
  | _, _, [], _, _, _, _ => Nat.zero_le _
  | n, o, b :: other, [], _, h, _ => absurd h.length_le (by simp)
  | n, o, b :: other, a :: rest, hn, h, hrun => by
    obtain ⟨rfl, hother⟩ := List.cons_prefix_cons.mp h
    obtain ⟨hb, hrun⟩ := List.isChain_cons_cons.mp hrun
    rw [leadingFrom, if_pos (by omega), List.length_cons, List.length_cons]
    exact Nat.succ_le_succ (length_le_leadingFrom (n + 1) b other rest (by omega) hother hrun)

theorem length_le_leading {other os : List Observation} (h : other <+: os) (hrun : Consecutive other) :
    other.length ≤ (leading os).length := by
  cases other with
  | nil => exact Nat.zero_le _
  | cons o other =>
    cases os with
    | nil => exact absurd h.length_le (by simp)
    | cons a rest =>
      obtain ⟨rfl, hother⟩ := List.cons_prefix_cons.mp h
      exact Nat.succ_le_succ (length_le_leadingFrom _ o other rest rfl hother hrun)

theorem longestRun_leading (maximum : ℕ) (os : List Observation) :
    LongestRun maximum os ((leading os).take maximum) where
  initial := (List.take_prefix _ _).trans (leading_initial os)
  length_le := List.length_take_le _ _
  consecutive := (consecutive_leading os).take _
  longest := fun other h hle hrun => by
    have := length_le_leading h hrun
    rw [List.length_take]
    omega

/-- **The representation of the buffer**, after any run of fewer than `2 ^ 64 - 1`
publishes. -/
theorem representation {C : Codec} {capacity : ℕ} {r : Run}
    (hreach : Machine.Reach (Run.step C) Machine.Always (Run.new capacity) r)
    (hfew : r.assigned.length < 2 ^ 64 - 1) :
    (r.buffer.entries.values.length ≤ capacity ∧
      (r.buffer.entries.values.Pairwise fun o o' => o.sequence < o'.sequence) ∧
      ∀ o ∈ r.buffer.entries.values, o.sequence < r.buffer.next) ∧
    r.assigned = List.range' 1 r.assigned.length ∧
    (∀ n terminal, (r.buffer.acknowledge n terminal).entries.values =
      r.buffer.entries.values.filter fun o => ¬ (o.sequence ≤ n ∨ o.sequence ∈ terminal)) ∧
    ∀ maximum, 1 ≤ maximum → r.buffer.entries.values ≠ [] → ∃ batch,
      r.buffer.batch maximum = .ok (some (r.buffer, batch)) ∧
        LongestRun maximum r.buffer.entries.values batch := by
  have h := Run.run_ok hreach hfew
  refine ⟨⟨?_, h.increasing, h.below⟩, h.assigned, ?_, ?_⟩
  · rw [Slice.length_values]
    exact h.length_le
  · intro n terminal
    show (r.buffer.entries.filterInPlace _).values = _
    rw [Slice.values_filterInPlace]
    refine List.filter_congr fun o _ => ?_
    simp only [decide_not, Bool.decide_or]
  · intro maximum _ hne
    have hbelow : ∀ o ∈ r.buffer.entries.values, o.sequence < 2 ^ 64 := by
      intro o ho
      have := h.below o ho
      have := h.next
      omega
    refine ⟨_, batch_toBuffer h.increasing hbelow hne maximum, ?_⟩
    rw [batch_eq (b := r.buffer.toBuffer) h.increasing]
    exact longestRun_leading maximum _

def markerEvent : Event := ⟨"snapshot", some { payload := some (.inventorySnapshotMarker []) }⟩

/-- Three publishes, a batch, and a terminal rejection of the second observation. -/
def holeActions : List Action :=
  [.publish "" [] markerEvent, .publish "" [] markerEvent, .publish "" [] markerEvent, .batch 2,
    .acknowledge 0 [2]]

theorem run_holeActions :
    ∃ r, Machine.run (Run.step Ingestion.plainCodec) (Run.new 3) holeActions = some r ∧
      r.assigned = [1, 2, 3] ∧ r.buffer.entries.values.map (·.sequence) = [1, 3] :=
  ⟨_, rfl, rfl, rfl⟩

theorem representation_hole :
    ∃ r, Machine.run (Run.step Ingestion.plainCodec) (Run.new 3) holeActions = some r ∧
      r.assigned = [1, 2, 3] ∧ r.buffer.entries.values.map (·.sequence) = [1, 3] ∧
      ∃ batch, r.buffer.batch 5 = .ok (some (r.buffer, batch)) ∧
        LongestRun 5 r.buffer.entries.values batch := by
  obtain ⟨r, hrun, hassigned, hsequences⟩ := run_holeActions
  refine ⟨r, hrun, hassigned, hsequences, ?_⟩
  have hne : r.buffer.entries.values ≠ [] := by
    intro h
    rw [h] at hsequences
    cases hsequences
  have hfew : r.assigned.length < 2 ^ 64 - 1 := by
    rw [hassigned]
    decide
  exact (representation (.of_run (fun _ _ _ => trivial) hrun) hfew).2.2.2 5 (by decide) hne

end StoredBuffer
end Agent
end KubeCost
