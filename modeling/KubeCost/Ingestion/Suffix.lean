/-
# Trimming a batch in 64-bit arithmetic

`validateBatch` and `suffixAfter` of `services/ingestion/server/server.go` once more, with
the machine's arithmetic: sequence numbers are `uint64`, sums and differences wrap around,
a slice beyond its end panics, and messages are reached through pointers.

Nothing wraps for an accepted batch: `validateBatch_eq` says that the checks are those
over the natural numbers, and `suffixAfter_exact` that the suffix is exact and the batch
it is taken from is left alone. The record count is compared after a cut to 32 bits, so
a batch of `2 ^ 32` records passes under any limit and its suffix need not
(`suffix_rejected`).
-/
import KubeCost.Ingestion.Watermark

namespace KubeCost
namespace Ingestion
namespace Uint64

/-! ### Arithmetic -/

/-- `a + b` of two `uint64`. -/
def add (a b : ℕ) : ℕ := (a + b) % 2 ^ 64

/-- `a - b` of two `uint64`. -/
def sub (a b : ℕ) : ℕ := (a + (2 ^ 64 - b)) % 2 ^ 64

theorem add_eq {a b : ℕ} (h : a + b < 2 ^ 64) : add a b = a + b := Nat.mod_eq_of_lt h

theorem sub_eq {a b : ℕ} (ha : a < 2 ^ 64) (h : b ≤ a) : sub a b = a - b := by
  unfold sub
  rw [show a + (2 ^ 64 - b) = a - b + 2 ^ 64 by omega, Nat.add_mod_right]
  exact Nat.mod_eq_of_lt (by omega)

theorem add_lt (a b : ℕ) : add a b < 2 ^ 64 := Nat.mod_lt _ (by decide)

/-! ### Messages -/

/-- A batch message: its numbers are `uint64`, and its observations a slice. -/
structure Message where
  batch : ObservationBatch
  first_lt : batch.firstSequence < 2 ^ 64
  last_lt : batch.lastSequence < 2 ^ 64
  sequence_lt : ∀ o ∈ batch.observations, o.sequence < 2 ^ 64
  length_lt : batch.observations.length < 2 ^ 63

/-- The loop of `validateBatch`. -/
def validateObservations (first : ℕ) : ℕ → List Observation → Except String Unit
  | _, [] => .ok ()
  | index, observation :: rest => do
    validateObservation (add first index) observation
    validateObservations first (index + 1) rest

def validateBatch (C : Codec) (config : Config) (batch : ObservationBatch) : Except String Unit := do
  rejectIf (batch.batchId = "") "batch_id is required"
  rejectIf (batch.observations.length = 0) "batch must contain observations"
  rejectIf (batch.observations.length % 2 ^ 32 > config.maxBatchRecords)
    ("batch contains " ++ toString batch.observations.length ++ " records; maximum is " ++
      toString config.maxBatchRecords)
  rejectIf (C.size batch > config.maxBatchBytes)
    ("batch size exceeds maximum of " ++ toString config.maxBatchBytes ++ " bytes")
  rejectIf (batch.firstSequence = 0 ∨ batch.lastSequence < batch.firstSequence)
    "batch sequence range is invalid"
  rejectIf (batch.observations.length % 2 ^ 64 ≠ add (sub batch.lastSequence batch.firstSequence) 1)
    "batch sequence range does not match observation count"
  validateObservations batch.firstSequence 0 batch.observations
  rejectIf (batch.payloadChecksum ≠ batchChecksum C batch.observations)
    "payload checksum does not match observations"

/-- The message with `observations[offset:]`, its new first number and its checksum. -/
def Message.trim (C : Codec) (m : Message) (first offset : ℕ) (hfirst : first < 2 ^ 64) : Message where
  batch := { m.batch with
    firstSequence := first
    observations := m.batch.observations.drop offset
    payloadChecksum := batchChecksum C (m.batch.observations.drop offset) }
  first_lt := hfirst
  last_lt := m.last_lt
  sequence_lt := fun o ho => m.sequence_lt o (List.drop_subset _ _ ho)
  length_lt := by
    have := m.length_lt
    simp only [List.length_drop]
    omega

/-- The messages by their addresses. -/
abbrev Heap := List Message

/-- `proto.Clone`: a copy at an address of its own. -/
def clone (heap : Heap) (m : Message) : Heap × ℕ := (heap ++ [m], heap.length)

/-- `suffixAfter` of the message at an address: the heap afterwards and the address of the
result, `none` for a panic. -/
def suffixAfter (C : Codec) (heap : Heap) (batch persisted : ℕ) : Option (Heap × ℕ) :=
  match heap[batch]? with
  | none => none
  | some m =>
    if m.batch.firstSequence > persisted then some (clone heap m)
    else
      let offset := sub (add persisted 1) m.batch.firstSequence
      let (heap, result) := clone heap m
      -- the slice panics beyond its end
      if offset > m.batch.observations.length then none
      else some (heap.set result (m.trim C (add persisted 1) offset (add_lt _ _)), result)

/-! ### Nothing wraps -/

theorem rejectIf_bind_congr {c c' : Prop} [Decidable c] [Decidable c'] {e : String}
    {k k' : Unit → Except String Unit} (hc : c ↔ c') (hk : ¬ c → k () = k' ()) :
    (rejectIf c e >>= k) = (rejectIf c' e >>= k') := by
  unfold rejectIf
  by_cases h : c
  · rw [if_pos h, if_pos (hc.mp h)]
    rfl
  · rw [if_neg h, if_neg (mt hc.mpr h)]
    exact hk h

theorem validateObservations_eq (first : ℕ) : ∀ (index : ℕ) (os : List Observation),
    first + index + os.length ≤ 2 ^ 64 →
    validateObservations first index os = Ingestion.validateObservations (first + index) os
  | _, [], _ => rfl
  | index, o :: os, h => by
    rw [List.length_cons] at h
    rw [validateObservations, Ingestion.validateObservations, add_eq (by omega),
      validateObservations_eq first (index + 1) os (by omega)]
    rfl

/-- **The checks of a message are those over the natural numbers**, with the same errors. -/
theorem validateBatch_eq (C : Codec) (config : Config) (m : Message) :
    validateBatch C config m.batch = Ingestion.validateBatch C config m.batch := by
  have hfirst := m.first_lt
  have hlast := m.last_lt
  have hlength : m.batch.observations.length % 2 ^ 64 = m.batch.observations.length :=
    Nat.mod_eq_of_lt (lt_trans m.length_lt (by decide))
  refine rejectIf_bind_congr Iff.rfl fun _ => rejectIf_bind_congr Iff.rfl fun _ =>
    rejectIf_bind_congr Iff.rfl fun _ => rejectIf_bind_congr Iff.rfl fun _ =>
    rejectIf_bind_congr Iff.rfl fun hrange => ?_
  -- the range is valid, so neither the difference nor the count wraps
  have hdiff : sub m.batch.lastSequence m.batch.firstSequence =
      m.batch.lastSequence - m.batch.firstSequence := sub_eq hlast (by omega)
  refine rejectIf_bind_congr (by rw [hlength, hdiff, add_eq (by omega)]) fun hcount => ?_
  rw [hlength, hdiff, add_eq (by omega)] at hcount
  rw [validateObservations_eq _ 0 _ (by omega)]
  rfl

/-! ### The suffix is exact -/

/-- Dropping from a run of consecutive numbers those up to `p`. -/
theorem filter_sequence (p : ℕ) : ∀ (first : ℕ) (os : List Observation),
    (∀ i o, os[i]? = some o → o.sequence = first + i) →
    (os.filter fun o => p < o.sequence) = os.drop (p + 1 - first)
  | _, [], _ => by simp
  | first, o :: os, h => by
    have ho : o.sequence = first := h 0 o rfl
    have ih := filter_sequence p (first + 1) os fun i o' hi => by
      rw [h (i + 1) o' hi]
      omega
    by_cases hp : p < first
    · rw [List.filter_cons_of_pos (by simpa [ho] using hp), ih,
        show p + 1 - (first + 1) = 0 by omega, show p + 1 - first = 0 by omega]
      rfl
    · rw [List.filter_cons_of_neg (by simpa [ho] using hp), ih,
        show p + 1 - first = p + 1 - (first + 1) + 1 by omega]
      rfl

section

variable {C : Codec} {config : Config} {heap : Heap} {batch p : ℕ} {m : Message}

/-- The slice of an accepted batch is within its bounds. -/
theorem suffixAfter_eq (hm : heap[batch]? = some m) (hb : BatchOk C config m.batch)
    (hfirst : m.batch.firstSequence ≤ p + 1) (hlast : p < m.batch.lastSequence) :
    ∃ r : Message, suffixAfter C heap batch p = some (heap ++ [r], heap.length) ∧
      r.batch = Ingestion.suffixAfter C m.batch p := by
  have hbound := m.last_lt
  unfold suffixAfter Ingestion.suffixAfter
  simp only [hm]
  split
  · exact ⟨m, rfl, rfl⟩
  · have hadd : add p 1 = p + 1 := add_eq (by omega)
    have hsub : sub (add p 1) m.batch.firstSequence = p + 1 - m.batch.firstSequence := by
      rw [hadd]
      exact sub_eq (by omega) hfirst
    have hcount := hb.count
    have hin : ¬ sub (add p 1) m.batch.firstSequence > m.batch.observations.length := by
      rw [hsub]
      omega
    rw [if_neg hin]
    refine ⟨m.trim C (add p 1) (sub (add p 1) m.batch.firstSequence) (add_lt _ _), ?_, ?_⟩
    · simp only [clone, List.set_append_right _ _ (Nat.le_refl _), Nat.sub_self, List.set_cons_zero]
    · simp only [Message.trim]
      rw [hsub, hadd]

variable {b : ObservationBatch}

theorem suffixAfter_fields (hb : BatchOk C config b) (hfirst : b.firstSequence ≤ p + 1) :
    (Ingestion.suffixAfter C b p).batchId = b.batchId ∧
      (Ingestion.suffixAfter C b p).firstSequence = p + 1 ∧
      (Ingestion.suffixAfter C b p).lastSequence = b.lastSequence ∧
      (Ingestion.suffixAfter C b p).payloadChecksum =
        batchChecksum C (Ingestion.suffixAfter C b p).observations := by
  unfold Ingestion.suffixAfter
  split
  · exact ⟨rfl, by omega, rfl, hb.checksum⟩
  · exact ⟨rfl, rfl, rfl, rfl⟩

/-- What is left of an accepted batch is accepted within the limits. -/
theorem batchOk_suffixAfter (hb : BatchOk C config b) (hfirst : b.firstSequence ≤ p + 1)
    (hlast : p < b.lastSequence) : BatchOk C config (Ingestion.suffixAfter C b p) ↔
      C.size (Ingestion.suffixAfter C b p) ≤ config.maxBatchBytes ∧
        (b.lastSequence - p) % 2 ^ 32 ≤ config.maxBatchRecords := by
  obtain ⟨hid, hf, hl, hchecksum⟩ := suffixAfter_fields hb hfirst
  have hcount := hb.count
  have hlength : (Ingestion.suffixAfter C b p).observations.length = b.lastSequence - p := by
    rw [suffixAfter_observations, List.length_drop]
    omega
  constructor
  · intro h
    have := h.records
    rw [hlength] at this
    exact ⟨h.bytes, this⟩
  · rintro ⟨hbytes, hrecords⟩
    refine ⟨hid ▸ hb.id, by rwa [hlength], hbytes, by omega, by omega, by omega, ?_, hchecksum⟩
    intro i o hi
    rw [suffixAfter_observations, List.getElem?_drop] at hi
    have ho := hb.observations _ _ hi
    rwa [hf, show p + 1 + i = b.firstSequence + (p + 1 - b.firstSequence + i) by omega]

/-- **Suffix trimming is exact**, but for the record limit. For every configuration, every
batch accepted under it and every watermark `p` within its range, `suffixAfter` does not
panic and leaves every message alone; its observations are those with a number above
`p`, in their order, and its range is `p + 1` to the batch's last number. It is accepted
again when its size is within the limit and the number of its records, cut to 32
bits, is too. -/
theorem suffixAfter_exact (hm : heap[batch]? = some m) (hv : validateBatch C config m.batch = .ok ())
    (hfirst : m.batch.firstSequence ≤ p + 1) (hlast : p < m.batch.lastSequence) :
    ∃ r : Message, suffixAfter C heap batch p = some (heap ++ [r], heap.length) ∧
      (heap ++ [r])[batch]? = some m ∧
      r.batch.observations = m.batch.observations.filter (fun o => p < o.sequence) ∧
      r.batch.firstSequence = p + 1 ∧ r.batch.lastSequence = m.batch.lastSequence ∧
      (validateBatch C config r.batch = .ok () ↔ C.size r.batch ≤ config.maxBatchBytes ∧
        (m.batch.lastSequence - p) % 2 ^ 32 ≤ config.maxBatchRecords) := by
  rw [validateBatch_eq, validateBatch_iff] at hv
  obtain ⟨r, hr, hrb⟩ := suffixAfter_eq hm hv hfirst hlast
  obtain ⟨-, hf, hl, -⟩ := suffixAfter_fields hv hfirst
  refine ⟨r, hr, ?_, ?_, ?_, ?_, ?_⟩
  · rw [List.getElem?_append_left (List.getElem?_eq_some_iff.mp hm).1, hm]
  · rw [hrb, suffixAfter_observations, filter_sequence p m.batch.firstSequence]
    exact fun i o hi => (hv.observations i o hi).sequence
  · rw [hrb, hf]
  · rw [hrb, hl]
  · rw [validateBatch_eq, validateBatch_iff, hrb]
    exact batchOk_suffixAfter hv hfirst hlast

end

/-! ### Beyond 32 bits -/

/-- A batch of the numbers `1` to `n`. -/
def countedBatch (C : Codec) (n : ℕ) : ObservationBatch :=
  { batchId := "b", firstSequence := 1, lastSequence := n
    payloadChecksum := batchChecksum C ((List.range n).map fun i => plainObservation (i + 1))
    observations := (List.range n).map fun i => plainObservation (i + 1) }

theorem countedBatch_bounds (C : Codec) {n : ℕ} (h : n < 2 ^ 63) :
    (countedBatch C n).firstSequence < 2 ^ 64 ∧ (countedBatch C n).lastSequence < 2 ^ 64 ∧
    (∀ o ∈ (countedBatch C n).observations, o.sequence < 2 ^ 64) ∧
    (countedBatch C n).observations.length < 2 ^ 63 := by
  refine ⟨by simp [countedBatch], lt_trans h (by decide), fun o ho => ?_, by simpa [countedBatch] using h⟩
  obtain ⟨i, hi, rfl⟩ := List.mem_map.mp ho
  have := List.mem_range.mp hi
  simp only [plainObservation]
  omega

def countedMessage (C : Codec) (n : ℕ) (h : n < 2 ^ 63) : Message where
  batch := countedBatch C n
  first_lt := (countedBatch_bounds C h).1
  last_lt := (countedBatch_bounds C h).2.1
  sequence_lt := (countedBatch_bounds C h).2.2.1
  length_lt := (countedBatch_bounds C h).2.2.2

theorem batchOk_counted {C : Codec} {config : Config} {n : ℕ} (hn : 1 ≤ n)
    (hrecords : n % 2 ^ 32 ≤ config.maxBatchRecords)
    (hbytes : C.size (countedBatch C n) ≤ config.maxBatchBytes) :
    BatchOk C config (countedBatch C n) := by
  refine ⟨by simp [countedBatch], by simpa [countedBatch] using hrecords, hbytes, Nat.le_refl 1, hn,
    ?_, fun i o hi => ?_, rfl⟩
  · simp only [countedBatch, List.length_map, List.length_range]
    omega
  · simp only [countedBatch, List.getElem?_map, Option.map_eq_some_iff] at hi
    obtain ⟨j, hj, rfl⟩ := hi
    obtain ⟨hlt, hij⟩ := List.getElem?_eq_some_iff.mp hj
    rw [List.getElem_range] at hij
    subst hij
    exact ⟨Nat.add_comm _ _, by simp [plainObservation], by simp [plainObservation], rfl⟩

/-- **A suffix may be refused.** Under a limit of 500 records, and whatever the encoding,
a batch of `2 ^ 32` records is accepted: the count is cut to 0. Its suffix after the first
number has `2 ^ 32 - 1`. -/
theorem suffix_rejected : 2 ^ 32 % 2 ^ 32 ≤ 500 ∧ ∀ C : Codec, ∃ (config : Config) (m r : Message),
    config.maxBatchRecords = 500 ∧ validateBatch C config m.batch = .ok () ∧
    m.batch.firstSequence = 1 ∧ m.batch.lastSequence = 2 ^ 32 ∧
    suffixAfter C [m] 0 1 = some ([m, r], 1) ∧ C.size r.batch ≤ config.maxBatchBytes ∧
    validateBatch C config r.batch ≠ .ok () := by
  refine ⟨by decide, fun C => ?_⟩
  obtain ⟨n, hn⟩ : ∃ n, n = 2 ^ 32 := ⟨_, rfl⟩
  have hlt : n < 2 ^ 63 := hn ▸ by decide
  have hone : 1 < n := hn ▸ by decide
  let config : Config := ⟨500, max (C.size (countedBatch C n))
    (C.size (Ingestion.suffixAfter C (countedBatch C n) 1)), 0, 0, 80⟩
  have hb : BatchOk C config (countedBatch C n) :=
    batchOk_counted (by omega) (by rw [hn, Nat.mod_self]; exact Nat.zero_le _) (Nat.le_max_left _ _)
  have hm : [countedMessage C n hlt][0]? = some (countedMessage C n hlt) := rfl
  obtain ⟨r, hr, hrb⟩ := suffixAfter_eq (p := 1) hm hb (by simp [countedMessage, countedBatch]) hone
  refine ⟨config, countedMessage C n hlt, r, rfl, ?_, rfl, hn, hr, ?_, ?_⟩
  · rw [validateBatch_eq, validateBatch_iff]
    exact hb
  · rw [hrb]
    exact Nat.le_max_right _ _
  · rw [validateBatch_eq, ne_eq, validateBatch_iff, hrb]
    intro h
    have hle : (n - 1) % 2 ^ 32 ≤ 500 :=
      ((batchOk_suffixAfter hb (by simp [countedBatch]) hone).mp h).2
    omega

/-- A batch that ends at the largest `uint64`. -/
def lastMessage : Message where
  batch :=
    { batchId := "b", firstSequence := 2 ^ 64 - 2, lastSequence := 2 ^ 64 - 1
      payloadChecksum := batchChecksum plainCodec
        [plainObservation (2 ^ 64 - 2), plainObservation (2 ^ 64 - 1)]
      observations := [plainObservation (2 ^ 64 - 2), plainObservation (2 ^ 64 - 1)] }
  first_lt := by decide
  last_lt := by decide
  sequence_lt := by simp [plainObservation]
  length_lt := by decide

theorem suffixAfter_exact_last :
    validateBatch plainCodec plainEnv.config lastMessage.batch = .ok () ∧
    ∃ r : Message, suffixAfter plainCodec [lastMessage] 0 (2 ^ 64 - 2) = some ([lastMessage, r], 1) ∧
      r.batch.observations = [plainObservation (2 ^ 64 - 1)] := by
  have hv : validateBatch plainCodec plainEnv.config lastMessage.batch = .ok () := by decide +kernel
  have hm : [lastMessage][0]? = some lastMessage := rfl
  obtain ⟨r, hr, -, ho, -⟩ := suffixAfter_exact hm hv (p := 2 ^ 64 - 2) (by decide) (by decide)
  exact ⟨hv, r, hr, ho⟩

end Uint64
end Ingestion
end KubeCost
