/-
# The limits that the agent does not read

`ServerHello` announces how many records and bytes a batch may have, and
`validateBatch` rejects a batch above them for good. `Client.connect` takes the
numbers from its own configuration instead. Everything else that `validateBatch`
asks of a batch holds of what `connect` builds from published inventory, so a
batch is valid exactly if it happens to keep to the limits (`sent_valid_iff`).
-/
import KubeCost.Agent.Client
import KubeCost.Delivery.Gap

namespace KubeCost
namespace Delivery

open Agent Agent.Buffer Ingestion

/-! ### The run at the front of the buffer -/

/-- The observations with the numbers from `n` on. -/
def leadingFrom (n : ℕ) : List Observation → List Observation
  | [] => []
  | o :: rest => if o.sequence = n then o :: leadingFrom (n + 1) rest else []

/-- The longest run of consecutive numbers at the front. -/
def leading : List Observation → List Observation
  | [] => []
  | o :: rest => o :: leadingFrom (o.sequence + 1) rest

/-- The observations are in the order of their numbers. -/
def Increasing (os : List Observation) : Prop := os.Pairwise fun a b => a.sequence < b.sequence

theorem leadingFrom_initial : ∀ (n : ℕ) (os : List Observation), leadingFrom n os <+: os
  | _, [] => List.nil_prefix
  | n, o :: rest => by
    unfold leadingFrom
    split
    · exact (List.prefix_cons_inj o).mpr (leadingFrom_initial (n + 1) rest)
    · exact List.nil_prefix

theorem leading_initial : ∀ os : List Observation, leading os <+: os
  | [] => List.nil_prefix
  | o :: rest => (List.prefix_cons_inj o).mpr (leadingFrom_initial _ rest)

/-- The run has the numbers from `n` on, and what comes after it has larger ones. -/
theorem leadingFrom_sequence : ∀ {n : ℕ} {os : List Observation}, Increasing os →
    (∀ o ∈ os, n ≤ o.sequence) → ∀ i o, os[i]? = some o →
    (i < (leadingFrom n os).length → o.sequence = n + i) ∧
      ((leadingFrom n os).length ≤ i → n + i < o.sequence)
  | n, [], _, _, i, o, h => by
    rw [List.getElem?_nil] at h
    cases h
  | n, a :: rest, hsorted, hle, i, o, h => by
    obtain ⟨hlt, hrest⟩ := List.pairwise_cons.mp hsorted
    have hn := hle a List.mem_cons_self
    have hsucc : ∀ b ∈ rest, n + 1 ≤ b.sequence := fun b hb => hn.trans_lt (hlt b hb)
    have ih := leadingFrom_sequence hrest hsucc
    by_cases ha : a.sequence = n
    · rw [leadingFrom, if_pos ha, List.length_cons]
      cases i with
      | zero =>
        cases h
        exact ⟨fun _ => ha, fun hlen => absurd hlen (by omega)⟩
      | succ i =>
        have := ih i o h
        exact ⟨fun hi => by omega, fun hi => by omega⟩
    · rw [leadingFrom, if_neg ha, List.length_nil]
      refine ⟨fun hi => absurd hi (Nat.not_lt_zero i), fun _ => ?_⟩
      cases i with
      | zero =>
        cases h
        omega
      | succ i =>
        -- the next one is already above `n + 1`, so its run from there is empty
        have hnil : leadingFrom (n + 1) rest = [] := by
          cases rest with
          | nil => rfl
          | cons b rest =>
            have := hlt b List.mem_cons_self
            rw [leadingFrom, if_neg (by omega)]
        have := (ih i o h).2 (by rw [hnil]; exact Nat.zero_le i)
        omega

theorem leading_sequence {os : List Observation} (hsorted : Increasing os) {i : ℕ} (hi : i < os.length) :
    (i < (leading os).length → sequenceAt os i = sequenceAt os 0 + i) ∧
      ((leading os).length ≤ i → sequenceAt os 0 + i < sequenceAt os i) := by
  cases os with
  | nil => exact absurd hi (Nat.not_lt_zero i)
  | cons a rest =>
    obtain ⟨hlt, hrest⟩ := List.pairwise_cons.mp hsorted
    have hzero : sequenceAt (a :: rest) 0 = a.sequence := rfl
    cases i with
    | zero => exact ⟨fun _ => rfl, fun hlen => absurd hlen (by simp [leading])⟩
    | succ i =>
      have hi' : i < rest.length := Nat.lt_of_succ_lt_succ hi
      have hget : rest[i]? = some rest[i] := List.getElem?_eq_getElem _
      have hat : sequenceAt (a :: rest) (i + 1) = (rest[i]).sequence := by
        rw [sequenceAt, List.getElem?_cons_succ, hget]
        rfl
      have hle : ∀ b ∈ rest, a.sequence + 1 ≤ b.sequence := hlt
      have := leadingFrom_sequence hrest hle i _ hget
      rw [hzero, hat, leading, List.length_cons]
      exact ⟨fun h => by omega, fun h => by omega⟩

theorem contiguousCount_eq {os : List Observation} (hsorted : Increasing os) : ∀ {count : ℕ},
    count ≤ os.length → contiguousCount os count = min count (leading os).length
  | 0, _ => (Nat.zero_min _).symm
  | 1, h => by
    cases os with
    | nil => exact absurd h (by simp)
    | cons a rest =>
      rw [leading, List.length_cons, Nat.min_eq_left (by omega)]
      rfl
  | count + 2, h => by
    have hlead := leading_sequence hsorted (show count + 1 < os.length by omega)
    rw [contiguousCount]
    by_cases hlen : count + 1 < (leading os).length
    · rw [if_neg (not_not.mpr (hlead.1 hlen)), Nat.min_eq_left (by omega)]
    · have := hlead.2 (by omega)
      rw [if_pos (by omega), contiguousCount_eq hsorted (by omega)]
      omega

/-- **`Batch` takes the run at the front, up to the maximum.** -/
theorem batch_eq {b : Buffer} (hsorted : Increasing b.entries) (maximum : ℕ) :
    b.batch maximum = (leading b.entries).take maximum := by
  have hlen := (leading_initial b.entries).length_le
  rw [Buffer.batch, contiguousCount_eq hsorted (by omega)]
  calc b.entries.take (min (min maximum b.entries.length) (leading b.entries).length)
      = b.entries.take (min maximum (leading b.entries).length) := by
        congr 1
        omega
    _ = (b.entries.take (leading b.entries).length).take maximum := List.take_take.symm
    _ = (leading b.entries).take maximum := by
        rw [← List.prefix_iff_eq_take.mp (leading_initial b.entries)]

/-! ### What the buffer holds -/

/-- The event that an action publishes carries the fields that its kind requires. -/
def Complete : Client.Action → Prop
  | .publish _ event => ∀ o, event.observation = some o → validateInventoryObservation o = .ok ()
  | _ => True

/-- An observation that the service would take. -/
structure Sendable (o : Observation) : Prop where
  first : 1 ≤ o.sequence
  eventId : o.eventId ≠ ""
  payload : o.payload ≠ none
  inventory : validateInventoryObservation o = .ok ()

structure BufferOk (b : Buffer) : Prop where
  next : 1 ≤ b.next
  increasing : Increasing b.entries
  below : ∀ o ∈ b.entries, o.sequence < b.next
  sendable : ∀ o ∈ b.entries, Sendable o

theorem eventID_ne (C : Codec) (clock key : String) (o : Observation) :
    eventID C clock key o ≠ "" := by
  unfold eventID
  exact Hash.hexEncode_sha256_ne _

variable {C : Codec} {config : ClientConfig} {client client' : Client}

/-- What a publish of a complete event stamps is sendable. -/
theorem sendable_stamp {clock : String} {event : Event} {o : Observation} {next : ℕ}
    (complete : Complete (.publish clock event)) (hvalid : event.validate = .ok o)
    (hnext : 1 ≤ next) : Sendable (stamp C clock event.key next o) := by
  have hfound : event.observation = some o ∧ o.payload ≠ none := by
    unfold Event.validate at hvalid
    split at hvalid
    · cases hvalid
    · split at hvalid
      · cases hvalid
      · rename_i hobs
        split at hvalid
        · cases hvalid
        · cases hvalid
          exact ⟨hobs, ‹_›⟩
  exact ⟨hnext, eventID_ne _ _ _ _, hfound.2, complete o hfound.1⟩

/-- A publish keeps the numbers in order and below the next one. -/
theorem publish_increasing {b b' : Buffer} {clock : String} {event : Event} {o : Observation}
    (hsorted : Increasing b.entries) (hbelow : ∀ a ∈ b.entries, a.sequence < b.next)
    (hpub : b.publish C clock event = .done b' o) :
    Increasing b'.entries ∧ ∀ a ∈ b'.entries, a.sequence < b'.next := by
  obtain ⟨hseq, hentries, hnext, -⟩ := publish_done hpub
  rw [hentries]
  constructor
  · refine List.pairwise_append.mpr ⟨hsorted, List.pairwise_singleton _ _, ?_⟩
    intro a ha b hb
    rw [List.mem_singleton.mp hb, hseq]
    exact hbelow a ha
  · intro a ha
    rcases List.mem_append.mp ha with ha | ha
    · have := hbelow a ha
      omega
    · rw [List.mem_singleton.mp ha]
      omega

theorem BufferOk.publish {b b' : Buffer} (h : BufferOk b) {clock : String} {event : Event}
    {o : Observation} (complete : Complete (.publish clock event))
    (hpub : b.publish C clock event = .done b' o) : BufferOk b' := by
  have hsend : Sendable o := by
    unfold Buffer.publish at hpub
    split at hpub
    · cases hpub
    · rename_i hvalid
      split at hpub
      · cases hpub
      · split at hpub
        · cases hpub
          exact sendable_stamp complete hvalid h.next
        · cases hpub
  obtain ⟨-, hentries, hnext, -⟩ := publish_done hpub
  obtain ⟨hsorted, hbelow⟩ := publish_increasing h.increasing h.below hpub
  refine ⟨by omega, hsorted, hbelow, ?_⟩
  · intro a ha
    rw [hentries] at ha
    rcases List.mem_append.mp ha with ha | ha
    · exact h.sendable a ha
    · rw [List.mem_singleton.mp ha]
      exact hsend

theorem BufferOk.acknowledge {b : Buffer} (h : BufferOk b) (n : ℕ) (terminal : List ℕ) :
    BufferOk (b.acknowledge n terminal) where
  next := h.next
  increasing := h.increasing.filter _
  below := fun o ho => h.below o (mem_acknowledge.mp ho).1
  sendable := fun o ho => h.sendable o (mem_acknowledge.mp ho).1

/-- **One move of the agent keeps its buffer in order.** -/
theorem BufferOk.move (h : BufferOk client.buffer) {a : Client.Action} (complete : Complete a)
    (hm : Client.Move C config client a client') : BufferOk client'.buffer := by
  cases hm with
  | published result => exact h.publish complete result
  | closed => exact ⟨h.next, h.increasing, h.below, h.sendable⟩
  | phased | dialled | beat | sent => exact h
  | greeted | acknowledged => exact h.acknowledge _ _

theorem bufferOk_reach (h : Machine.Reach (Client.step C config) (fun _ a => Complete a)
    (Client.start config) client) : BufferOk client.buffer := by
  refine h.invariant (I := fun client => BufferOk client.buffer) ?_ fun _ _ _ hb complete hs =>
    hb.move complete (Client.step_move hs)
  exact ⟨Nat.le_refl 1, List.Pairwise.nil, fun _ ho => absurd ho List.not_mem_nil,
    fun _ ho => absurd ho List.not_mem_nil⟩

/-! ### What is sent -/

/-- The run that goes out next keeps to the limits of the service. The service cuts the
number of records to 32 bits before it looks at it. -/
structure KeepsLimits (C : Codec) (server : Config) (config : ClientConfig) (createdAt : Timestamp)
    (b : Buffer) : Prop where
  records : ((leading b.entries).take config.batchSize).length % 2 ^ 32 ≤ server.maxBatchRecords
  bytes : ∀ first rest, (leading b.entries).take config.batchSize = first :: rest →
    C.size (Client.batchOf C config createdAt first rest) ≤ server.maxBatchBytes

/-- A part of the run from its front is numbered from its first observation. -/
theorem take_sequence {os : List Observation} (hsorted : Increasing os) {n : ℕ} {first : Observation}
    {rest : List Observation} (hrun : (leading os).take n = first :: rest) {i : ℕ} {o : Observation}
    (hi : (first :: rest)[i]? = some o) : o ∈ os ∧ o.sequence = first.sequence + i := by
  have hpre : (first :: rest) <+: os := by
    rw [← hrun]
    exact (List.take_prefix _ _).trans (leading_initial os)
  have hlt : i < (first :: rest).length := (List.getElem?_eq_some_iff.mp hi).1
  have hlead : i < (leading os).length := by
    rw [← hrun] at hlt
    exact hlt.trans_le (List.length_take_le' _ _)
  have hget : ∀ {j : ℕ} {a : Observation}, (first :: rest)[j]? = some a → sequenceAt os j = a.sequence := by
    intro j a ha
    obtain ⟨after, rfl⟩ := hpre
    rw [sequenceAt, List.getElem?_append_left (List.getElem?_eq_some_iff.mp ha).1, ha]
    rfl
  have hseq := (leading_sequence hsorted (hlt.trans_le hpre.length_le)).1 hlead
  rw [hget hi, hget (show (first :: rest)[0]? = some first from rfl)] at hseq
  exact ⟨hpre.subset (List.mem_of_getElem? hi), hseq⟩

/-- All of `validateBatch` but the limits holds of a batch of such a run. -/
theorem batchOf_valid_iff {server : Config} {b : Buffer} (h : BufferOk b) {first : Observation}
    {rest : List Observation} (hrun : (leading b.entries).take config.batchSize = first :: rest)
    (createdAt : Timestamp) :
    validateBatch C server (Client.batchOf C config createdAt first rest) = .ok () ↔
      KeepsLimits C server config createdAt b := by
  rw [validateBatch_iff]
  constructor
  · intro hok
    refine ⟨?_, fun first' rest' hrun' => ?_⟩
    · rw [hrun]
      exact hok.records
    · rw [hrun] at hrun'
      cases hrun'
      exact hok.bytes
  · intro hkeeps
    have hnumber : ∀ i o, (first :: rest)[i]? = some o → o ∈ b.entries ∧
        o.sequence = first.sequence + i := fun i o hi => take_sequence h.increasing hrun hi
    have hfirst := h.sendable first (hnumber 0 first rfl).1
    have hlast : ((first :: rest).getLast (List.cons_ne_nil _ _)).sequence =
        first.sequence + rest.length := by
      refine (hnumber rest.length _ ?_).2
      rw [List.getLast_eq_getElem]
      exact List.getElem?_eq_getElem _
    have hlastSequence : (Client.batchOf C config createdAt first rest).lastSequence =
        first.sequence + rest.length := hlast
    refine ⟨?_, ?_, hkeeps.bytes first rest hrun, hfirst.first, ?_, ?_, fun i o hi => ?_, rfl⟩
    · intro hid
      have := congrArg String.toList hid
      simp [Client.batchOf] at this
    · have hrecords := hkeeps.records
      rw [hrun] at hrecords
      exact hrecords
    · rw [hlastSequence]
      exact Nat.le_add_right _ _
    · rw [hlastSequence]
      show (first :: rest).length = first.sequence + rest.length - first.sequence + 1
      rw [List.length_cons]
      omega
    · obtain ⟨hmem, hseq⟩ := hnumber i o hi
      have hsend := h.sendable o hmem
      exact ⟨hseq, hsend.eventId, hsend.payload, hsend.inventory⟩

/-- **Which batches the service takes.** In every run of an agent that publishes complete
inventory events, whatever the server announces and answers, a batch that `connect` sends is
valid exactly if the run at the front of the buffer, cut to the agent's own batch size,
keeps to the limits of the service. -/
theorem sent_valid_iff (C : Codec) (server : Config) (config : ClientConfig) {client client' : Client}
    (h : Machine.Reach (Client.step C config) (fun _ a => Complete a) (Client.start config) client)
    {createdAt : Timestamp} {ok : Bool}
    (hsend : client.step C config (.send createdAt ok) = some client') :
    (∃ batch, client'.sent = client.sent ++ [.batch batch] ∧
        validateBatch C server batch = .ok ()) ↔
      KeepsLimits C server config createdAt client.buffer := by
  have hok := bufferOk_reach h
  simp only [Client.step] at hsend
  split at hsend
  case h_2 => cases hsend
  rename_i first rest _ hbatch
  cases hsend
  rw [batch_eq hok.increasing] at hbatch
  rw [← batchOf_valid_iff hok hbatch]
  constructor
  · rintro ⟨batch, hsent, hv⟩
    have := List.append_cancel_left hsent
    simp only [List.cons.injEq, AgentToIngestion.batch.injEq, and_true] at this
    rw [this]
    exact hv
  · intro hv
    exact ⟨_, rfl, hv⟩

/-- An agent that sends one observation at a time keeps to the limits when every observation
alone does. -/
theorem keepsLimits_of_single {server : Config} {createdAt : Timestamp} {b : Buffer}
    (hone : config.batchSize = 1) (hrecords : 1 ≤ server.maxBatchRecords)
    (hbytes : ∀ o ∈ b.entries, C.size (Client.batchOf C config createdAt o []) ≤ server.maxBatchBytes) :
    KeepsLimits C server config createdAt b := by
  have hpre := leading_initial b.entries
  refine ⟨?_, fun first rest hrun => ?_⟩
  · have hlen : ((leading b.entries).take 1).length ≤ 1 := List.length_take_le _ _
    rw [hone]
    exact (Nat.mod_le _ _).trans (hlen.trans hrecords)
  · have hmem : first ∈ b.entries := by
      have hfirst : first ∈ (leading b.entries).take config.batchSize := by
        rw [hrun]
        exact List.mem_cons_self
      exact hpre.subset (List.mem_of_mem_take hfirst)
    have hrest : rest = [] := by
      have hlen := congrArg List.length hrun
      rw [hone, List.length_take, List.length_cons] at hlen
      exact List.length_eq_zero_iff.mp (by omega)
    rw [hrest]
    exact hbytes first hmem

/-- Two events are published, and the service says hello. -/
def greetedTwice (server : Config) : List Client.Action :=
  [.publish "" plainEvent, .publish "" plainEvent, .dial, .receive (serverHello 0 0 server)]

theorem greetedTwice_complete (server : Config) : ∀ a ∈ greetedTwice server, ∀ _ : Client, Complete a := by
  have hevent : Complete (.publish "" plainEvent) := by
    rintro o ho
    cases ho
    decide
  intro a ha _
  simp only [greetedTwice, List.mem_cons, List.not_mem_nil, or_false] at ha
  rcases ha with rfl | rfl | rfl | rfl
  · exact hevent
  · exact hevent
  · exact trivial
  · exact trivial

/-- What the agent has then, and sends next. -/
theorem greetedTwice_run (server : Config) (limits : server = plainEnv.config ∨ server = narrowEnv.config) :
    ∃ client client' : Client,
      Machine.run (Client.step plainCodec plainConfig) (Client.start plainConfig)
        (greetedTwice server) = some client ∧
      client.buffer.entries = [plainEntry 1, plainEntry 2] ∧
      client.step plainCodec plainConfig (.send ⟨0, 0⟩ true) = some client' ∧
      client'.sent = client.sent ++
        [.batch (Client.batchOf plainCodec plainConfig ⟨0, 0⟩ (plainEntry 1) [plainEntry 2])] := by
  have hrun : (Machine.run (Client.step plainCodec plainConfig) (Client.start plainConfig)
      (greetedTwice server)).map (fun client => (client.buffer.entries,
        (client.step plainCodec plainConfig (.send ⟨0, 0⟩ true)).map fun client' =>
          decide (client'.sent = client.sent ++
            [.batch (Client.batchOf plainCodec plainConfig ⟨0, 0⟩ (plainEntry 1) [plainEntry 2])]))) =
      some ([plainEntry 1, plainEntry 2], some true) := by
    rcases limits with rfl | rfl <;> decide +kernel
  obtain ⟨client, hclient, hfacts⟩ := Option.map_eq_some_iff.mp hrun
  obtain ⟨hentries, hsome⟩ := Prod.mk.inj hfacts
  obtain ⟨client', hsend, hsent⟩ := Option.map_eq_some_iff.mp hsome
  exact ⟨client, client', hclient, hentries, hsend, of_decide_eq_true hsent⟩

/-- The service takes two records; two are sent. -/
theorem sent_valid_iff_greetedTwice : ∃ client client' : Client, ∃ batch,
    client.buffer.entries = [plainEntry 1, plainEntry 2] ∧
    client'.sent = client.sent ++ [.batch batch] ∧
    validateBatch plainCodec plainEnv.config batch = .ok () := by
  obtain ⟨client, client', hclient, hentries, hsend, -⟩ := greetedTwice_run _ (.inl rfl)
  have hrun : (leading [plainEntry 1, plainEntry 2]).take plainConfig.batchSize =
      [plainEntry 1, plainEntry 2] := by decide +kernel
  have hkeeps : KeepsLimits plainCodec plainEnv.config plainConfig ⟨0, 0⟩ client.buffer := by
    refine ⟨?_, fun first rest hfirst => ?_⟩
    · rw [hentries, hrun]
      decide
    · rw [hentries, hrun] at hfirst
      cases hfirst
      decide +kernel
  obtain ⟨batch, hsent, hv⟩ := (sent_valid_iff plainCodec plainEnv.config plainConfig
    (.of_run (greetedTwice_complete _) hclient) hsend).mpr hkeeps
  exact ⟨client, client', batch, hentries, hsent, hv⟩

/-- **An announced limit is passed over.** The service announces one record a batch, each of
the two observations would fit on its own, and they are sent together. -/
theorem limit_ignored : ∃ client client' : Client, ∃ batch,
    Machine.run (Client.step plainCodec plainConfig) (Client.start plainConfig)
      (greetedTwice narrowEnv.config) = some client ∧
    (∀ o ∈ client.buffer.entries, plainCodec.size (Client.batchOf plainCodec plainConfig ⟨0, 0⟩ o []) ≤
      narrowEnv.config.maxBatchBytes) ∧
    client.step plainCodec plainConfig (.send ⟨0, 0⟩ true) = some client' ∧
    client'.sent = client.sent ++ [.batch batch] ∧
    validateBatch plainCodec narrowEnv.config batch =
      .error "batch contains 2 records; maximum is 1" := by
  obtain ⟨client, client', hclient, hentries, hsend, hsent⟩ := greetedTwice_run _ (.inr rfl)
  refine ⟨client, client', _, hclient, ?_, hsend, hsent, by decide +kernel⟩
  rw [hentries]
  decide +kernel

end Delivery
end KubeCost
