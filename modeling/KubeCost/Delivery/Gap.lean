/-
# Gaps of the agent's own making

The service answers a batch that starts after its watermark plus one with a
request for the numbers in between. The agent can still supply them as long as
it has dropped nothing but what is persisted: then the first number in its
buffer is at most the watermark plus one (`gap_free`). An invalid batch breaks
this: the agent drops all of it, the watermark stays, and from then on every
batch is answered with a request for numbers that are gone
(`gap_after_rejection`).
-/
import KubeCost.Delivery.System
import KubeCost.Ingestion.Level

namespace KubeCost
namespace Delivery

open Agent Ingestion

/-- When the step sends a batch, the service would find it valid. -/
def SendsValid (E : Env) (config : ClientConfig) (s : System) : Action → Prop
  | .client (.send createdAt _) => ∀ first rest,
    s.client.buffer.batch config.batchSize = first :: rest →
    validateBatch E.codec E.config (Client.batchOf E.codec config createdAt first rest) = .ok ()
  | _ => True

/-- The agent is at the top of its loop with `first` at the front of its buffer. -/
def AboutToSend (s : System) (first : Observation) : Prop :=
  s.client.phase = .ready ∧ s.client.buffer.entries.head? = some first

structure GapOk (E : Env) (config : ClientConfig) (s : System) : Prop where
  system : SystemOk E config s
  level : Level config.tenantId config.clusterId s.server
  valid : ∀ b, .batch b ∈ s.client.sent → validateBatch E.codec E.config b = .ok ()
  known : s.client.buffer.persisted ≤ s.client.history.length
  entries : s.client.buffer.entries =
    s.client.history.filter fun o => s.client.buffer.persisted < o.sequence
  watermark : s.client.buffer.persisted ≤ s.server.watermark config.tenantId config.clusterId

variable {E : Env} {config : ClientConfig} {s s' : System}

theorem AgentOk.sequence_le {client : Client} (h : AgentOk config client) {o : Observation}
    (ho : o ∈ client.history) : o.sequence ≤ client.history.length := by
  obtain ⟨i, hi⟩ := List.mem_iff_getElem?.mp ho
  obtain ⟨hlt, -⟩ := List.getElem?_eq_some_iff.mp hi
  rw [h.numbered i o hi]
  exact hlt

/-- A boundary announced to the agent is a number it has given. -/
theorem SystemOk.watermark_known (h : SystemOk E config s) {frame : IngestionToAgent} {n : ℕ}
    (hf : ⟨config.tenantId, config.clusterId, frame⟩ ∈ s.server.sent)
    (hn : frame.watermark = some n) : n ≤ s.client.history.length := by
  rcases Nat.eq_zero_or_pos n with rfl | hpos
  · exact Nat.zero_le _
  obtain ⟨b, hb, ht, hc, ⟨batch, p, hrec, -, hsuf⟩, o, ho, hseq, -⟩ :=
    h.server.sent _ hf rfl rfl n hn n hpos (Nat.le_refl n)
  rw [hsuf] at ho
  have hsent := h.received _ hrec ht hc
  have hmem := (h.agent.batches _ hsent).2 (suffixAfter_subset _ _ _ ho)
  rw [← hseq]
  exact h.agent.sequence_le hmem

/-- No number of the agent is rejected when all its batches are valid. -/
theorem GapOk.not_terminal (h : GapOk E config s) {ack : BatchAcknowledgement}
    (hf : ⟨config.tenantId, config.clusterId, .acknowledgement ack⟩ ∈ s.server.sent)
    {o : Observation} (ho : o ∈ s.client.history) : o.sequence ∉ Client.terminal ack := by
  intro hterm
  obtain ⟨batch, -, hsent, -, ⟨e, he⟩, -⟩ := h.system.rejected hf ho hterm
  rw [h.valid batch hsent] at he
  cases he

/-- An acknowledgement without terminal numbers drops the persisted prefix. -/
theorem acknowledge_entries {b : Buffer} {history : List Observation} {n : ℕ} {terminal : List ℕ}
    (h : b.entries = history.filter fun o => b.persisted < o.sequence)
    (hterm : ∀ o ∈ history, o.sequence ∉ terminal) :
    (b.acknowledge n terminal).entries =
      history.filter fun o => (b.acknowledge n terminal).persisted < o.sequence := by
  show b.entries.filter _ = history.filter fun o => max b.persisted n < o.sequence
  rw [h, List.filter_filter]
  refine List.filter_congr fun o ho => ?_
  have := hterm o ho
  rw [Bool.eq_iff_iff]
  simp only [Bool.and_eq_true, Bool.not_eq_true', Bool.or_eq_false_iff, decide_eq_false_iff_not,
    decide_eq_true_eq, Nat.max_lt]
  constructor
  · rintro ⟨⟨h₁, -⟩, h₂⟩
    exact ⟨h₂, by omega⟩
  · rintro ⟨h₁, h₂⟩
    exact ⟨⟨by omega, this⟩, h₁⟩

/-- The agent takes in a frame with boundary `n`. -/
theorem GapOk.acknowledge (h : GapOk E config s) {frame : IngestionToAgent} {n : ℕ}
    {terminal : List ℕ} {phase : Agent.Phase}
    (hsys : SystemOk E config { s with client := { s.client with
      buffer := s.client.buffer.acknowledge n terminal, phase := phase } })
    (hf : ⟨config.tenantId, config.clusterId, frame⟩ ∈ s.server.sent)
    (hn : frame.watermark = some n) (hterm : ∀ o ∈ s.client.history, o.sequence ∉ terminal) :
    GapOk E config { s with client := { s.client with
      buffer := s.client.buffer.acknowledge n terminal, phase := phase } } where
  system := hsys
  level := h.level
  valid := h.valid
  known := Nat.max_le.mpr ⟨h.known, h.system.watermark_known hf hn⟩
  entries := acknowledge_entries h.entries hterm
  watermark := Nat.max_le.mpr ⟨h.watermark, h.level.sent _ hf rfl rfl n hn⟩

/-- The agent hands a frame to its stream; a batch is valid. -/
theorem GapOk.sends (h : GapOk E config s) {frame : AgentToIngestion} {phase : Agent.Phase}
    (hsys : SystemOk E config { s with client := { s.client with
      phase := phase, sent := s.client.sent ++ [frame] } })
    (hv : ∀ b, frame = .batch b → validateBatch E.codec E.config b = .ok ()) :
    GapOk E config { s with client := { s.client with
      phase := phase, sent := s.client.sent ++ [frame] } } := by
  refine { h with system := hsys, valid := fun b hb => ?_ }
  rcases List.mem_append.mp hb with hb | hb
  · exact h.valid b hb
  · exact hv b (List.mem_singleton.mp hb).symm

/-- **One step with a valid batch keeps the buffer up to the watermark.** -/
theorem GapOk.step (h : GapOk E config s) {a : Action} (ha : SendsValid E config s a)
    (hs : Delivery.step E config s a = some s') : GapOk E config s' := by
  have hsys := h.system.step hs
  rcases step_cases hs with ⟨b, client, rfl, harr, hm, rfl⟩ | ⟨b, server, rfl, hd, hst, rfl⟩
  · cases hm with
    | @published _ _ buffer o result =>
      obtain ⟨hseq, hent, -, hper⟩ := Buffer.publish_done result
      have hlt : s.client.buffer.persisted < o.sequence := by
        have hnext := h.system.agent.next
        have hknown := h.known
        omega
      refine ⟨hsys, h.level, h.valid, ?_, ?_, ?_⟩
      · simp only [hper, List.length_append]
        exact h.known.trans (Nat.le_add_right _ _)
      · simp only [hper, hent, List.filter_append, h.entries, List.filter_cons, hlt, decide_true,
          ↓reduceIte, List.filter_nil]
      · simp only [hper]
        exact h.watermark
    | closed => exact { h with system := hsys }
    | phased => exact { h with system := hsys }
    | dialled => exact h.sends hsys fun b hb => by cases hb
    | beat => exact h.sends hsys fun b hb => by cases hb
    | sent result =>
      refine h.sends hsys fun b hb => ?_
      cases hb
      exact ha _ _ result
    | greeted =>
      exact h.acknowledge hsys (of_decide_eq_true harr) rfl fun _ _ => List.not_mem_nil
    | acknowledged =>
      have hf := of_decide_eq_true harr
      exact h.acknowledge hsys hf rfl fun o ho => h.not_terminal hf ho
  · obtain ⟨hlevel, hle⟩ := h.level.step h.system.server (h.system.unaliased hd) hst
    exact ⟨hsys, hlevel, h.valid, h.known, h.entries, h.watermark.trans hle⟩

theorem gapOk_initial {checkpoints : String → String → ℕ}
    (h : checkpoints config.tenantId config.clusterId = 0) :
    GapOk E config (System.initial E config checkpoints) where
  system := systemOk_initial h
  level := level_initial checkpoints
  valid := fun _ hb => by cases hb
  known := Nat.le_refl _
  entries := rfl
  watermark := Nat.zero_le _

/-- The front of the buffer is the number after the last persisted one. -/
theorem GapOk.first (h : GapOk E config s) {first : Observation}
    (hf : s.client.buffer.entries.head? = some first) :
    first.sequence = s.client.buffer.persisted + 1 := by
  rw [h.entries, List.head?_filter, List.find?_eq_some_iff_getElem] at hf
  obtain ⟨hp, i, hi, rfl, hbefore⟩ := hf
  have number : ∀ j (hj : j < s.client.history.length),
      (s.client.history[j]).sequence = j + 1 := fun j hj =>
    h.system.agent.numbered j _ (List.getElem?_eq_getElem hj)
  rw [number i hi, decide_eq_true_eq] at hp
  rw [number i hi]
  by_contra hne
  -- otherwise the number after the last persisted one would stand before it
  have hlt : s.client.buffer.persisted < i := by omega
  have := hbefore _ hlt
  rw [number _ (by omega)] at this
  simp at this

/-- **No gap of the agent's own making.** In every run of one agent process
against the service, with a durable checkpoint store and a watermark that starts
at 0, in which every batch the agent sends is valid, the first number in the
buffer is at most the watermark plus one whenever the agent is about to send. -/
theorem gap_free {checkpoints : String → String → ℕ}
    (h₀ : checkpoints config.tenantId config.clusterId = 0)
    (h : Machine.Reach (step E config) (SendsValid E config)
      (System.initial E config checkpoints) s) {first : Observation} (hf : AboutToSend s first) :
    first.sequence ≤ s.server.watermark config.tenantId config.clusterId + 1 := by
  have hok : GapOk E config s :=
    h.invariant (gapOk_initial h₀) fun _ _ _ hi ha hs => hi.step ha hs
  rw [hok.first hf.2]
  exact Nat.succ_le_succ hok.watermark

/-- `SendsValid` as a check. -/
def sendsValid (E : Env) (config : ClientConfig) (s : System) : Action → Bool
  | .client (.send createdAt _) =>
    match s.client.buffer.batch config.batchSize with
    | first :: rest =>
      (validateBatch E.codec E.config (Client.batchOf E.codec config createdAt first rest)).isOk
    | [] => true
  | _ => true

theorem sendsValid_sound {a : Action} (h : sendsValid E config s a = true) :
    SendsValid E config s a := by
  unfold SendsValid
  split
  · rename_i createdAt ok
    intro first rest hb
    simp only [sendsValid, hb] at h
    cases hv : validateBatch E.codec E.config
        (Client.batchOf E.codec config createdAt first rest) with
    | error e =>
      rw [hv] at h
      cases h
    | ok u => rfl
  · trivial

/-- After the acknowledgement of the first batch, the second observation is at
the front and the watermark is 1. -/
theorem gap_free_plainRun : ∃ s : System, AboutToSend s (plainEntry 2) ∧
    s.server.watermark plainConfig.tenantId plainConfig.clusterId = 1 ∧
    (plainEntry 2).sequence ≤ s.server.watermark plainConfig.tenantId plainConfig.clusterId + 1 := by
  have hrun : (Machine.run (Machine.guarded (step plainEnv plainConfig)
      (sendsValid plainEnv plainConfig)) (System.initial plainEnv plainConfig fun _ _ => 0)
      (plainRun ++ [.client (.receive (acknowledgement "c-1-1" 1 1 [] [])),
        .client (.publish "" plainEvent)])).map
      (fun s => (s.client.phase, s.client.buffer.entries,
        s.server.watermark plainConfig.tenantId plainConfig.clusterId)) =
      some (.ready, [plainEntry 2], 1) := by decide +kernel
  obtain ⟨s, hs, hvals⟩ := Option.map_eq_some_iff.mp hrun
  obtain ⟨hphase, hrest⟩ := Prod.mk.inj hvals
  obtain ⟨hent, hmark⟩ := Prod.mk.inj hrest
  have hf : AboutToSend s (plainEntry 2) := ⟨hphase, by rw [hent]; rfl⟩
  exact ⟨s, hf, hmark, gap_free rfl (.of_guarded (fun _ _ h => sendsValid_sound h) hs) hf⟩

/-! ### A rejected batch -/

/-- The service takes one record a batch; the agent sends two. -/
def narrowEnv : Env := { plainEnv with config := { plainEnv.config with maxBatchRecords := 1 } }

def narrowRun : List Action :=
  let batch := Client.batchOf plainCodec plainConfig ⟨0, 0⟩ (plainEntry 1) [plainEntry 2]
  let detail := "batch contains 2 records; maximum is 1"
  [.client (.publish "" plainEvent), .client (.publish "" plainEvent), .client .dial,
    .server (.connect (.hello plainHello) true true), .server (.greet 0 true),
    .client (.receive (serverHello 0 0 narrowEnv.config)), .client (.send ⟨0, 0⟩ true),
    .server (.recv 0 (some (.batch batch)) true),
    .client (.receive (acknowledgement "c-1-2" 0 0 [] (rejectionsForBatch batch .tooLarge detail))),
    .client (.publish "" plainEvent)]

/-- The batch of the first two observations is rejected and dropped; the third
then stands at the front while the watermark is still 0. -/
theorem gap_after_rejection : ∃ s : System, ∃ first,
    Machine.Reach (step narrowEnv plainConfig) Machine.Always
      (System.initial narrowEnv plainConfig fun _ _ => 0) s ∧
    AboutToSend s first ∧
    ¬ first.sequence ≤ s.server.watermark plainConfig.tenantId plainConfig.clusterId + 1 := by
  have hrun : (Machine.run (step narrowEnv plainConfig)
      (System.initial narrowEnv plainConfig fun _ _ => 0) narrowRun).map
      (fun s => (s.client.phase, s.client.buffer.entries,
        s.server.watermark plainConfig.tenantId plainConfig.clusterId)) =
      some (.ready, [plainEntry 3], 0) := by decide +kernel
  obtain ⟨s, hs, hvals⟩ := Option.map_eq_some_iff.mp hrun
  obtain ⟨hphase, hrest⟩ := Prod.mk.inj hvals
  obtain ⟨hent, hmark⟩ := Prod.mk.inj hrest
  refine ⟨s, plainEntry 3, .of_run (fun _ _ _ => trivial) hs, ⟨hphase, by rw [hent]; rfl⟩, ?_⟩
  rw [hmark]
  decide

end Delivery
end KubeCost
