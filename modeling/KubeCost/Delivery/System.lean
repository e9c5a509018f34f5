/-
# One agent and the ingestion service

An agent process with its buffer, and the service, joined by streams. The
service's sessions for the agent's cluster get only frames the agent has sent;
the agent gets only frames the service has sent to its cluster. Nothing else is
assumed of the network: frames may be lost, delayed, repeated or come from an
earlier stream, which covers every stream that really breaks and is opened
again. Sessions of other clusters do what they like.

What the agent drops from its buffer is persisted or was rejected for good
(`no_loss`). The proof joins the service's invariant (`Ingestion.Inv`) with what
the agent knows of its own history: numbers are given once, so two observations
of the agent with one number are the same.
-/
import KubeCost.Agent.Client
import KubeCost.Ingestion.Watermark

namespace KubeCost
namespace Delivery

open Agent Ingestion

structure System where
  client : Client
  server : World

inductive Action
  | client (a : Client.Action)
  | server (a : Ingestion.Action)

/-- The key of the agent's cluster. -/
def agentKey (config : ClientConfig) : String := clusterKey config.tenantId config.clusterId

/-- What reaches the agent's cluster was sent by the agent. -/
def System.delivers (config : ClientConfig) (s : System) : Ingestion.Action → Bool
  | .connect (.hello hello) _ _ =>
    clusterKey hello.tenantId hello.clusterId ≠ agentKey config || .hello hello ∈ s.client.sent
  | .recv sid (some frame) _ =>
    match s.server.sessions sid with
    | some session => session.key ≠ agentKey config || frame ∈ s.client.sent
    | none => true
  | _ => true

/-- What reaches the agent was sent to its cluster. -/
def System.arrives (config : ClientConfig) (s : System) : Client.Action → Bool
  | .receive frame => ⟨config.tenantId, config.clusterId, frame⟩ ∈ s.server.sent
  | _ => true

def step (E : Env) (config : ClientConfig) (s : System) : Action → Option System
  | .client a =>
    if s.arrives config a then
      (s.client.step E.codec config a).map fun client => { s with client := client }
    else none
  | .server a =>
    if s.delivers config a then
      (Ingestion.step E s.server a).map fun server => { s with server := server }
    else none

/-- A new agent process and a new service over the given checkpoints. -/
def System.initial (E : Env) (config : ClientConfig) (checkpoints : String → String → ℕ) :
    System where
  client := Client.start config
  server := World.initial E checkpoints

variable {E : Env} {config : ClientConfig} {s s' : System}

/-- A step is a move of the agent or a transition of the service. -/
theorem step_cases {a : Action} (h : step E config s a = some s') :
    (∃ b client, a = .client b ∧ s.arrives config b = true ∧
      Client.Move E.codec config s.client b client ∧ s' = { s with client := client }) ∨
    (∃ b server, a = .server b ∧ s.delivers config b = true ∧ Step E s.server b server ∧
      s' = { s with server := server }) := by
  cases a with
  | client b =>
    simp only [step] at h
    split at h
    · obtain ⟨client, hc, rfl⟩ := Option.map_eq_some_iff.mp h
      exact .inl ⟨b, client, rfl, ‹_›, Client.step_move hc, rfl⟩
    · cases h
  | server b =>
    simp only [step] at h
    split at h
    · obtain ⟨server, hs, rfl⟩ := Option.map_eq_some_iff.mp h
      exact .inr ⟨b, server, rfl, ‹_›, Ingestion.step_cases hs, rfl⟩
    · cases h

/-! ### The agent's history -/

/-- The agent's records agree with its buffer. -/
structure AgentOk (config : ClientConfig) (client : Client) : Prop where
  numbered : ∀ i o, client.history[i]? = some o → o.sequence = i + 1
  next : client.buffer.next = client.history.length + 1
  entries : client.buffer.entries ⊆ client.history
  batches : ∀ b, .batch b ∈ client.sent → b.observations ≠ [] ∧ b.observations ⊆ client.history
  hellos : ∀ hello, .hello hello ∈ client.sent →
    hello.tenantId = config.tenantId ∧ hello.clusterId = config.clusterId

/-- Numbers are given once. -/
theorem AgentOk.unique {client : Client} (h : AgentOk config client) {o o' : Observation}
    (ho : o ∈ client.history) (ho' : o' ∈ client.history) (hs : o.sequence = o'.sequence) :
    o = o' := by
  obtain ⟨i, hi⟩ := List.mem_iff_getElem?.mp ho
  obtain ⟨j, hj⟩ := List.mem_iff_getElem?.mp ho'
  have h₁ := h.numbered i o hi
  have h₂ := h.numbered j o' hj
  obtain rfl : i = j := by omega
  rw [hi] at hj
  exact Option.some.inj hj

theorem agentOk_start (config : ClientConfig) : AgentOk config (Client.start config) where
  numbered := fun i o h => by
    rw [show (Client.start config).history = [] from rfl, List.getElem?_nil] at h
    cases h
  next := rfl
  entries := List.Subset.refl _
  batches := fun _ h => by cases h
  hellos := fun _ h => by cases h

theorem AgentOk.acknowledge {client : Client} (h : AgentOk config client) (n : ℕ)
    (terminal : List ℕ) (phase : Agent.Phase) :
    AgentOk config { client with
      buffer := client.buffer.acknowledge n terminal, phase := phase } :=
  { h with entries := fun _ ho => h.entries (Buffer.mem_acknowledge.mp ho).1 }

theorem AgentOk.sends {client : Client} (h : AgentOk config client) {frame : AgentToIngestion}
    (hb : ∀ b, frame = .batch b → b.observations ≠ [] ∧ b.observations ⊆ client.history)
    (hh : ∀ hello, frame = .hello hello →
      hello.tenantId = config.tenantId ∧ hello.clusterId = config.clusterId) (phase : Agent.Phase) :
    AgentOk config { client with phase := phase, sent := client.sent ++ [frame] } := by
  refine { h with batches := fun b hmem => ?_, hellos := fun hello hmem => ?_ }
  · rcases List.mem_append.mp hmem with hmem | hmem
    · exact h.batches b hmem
    · exact hb b (List.mem_singleton.mp hmem).symm
  · rcases List.mem_append.mp hmem with hmem | hmem
    · exact h.hellos hello hmem
    · exact hh hello (List.mem_singleton.mp hmem).symm

theorem AgentOk.move {client client' : Client} (h : AgentOk config client) {C : Codec}
    {a : Client.Action} (hm : Client.Move C config client a client') : AgentOk config client' := by
  cases hm with
  | published result =>
    obtain ⟨hseq, hent, hnext, -⟩ := Buffer.publish_done result
    refine ⟨fun i o hi => ?_, ?_, fun o ho => ?_, fun b hb => ?_, h.hellos⟩
    · rcases Nat.lt_or_ge i client.history.length with hlt | hge
      · rw [List.getElem?_append_left hlt] at hi
        exact h.numbered i o hi
      · rw [List.getElem?_append_right hge] at hi
        obtain ⟨hlt, rfl⟩ := List.getElem?_eq_some_iff.mp hi
        rw [List.length_singleton] at hlt
        have hn := h.next
        simp only [List.getElem_singleton]
        omega
    · rw [hnext, h.next, List.length_append, List.length_singleton]
    · rw [hent] at ho
      rcases List.mem_append.mp ho with ho | ho
      · exact List.mem_append_left _ (h.entries ho)
      · exact List.mem_append_right _ ho
    · obtain ⟨hne, hsub⟩ := h.batches b hb
      exact ⟨hne, fun o ho => List.mem_append_left _ (hsub ho)⟩
  | closed => exact { h with }
  | phased => exact { h with }
  | dialled =>
    refine h.sends (fun b hb => ?_) (fun hello hh => ?_) _
    · cases hb
    · cases hh
      exact ⟨rfl, rfl⟩
  | beat =>
    refine h.sends (fun b hb => ?_) (fun hello hh => ?_) client.phase
    · cases hb
    · cases hh
  | sent result =>
    refine h.sends (fun b hb => ?_) (fun hello hh => ?_) _
    · cases hb
      refine ⟨List.cons_ne_nil _ _, fun o ho => h.entries ?_⟩
      apply client.buffer.batch_subset config.batchSize
      rw [result]
      exact ho
    · cases hh
  | greeted => exact h.acknowledge _ _ _
  | acknowledged => exact h.acknowledge _ _ _

/-! ### The joint invariant -/

/-- A step takes at most one batch from a stream. -/
theorem step_received {w w' : World} {a : Ingestion.Action} (h : Step E w a w') :
    w'.received = w.received ∨ ∃ sid session batch sent,
      a = .recv sid (some (.batch batch)) sent ∧ w.sessions sid = some session ∧
      w'.received =
        w.received ++ [⟨session.hello.tenantId, session.hello.clusterId, batch⟩] := by
  have reply : ∀ (w : World) sid session frame sent,
      (w.reply sid session frame sent).received = w.received := by
    intro w sid session frame sent
    cases sent <;> rfl
  cases h with
  | answered here => exact .inr ⟨_, _, _, _, rfl, here, reply ..⟩
  | accepted here => exact .inr ⟨_, _, _, _, rfl, here, rfl⟩
  | greeted | archiveFailed | full | fullFlow | saveFailed | saveFailedLate | published =>
    exact .inl (reply ..)
  | _ => exact .inl rfl

structure SystemOk (E : Env) (config : ClientConfig) (s : System) : Prop where
  agent : AgentOk config s.client
  server : Inv E config.tenantId config.clusterId s.server
  received : ∀ r ∈ s.server.received, r.tenantId = config.tenantId →
    r.clusterId = config.clusterId → .batch r.batch ∈ s.client.sent

theorem systemOk_initial {checkpoints : String → String → ℕ}
    (h : checkpoints config.tenantId config.clusterId = 0) :
    SystemOk E config (System.initial E config checkpoints) where
  agent := agentOk_start config
  server := inv_initial E h
  received := fun _ hr => by cases hr

theorem sent_mono {C : Codec} {client client' : Client} {a : Client.Action}
    (h : Client.Move C config client a client') : client.sent ⊆ client'.sent := by
  cases h with
  | dialled | beat | sent => exact List.subset_append_left _ _
  | _ => exact List.Subset.refl _

/-- A stream with the key of the agent's cluster is the agent's. -/
theorem SystemOk.unaliased (h : SystemOk E config s) {a : Ingestion.Action}
    (hd : s.delivers config a = true) : a.Unaliased config.tenantId config.clusterId := by
  unfold Ingestion.Action.Unaliased
  split
  · intro hk
    simp only [System.delivers, agentKey, hk, ne_eq, not_true, decide_false, Bool.false_or,
      decide_eq_true_eq] at hd
    exact h.agent.hellos _ hd
  · trivial

/-- **One step keeps the joint invariant.** -/
theorem SystemOk.step (h : SystemOk E config s) {a : Action}
    (hs : Delivery.step E config s a = some s') : SystemOk E config s' := by
  rcases step_cases hs with ⟨b, client, rfl, -, hm, rfl⟩ | ⟨b, server, rfl, hd, hst, rfl⟩
  · exact ⟨h.agent.move hm, h.server, fun r hr ht hc => sent_mono hm (h.received r hr ht hc)⟩
  · refine ⟨h.agent, h.server.step (h.unaliased hd) hst, fun r hr ht hc => ?_⟩
    rcases step_received hst with heq | ⟨sid, session, batch, sent, rfl, here, heq⟩
    · simp only [heq] at hr
      exact h.received r hr ht hc
    · simp only [heq] at hr
      rcases List.mem_append.mp hr with hr | hr
      · exact h.received r hr ht hc
      · obtain rfl := List.mem_singleton.mp hr
        have hk : session.key = agentKey config := by
          rw [Session.key, agentKey]
          exact congrArg₂ clusterKey ht hc
        simpa only [System.delivers, here, hk, ne_eq, not_true, decide_false, Bool.false_or,
          decide_eq_true_eq] using hd

theorem reach_systemOk {checkpoints : String → String → ℕ}
    (h₀ : checkpoints config.tenantId config.clusterId = 0) {ok : System → Action → Prop}
    (h : Machine.Reach (step E config) ok (System.initial E config checkpoints) s) :
    SystemOk E config s :=
  h.invariant (systemOk_initial h₀) fun _ _ _ hi _ hs => hi.step hs

/-! ### Nothing is lost -/

/-- The observation is in a batch of the agent's cluster on which `Persist`
returned nil. -/
def Persisted (config : ClientConfig) (s : System) (o : Observation) : Prop :=
  ∃ b ∈ s.server.persisted, b.tenantId = config.tenantId ∧ b.clusterId = config.clusterId ∧
    o ∈ b.observationSet.observations

/-- A batch of the agent that carried the observation was not valid, and the
service sent an acknowledgement of it that rejects the observation for good. -/
def RejectedForGood (E : Env) (config : ClientConfig) (s : System) (o : Observation) : Prop :=
  ∃ batch ack, .batch batch ∈ s.client.sent ∧ o ∈ batch.observations ∧
    (∃ e, validateBatch E.codec E.config batch = .error e) ∧
    ⟨config.tenantId, config.clusterId, .acknowledgement ack⟩ ∈ s.server.sent ∧
    ack.batchId = batch.batchId ∧
    ∃ r ∈ ack.rejections, r.sequence = o.sequence ∧ r.retryable = false

/-- A number up to an announced boundary was given to a persisted observation. -/
theorem SystemOk.persisted (h : SystemOk E config s) {frame : IngestionToAgent} {n : ℕ}
    (hf : ⟨config.tenantId, config.clusterId, frame⟩ ∈ s.server.sent)
    (hn : frame.watermark = some n) {o : Observation} (ho : o ∈ s.client.history)
    (hle : o.sequence ≤ n) : Persisted config s o := by
  have hpos : 1 ≤ o.sequence := by
    obtain ⟨i, hi⟩ := List.mem_iff_getElem?.mp ho
    have := h.agent.numbered i o hi
    omega
  obtain ⟨b, hb, ht, hc, ⟨batch, p, hrec, -, hsuf⟩, o', ho', hseq, -⟩ :=
    h.server.sent _ hf rfl rfl n hn o.sequence hpos hle
  have hbatch : o' ∈ batch.observations := by
    rw [hsuf] at ho'
    exact suffixAfter_subset _ _ _ ho'
  have hsent := h.received _ hrec ht hc
  obtain rfl : o' = o := h.agent.unique ((h.agent.batches _ hsent).2 hbatch) ho hseq
  exact ⟨b, hb, ht, hc, ho'⟩

theorem rejectionsForBatch_mem {batch : ObservationBatch} (hne : batch.observations ≠ [])
    {code : RejectionCode} {detail : String} {r : RecordRejection}
    (hr : r ∈ rejectionsForBatch batch code detail) :
    ∃ o ∈ batch.observations, o.sequence = r.sequence := by
  rw [rejectionsForBatch, if_neg (by simpa using hne)] at hr
  obtain ⟨o, ho, rfl⟩ := List.mem_map.mp hr
  exact ⟨o, ho, rfl⟩

/-- A terminal rejection that was sent names an observation of an invalid batch. -/
theorem SystemOk.rejected (h : SystemOk E config s) {ack : BatchAcknowledgement}
    (hf : ⟨config.tenantId, config.clusterId, .acknowledgement ack⟩ ∈ s.server.sent)
    {o : Observation} (ho : o ∈ s.client.history)
    (hterm : o.sequence ∈ Client.terminal ack) : RejectedForGood E config s o := by
  obtain ⟨r, hr, hseq⟩ := List.mem_map.mp hterm
  obtain ⟨hmem, hretry⟩ := List.mem_filter.mp hr
  have hne : ack.rejections ≠ [] := List.ne_nil_of_mem hmem
  obtain ⟨batch, e, hrec, hv, hid, hrs⟩ := h.server.rejected _ hf ack rfl hne
  have hsent := h.received _ hrec rfl rfl
  obtain ⟨hnonempty, hsub⟩ := h.agent.batches _ hsent
  have hr' := hmem
  rw [hrs] at hr'
  obtain ⟨o', ho', hseq'⟩ := rejectionsForBatch_mem hnonempty hr'
  obtain rfl : o' = o := h.agent.unique (hsub ho') ho (hseq'.trans hseq)
  exact ⟨batch, ack, hsent, ho', ⟨e, hv⟩, hf, hid, r, hmem, hseq, by simpa using hretry⟩

/-- **No loss.** In every run of one agent process against the service, with a
durable checkpoint store and a watermark that starts at 0, an observation that
leaves the buffer is in a persisted batch, or was rejected for good with the
batch that carried it. -/
theorem no_loss {checkpoints : String → String → ℕ}
    (h₀ : checkpoints config.tenantId config.clusterId = 0)
    (h : Machine.Reach (step E config) Machine.Always (System.initial E config checkpoints) s)
    {a : Action} (hs : step E config s a = some s') {o : Observation}
    (ho : o ∈ s.client.buffer.entries) (hd : o ∉ s'.client.buffer.entries) :
    Persisted config s o ∨ RejectedForGood E config s o := by
  have hok := reach_systemOk h₀ h
  have hist := hok.agent.entries ho
  rcases step_cases hs with ⟨b, client, rfl, harr, hm, rfl⟩ | ⟨b, server, rfl, -, -, rfl⟩
  · cases hm with
    | published result =>
      obtain ⟨-, hent, -⟩ := Buffer.publish_done result
      rw [hent] at hd
      exact absurd (List.mem_append_left _ ho) hd
    | closed | phased | dialled | beat | sent => exact absurd ho hd
    | greeted =>
      have hf := of_decide_eq_true harr
      rcases Buffer.dropped ho hd with hle | hterm
      · exact .inl (hok.persisted hf rfl hist hle)
      · cases hterm
    | acknowledged =>
      have hf := of_decide_eq_true harr
      rcases Buffer.dropped ho hd with hle | hterm
      · exact .inl (hok.persisted hf rfl hist hle)
      · exact .inr (hok.rejected hf hist hterm)
  · exact absurd ho hd

/-! ### A run -/

def plainConfig : ClientConfig where
  tenantId := "t"
  clusterId := "c"
  agentInstanceId := "a"
  agentVersion := ""
  kubernetesVersion := ""
  queueCapacity := 2
  batchSize := 2
  tenantId_ne := by decide
  clusterId_ne := by decide
  agentInstanceId_ne := by decide
  batchSize_pos := by decide
  batchSize_le := by decide

def plainEvent : Event := ⟨"k", some (plainObservation 0)⟩

/-- The observation that the `n`th publish of `plainEvent` puts into the buffer. -/
def plainEntry (n : ℕ) : Observation := Buffer.stamp plainCodec "" "k" n (plainObservation 0)

/-- The agent publishes, connects and sends; the service persists the batch and
acknowledges it. -/
def plainRun : List Action :=
  [.client (.publish "" plainEvent), .client .dial,
    .server (.connect (.hello plainHello) true true), .server (.greet 0 true),
    .client (.receive (serverHello 0 0 plainEnv.config)), .client (.send ⟨0, 0⟩ true),
    .server (.recv 0 (some (.batch
      (Client.batchOf plainCodec plainConfig ⟨0, 0⟩ (plainEntry 1) []))) true),
    .server (.checkDepth 0 true), .server (.archive 0 ⟨0, 0⟩ true true),
    .server (.enqueue 0 true true), .server .lease, .server (.persist fun _ => .ok),
    .server .markPersisted, .server .commit, .server (.notified 0), .server (.save 0 .ok true),
    .server (.publish 0 true)]

theorem no_loss_plainRun : ∃ s s' : System, ∃ a, step plainEnv plainConfig s a = some s' ∧
    plainEntry 1 ∈ s.client.buffer.entries ∧ plainEntry 1 ∉ s'.client.buffer.entries ∧
    (Persisted plainConfig s (plainEntry 1) ∨ RejectedForGood plainEnv plainConfig s (plainEntry 1)) := by
  let last : Action := .client (.receive (acknowledgement "c-1-1" 1 1 [] []))
  have hrun : (Machine.run (step plainEnv plainConfig)
      (System.initial plainEnv plainConfig fun _ _ => 0) plainRun).map
      (fun s => (s.client.buffer.entries,
        (step plainEnv plainConfig s last).map (·.client.buffer.entries))) =
      some ([plainEntry 1], some []) := by decide +kernel
  obtain ⟨s, hs, hvals⟩ := Option.map_eq_some_iff.mp hrun
  obtain ⟨hent, hlast⟩ := Prod.mk.inj hvals
  obtain ⟨s', hs', hent'⟩ := Option.map_eq_some_iff.mp hlast
  have ho : plainEntry 1 ∈ s.client.buffer.entries := by
    rw [hent]
    exact List.mem_singleton_self _
  have hd : plainEntry 1 ∉ s'.client.buffer.entries := by
    rw [hent']
    exact List.not_mem_nil
  exact ⟨s, s', last, hs', ho, hd,
    no_loss rfl (.of_run (fun _ _ _ => trivial) hs) hs' ho hd⟩

end Delivery
end KubeCost
