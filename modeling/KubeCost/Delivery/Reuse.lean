/-
# A new agent process starts again at one

The protocol says that sequence numbers increase across agent restarts. A new
process starts with `NewBuffer`, whose counter is one, and takes nothing but an
acknowledgement from the server's hello; so its first observations carry numbers
that an earlier process used, and the buffer drops them as persisted. The
numbers are new exactly when the watermark is 0 (`noReuse_iff`).
-/
import KubeCost.Delivery.System

namespace KubeCost
namespace Delivery

open Agent Ingestion

/-- A new agent process over a service that may have served earlier ones. -/
def System.join (config : ClientConfig) (w : World) : System := ⟨Client.start config, w⟩

/-- No number of the new process is one up to the watermark: neither of an
observation it sends nor of one that `Acknowledge` drops. -/
def NoReuse (E : Env) (config : ClientConfig) (w : World) : Prop :=
  ∀ s, Machine.Reach (step E config) Machine.Always (System.join config w) s →
    (∀ b, .batch b ∈ s.client.sent → ∀ o ∈ b.observations,
      w.watermark config.tenantId config.clusterId < o.sequence) ∧
    (∀ a s' o, step E config s a = some s' → o ∈ s.client.buffer.entries →
      o ∉ s'.client.buffer.entries → w.watermark config.tenantId config.clusterId < o.sequence)

variable {E : Env} {config : ClientConfig} {w : World}

theorem reach_agentOk {s : System} {ok : System → Action → Prop}
    (h : Machine.Reach (step E config) ok (System.join config w) s) : AgentOk config s.client := by
  refine h.invariant (I := fun s => AgentOk config s.client) (agentOk_start config)
    fun s₁ a s₂ hi _ hs => ?_
  rcases step_cases hs with ⟨b, client, -, -, hm, rfl⟩ | ⟨b, server, -, -, -, rfl⟩
  · exact hi.move hm
  · exact hi

theorem AgentOk.pos {client : Client} (h : AgentOk config client) {o : Observation}
    (ho : o ∈ client.history) : 0 < o.sequence := by
  obtain ⟨i, hi⟩ := List.mem_iff_getElem?.mp ho
  rw [h.numbered i o hi]
  exact Nat.succ_pos i

/-! ### The run that drops the first observation -/

/-- The agent after its first publish, and after it has said hello. -/
def firstPublished (C : Codec) (config : ClientConfig) : Client :=
  { Client.start config with
    buffer :=
      { Buffer.new config.queueCapacity with
        next := 2, entries := [Buffer.stamp C "" "k" 1 (plainObservation 0)] }.signal
    history := [Buffer.stamp C "" "k" 1 (plainObservation 0)] }

def greetingClient (C : Codec) (config : ClientConfig) : Client :=
  { firstPublished C config with
    phase := .handshaking
    sent := [.hello (Client.hello config (Client.start config))] }

theorem publish_first (C : Codec) :
    (Client.start config).step C config (.publish "" plainEvent) =
      some (firstPublished C config) := by
  have hcap : 0 < config.queueCapacity := by
    have h₁ := config.batchSize_pos
    have h₂ := config.batchSize_le
    omega
  have hlen : (Client.start config).buffer.entries.length <
      (Client.start config).buffer.capacity := hcap
  have hval : plainEvent.validate = .ok (plainObservation 0) := rfl
  have hopen : (Client.start config).buffer.closed = false := rfl
  simp only [Client.step, Buffer.publish, hval, hopen, hlen, Bool.false_eq_true, ↓reduceIte]
  rfl

theorem hello_valid (client : Client) : validateHello (client.hello config) = .ok () :=
  (validateHello_iff _).mpr ⟨config.tenantId_ne, config.clusterId_ne, config.agentInstanceId_ne⟩

/-- The service after it has opened the agent's stream and sent its hello. -/
def greeted (E : Env) (config : ClientConfig) (w : World) : World :=
  let hello := Client.hello config (Client.start config)
  let n := w.watermark config.tenantId config.clusterId
  (w.opened hello ⟨n, true⟩).reply w.nextSession ⟨hello, .greeting n⟩
    (serverHello w.nextSession n E.config) true

theorem reach_greeted (idle : w.active (agentKey config) = none) :
    Machine.Reach (step E config) Machine.Always (System.join config w)
      ⟨greetingClient E.codec config, greeted E config w⟩ := by
  have h₁ : step E config (System.join config w) (.client (.publish "" plainEvent)) =
      some ⟨firstPublished E.codec config, w⟩ := by
    simp only [step, System.join, System.arrives, publish_first, ↓reduceIte, Option.map_some]
  have h₂ : step E config ⟨firstPublished E.codec config, w⟩ (.client .dial) =
      some ⟨greetingClient E.codec config, w⟩ := rfl
  have h₃ : step E config ⟨greetingClient E.codec config, w⟩
      (.server (.connect (.hello (Client.hello config (Client.start config))) true true)) =
      some ⟨greetingClient E.codec config,
        w.opened (Client.hello config (Client.start config))
          ⟨w.watermark config.tenantId config.clusterId, true⟩⟩ := by
    have hd : System.delivers config ⟨greetingClient E.codec config, w⟩
        (.connect (.hello (Client.hello config (Client.start config))) true true) = true := by
      simp [System.delivers, greetingClient]
    simp only [step, hd, Ingestion.step, connect_opens (hello_valid _) rfl idle, ↓reduceIte,
      Option.map_some]
    rfl
  have h₄ : step E config ⟨greetingClient E.codec config,
        w.opened (Client.hello config (Client.start config))
          ⟨w.watermark config.tenantId config.clusterId, true⟩⟩
      (.server (.greet w.nextSession true)) =
      some ⟨greetingClient E.codec config, greeted E config w⟩ := by
    simp only [step, System.delivers, Ingestion.step, Ingestion.Action.sid, World.opened,
      Function.update_self, World.session, ↓reduceIte, Option.map_some]
    rfl
  exact (((Machine.Reach.refl.tail trivial h₁).tail trivial h₂).tail trivial h₃).tail trivial h₄

/-- The new process receives the hello and drops its first observation when the
watermark is not 0. -/
theorem drops_first (hw : 0 < w.watermark config.tenantId config.clusterId) :
    ∃ s', step E config ⟨greetingClient E.codec config, greeted E config w⟩
        (.client (.receive (serverHello w.nextSession
          (w.watermark config.tenantId config.clusterId) E.config))) = some s' ∧
      s'.client.buffer.entries = [] := by
  have harr : System.arrives config ⟨greetingClient E.codec config, greeted E config w⟩
      (.receive (serverHello w.nextSession (w.watermark config.tenantId config.clusterId)
        E.config)) = true :=
    decide_eq_true (List.mem_append_right _ (List.mem_singleton_self _))
  refine ⟨⟨(greetingClient E.codec config).handshake (serverHello w.nextSession
    (w.watermark config.tenantId config.clusterId) E.config), greeted E config w⟩, ?_, ?_⟩
  · simp only [step, harr, ↓reduceIte]
    rfl
  · simp only [Client.handshake, serverHello, protocolMajor, ↓reduceIte]
    refine List.eq_nil_iff_forall_not_mem.mpr fun o ho => ?_
    obtain ⟨hmem, hlt, -⟩ := Buffer.mem_acknowledge.mp ho
    obtain rfl := List.mem_singleton.mp hmem
    have hs : (Buffer.stamp E.codec "" "k" 1 (plainObservation 0)).sequence = 1 := rfl
    omega

/-- **Numbers are new exactly at watermark 0.** A new agent process, over a
service that has no stream of its cluster, uses no number up to the watermark in
any run if and only if the watermark is 0. -/
theorem noReuse_iff (idle : w.active (agentKey config) = none) :
    NoReuse E config w ↔ w.watermark config.tenantId config.clusterId = 0 := by
  constructor
  · intro h
    by_contra hw
    obtain ⟨s', hs', hnil⟩ := drops_first (E := E) (Nat.pos_of_ne_zero hw)
    have hlt := (h _ (reach_greeted idle)).2 _ _
      (Buffer.stamp E.codec "" "k" 1 (plainObservation 0)) hs' (List.mem_singleton_self _) ?_
    · have hs : (Buffer.stamp E.codec "" "k" 1 (plainObservation 0)).sequence = 1 := rfl
      omega
    · rw [hnil]
      exact List.not_mem_nil
  · intro hw s hs
    have hok := reach_agentOk hs
    rw [hw]
    exact ⟨fun b hb o ho => hok.pos ((hok.batches b hb).2 ho),
      fun a s' o _ ho _ => hok.pos (hok.entries ho)⟩

/-- The service holds watermark 1; the new process is told so and drops its own
first observation, which nobody has persisted. -/
theorem reuse_at_one : ¬ NoReuse plainEnv plainConfig (World.initial plainEnv fun _ _ => 1) := by
  intro h
  let run : List Action :=
    [.client (.publish "" plainEvent), .client .dial,
      .server (.connect (.hello plainHello) true true), .server (.greet 0 true)]
  let last : Action := .client (.receive (serverHello 0 1 plainEnv.config))
  have hrun : (Machine.run (step plainEnv plainConfig)
      (System.join plainConfig (World.initial plainEnv fun _ _ => 1)) run).map
      (fun s => (s.client.buffer.entries,
        (step plainEnv plainConfig s last).map (·.client.buffer.entries))) =
      some ([plainEntry 1], some []) := by decide +kernel
  obtain ⟨s, hs, hvals⟩ := Option.map_eq_some_iff.mp hrun
  obtain ⟨hent, hlast⟩ := Prod.mk.inj hvals
  obtain ⟨s', hs', hent'⟩ := Option.map_eq_some_iff.mp hlast
  have hlt := (h s (.of_run (fun _ _ _ => trivial) hs)).2 last s' (plainEntry 1) hs'
    (by rw [hent]; exact List.mem_singleton_self _) (by rw [hent']; exact List.not_mem_nil)
  exact absurd hlt (by decide)

theorem noReuse_iff_initial :
    (World.initial plainEnv fun _ _ => 1).active (agentKey plainConfig) = none ∧
    (NoReuse plainEnv plainConfig (World.initial plainEnv fun _ _ => 1) ↔
      (World.initial plainEnv fun _ _ => 1).watermark "t" "c" = 0) :=
  ⟨rfl, noReuse_iff rfl⟩

end Delivery
end KubeCost
