/-
# The watermark is sound

Every durability boundary the service announces, in a hello or in an
acknowledgement, covers only numbers of observations that are persisted
(`watermark_sound`). The invariant follows one cluster through the four places
where its watermark lives (the checkpoint, the state in memory, the session's
locals, the frames sent) and ties a waiting session to the batch it has queued
by the batch's channel. A batch whose session died stays queued and may be
persisted later, while the same numbers are queued again by a new session;
neither matters, since only a closed channel lets a session go on, and a channel
is closed after `Persist` returned nil on its batch.
-/
import KubeCost.Machine
import KubeCost.Ingestion.Server

namespace KubeCost
namespace Ingestion

/-! ### What it means to be persisted -/

/-- The row of an inventory observation is in the store. -/
def RowStored (stored : List MappedRow) (b : Batch) (o : Observation) : Prop :=
  ∀ payload, o.payload = some payload → payload.isInventory = true →
    ∃ row, mapObservation b o = .ok (some row) ∧ row ∈ stored

/-- The batch is the suffix of one that was received for its cluster and that
`validateBatch` accepted. -/
def Accepted (E : Env) (w : World) (b : Batch) : Prop :=
  ∃ batch p, ⟨b.tenantId, b.clusterId, batch⟩ ∈ w.received ∧
    validateBatch E.codec E.config batch = .ok () ∧ b.observationSet = suffixAfter E.codec batch p

/-- Number `n` of a cluster belongs to an observation of an accepted batch on
which `Persist` returned nil, and its inventory row is stored. -/
def Durable (E : Env) (w : World) (t c : String) (n : ℕ) : Prop :=
  ∃ b ∈ w.persisted, b.tenantId = t ∧ b.clusterId = c ∧ Accepted E w b ∧
    ∃ o ∈ b.observationSet.observations, o.sequence = n ∧ RowStored w.stored b o

/-- Every number of the cluster up to `p` is durable. -/
def Covered (E : Env) (w : World) (t c : String) (p : ℕ) : Prop :=
  ∀ n, 1 ≤ n → n ≤ p → Durable E w t c n

/-! ### The invariant -/

/-- The batches that wait or are leased. -/
def World.inHand (w : World) : List Batch :=
  match w.worker with
  | .persisting lease | .committing lease _ => lease ++ w.queue.items
  | .idle | .stopped => w.queue.items

/-- The locals of `handleBatch` fit the state they were read from. -/
structure PendingOk (E : Env) (w : World) (s : Session) (p : Pending) : Prop where
  received : ⟨s.hello.tenantId, s.hello.clusterId, p.batch⟩ ∈ w.received
  valid : validateBatch E.codec E.config p.batch = .ok ()
  suffix : p.accepted = suffixAfter E.codec p.batch p.persisted
  watermark : w.persistedThrough s.key = p.persisted
  first : p.batch.firstSequence ≤ p.persisted + 1
  last : p.persisted < p.batch.lastSequence

/-- `b` is the batch that the session put in the queue for `p`. -/
structure Carries (s : Session) (p : Pending) (b : Batch) : Prop where
  tenant : b.tenantId = s.hello.tenantId
  cluster : b.clusterId = s.hello.clusterId
  observations : b.observationSet = p.accepted

/-- What a session in the `select` knows of its channel. -/
structure Waits (w : World) (s : Session) (p : Pending) (channel : ℕ) : Prop where
  fresh : channel < w.nextChannel
  queued : ∀ b ∈ w.inHand, b.persisted = some channel → Carries s p b
  closed : channel ∈ w.closed → ∃ b ∈ w.persisted, Carries s p b

def PhaseOk (E : Env) (t c : String) (w : World) (s : Session) : Prop :=
  match s.phase with
  | .greeting p => s.hello.tenantId = t → s.hello.clusterId = c → Covered E w t c p
  | .receiving => True
  | .admitted p | .archiving p _ | .enqueueing p _ _ => PendingOk E w s p
  | .waiting p channel => PendingOk E w s p ∧ Waits w s p channel
  | .saving p | .publishing p => PendingOk E w s p ∧ ∃ b ∈ w.persisted, Carries s p b

/-- No other cluster has the key of `(t, c)`. -/
def NoAlias (t c : String) (hello : AgentHello) : Prop :=
  clusterKey hello.tenantId hello.clusterId = clusterKey t c →
    hello.tenantId = t ∧ hello.clusterId = c

/-- The acknowledgement rejects all of a received batch that is not valid. -/
def Rejected (E : Env) (w : World) (t c : String) (ack : BatchAcknowledgement) : Prop :=
  ∃ batch e, ⟨t, c, batch⟩ ∈ w.received ∧ validateBatch E.codec E.config batch = .error e ∧
    ack.batchId = batch.batchId ∧ ack.rejections = rejectionsForBatch batch (rejectionCode e) e

/-- The records of what happened only grow. -/
structure Grows (w w' : World) : Prop where
  received : w.received ⊆ w'.received
  persisted : w.persisted ⊆ w'.persisted
  stored : w.stored ⊆ w'.stored

structure Inv (E : Env) (t c : String) (w : World) : Prop where
  checkpoint : Covered E w t c (w.checkpoints t c)
  cluster : Covered E w t c (w.persistedThrough (clusterKey t c))
  sent : ∀ f ∈ w.sent, f.tenantId = t → f.clusterId = c →
    ∀ p, f.frame.watermark = some p → Covered E w t c p
  rejected : ∀ f ∈ w.sent, ∀ ack, f.frame = .acknowledgement ack → ack.rejections ≠ [] →
    Rejected E w f.tenantId f.clusterId ack
  log : ∀ b ∈ w.persisted, Accepted E w b ∧
    ∀ o ∈ b.observationSet.observations, RowStored w.stored b o
  queued : ∀ b ∈ w.inHand, Accepted E w b ∧ ∃ channel < w.nextChannel, b.persisted = some channel
  closed : ∀ channel ∈ w.closed, channel < w.nextChannel
  lease : ∀ lease pending, w.worker = .committing lease pending →
    pending ⊆ lease ∧ lease ⊆ w.persisted
  active : ∀ sid s, w.sessions sid = some s → w.active s.key = some sid
  fresh : ∀ sid s, w.sessions sid = some s → sid < w.nextSession
  ids : ∀ sid s, w.sessions sid = some s → NoAlias t c s.hello
  phase : ∀ sid s, w.sessions sid = some s → PhaseOk E t c w s

variable {E : Env} {t c : String} {w w' : World} {sid : ℕ} {s : Session} {p : Pending}

/-- Two sessions of one cluster are the same. -/
theorem Inv.unique (h : Inv E t c w) {sid' : ℕ} {s' : Session} (hs : w.sessions sid = some s)
    (hs' : w.sessions sid' = some s') (hk : s.key = s'.key) : sid = sid' := by
  have h₁ := h.active sid s hs
  have h₂ := h.active sid' s' hs'
  rw [hk, h₂] at h₁
  exact (Option.some.inj h₁).symm

/-- The batch that a session works on. -/
def Phase.pending : Phase → Option Pending
  | .greeting _ | .receiving => none
  | .admitted p | .archiving p _ | .enqueueing p _ _ | .waiting p _ | .saving p | .publishing p =>
    some p

/-- A session that works on a batch has read it from the state. -/
theorem Inv.pendingOk (h : Inv E t c w) (here : w.sessions sid = some s)
    (hp : s.phase.pending = some p) : PendingOk E w s p := by
  have hphase := h.phase sid s here
  unfold PhaseOk at hphase
  split at hphase <;> rename_i heq <;> rw [heq] at hp <;> cases hp
  case h_6 | h_7 | h_8 => exact hphase.1
  all_goals exact hphase

/-- A session that saves or publishes has seen its batch persisted. -/
theorem Inv.carried (h : Inv E t c w) (here : w.sessions sid = some s)
    (hp : s.phase = .saving p ∨ s.phase = .publishing p) : ∃ b ∈ w.persisted, Carries s p b := by
  have hphase := h.phase sid s here
  unfold PhaseOk at hphase
  rcases hp with hp | hp
  · rw [hp] at hphase
    exact hphase.2
  · rw [hp] at hphase
    exact hphase.2

theorem Covered.mono {q p : ℕ} (h : Covered E w t c p) (hq : q ≤ p) : Covered E w t c q :=
  fun n h₁ h₂ => h n h₁ (h₂.trans hq)

theorem covered_zero : Covered E w t c 0 := fun n h₁ h₂ => by omega

theorem Grows.same (hr : w'.received = w.received) (hp : w'.persisted = w.persisted)
    (hs : w'.stored = w.stored) : Grows w w' := by
  refine ⟨?_, ?_, ?_⟩
  · rw [hr]
    exact List.Subset.refl _
  · rw [hp]
    exact List.Subset.refl _
  · rw [hs]
    exact List.Subset.refl _

theorem Accepted.grow {b : Batch} (h : Accepted E w b) (g : Grows w w') : Accepted E w' b := by
  obtain ⟨batch, p, hr, hv, hs⟩ := h
  exact ⟨batch, p, g.received hr, hv, hs⟩

theorem RowStored.grow {b : Batch} {o : Observation} (h : RowStored w.stored b o)
    (g : Grows w w') : RowStored w'.stored b o := by
  intro payload hp hi
  obtain ⟨row, hrow, hmem⟩ := h payload hp hi
  exact ⟨row, hrow, g.stored hmem⟩

theorem Rejected.grow {ack : BatchAcknowledgement} (h : Rejected E w t c ack) (g : Grows w w') :
    Rejected E w' t c ack := by
  obtain ⟨batch, e, hr, h⟩ := h
  exact ⟨batch, e, g.received hr, h⟩

/-- Nothing durable is lost while the records grow. -/
theorem Covered.grow {p : ℕ} (h : Covered E w t c p) (g : Grows w w') : Covered E w' t c p := by
  intro n h₁ h₂
  obtain ⟨b, hb, ht, hc, ha, o, ho, hn, hr⟩ := h n h₁ h₂
  exact ⟨b, g.persisted hb, ht, hc, ha.grow g, o, ho, hn, hr.grow g⟩

/-- **A persisted batch extends the watermark to its last number.** -/
theorem Inv.extend (h : Inv E t c w) (hp : PendingOk E w s p) {b : Batch} (hb : b ∈ w.persisted)
    (hc : Carries s p b) (ht : s.hello.tenantId = t) (hcl : s.hello.clusterId = c) :
    Covered E w t c p.batch.lastSequence := by
  intro n h₁ h₂
  by_cases hn : n ≤ p.persisted
  · have hk : s.key = clusterKey t c := by rw [Session.key, ht, hcl]
    refine h.cluster n h₁ ?_
    rw [← hk, hp.watermark]
    exact hn
  · obtain ⟨o, ho, hs⟩ := suffixAfter_covers ((validateBatch_iff _ _ _).mp hp.valid) hp.first
      (by omega : p.persisted < n) h₂
    have ho' : o ∈ b.observationSet.observations := by
      rw [hc.observations, hp.suffix]
      exact ho
    obtain ⟨ha, hr⟩ := h.log b hb
    exact ⟨b, hb, hc.tenant.trans ht, hc.cluster.trans hcl, ha, o, ho', hs, hr o ho'⟩

/-! ### Steps of a session -/

theorem PendingOk.of_same (h : PendingOk E w s p) (g : Grows w w')
    (watermark : w'.persistedThrough s.key = w.persistedThrough s.key) (phase : Phase) :
    PendingOk E w' { s with phase := phase } p :=
  ⟨g.received h.received, h.valid, h.suffix, watermark.trans h.watermark, h.first, h.last⟩

/-- The facts about a batch in hand are about what was received and the watermark. -/
theorem PendingOk.keep (h : PendingOk E w s p) (hr : w'.received = w.received)
    (hc : w'.clusters = w.clusters) (phase : Phase) :
    PendingOk E w' { s with phase := phase } p := by
  refine ⟨?_, h.valid, h.suffix, ?_, h.first, h.last⟩
  · rw [hr]
    exact h.received
  · rw [World.persistedThrough, hc]
    exact h.watermark

/-- What a session expects of the world is about these parts of it only. -/
theorem PhaseOk.of_same (h : PhaseOk E t c w s) (g : Grows w w')
    (watermark : w'.persistedThrough s.key = w.persistedThrough s.key)
    (waits : ∀ p channel, Waits w s p channel → Waits w' s p channel) : PhaseOk E t c w' s := by
  unfold PhaseOk at h ⊢
  split at h
  case h_1 => exact fun ht hc => (h ht hc).grow g
  case h_2 => exact trivial
  case h_6 => exact ⟨h.1.of_same g watermark _, waits _ _ h.2⟩
  case h_7 | h_8 =>
    obtain ⟨hp, b, hb, hcar⟩ := h
    exact ⟨hp.of_same g watermark _, b, g.persisted hb, hcar⟩
  all_goals exact h.of_same g watermark _

/-- What a session expects does not depend on the parts that sessions write. -/
theorem PhaseOk.local (h : PhaseOk E t c w s) {active : String → Option ℕ}
    {sessions : ℕ → Option Session} {nextSession : ℕ} {checkpoints : String → String → ℕ}
    {archive : List ArchiveRecord} {sent : List Sent} :
    PhaseOk E t c { w with
      active := active, sessions := sessions, nextSession := nextSession
      checkpoints := checkpoints, archive := archive, sent := sent } s :=
  h.of_same (.same rfl rfl rfl) rfl
    fun _ _ hw => ⟨hw.fresh, hw.queued, hw.closed⟩

theorem goto_sessions {sid' : ℕ} {s' : Session} {phase : Phase}
    (h : (w.goto sid s phase).sessions sid' = some s') :
    (sid' = sid ∧ s' = { s with phase := phase }) ∨ (sid' ≠ sid ∧ w.sessions sid' = some s') := by
  rcases Machine.update_eq_some h with ⟨hsid, h⟩ | hother
  · exact .inl ⟨hsid, (Option.some.inj h).symm⟩
  · exact .inr hother

theorem finish_sessions {sid' : ℕ} {s' : Session} (h : (w.finish sid s).sessions sid' = some s') :
    sid' ≠ sid ∧ w.sessions sid' = some s' :=
  (Machine.update_eq_some h).resolve_left fun hsid => nomatch hsid.2

theorem opened_sessions {hello : AgentHello} {st : ClusterState}
    (h : (w.opened hello st).sessions sid = some s) :
    (sid = w.nextSession ∧ s = ⟨hello, .greeting st.persistedThrough⟩) ∨
      (sid ≠ w.nextSession ∧ w.sessions sid = some s) := by
  rcases Machine.update_eq_some h with ⟨hsid, h⟩ | hother
  · exact .inl ⟨hsid, (Option.some.inj h).symm⟩
  · exact .inr hother

/-- **What sessions keep.** A property of sessions holds after a step if it holds of a session that
opens and of one that takes a batch, and stays when a session goes on with its batch or drops it. -/
theorem Step.sessions {P : Session → Prop} {a : Action} (hs : Step E w a w')
    (h : ∀ sid s, w.sessions sid = some s → P s)
    (opens : ∀ hello n loads, a = .connect (.hello hello) true loads → P ⟨hello, .greeting n⟩)
    (takes : ∀ s batch n p sid sent, a = .recv sid (some (.batch batch)) sent →
      handleBatch E n batch = .accept p → P s → P { s with phase := .admitted p })
    (goes : ∀ (s : Session) phase, phase.pending = none ∨ phase.pending = s.phase.pending → P s →
      P { s with phase := phase }) :
    ∀ sid s, w'.sessions sid = some s → P s := by
  have goto : ∀ {w₁ : World} {sid s phase}, w₁.sessions = w.sessions → w.sessions sid = some s →
      P { s with phase := phase } → ∀ sid' s', (w₁.goto sid s phase).sessions sid' = some s' → P s' := by
    intro w₁ sid s phase hsame here hp sid' s' hs'
    rcases goto_sessions hs' with ⟨-, rfl⟩ | ⟨-, hs'⟩
    · exact hp
    · exact h sid' s' (hsame ▸ hs')
  have finish : ∀ {w₁ : World} {sid s}, w₁.sessions = w.sessions →
      ∀ sid' s', (w₁.finish sid s).sessions sid' = some s' → P s' :=
    fun hsame sid' s' hs' => h sid' s' (hsame ▸ (finish_sessions hs').2)
  have reply : ∀ {w₁ : World} {sid s frame ok}, w₁.sessions = w.sessions → w.sessions sid = some s →
      ∀ sid' s', (w₁.reply sid s frame ok).sessions sid' = some s' → P s' := by
    intro w₁ sid s frame ok hsame here
    unfold World.reply
    split
    · exact goto hsame here (goes s _ (.inl rfl) (h sid s here))
    · exact finish hsame
  cases hs with
  | refused | loadFailed | leased | persisted | persistFailed | marked | committed | stopped => exact h
  | acquired =>
    intro sid s hs
    rcases opened_sessions hs with ⟨-, rfl⟩ | ⟨-, hs⟩
    · exact opens _ _ _ rfl
    · exact h sid s hs
  | greeted here | answered here | archiveFailed here | full here | fullFlow here | saveFailed here
  | saveFailedLate here | published here => exact reply rfl here
  | accepted here _ decision => exact goto rfl here (takes _ _ _ _ _ _ rfl decision (h _ _ here))
  | left | flowLeft => exact finish rfl
  | below here hp | above here hp | archived here hp | enqueued here hp | notified here hp
  | saved here hp => exact goto rfl here (goes _ _ (.inr (by rw [hp]; rfl)) (h _ _ here))
  | restarted => exact fun _ _ hs => nomatch hs

/-- A session may go on to any phase whose facts hold. -/
theorem Inv.goto (h : Inv E t c w) (hs : w.sessions sid = some s) {phase : Phase}
    (hp : PhaseOk E t c w { s with phase := phase }) : Inv E t c (w.goto sid s phase) := by
  have cases_on : ∀ {P : ℕ → Session → Prop}, P sid { s with phase := phase } →
      (∀ sid' s', w.sessions sid' = some s' → P sid' s') →
      ∀ sid' s', (w.goto sid s phase).sessions sid' = some s' → P sid' s' := by
    intro P h₁ h₂ sid' s' h'
    rcases goto_sessions h' with ⟨rfl, rfl⟩ | ⟨-, h'⟩
    · exact h₁
    · exact h₂ sid' s' h'
  exact { h with
    active := cases_on (h.active sid s hs) h.active
    fresh := cases_on (h.fresh sid s hs) h.fresh
    ids := cases_on (P := fun _ s' => NoAlias t c s'.hello) (h.ids sid s hs) h.ids
    phase := fun sid' s' h' =>
      (cases_on (P := fun _ s' => PhaseOk E t c w s') hp h.phase sid' s' h').local }

theorem Inv.finish (h : Inv E t c w) (hs : w.sessions sid = some s) :
    Inv E t c (w.finish sid s) := by
  refine { h with active := ?_, fresh := ?_, ids := ?_, phase := ?_ }
  · intro sid' s' h'
    obtain ⟨hne, h'⟩ := finish_sessions h'
    have hk : s'.key ≠ s.key := fun hk => hne (h.unique h' hs hk)
    have hact := h.active sid' s' h'
    simp only [World.finish]
    split
    · rw [Function.update_of_ne hk]
      exact hact
    · exact hact
  · exact fun sid' s' h' => h.fresh sid' s' (finish_sessions h').2
  · exact fun sid' s' h' => h.ids sid' s' (finish_sessions h').2
  · exact fun sid' s' h' => (h.phase sid' s' (finish_sessions h').2).local

/-- What a frame says is so: its watermark is covered, and what it rejects was
received and is not valid. -/
structure FrameOk (E : Env) (t c : String) (w : World) (s : Session) (frame : IngestionToAgent) :
    Prop where
  watermark : s.hello.tenantId = t → s.hello.clusterId = c →
    ∀ p, frame.watermark = some p → Covered E w t c p
  rejected : ∀ ack, frame = .acknowledgement ack → ack.rejections ≠ [] →
    Rejected E w s.hello.tenantId s.hello.clusterId ack

theorem FrameOk.plain {frame : IngestionToAgent} (hw : s.hello.tenantId = t →
    s.hello.clusterId = c → ∀ p, frame.watermark = some p → Covered E w t c p)
    (hr : ∀ ack, frame = .acknowledgement ack → ack.rejections = []) :
    FrameOk E t c w s frame :=
  ⟨hw, fun ack hack hne => absurd (hr ack hack) hne⟩

theorem Inv.send (h : Inv E t c w) {frame : IngestionToAgent} (hf : FrameOk E t c w s frame) :
    Inv E t c (w.send s frame) := by
  have split : ∀ {f}, f ∈ (w.send s frame).sent →
      f ∈ w.sent ∨ f = ⟨s.hello.tenantId, s.hello.clusterId, frame⟩ := by
    intro f hmem
    rcases List.mem_append.mp hmem with hmem | hmem
    · exact .inl hmem
    · exact .inr (List.mem_singleton.mp hmem)
  refine { h with
    sent := ?_, rejected := ?_, phase := fun sid' s' h' => (h.phase sid' s' h').local }
  · intro f hmem ht hc p hp
    rcases split hmem with hmem | rfl
    · exact h.sent f hmem ht hc p hp
    · exact hf.watermark ht hc p hp
  · intro f hmem ack hack hne
    rcases split hmem with hmem | rfl
    · exact h.rejected f hmem ack hack hne
    · exact hf.rejected ack hack hne

theorem Inv.flow (h : Inv E t c w) {delay : ℤ} {reason : String} :
    Inv E t c (w.send s (flowControl delay reason)) := by
  refine h.send (.plain (fun _ _ p hp => ?_) fun ack hack => ?_)
  · cases hp
  · cases hack

theorem Inv.reply (h : Inv E t c w) (hs : w.sessions sid = some s) {frame : IngestionToAgent}
    {sent : Bool} (hf : FrameOk E t c w s frame) : Inv E t c (w.reply sid s frame sent) := by
  have h' := h.send hf
  cases sent
  · exact h'.finish hs
  · exact h'.goto hs trivial

theorem Inv.save (h : Inv E t c w) {n : ℕ}
    (hn : s.hello.tenantId = t → s.hello.clusterId = c → Covered E w t c n) :
    Inv E t c (w.save s n) := by
  refine { h with checkpoint := ?_, phase := fun sid' s' h' => (h.phase sid' s' h').local }
  by_cases ht : s.hello.tenantId = t
  · by_cases hc : s.hello.clusterId = c
    · subst ht hc
      simp only [World.save, Function.update_self]
      exact hn rfl rfl
    · simp only [World.save, ht, Function.update_self, Function.update_of_ne (Ne.symm hc)]
      exact h.checkpoint
  · simp only [World.save, Function.update_of_ne (Ne.symm ht)]
    exact h.checkpoint

theorem Inv.archived (h : Inv E t c w) (archive : List ArchiveRecord) :
    Inv E t c { w with archive := archive } :=
  { h with phase := fun sid' s' h' => (h.phase sid' s' h').local }

/-- A change of the clusters' states that the sessions do not see. -/
theorem Inv.clusters (h : Inv E t c w) {clusters : String → Option ClusterState}
    (hc : Covered E w t c ({ w with clusters := clusters }.persistedThrough (clusterKey t c)))
    (hs : ∀ sid s, w.sessions sid = some s → s.phase = .receiving ∨
      { w with clusters := clusters }.persistedThrough s.key = w.persistedThrough s.key) :
    Inv E t c { w with clusters := clusters } := by
  refine { h with cluster := hc, phase := ?_ }
  intro sid s hsid
  rcases hs sid s hsid with hr | hw
  · simp only [PhaseOk, hr]
  · exact (h.phase sid s hsid).of_same (.same rfl rfl rfl) hw
      fun _ _ hw => ⟨hw.fresh, hw.queued, hw.closed⟩

theorem advance_persistedThrough_ne {key key' : String} {n : ℕ} (h : key' ≠ key) :
    (w.advance key n).persistedThrough key' = w.persistedThrough key' := by
  simp only [World.persistedThrough, World.advance, Function.update_of_ne h]

theorem advance_persistedThrough_le (w : World) (key : String) (n : ℕ) :
    (w.advance key n).persistedThrough key ≤ n := by
  simp only [World.persistedThrough, World.advance, Function.update_self]
  cases w.clusters key <;> simp

/-- The watermark of a cluster moves when its session is between batches. -/
theorem Inv.advance (h : Inv E t c w) {key : String} {n : ℕ}
    (hn : key = clusterKey t c → Covered E w t c n)
    (hs : ∀ sid s, w.sessions sid = some s → s.key = key → s.phase = .receiving) :
    Inv E t c (w.advance key n) := by
  refine h.clusters ?_ fun sid s hsid => ?_
  · by_cases hk : key = clusterKey t c
    · subst hk
      exact (hn rfl).mono (advance_persistedThrough_le w _ n)
    · have := advance_persistedThrough_ne (w := w) (n := n) (Ne.symm hk)
      rw [World.advance] at this
      rw [this]
      exact h.cluster
  · by_cases hk : s.key = key
    · exact .inl (hs sid s hsid hk)
    · exact .inr (advance_persistedThrough_ne hk)

theorem noteCluster_persistedThrough (w : World) (key key' : String) :
    (w.noteCluster key).persistedThrough key' = w.persistedThrough key' := by
  by_cases hk : key' = key
  · subst hk
    simp only [World.persistedThrough, World.noteCluster, Function.update_self]
    cases w.clusters key' <;> rfl
  · simp only [World.persistedThrough, World.noteCluster, Function.update_of_ne hk]

theorem Inv.noteCluster (h : Inv E t c w) (key : String) : Inv E t c (w.noteCluster key) := by
  refine h.clusters ?_ fun sid s _ => .inr (noteCluster_persistedThrough w key s.key)
  have := noteCluster_persistedThrough w key (clusterKey t c)
  rw [World.noteCluster] at this
  rw [this]
  exact h.cluster

/-- What `acquire` takes for the cluster is covered. -/
theorem Inv.loads (h : Inv E t c w) {hello : AgentHello} {st : ClusterState}
    (hl : w.Loads hello st) (ht : hello.tenantId = t) (hc : hello.clusterId = c) :
    Covered E w t c st.persistedThrough := by
  subst ht hc
  rcases hl with ⟨hst, -⟩ | ⟨-, rfl⟩
  · have := h.cluster
    rwa [World.persistedThrough, hst] at this
  · exact h.checkpoint

theorem Inv.opened (h : Inv E t c w) {hello : AgentHello} {st : ClusterState}
    (hal : NoAlias t c hello) (idle : w.active (clusterKey hello.tenantId hello.clusterId) = none)
    (hl : w.Loads hello st) : Inv E t c (w.opened hello st) := by
  -- no session of this cluster is there, so none sees its state change
  have hne : ∀ sid s, w.sessions sid = some s →
      s.key ≠ clusterKey hello.tenantId hello.clusterId := by
    intro sid s hs hk
    have := h.active sid s hs
    rw [hk, idle] at this
    cases this
  have hold : ∀ key, key ≠ clusterKey hello.tenantId hello.clusterId →
      (w.opened hello st).persistedThrough key = w.persistedThrough key := by
    intro key hk
    simp only [World.persistedThrough, World.opened, Function.update_of_ne hk]
  have hcov : Covered E w t c ((w.opened hello st).persistedThrough (clusterKey t c)) := by
    by_cases hk : clusterKey hello.tenantId hello.clusterId = clusterKey t c
    · obtain ⟨ht, hc⟩ := hal hk
      simp only [World.persistedThrough, World.opened, hk, Function.update_self, Option.map_some,
        Option.getD_some]
      exact h.loads hl ht hc
    · rw [hold _ (Ne.symm hk)]
      exact h.cluster
  refine { h with cluster := hcov, active := ?_, fresh := ?_, ids := ?_, phase := ?_ }
  · intro sid s hs
    rcases opened_sessions hs with ⟨rfl, rfl⟩ | ⟨-, hs⟩
    · exact Function.update_self ..
    · rw [← h.active sid s hs]
      exact Function.update_of_ne (hne sid s hs) ..
  · intro sid s hs
    rcases opened_sessions hs with ⟨rfl, -⟩ | ⟨-, hs⟩
    · exact Nat.lt_succ_self _
    · exact (h.fresh sid s hs).trans (Nat.lt_succ_self _)
  · intro sid s hs
    rcases opened_sessions hs with ⟨-, rfl⟩ | ⟨-, hs⟩
    · exact hal
    · exact h.ids sid s hs
  · intro sid s hs
    rcases opened_sessions hs with ⟨-, rfl⟩ | ⟨-, hs⟩
    · exact fun ht hc => h.loads hl ht hc
    · exact (h.phase sid s hs).of_same (.same rfl rfl rfl)
        (hold _ (hne sid s hs)) fun _ _ hw => ⟨hw.fresh, hw.queued, hw.closed⟩

theorem inHand_enqueued {q : Queue Batch} {item : Batch} (hq : w.queue.tryEnqueue item = some q)
    {n : ℕ} {b : Batch} (hb : b ∈ { w with queue := q, nextChannel := n }.inHand) :
    b ∈ w.inHand ∨ b = item := by
  have hi := Queue.tryEnqueue_items hq
  unfold World.inHand at hb ⊢
  cases hw : w.worker <;> simp only [hw, hi, List.mem_append, List.mem_singleton] at hb ⊢ <;> tauto

/-- A batch goes into the queue with a channel of its own. -/
theorem Inv.enqueued (h : Inv E t c w) (hs : w.sessions sid = some s)
    (hp : PendingOk E w s p) {now : Timestamp} {q : Queue Batch}
    (hq : w.queue.tryEnqueue (queuedBatch s sid p now w.nextChannel) = some q) :
    Inv E t c ({ w with queue := q, nextChannel := w.nextChannel + 1 }.goto sid s
      (.waiting p w.nextChannel)) := by
  have hlt := Nat.lt_succ_self w.nextChannel
  have hw : Inv E t c { w with queue := q, nextChannel := w.nextChannel + 1 } := by
    refine { h with queued := ?_, closed := ?_, phase := ?_ }
    · intro b hb
      rcases inHand_enqueued hq hb with hb | rfl
      · obtain ⟨ha, channel, hch, hbp⟩ := h.queued b hb
        exact ⟨ha, channel, hch.trans hlt, hbp⟩
      · exact ⟨⟨p.batch, p.persisted, hp.received, hp.valid, hp.suffix⟩, w.nextChannel, hlt, rfl⟩
    · exact fun channel hch => (h.closed channel hch).trans hlt
    · intro sid' s' hs'
      refine (h.phase sid' s' hs').of_same (.same rfl rfl rfl) rfl ?_
      intro p' channel hwait
      refine ⟨hwait.fresh.trans hlt, fun b hb hbp => ?_, hwait.closed⟩
      rcases inHand_enqueued hq hb with hb | rfl
      · exact hwait.queued b hb hbp
      · -- the new batch has a channel that no session waits for yet
        exact absurd (Option.some.inj hbp) (Nat.ne_of_gt hwait.fresh)
  refine hw.goto hs ⟨?_, hlt, ?_, ?_⟩
  · exact hp.keep (by rfl) (by rfl) _
  · intro b hb hbp
    rcases inHand_enqueued hq hb with hb | rfl
    · obtain ⟨-, channel, hch, hbp'⟩ := h.queued b hb
      rw [hbp] at hbp'
      exact absurd (Option.some.inj hbp').symm (Nat.ne_of_lt hch)
    · exact ⟨rfl, rfl, rfl⟩
  · intro hcl
    exact absurd (h.closed _ hcl) (Nat.lt_irrefl _)

/-! ### Steps of the worker -/

/-- Batches move between queue and lease, some are persisted, channels of
persisted ones are closed, and the records grow. -/
theorem Inv.work (h : Inv E t c w) {q : Queue Batch} {closed : List ℕ} {worker : WorkerPhase}
    {stored : List MappedRow} {received : List Received} {log : List Batch}
    (hand : ∀ b ∈ { w with queue := q, worker := worker }.inHand, b ∈ w.inHand)
    (g : Grows w { w with
      queue := q, closed := closed, worker := worker, stored := stored, received := received,
      persisted := log })
    (new : ∀ b ∈ log, b ∈ w.persisted ∨ b ∈ w.inHand ∧
      ∀ o ∈ b.observationSet.observations, RowStored stored b o)
    (hclosed : ∀ channel ∈ closed, channel ∈ w.closed ∨
      ∃ b ∈ w.inHand, b.persisted = some channel ∧ b ∈ log)
    (hlease : ∀ lease pending, worker = .committing lease pending → pending ⊆ lease ∧ lease ⊆ log) :
    Inv E t c { w with
      queue := q, closed := closed, worker := worker, stored := stored, received := received,
      persisted := log } where
  checkpoint := h.checkpoint.grow g
  cluster := h.cluster.grow g
  sent := fun f hf ht hc p hp =>
    (h.sent f hf ht hc p hp).grow g
  rejected := fun f hf ack hack hne =>
    (h.rejected f hf ack hack hne).grow g
  log := by
    intro b hb
    rcases new b hb with hb | ⟨hb, hrows⟩
    · obtain ⟨ha, hr⟩ := h.log b hb
      exact ⟨ha.grow g, fun o ho => (hr o ho).grow g⟩
    · exact ⟨(h.queued b hb).1.grow g, hrows⟩
  queued := fun b hb => by
    obtain ⟨ha, hch⟩ := h.queued b (hand b hb)
    exact ⟨ha.grow g, hch⟩
  closed := by
    intro channel hch
    rcases hclosed channel hch with hch | ⟨b, hb, hbp, -⟩
    · exact h.closed channel hch
    · obtain ⟨-, channel', hlt, hbp'⟩ := h.queued b hb
      rw [hbp] at hbp'
      cases hbp'
      exact hlt
  lease := hlease
  active := h.active
  fresh := h.fresh
  ids := h.ids
  phase := by
    intro sid s hs
    refine (h.phase sid s hs).of_same g rfl fun p channel hwait => ?_
    refine ⟨hwait.fresh, fun b hb => hwait.queued b (hand b hb), fun hch => ?_⟩
    rcases hclosed channel hch with hch | ⟨b, hb, hbp, hbl⟩
    · obtain ⟨b, hb, hcar⟩ := hwait.closed hch
      exact ⟨b, g.persisted hb, hcar⟩
    · exact ⟨b, hbl, hwait.queued b hb hbp⟩

theorem received_mem {batch : ObservationBatch} :
    ⟨s.hello.tenantId, s.hello.clusterId, batch⟩ ∈ (w.receive s batch).received :=
  List.mem_append_right _ (List.mem_singleton_self _)

theorem Inv.receive (h : Inv E t c w) (s : Session) (batch : ObservationBatch) :
    Inv E t c (w.receive s batch) :=
  h.work (fun _ hb => hb) ⟨List.subset_append_left _ _, List.Subset.refl _, List.Subset.refl _⟩
    (fun _ hb => .inl hb) (fun _ hch => .inl hch) h.lease

/-- After a nil error the rows of the leased batches are stored. -/
theorem persisted_rowStored {insert : String → InsertOutcome}
    {stored stored' : List MappedRow} {lease : List Batch}
    (h : persist insert stored lease = (.ok (), stored')) {b : Batch} (hb : b ∈ lease)
    {o : Observation} (ho : o ∈ b.observationSet.observations) : RowStored stored' b o := by
  intro payload hp hi
  have hok : (persist insert stored lease).1 = .ok () := by rw [h]
  obtain ⟨r, hr, hrows⟩ := persist_stored hok hb ho
  obtain ⟨row, rfl⟩ := mapObservation_inventory hp hi hr
  rw [h] at hrows
  exact ⟨row, hr, hrows row rfl⟩

theorem Inv.restarted (h : Inv E t c w) : Inv E t c (w.start E) where
  checkpoint := h.checkpoint
  cluster := covered_zero
  sent := h.sent
  rejected := h.rejected
  log := h.log
  queued := fun _ hb => by cases hb
  closed := fun _ hch => by cases hch
  lease := fun _ _ hw => by cases hw
  active := fun _ _ hs => by cases hs
  fresh := fun _ _ hs => by cases hs
  ids := fun _ _ hs => by cases hs
  phase := fun _ _ hs => by cases hs

/-! ### Whole runs -/

/-- An answer of `handleBatch` announces the watermark it was given, and rejects
only all of a batch that is not valid. -/
theorem handleBatch_answer {n : ℕ} {batch : ObservationBatch} {frame : IngestionToAgent}
    (h : handleBatch E n batch = .answer frame) :
    ∃ ack, frame = .acknowledgement ack ∧ ack.persistedThroughSequence = n ∧
      (ack.rejections ≠ [] → ∃ e, validateBatch E.codec E.config batch = .error e ∧
        ack.batchId = batch.batchId ∧ ack.rejections = rejectionsForBatch batch (rejectionCode e) e) := by
  unfold handleBatch at h
  split at h
  · rename_i e hv
    cases h
    exact ⟨_, rfl, rfl, fun _ => ⟨e, hv, rfl, rfl⟩⟩
  · split at h
    · cases h
      exact ⟨_, rfl, rfl, fun hne => absurd rfl hne⟩
    · split at h
      · cases h
        exact ⟨_, rfl, rfl, fun hne => absurd rfl hne⟩
      · cases h

theorem handleBatch_accept {n : ℕ} {batch : ObservationBatch}
    (h : handleBatch E n batch = .accept p) :
    p = ⟨batch, suffixAfter E.codec batch n, n⟩ ∧ validateBatch E.codec E.config batch = .ok () ∧
      batch.firstSequence ≤ n + 1 ∧ n < batch.lastSequence := by
  unfold handleBatch at h
  split at h
  · cases h
  · rename_i hv
    split at h
    · cases h
    · split at h
      · cases h
      · cases h
        exact ⟨rfl, hv, by omega, by omega⟩

/-- The watermark a session has read is covered. -/
theorem Inv.read (h : Inv E t c w) (ht : s.hello.tenantId = t) (hc : s.hello.clusterId = c) :
    Covered E w t c (w.persistedThrough s.key) := by
  rw [Session.key, ht, hc]
  exact h.cluster

theorem Inv.retry (h : Inv E t c w) (hs : w.sessions sid = some s) (hp : PendingOk E w s p)
    {sent : Bool} : Inv E t c (w.reply sid s p.retryAck sent) := by
  refine h.reply hs (.plain (fun ht hc n hn => ?_) fun ack hack => ?_)
  · cases hn
    rw [← hp.watermark]
    exact h.read ht hc
  · cases hack
    rfl

/-- The watermark goes up to the last number of a persisted batch. -/
theorem Inv.published (h : Inv E t c w) (hs : w.sessions sid = some s) (hp : PendingOk E w s p)
    {b : Batch} (hb : b ∈ w.persisted) (hcar : Carries s p b) {sent : Bool} :
    Inv E t c ((w.advance s.key p.batch.lastSequence).reply sid s p.persistedAck sent) := by
  have hids := h.ids sid s hs
  have hcov : ∀ ht hc, Covered E w t c p.batch.lastSequence := fun ht hc => h.extend hp hb hcar ht hc
  have hkey : s.key = clusterKey t c → Covered E w t c p.batch.lastSequence := fun hk =>
    hcov (hids hk).1 (hids hk).2
  have hframe : ∀ w', Grows w w' → FrameOk E t c w' s p.persistedAck := by
    refine fun w' g => .plain (fun ht hc n hn => ?_) fun ack hack => ?_
    · cases hn
      exact (hcov ht hc).grow g
    · cases hack
      rfl
  -- the session leaves `handleBatch` before or after the watermark moves: it is the same world
  cases sent
  · refine ((h.finish hs).advance hkey ?_).send (hframe _ (.same rfl rfl rfl))
    intro sid' s' hs' hk
    obtain ⟨hne, hs'⟩ := finish_sessions hs'
    exact absurd (h.unique hs' hs hk) hne
  · have hr : Inv E t c (w.goto sid s .receiving) := h.goto hs trivial
    refine (hr.advance hkey ?_).send (hframe _ (.same rfl rfl rfl))
    intro sid' s' hs' hk
    rcases goto_sessions hs' with ⟨-, rfl⟩ | ⟨hne, hs'⟩
    · rfl
    · exact absurd (h.unique hs' hs hk) hne

/-- The hello of the action, if it opens a stream, has no alias of `(t, c)`. -/
def Action.Unaliased (t c : String) : Action → Prop
  | .connect (.hello hello) _ _ => NoAlias t c hello
  | _ => True

theorem Inv.leased (h : Inv E t c w) {lease : List Batch} {q : Queue Batch} (idle : w.worker = .idle)
    (hq : w.queue.acquire E.batchSize = some (lease, q)) :
    Inv E t c { w with queue := q, worker := .persisting lease } := by
  refine h.work (fun b hb => ?_) (.same rfl rfl rfl) (fun b hb => .inl hb)
    (fun channel hch => .inl hch) (fun _ _ hw => by cases hw)
  simp only [World.inHand, Queue.acquire_items hq] at hb
  simpa only [World.inHand, idle] using hb

/-- `Persist` returned nil: the lease joins the batches that are persisted. -/
theorem Inv.persistedLease (h : Inv E t c w) {insert : String → InsertOutcome} {lease : List Batch}
    {stored : List MappedRow} (hp : w.worker = .persisting lease)
    (result : persist insert w.stored lease = (.ok (), stored)) :
    Inv E t c { w with
      stored := stored, worker := .committing lease lease, persisted := w.persisted ++ lease } := by
  have hkeep := persist_keeps insert w.stored lease
  rw [result] at hkeep
  refine h.work (fun b hb => ?_) ⟨List.Subset.refl _, List.subset_append_left _ _, hkeep⟩
    (fun b hb => ?_) (fun channel hch => .inl hch) (fun _ _ hw => ?_)
  · simpa only [World.inHand, hp] using hb
  · rcases List.mem_append.mp hb with hb | hb
    · exact .inl hb
    · refine .inr ⟨?_, fun o ho => persisted_rowStored result hb ho⟩
      simp only [World.inHand, hp]
      exact List.mem_append_left _ hb
  · cases hw
    exact ⟨List.Subset.refl _, List.subset_append_right _ _⟩

theorem Inv.persistFailed (h : Inv E t c w) {insert : String → InsertOutcome} {lease : List Batch}
    {error : PersistError} {stored : List MappedRow} {after : WorkerPhase}
    (hp : w.worker = .persisting lease)
    (result : persist insert w.stored lease = (.error error, stored))
    (next : after = .stopped ∨ after = .idle) :
    Inv E t c { w with stored := stored, queue := w.queue.retry lease, worker := after } := by
  have hkeep := persist_keeps insert w.stored lease
  rw [result] at hkeep
  refine h.work (fun b hb => ?_) ⟨List.Subset.refl _, List.Subset.refl _, hkeep⟩
    (fun b hb => .inl hb) (fun channel hch => .inl hch) (fun _ _ hw => ?_)
  · rcases next with rfl | rfl <;> simpa only [World.inHand, hp, Queue.retry_items] using hb
  · rcases next with rfl | rfl <;> cases hw

/-- The channel of a leased item is closed; by the invariant the item is persisted. -/
theorem Inv.marked (h : Inv E t c w) {lease pending : List Batch} {item : Batch}
    (hp : w.worker = .committing lease (item :: pending)) :
    Inv E t c { w with
      closed := w.closed ++ item.persisted.toList, worker := .committing lease pending } := by
  obtain ⟨hsub, hlog⟩ := h.lease _ _ hp
  have hitem : item ∈ lease := hsub (List.mem_cons_self ..)
  refine h.work (fun b hb => ?_) (.same rfl rfl rfl) (fun b hb => .inl hb)
    (fun channel hch => ?_) (fun _ _ hw => ?_)
  · simpa only [World.inHand, hp] using hb
  · rcases List.mem_append.mp hch with hch | hch
    · exact .inl hch
    · refine .inr ⟨item, ?_, Option.mem_toList.mp hch, hlog hitem⟩
      simp only [World.inHand, hp]
      exact List.mem_append_left _ hitem
  · cases hw
    exact ⟨fun b hb => hsub (List.mem_cons_of_mem _ hb), hlog⟩

/-- **One step keeps the invariant.** -/
theorem Inv.step (h : Inv E t c w) {a : Action} (ha : a.Unaliased t c) (hs : Step E w a w') :
    Inv E t c w' := by
  cases hs with
  | refused => exact h
  | loadFailed => exact h.noteCluster _
  | acquired _ idle state => exact h.opened ha idle state
  | greeted here hp =>
    have hph := h.phase _ _ here
    simp only [PhaseOk, hp] at hph
    refine h.reply here (.plain (fun ht hc n hn => ?_) fun ack hack => ?_)
    · cases hn
      exact hph ht hc
    · cases hack
  | @answered sid s batch frame sent here hp decision =>
    obtain ⟨ack, rfl, hn, hrej⟩ := handleBatch_answer decision
    refine (h.receive s batch).reply here ⟨fun ht hc n' hn' => ?_, fun ack' hack hne => ?_⟩
    · cases hn'
      rw [hn]
      exact (h.receive s batch).read ht hc
    · cases hack
      obtain ⟨e, hv, hid, hrs⟩ := hrej hne
      exact ⟨batch, e, received_mem, hv, hid, hrs⟩
  | @accepted sid s batch p sent here hp decision =>
    obtain ⟨rfl, hv, hf, hl⟩ := handleBatch_accept decision
    exact (h.receive s batch).goto here ⟨received_mem, hv, rfl, rfl, hf, hl⟩
  | left here => exact h.finish here
  | below here hp =>
    have hpo := h.pendingOk here (by rw [hp]; rfl)
    exact h.goto here (hpo.keep (by rfl) (by rfl) _)
  | above here hp =>
    have hpo := h.pendingOk here (by rw [hp]; rfl)
    exact h.flow.goto here (hpo.keep (by rfl) (by rfl) _)
  | flowLeft here => exact h.flow.finish here
  | @archived sid s p _ now _ here hp =>
    have hpo := h.pendingOk here (by rw [hp]; rfl)
    exact (h.archived (w.archive ++ [archiveRecord s sid p now])).goto here (hpo.keep (by rfl) (by rfl) _)
  | archiveFailed here hp | full here hp | saveFailed here hp =>
    exact h.retry here (h.pendingOk here (by rw [hp]; rfl))
  | enqueued here hp hq => exact h.enqueued here (h.pendingOk here (by rw [hp]; rfl)) hq
  | fullFlow here hp =>
    have hpo := h.pendingOk here (by rw [hp]; rfl)
    exact h.flow.retry here (hpo.keep (by rfl) (by rfl) _)
  | notified here hp closed =>
    have hph := h.phase _ _ here
    simp only [PhaseOk, hp] at hph
    obtain ⟨b, hb, hcar⟩ := hph.2.closed closed
    exact h.goto here ⟨hph.1.keep (by rfl) (by rfl) _, b, hb, hcar.tenant, hcar.cluster, hcar.observations⟩
  | saved here hp =>
    have hpo := h.pendingOk here (by rw [hp]; rfl)
    obtain ⟨b, hb, hcar⟩ := h.carried here (.inl hp)
    refine (h.save fun ht hc => h.extend hpo hb hcar ht hc).goto here ?_
    exact ⟨hpo.keep (by rfl) (by rfl) _, b, hb, hcar.tenant, hcar.cluster, hcar.observations⟩
  | saveFailedLate here hp =>
    have hpo := h.pendingOk here (by rw [hp]; rfl)
    obtain ⟨b, hb, hcar⟩ := h.carried here (.inl hp)
    refine (h.save fun ht hc => h.extend hpo hb hcar ht hc).retry here ?_
    exact hpo.keep (by rfl) (by rfl) _
  | published here hp =>
    obtain ⟨b, hb, hcar⟩ := h.carried here (.inr hp)
    exact h.published here (h.pendingOk here (by rw [hp]; rfl)) hb hcar
  | leased idle hq => exact h.leased idle hq
  | persisted hp result => exact h.persistedLease hp result
  | persistFailed hp result next => exact h.persistFailed hp result next
  | marked hp => exact h.marked hp
  | committed hp =>
    refine h.work (fun b hb => ?_) (.same rfl rfl rfl) (fun b hb => .inl hb)
      (fun channel hch => .inl hch) (fun _ _ hw => by cases hw)
    simp only [World.inHand, hp]
    exact List.mem_append_right _ hb
  | stopped hp =>
    refine h.work (fun b hb => ?_) (.same rfl rfl rfl) (fun b hb => .inl hb)
      (fun channel hch => .inl hch) (fun _ _ hw => by cases hw)
    simpa only [World.inHand, hp] using hb
  | restarted => exact h.restarted

theorem inv_initial (E : Env) {t c : String} {checkpoints : String → String → ℕ}
    (h : checkpoints t c = 0) : Inv E t c (World.initial E checkpoints) where
  checkpoint := by
    rw [show (World.initial E checkpoints).checkpoints t c = 0 from h]
    exact covered_zero
  cluster := covered_zero
  sent := fun _ hf => by cases hf
  rejected := fun _ hf => by cases hf
  log := fun _ hb => by cases hb
  queued := fun _ hb => by cases hb
  closed := fun _ hch => by cases hch
  lease := fun _ _ hw => by cases hw
  active := fun _ _ hs => by cases hs
  fresh := fun _ _ hs => by cases hs
  ids := fun _ _ hs => by cases hs
  phase := fun _ _ hs => by cases hs

/-- The ids of the hello that an action brings contain no NUL byte. -/
def Action.NulFree : Action → Prop
  | .connect (.hello hello) _ _ =>
    KubeCost.NulFree hello.tenantId ∧ KubeCost.NulFree hello.clusterId
  | _ => True

theorem Action.NulFree.unaliased {a : Action} (h : a.NulFree) (ht : KubeCost.NulFree t) :
    a.Unaliased t c := by
  unfold Action.Unaliased
  split
  · exact clusterKey_inj h.1 ht
  · exact trivial

/-- **Watermark soundness.** In every run over an empty store, with any failures,
cancellations and restarts, every number up to a boundary that was announced to a
cluster belongs to an observation of an accepted batch of that cluster on which
`Persist` returned nil, and the row of an inventory observation is stored. -/
theorem watermark_sound
    (h : Machine.Reach (step E) (fun _ a => a.NulFree) (World.initial E fun _ _ => 0) w)
    {f : Sent} (hf : f ∈ w.sent) (ht : KubeCost.NulFree f.tenantId) {n : ℕ}
    (hn : f.frame.watermark = some n) : Covered E w f.tenantId f.clusterId n := by
  have inv : Inv E f.tenantId f.clusterId w := by
    refine h.invariant (inv_initial E rfl) fun w₁ a w₂ hw ha hstep => ?_
    exact hw.step (ha.unaliased ht) (step_cases hstep)
  exact inv.sent f hf rfl rfl n hn

/-! ### A run -/

/-- The encoding of an observation of the run: a small number, the event id, and the
record of a cluster with the operation upsert. -/
def plainMarshal (o : Observation) : List UInt8 :=
  (if o.sequence = 0 then [] else [0x08, UInt8.ofNat o.sequence]) ++
    (if o.eventId = "" then [] else shortField [0x12] (utf8 o.eventId)) ++
    shortField [0xa2, 0x01] (shortField [0x0a] [0x08, 0x01])

def plainMarshalBatch (b : ObservationBatch) : List UInt8 :=
  shortField [0x0a] (utf8 b.batchId) ++ [0x10, UInt8.ofNat b.firstSequence] ++
    [0x18, UInt8.ofNat b.lastSequence] ++ (if b.createdAt = none then [] else shortField [0x22] []) ++
    shortField [0x2a] b.payloadChecksum ++
    b.observations.flatMap fun o => shortField [0x32] (plainMarshal o)

def plainCodec : Codec where
  marshal := fun o => some (plainMarshal o)
  size := fun b => (plainMarshalBatch b).length

def plainEnv : Env where
  codec := plainCodec
  config := ⟨2, 1000, 0, 0, 80⟩
  queueCapacity := 1
  batchSize := 1

def plainHello : AgentHello :=
  { tenantId := "t", clusterId := "c", agentInstanceId := "a",
    supportedProtocolVersions := [⟨1, 0⟩] }

def plainObservation (n : ℕ) : Observation :=
  { sequence := n, eventId := "e",
    payload := some (.clusterInventory { record := some ⟨.upsert, "", false⟩ }) }

def plainBatch : ObservationBatch :=
  { batchId := "b", firstSequence := 1, lastSequence := 1,
    payloadChecksum := batchChecksum plainCodec [plainObservation 1],
    observations := [plainObservation 1] }

/-- One session brings one batch through to its acknowledgement. -/
def plainRun : List Action :=
  [.connect (.hello plainHello) true true, .greet 0 true, .recv 0 (some (.batch plainBatch)) true,
    .checkDepth 0 true, .archive 0 ⟨0, 0⟩ true true, .enqueue 0 true true, .lease,
    .persist (fun _ => .ok), .markPersisted, .commit, .notified 0, .save 0 .ok true,
    .publish 0 true]

theorem watermark_sound_plainRun : ∃ w : World, ∃ f ∈ w.sent,
    f = ⟨"t", "c", acknowledgement "b" 1 1 [] []⟩ ∧ Durable plainEnv w "t" "c" 1 := by
  have hsent : (Machine.run (step plainEnv) (World.initial plainEnv fun _ _ => 0) plainRun).map
      (·.sent) = some [⟨"t", "c", serverHello 0 0 plainEnv.config⟩,
        ⟨"t", "c", acknowledgement "b" 1 1 [] []⟩] := by decide +kernel
  obtain ⟨w, hw, hs⟩ := Option.map_eq_some_iff.mp hsent
  have hok : ∀ a ∈ plainRun, ∀ _ : World, a.NulFree := by
    have hids : KubeCost.NulFree plainHello.tenantId ∧ KubeCost.NulFree plainHello.clusterId := by
      decide
    simp [plainRun, Action.NulFree, hids]
  have hf : (⟨"t", "c", acknowledgement "b" 1 1 [] []⟩ : Sent) ∈ w.sent := by
    rw [hs]
    exact List.mem_cons_of_mem _ (List.mem_singleton_self _)
  refine ⟨w, _, hf, rfl, ?_⟩
  exact watermark_sound (.of_run hok hw) hf (by decide) rfl 1 (Nat.le_refl 1) (Nat.le_refl 1)

end Ingestion
end KubeCost
