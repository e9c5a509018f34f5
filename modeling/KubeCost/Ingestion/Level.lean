/-
# The watermark never goes back

The watermark of a cluster is what `acquire` would return: the state in memory,
or the checkpoint when none is loaded. No step lowers it, a restart included
(`Level.step`), and every boundary announced to the cluster is at most the
watermark of every later moment (the field `sent`). A restart is the reason the
checkpoint is saved before the state in memory moves: the state in memory is
never above the checkpoint.
-/
import KubeCost.Ingestion.Watermark

namespace KubeCost
namespace Ingestion

structure Level (t c : String) (w : World) : Prop where
  loaded : ∀ sid s, w.sessions sid = some s → s.key = clusterKey t c →
    ∃ n, w.clusters (clusterKey t c) = some ⟨n, true⟩
  saved : ∀ n, w.clusters (clusterKey t c) = some ⟨n, true⟩ → n ≤ w.checkpoints t c
  publishing : ∀ sid s p, w.sessions sid = some s → s.key = clusterKey t c →
    s.phase = .publishing p → p.batch.lastSequence ≤ w.checkpoints t c
  greeting : ∀ sid s n, w.sessions sid = some s → s.key = clusterKey t c →
    s.phase = .greeting n → n ≤ w.watermark t c
  sent : ∀ f ∈ w.sent, f.tenantId = t → f.clusterId = c →
    ∀ n, f.frame.watermark = some n → n ≤ w.watermark t c

variable {E : Env} {t c : String} {w w' : World} {sid : ℕ} {s : Session} {p : Pending}

theorem watermark_loaded {n : ℕ} (h : w.clusters (clusterKey t c) = some ⟨n, true⟩) :
    w.watermark t c = n := by
  simp only [World.watermark, h, ↓reduceIte]

theorem persistedThrough_loaded {n : ℕ} (h : w.clusters (clusterKey t c) = some ⟨n, true⟩) :
    w.persistedThrough (clusterKey t c) = n := by
  simp only [World.persistedThrough, h, Option.map_some, Option.getD_some]

theorem watermark_congr (hc : w'.clusters (clusterKey t c) = w.clusters (clusterKey t c))
    (hp : w'.checkpoints t c = w.checkpoints t c) : w'.watermark t c = w.watermark t c := by
  simp only [World.watermark, hc, hp]

/-- The watermark is at most the checkpoint. -/
theorem Level.watermark_le (h : Level t c w) : w.watermark t c ≤ w.checkpoints t c := by
  unfold World.watermark
  split
  · rename_i st hst
    obtain ⟨n, loaded⟩ := st
    cases loaded
    · exact Nat.le_refl _
    · exact h.saved n hst
  · exact Nat.le_refl _

/-- The watermark of a cluster with a session is the one in memory. -/
theorem Level.watermark_session (h : Level t c w) (hs : w.sessions sid = some s)
    (hk : s.key = clusterKey t c) : w.watermark t c = w.persistedThrough (clusterKey t c) := by
  obtain ⟨n, hn⟩ := h.loaded sid s hs hk
  rw [watermark_loaded hn, persistedThrough_loaded hn]

/-- The parts that the level is about stay as they are. -/
theorem Level.of_same (h : Level t c w)
    (hc : w'.clusters (clusterKey t c) = w.clusters (clusterKey t c))
    (hp : w'.checkpoints t c = w.checkpoints t c) (hsent : w'.sent = w.sent)
    (hs : ∀ sid s, w'.sessions sid = some s → w.sessions sid = some s) : Level t c w' where
  loaded := fun sid s hs' hk => by
    rw [hc]
    exact h.loaded sid s (hs sid s hs') hk
  saved := fun n hn => by
    rw [hp]
    exact h.saved n (by rw [← hc]; exact hn)
  publishing := fun sid s p hs' hk hph => by
    rw [hp]
    exact h.publishing sid s p (hs sid s hs') hk hph
  greeting := fun sid s n hs' hk hph => by
    rw [watermark_congr hc hp]
    exact h.greeting sid s n (hs sid s hs') hk hph
  sent := fun f hf ht hcl n hn => by
    rw [watermark_congr hc hp]
    rw [hsent] at hf
    exact h.sent f hf ht hcl n hn

theorem Level.finish (h : Level t c w) : Level t c (w.finish sid s) :=
  h.of_same rfl rfl rfl fun _ _ hs => (finish_sessions hs).2

theorem Level.goto (h : Level t c w) (hs : w.sessions sid = some s) {phase : Phase}
    (hpub : ∀ p, s.key = clusterKey t c → phase = .publishing p →
      p.batch.lastSequence ≤ w.checkpoints t c)
    (hgreet : ∀ n, phase ≠ .greeting n) : Level t c (w.goto sid s phase) where
  loaded := fun sid' s' hs' hk => by
    rcases goto_sessions hs' with ⟨-, rfl⟩ | ⟨-, hs'⟩
    · exact h.loaded sid s hs hk
    · exact h.loaded sid' s' hs' hk
  saved := h.saved
  publishing := fun sid' s' p hs' hk hph => by
    rcases goto_sessions hs' with ⟨-, rfl⟩ | ⟨-, hs'⟩
    · exact hpub p hk hph
    · exact h.publishing sid' s' p hs' hk hph
  greeting := fun sid' s' n hs' hk hph => by
    rcases goto_sessions hs' with ⟨-, rfl⟩ | ⟨-, hs'⟩
    · exact absurd hph (hgreet n)
    · exact h.greeting sid' s' n hs' hk hph
  sent := h.sent

/-- A session goes on within `handleBatch`, short of the save. -/
theorem Level.goes (h : Level t c w) (hs : w.sessions sid = some s) {phase : Phase}
    (hpub : ∀ p, phase ≠ .publishing p) (hgreet : ∀ n, phase ≠ .greeting n) :
    Level t c (w.goto sid s phase) :=
  h.goto hs (fun p _ hph => absurd hph (hpub p)) hgreet

theorem Level.send (h : Level t c w) {frame : IngestionToAgent}
    (hf : s.hello.tenantId = t → s.hello.clusterId = c →
      ∀ n, frame.watermark = some n → n ≤ w.watermark t c) : Level t c (w.send s frame) where
  loaded := h.loaded
  saved := h.saved
  publishing := h.publishing
  greeting := h.greeting
  sent := fun f hmem ht hc n hn => by
    rcases List.mem_append.mp hmem with hmem | hmem
    · exact h.sent f hmem ht hc n hn
    · obtain rfl := List.mem_singleton.mp hmem
      exact hf ht hc n hn

theorem Level.flow (h : Level t c w) {delay : ℤ} {reason : String} :
    Level t c (w.send s (flowControl delay reason)) :=
  h.send fun _ _ n hn => by cases hn

theorem Level.reply (h : Level t c w) (hs : w.sessions sid = some s) {frame : IngestionToAgent}
    {sent : Bool} (hf : s.hello.tenantId = t → s.hello.clusterId = c →
      ∀ n, frame.watermark = some n → n ≤ w.watermark t c) :
    Level t c (w.reply sid s frame sent) := by
  have h' := h.send hf
  cases sent
  · exact h'.finish
  · exact h'.goes hs (fun _ hph => by cases hph) (fun _ hph => by cases hph)

theorem key_eq (ht : s.hello.tenantId = t) (hc : s.hello.clusterId = c) :
    s.key = clusterKey t c := by
  rw [Session.key, ht, hc]

/-- The watermark that `handleBatch` read is the cluster's. -/
theorem Level.retry (h : Level t c w) (hs : w.sessions sid = some s) (hp : PendingOk E w s p)
    {sent : Bool} : Level t c (w.reply sid s p.retryAck sent) := by
  refine h.reply hs fun ht hc n hn => ?_
  cases hn
  have hk := key_eq ht hc
  rw [h.watermark_session hs hk, ← hk]
  exact Nat.le_of_eq hp.watermark.symm

theorem save_checkpoint_ne {n : ℕ} (h : ¬ (s.hello.tenantId = t ∧ s.hello.clusterId = c)) :
    (w.save s n).checkpoints t c = w.checkpoints t c := by
  by_cases ht : s.hello.tenantId = t
  · have hc : c ≠ s.hello.clusterId := fun hc => h ⟨ht, hc.symm⟩
    simp only [World.save, ht, Function.update_self, Function.update_of_ne hc]
  · simp only [World.save, Function.update_of_ne (Ne.symm ht)]

theorem save_checkpoint {n : ℕ} (ht : s.hello.tenantId = t) (hc : s.hello.clusterId = c) :
    (w.save s n).checkpoints t c = n := by
  subst ht hc
  simp only [World.save, Function.update_self]

/-- The checkpoint moves up from the watermark in memory, which stays. -/
theorem Level.save (h : Level t c w) (inv : Inv E t c w) (hs : w.sessions sid = some s)
    (hph : s.phase = .saving p) (hp : PendingOk E w s p) :
    Level t c (w.save s p.batch.lastSequence) ∧
      (w.save s p.batch.lastSequence).watermark t c = w.watermark t c := by
  by_cases hids : s.hello.tenantId = t ∧ s.hello.clusterId = c
  case neg =>
    exact ⟨h.of_same rfl (save_checkpoint_ne hids) rfl fun _ _ hs => hs,
      watermark_congr rfl (save_checkpoint_ne hids)⟩
  obtain ⟨ht, hc⟩ := hids
  have hk := key_eq ht hc
  obtain ⟨n, hn⟩ := h.loaded sid s hs hk
  have hlt : n < p.batch.lastSequence := by
    have hw := hp.watermark
    rw [hk, persistedThrough_loaded hn] at hw
    have := hp.last
    omega
  have hmark : (w.save s p.batch.lastSequence).watermark t c = w.watermark t c := by
    rw [watermark_loaded hn]
    exact watermark_loaded hn
  refine ⟨⟨h.loaded, fun m hm => ?_, fun sid' s' p' hs' hk' hph' => ?_,
    fun sid' s' m hs' hk' hph' => ?_, fun f hf ht' hc' m hm => ?_⟩, hmark⟩
  · rw [save_checkpoint ht hc]
    cases hn.symm.trans hm
    exact Nat.le_of_lt hlt
  · -- the only session of the cluster is the one that saves
    obtain rfl := inv.unique hs' hs (hk'.trans hk.symm)
    cases hs.symm.trans hs'
    cases hph.symm.trans hph'
  · rw [hmark]
    exact h.greeting sid' s' m hs' hk' hph'
  · rw [hmark]
    exact h.sent f hf ht' hc' m hm

theorem advance_clusters {key : String} {n m : ℕ} (h : w.clusters key = some ⟨n, true⟩) :
    (w.advance key m).clusters key = some ⟨m, true⟩ := by
  simp only [World.advance, Function.update_self, h, Option.map_some]

/-- The watermark in memory moves up to the checkpoint. -/
theorem Level.published (h : Level t c w) (hs : w.sessions sid = some s)
    (hph : s.phase = .publishing p) (hp : PendingOk E w s p) {sent : Bool} :
    Level t c ((w.advance s.key p.batch.lastSequence).reply sid s p.persistedAck sent) ∧
    w.watermark t c ≤
      ((w.advance s.key p.batch.lastSequence).reply sid s p.persistedAck sent).watermark t c := by
  have hreply : ∀ (w : World) frame,
      (w.reply sid s frame sent).watermark t c = w.watermark t c := by
    intro w frame
    cases sent <;> rfl
  by_cases hk : s.key = clusterKey t c
  case neg =>
    have hclusters : (w.advance s.key p.batch.lastSequence).clusters (clusterKey t c) =
        w.clusters (clusterKey t c) := Function.update_of_ne (Ne.symm hk) ..
    have h' : Level t c (w.advance s.key p.batch.lastSequence) :=
      h.of_same hclusters rfl rfl fun _ _ hs => hs
    refine ⟨h'.reply hs fun ht hc => absurd (key_eq ht hc) hk, ?_⟩
    have hmark : (w.advance s.key p.batch.lastSequence).watermark t c = w.watermark t c :=
      watermark_congr hclusters rfl
    rw [hreply, hmark]
  obtain ⟨n, hn⟩ := h.loaded sid s hs hk
  have hlt : n < p.batch.lastSequence := by
    have hw := hp.watermark
    rw [hk, persistedThrough_loaded hn] at hw
    have := hp.last
    omega
  have hadv : (w.advance s.key p.batch.lastSequence).clusters (clusterKey t c) =
      some ⟨p.batch.lastSequence, true⟩ := by
    rw [hk]
    exact advance_clusters hn
  have hle : w.watermark t c ≤ (w.advance s.key p.batch.lastSequence).watermark t c := by
    rw [watermark_loaded hn, watermark_loaded hadv]
    exact Nat.le_of_lt hlt
  have h' : Level t c (w.advance s.key p.batch.lastSequence) := by
    refine ⟨fun _ _ _ _ => ⟨_, hadv⟩, fun m hm => ?_, h.publishing,
      fun sid' s' m hs' hk' hph' => ?_, fun f hf ht hc m hm => ?_⟩
    · cases hadv.symm.trans hm
      exact h.publishing sid s p hs hk hph
    · exact (h.greeting sid' s' m hs' hk' hph').trans hle
    · exact (h.sent f hf ht hc m hm).trans hle
  refine ⟨h'.reply hs fun ht hc m hm => ?_, ?_⟩
  · cases hm
    exact Nat.le_of_eq (watermark_loaded hadv).symm
  · rw [hreply]
    exact hle

theorem Level.noteCluster (h : Level t c w) (key : String) :
    Level t c (w.noteCluster key) ∧ (w.noteCluster key).watermark t c = w.watermark t c := by
  by_cases hk : key = clusterKey t c
  case neg =>
    have hclusters : (w.noteCluster key).clusters (clusterKey t c) =
        w.clusters (clusterKey t c) := Function.update_of_ne (Ne.symm hk) ..
    exact ⟨h.of_same hclusters rfl rfl fun _ _ hs => hs, watermark_congr hclusters rfl⟩
  subst hk
  cases hc : w.clusters (clusterKey t c) with
  | some st =>
    have hclusters : (w.noteCluster (clusterKey t c)).clusters (clusterKey t c) =
        w.clusters (clusterKey t c) := by
      simp only [World.noteCluster, hc, Option.getD_some, Function.update_self]
    exact ⟨h.of_same hclusters rfl rfl fun _ _ hs => hs, watermark_congr hclusters rfl⟩
  | none =>
    -- the new entry is empty and not loaded: the checkpoint still counts
    have hclusters : (w.noteCluster (clusterKey t c)).clusters (clusterKey t c) =
        some ⟨0, false⟩ := by
      simp only [World.noteCluster, hc, Option.getD_none, Function.update_self]
    have hmark : (w.noteCluster (clusterKey t c)).watermark t c = w.watermark t c := by
      simp only [World.watermark, hclusters, hc]
      rfl
    refine ⟨⟨fun sid s hs hk => ?_, fun n hn => ?_, h.publishing, ?_, ?_⟩, hmark⟩
    · obtain ⟨n, hn⟩ := h.loaded sid s hs hk
      rw [hc] at hn
      cases hn
    · rw [hclusters] at hn
      cases hn
    · rw [hmark]
      exact h.greeting
    · rw [hmark]
      exact h.sent

theorem loads_watermark {hello : AgentHello} {st : ClusterState} (h : w.Loads hello st) :
    st = ⟨w.watermark hello.tenantId hello.clusterId, true⟩ := by
  obtain ⟨n, loaded⟩ := st
  rcases h with ⟨hst, rfl⟩ | ⟨hl, hst⟩
  · rw [watermark_loaded hst]
  · cases hst
    unfold World.watermark
    split
    · rename_i st hc
      rw [hc, Option.getD_some] at hl
      rw [hl]
      rfl
    · rfl

theorem Level.opened (h : Level t c w) {hello : AgentHello} {st : ClusterState}
    (hal : NoAlias t c hello) (hl : w.Loads hello st) :
    Level t c (w.opened hello st) ∧ (w.opened hello st).watermark t c = w.watermark t c := by
  have hst := loads_watermark hl
  have split : ∀ {sid s}, (w.opened hello st).sessions sid = some s →
      s = ⟨hello, .greeting st.persistedThrough⟩ ∨ w.sessions sid = some s :=
    fun hs => (opened_sessions hs).imp And.right And.right
  by_cases hk : clusterKey hello.tenantId hello.clusterId = clusterKey t c
  case neg =>
    have hclusters : (w.opened hello st).clusters (clusterKey t c) =
        w.clusters (clusterKey t c) := Function.update_of_ne (Ne.symm hk) ..
    have hmark : (w.opened hello st).watermark t c = w.watermark t c :=
      watermark_congr hclusters rfl
    have hother : ∀ {sid s}, (w.opened hello st).sessions sid = some s → s.key = clusterKey t c →
        w.sessions sid = some s := by
      intro sid s hs hks
      rcases split hs with rfl | hs
      · exact absurd hks hk
      · exact hs
    refine ⟨⟨fun sid s hs hks => ?_, fun n hn => ?_, fun sid s p hs hks hph => ?_,
      fun sid s n hs hks hph => ?_, ?_⟩, hmark⟩
    · rw [hclusters]
      exact h.loaded sid s (hother hs hks) hks
    · rw [hclusters] at hn
      exact h.saved n hn
    · exact h.publishing sid s p (hother hs hks) hks hph
    · rw [hmark]
      exact h.greeting sid s n (hother hs hks) hks hph
    · rw [hmark]
      exact h.sent
  obtain ⟨rfl, rfl⟩ := hal hk
  have hclusters : (w.opened hello st).clusters (clusterKey hello.tenantId hello.clusterId) =
      some ⟨w.watermark hello.tenantId hello.clusterId, true⟩ := by
    rw [← hst]
    exact Function.update_self ..
  have hmark := watermark_loaded hclusters
  refine ⟨⟨fun _ _ _ _ => ⟨_, hclusters⟩, fun n hn => ?_, fun sid s p hs hks hph => ?_,
    fun sid s n hs hks hph => ?_, ?_⟩, hmark⟩
  · cases hclusters.symm.trans hn
    exact h.watermark_le
  · rcases split hs with rfl | hs
    · cases hph
    · exact h.publishing sid s p hs hks hph
  · rw [hmark]
    rcases split hs with rfl | hs
    · cases hph
      rw [hst]
    · exact h.greeting sid s n hs hks hph
  · rw [hmark]
    exact h.sent

theorem Level.restarted (h : Level t c w) :
    Level t c (w.start E) ∧ w.watermark t c ≤ (w.start E).watermark t c := by
  have hle : w.watermark t c ≤ (w.start E).watermark t c := h.watermark_le
  refine ⟨⟨fun _ _ hs => ?_, fun _ hn => ?_, fun _ _ _ hs => ?_, fun _ _ _ hs => ?_,
    fun f hf ht hc n hn => (h.sent f hf ht hc n hn).trans hle⟩, hle⟩
  · cases hs
  · cases hn
  · cases hs
  · cases hs

theorem level_initial (checkpoints : String → String → ℕ) :
    Level t c (World.initial E checkpoints) where
  loaded := fun _ _ hs => by cases hs
  saved := fun _ hn => by cases hn
  publishing := fun _ _ _ hs => by cases hs
  greeting := fun _ _ _ hs => by cases hs
  sent := fun _ hf => by cases hf

/-- **No step lowers the watermark**, and every announced boundary stays at or
below it. -/
theorem Level.step (h : Level t c w) (inv : Inv E t c w) {a : Action} (ha : a.Unaliased t c)
    (hs : Step E w a w') : Level t c w' ∧ w.watermark t c ≤ w'.watermark t c := by
  have hreply : ∀ (w : World) {sid s frame sent},
      (w.reply sid s frame sent).watermark t c = w.watermark t c := by
    intro w sid s frame sent
    cases sent <;> rfl
  cases hs with
  | refused => exact ⟨h, Nat.le_refl _⟩
  | loadFailed =>
    obtain ⟨h', hm⟩ := h.noteCluster _
    exact ⟨h', Nat.le_of_eq hm.symm⟩
  | acquired _ _ state =>
    obtain ⟨h', hm⟩ := h.opened ha state
    exact ⟨h', Nat.le_of_eq hm.symm⟩
  | greeted here hp =>
    refine ⟨h.reply here fun ht hc n hn => ?_, Nat.le_of_eq (hreply w).symm⟩
    cases hn
    exact h.greeting _ _ _ here (key_eq ht hc) hp
  | @answered sid s batch frame sent here hp decision =>
    obtain ⟨ack, rfl, hn, -⟩ := handleBatch_answer decision
    have h' : Level t c (w.receive s batch) := h.of_same rfl rfl rfl fun _ _ hs => hs
    refine ⟨h'.reply here fun ht hc n hn' => ?_, Nat.le_of_eq (hreply (w.receive s batch)).symm⟩
    cases hn'
    have hk := key_eq ht hc
    rw [hn, hk]
    exact Nat.le_of_eq (h.watermark_session here hk).symm
  | @accepted sid s batch p sent here hp decision =>
    have h' : Level t c (w.receive s batch) := h.of_same rfl rfl rfl fun _ _ hs => hs
    exact ⟨h'.goes here (fun _ hph => by cases hph) (fun _ hph => by cases hph), Nat.le_refl _⟩
  | left here => exact ⟨h.finish, Nat.le_refl _⟩
  | below here | notified here =>
    exact ⟨h.goes here (fun _ hph => by cases hph) (fun _ hph => by cases hph), Nat.le_refl _⟩
  | above here =>
    exact ⟨h.flow.goes here (fun _ hph => by cases hph) (fun _ hph => by cases hph), Nat.le_refl _⟩
  | flowLeft here => exact ⟨h.flow.finish, Nat.le_refl _⟩
  | @archived sid s p _ now _ here =>
    have h' : Level t c { w with archive := w.archive ++ [archiveRecord s sid p now] } :=
      h.of_same rfl rfl rfl fun _ _ hs => hs
    exact ⟨h'.goes here (fun _ hph => by cases hph) (fun _ hph => by cases hph), Nat.le_refl _⟩
  | archiveFailed here hp | full here hp | saveFailed here hp =>
    have hpo := inv.pendingOk here (by rw [hp]; rfl)
    exact ⟨h.retry here hpo, Nat.le_of_eq (hreply w).symm⟩
  | @enqueued sid s p _ now q _ _ here =>
    have h' : Level t c { w with queue := q, nextChannel := w.nextChannel + 1 } :=
      h.of_same rfl rfl rfl fun _ _ hs => hs
    exact ⟨h'.goes here (fun _ hph => by cases hph) (fun _ hph => by cases hph), Nat.le_refl _⟩
  | fullFlow here hp =>
    have hpo := inv.pendingOk here (by rw [hp]; rfl)
    exact ⟨h.flow.retry here (hpo.keep (by rfl) (by rfl) _), Nat.le_of_eq (hreply (w.send _ _)).symm⟩
  | saved here hp =>
    have hpo := inv.pendingOk here (by rw [hp]; rfl)
    obtain ⟨h', hm⟩ := h.save inv here hp hpo
    refine ⟨h'.goto here (fun p' hk hpub => ?_) (fun _ hph => by cases hph), Nat.le_of_eq hm.symm⟩
    cases hpub
    obtain ⟨ht, hc⟩ := inv.ids _ _ here hk
    rw [save_checkpoint ht hc]
  | saveFailedLate here hp =>
    have hpo := inv.pendingOk here (by rw [hp]; rfl)
    obtain ⟨h', hm⟩ := h.save inv here hp hpo
    refine ⟨h'.retry here (hpo.keep (by rfl) (by rfl) _), ?_⟩
    rw [hreply, hm]
  | published here hp => exact h.published here hp (inv.pendingOk here (by rw [hp]; rfl))
  | leased | persisted | persistFailed | marked | committed | stopped =>
    exact ⟨h.of_same rfl rfl rfl fun _ _ hs => hs, Nat.le_refl _⟩
  | restarted => exact h.restarted

end Ingestion
end KubeCost
