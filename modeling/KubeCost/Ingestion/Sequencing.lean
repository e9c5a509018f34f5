/-
# Every observation is queued once, in order

A step of the server in which nothing fails for a cluster is a step of the cluster's
lane, whatever the other clusters do (`lane_step`). The server is watched for it: a log
records the watermark that was loaded first, the batches that came and the batches that
were put on the queue. What holds of every lane then holds of the log (`exactly_once`).
-/
import Mathlib.Order.Bounds.Basic
import KubeCost.Ingestion.Lane

namespace KubeCost
namespace Ingestion

variable {E : Env} {key : String} {w w' : World} {sid : ℕ} {s : Session} {p : Pending}

/-! ### The lane of a cluster -/

/-- The phase of the cluster's session. -/
def World.handling (w : World) (key : String) : Option Phase :=
  ((w.active key).bind w.sessions).map (·.phase)

def Phase.stage : Phase → Stage
  | .greeting _ | .receiving => .idle
  | .admitted p | .archiving p _ | .enqueueing p _ _ => .accepted p
  | .waiting p _ | .saving p | .publishing p => .queued p

def World.stage (w : World) (key : String) : Stage :=
  ((w.handling key).map Phase.stage).getD .idle

/-- The watermark of a cluster whose checkpoint is loaded. -/
def World.mark (w : World) (key : String) : Option ℕ :=
  (w.clusters key).bind fun st => if st.loaded then some st.persistedThrough else none

/-- The batch that an action brings to a session of the cluster. -/
def World.arriving (w : World) (key : String) : Action → Option ObservationBatch
  | .recv sid (some (.batch batch)) _ =>
    (w.sessions sid).bind fun s =>
      if s.phase = .receiving ∧ s.key = key then some batch else none
  | _ => none

/-- The batch that an action puts on the queue for the cluster. -/
def World.enqueued (w : World) (key : String) : Action → Option Batch
  | .enqueue sid _ _ =>
    (w.sessions sid).bind fun s =>
      match s.phase with
      | .enqueueing p _ receivedAt =>
        let item := queuedBatch s sid p receivedAt w.nextChannel
        if s.key = key ∧ (w.queue.tryEnqueue item).isSome then some item else none
      | _ => none
  | _ => none

/-- The server with a record of what happened to one cluster. -/
structure Log where
  world : World
  /-- The watermark that was loaded first. -/
  loaded : Option ℕ := none
  /-- The batches that were put on the queue. -/
  queued : List Batch := []
  /-- The batches that its sessions got, with the watermark at their arrival. -/
  arrived : List (ℕ × ObservationBatch) := []

/-- What is recorded of a step into `w'`. -/
def Log.next (key : String) (l : Log) (a : Action) (w' : World) : Log where
  world := w'
  loaded := l.loaded.or (w'.mark key)
  queued := l.queued ++ (l.world.enqueued key a).toList
  arrived := l.arrived ++
    (l.world.arriving key a).toList.map fun batch => (l.world.persistedThrough key, batch)

/-- A step of the server, with the record. -/
def watched (E : Env) (key : String) (l : Log) (a : Action) : Option Log :=
  (step E l.world a).map (l.next key a)

def Log.lane (key : String) (l : Log) : Lane where
  loaded := l.loaded
  watermark := l.world.persistedThrough key
  stage := l.world.stage key
  queued := l.queued.map (·.observationSet)
  arrived := l.arrived

/-- What can fail or be cancelled while a batch is handled does not. -/
def Action.Succeeds (w : World) : Action → Prop
  | .checkDepth _ sent => sent = true
  | .archive _ _ ok _ => ok = true
  | .enqueue _ _ _ => w.queue.items.length + w.queue.inFlight < w.queue.capacity
  | .cancelled _ => False
  | .save _ outcome _ => outcome = .ok
  | _ => True

/-- The process goes on, and nothing fails for the cluster. -/
structure Smooth (key : String) (w : World) (a : Action) : Prop where
  runs : a ≠ .restart
  succeeds : ∀ sid s, a.sid = some sid → w.sessions sid = some s → s.key = key → a.Succeeds w

/-! ### Sessions and clusters -/

/-- A cluster's active session is a session of the cluster, and every session is the
active one of its cluster. -/
structure Owned (w : World) : Prop where
  active : ∀ sid s, w.sessions sid = some s → w.active s.key = some sid
  owner : ∀ key sid s, w.active key = some sid → w.sessions sid = some s → s.key = key
  fresh : ∀ key sid, w.active key = some sid → sid < w.nextSession

theorem Owned.same (h : Owned w) (hs : w'.sessions = w.sessions) (ha : w'.active = w.active)
    (hn : w'.nextSession = w.nextSession) : Owned w' := by
  refine ⟨?_, ?_, ?_⟩
  · rw [hs, ha]
    exact h.active
  · rw [hs, ha]
    exact h.owner
  · rw [ha, hn]
    exact h.fresh

section Handling

variable (h : Owned w) (here : w.sessions sid = some s)

include h here

theorem Owned.handling_self : w.handling s.key = some s.phase := by
  rw [World.handling, h.active sid s here, Option.bind_some, here, Option.map_some]

/-- The active session of another cluster is another one. -/
theorem Owned.ne_of_key {sid' : ℕ} (hk : s.key ≠ key) (ha : w.active key = some sid') :
    sid' ≠ sid := by
  rintro rfl
  exact hk (h.owner key sid' s ha here)

theorem Owned.goto (phase : Phase) : Owned (w.goto sid s phase) := by
  refine ⟨fun sid' s' h' => ?_, fun key sid' s' ha h' => ?_, h.fresh⟩
  · rcases goto_sessions h' with ⟨rfl, rfl⟩ | ⟨-, h'⟩
    · exact h.active sid' s here
    · exact h.active sid' s' h'
  · rcases goto_sessions h' with ⟨rfl, rfl⟩ | ⟨-, h'⟩
    · exact h.owner key sid' s ha here
    · exact h.owner key sid' s' ha h'

theorem Owned.finish_active : (w.finish sid s).active = Function.update w.active s.key none := by
  rw [World.finish, if_pos (h.active sid s here)]

theorem Owned.finish : Owned (w.finish sid s) := by
  have hactive : ∀ key sid', (w.finish sid s).active key = some sid' →
      key ≠ s.key ∧ w.active key = some sid' := by
    intro key sid' ha
    rw [h.finish_active here] at ha
    exact (Machine.update_eq_some ha).resolve_left fun hk => nomatch hk.2
  refine ⟨fun sid' s' h' => ?_, fun key sid' s' ha h' => ?_, fun key sid' ha => ?_⟩
  · obtain ⟨hne, h'⟩ := finish_sessions h'
    have hk : s'.key ≠ s.key := by
      intro hk
      have ha := h.active sid' s' h'
      rw [hk, h.active sid s here] at ha
      exact hne (Option.some.inj ha).symm
    rw [h.finish_active here, Function.update_of_ne hk]
    exact h.active sid' s' h'
  · exact h.owner key sid' s' (hactive key sid' ha).2 (finish_sessions h').2
  · exact h.fresh key sid' (hactive key sid' ha).2

theorem Owned.handling_goto (phase : Phase) :
    (w.goto sid s phase).handling key = if s.key = key then some phase else w.handling key := by
  by_cases hk : s.key = key
  · subst hk
    have ha : (w.goto sid s phase).active s.key = some sid := h.active sid s here
    rw [if_pos rfl, World.handling, ha, Option.bind_some]
    simp only [World.goto, Function.update_self, Option.map_some]
  · rw [if_neg hk, World.handling, World.handling]
    cases ha : w.active key with
    | none => simp only [World.goto, ha, Option.bind_none]
    | some sid' =>
      simp only [World.goto, ha, Option.bind_some,
        Function.update_of_ne (h.ne_of_key here hk ha)]

theorem Owned.handling_finish :
    (w.finish sid s).handling key = if s.key = key then none else w.handling key := by
  rw [World.handling, h.finish_active here]
  by_cases hk : s.key = key
  · subst hk
    rw [if_pos rfl, Function.update_self, Option.bind_none, Option.map_none]
  · rw [if_neg hk, Function.update_of_ne (Ne.symm hk), World.handling]
    cases ha : w.active key with
    | none => rfl
    | some sid' =>
      simp only [World.finish, Option.bind_some,
        Function.update_of_ne (h.ne_of_key here hk ha)]

end Handling

/-- What a session may write beside its own phase. -/
structure Touches (key : String) (w w' : World) : Prop where
  sessions : w'.sessions = w.sessions
  active : w'.active = w.active
  next : w'.nextSession = w.nextSession
  clusters : ∀ key', key' ≠ key → w'.clusters key' = w.clusters key'
  mark : ∀ key', (w'.mark key').isSome = (w.mark key').isSome

theorem Touches.same (hs : w'.sessions = w.sessions) (ha : w'.active = w.active)
    (hn : w'.nextSession = w.nextSession) (hc : w'.clusters = w.clusters) : Touches key w w' := by
  refine ⟨hs, ha, hn, fun key' _ => by rw [hc], fun key' => ?_⟩
  rw [World.mark, World.mark, hc]

theorem mark_advance (n : ℕ) (key' : String) :
    ((w.advance key n).mark key').isSome = (w.mark key').isSome := by
  simp only [World.mark, World.advance]
  by_cases hk : key' = key
  · subst hk
    rw [Function.update_self]
    cases hc : w.clusters key' with
    | none => rfl
    | some st => cases hl : st.loaded <;> simp [hl]
  · rw [Function.update_of_ne hk]

theorem touches_advance (n : ℕ) : Touches key w (w.advance key n) :=
  ⟨rfl, rfl, rfl, fun _ hk => Function.update_of_ne hk _ _, mark_advance n⟩

/-- The ways on for a session. -/
def GoesOn (sid : ℕ) (s : Session) (w w' : World) : Prop :=
  w' = w ∨ (∃ phase, w' = w.goto sid s phase) ∨ w' = w.finish sid s

/-- A session writes beside its own phase, and then goes on. -/
def Proceeds (sid : ℕ) (s : Session) (w w' : World) : Prop :=
  ∃ w₁, Touches s.key w w₁ ∧ GoesOn sid s w₁ w'

theorem Proceeds.goto {w₁ : World} {phase : Phase} (ht : Touches s.key w w₁) :
    Proceeds sid s w (w₁.goto sid s phase) := ⟨w₁, ht, .inr (.inl ⟨phase, rfl⟩)⟩

theorem Proceeds.finish {w₁ : World} (ht : Touches s.key w w₁) :
    Proceeds sid s w (w₁.finish sid s) := ⟨w₁, ht, .inr (.inr rfl)⟩

theorem Proceeds.reply {w₁ : World} {frame : IngestionToAgent} {sent : Bool}
    (ht : Touches s.key w w₁) : Proceeds sid s w (w₁.reply sid s frame sent) := by
  cases sent
  · exact .finish ⟨ht.sessions, ht.active, ht.next, ht.clusters, ht.mark⟩
  · exact .goto ⟨ht.sessions, ht.active, ht.next, ht.clusters, ht.mark⟩

/-- **A session writes its own phase and its cluster.** -/
theorem session_goesOn {a : Action} (h : w.session E sid s a = some w') : Proceeds sid s w w' := by
  cases a <;> simp only [World.session] at h <;> try cases h
  case greet =>
    split at h <;> cases h
    exact .reply (.same rfl rfl rfl rfl)
  case recv =>
    split at h
    case h_1 =>
      split at h <;> cases h
      · exact .reply (.same rfl rfl rfl rfl)
      · exact .goto (.same rfl rfl rfl rfl)
    all_goals cases h
    · exact ⟨w, .same rfl rfl rfl rfl, .inl rfl⟩
    · exact .finish (.same rfl rfl rfl rfl)
  case checkDepth sent =>
    split at h
    case h_2 => cases h
    split at h <;> cases h
    · cases sent
      · exact .finish (.same rfl rfl rfl rfl)
      · exact .goto (.same rfl rfl rfl rfl)
    · exact .goto (.same rfl rfl rfl rfl)
  case archive ok _ =>
    split at h
    case h_2 => cases h
    cases ok <;> cases h
    · exact .reply (.same rfl rfl rfl rfl)
    · exact .goto (.same rfl rfl rfl rfl)
  case enqueue flowSent _ =>
    split at h
    case h_2 => cases h
    split at h
    · cases h
      exact .goto (.same rfl rfl rfl rfl)
    · split at h <;> cases h
      · exact .reply (.same rfl rfl rfl rfl)
      · cases flowSent
        · exact .finish (.same rfl rfl rfl rfl)
        · exact .reply (.same rfl rfl rfl rfl)
  case notified =>
    split at h
    case h_2 => cases h
    split at h <;> cases h
    exact .goto (.same rfl rfl rfl rfl)
  case cancelled =>
    split at h <;> cases h
    exact .finish (.same rfl rfl rfl rfl)
  case save =>
    split at h
    case h_2 => cases h
    split at h <;> cases h
    · exact .goto (.same rfl rfl rfl rfl)
    · rename_i written
      cases written
      · exact .reply (.same rfl rfl rfl rfl)
      · exact .reply (.same rfl rfl rfl rfl)
  case publish =>
    split at h <;> cases h
    exact .reply (touches_advance _)

/-! ### The server runs the lane -/

/-- The record fits the server: sessions are owned, and the cluster is loaded when the
record says so or a session is there. -/
structure Ready (key : String) (l : Log) : Prop where
  owned : Owned l.world
  loaded : l.loaded.isSome = (l.world.mark key).isSome
  session : ∀ sid s, l.world.sessions sid = some s → s.key = key → (l.world.mark key).isSome = true

variable {l : Log} {a : Action}

theorem Ready.next_loaded (h : Ready key l) (hmark : (w'.mark key).isSome = (l.world.mark key).isSome) :
    (l.next key a w').loaded = l.loaded := by
  cases hl : l.loaded with
  | some n => simp only [Log.next, hl, Option.some_or]
  | none =>
    have hnone : w'.mark key = none := by
      refine Option.not_isSome_iff_eq_none.mp ?_
      rw [hmark, ← h.loaded, hl]
      decide
    simp only [Log.next, hl, Option.none_or, hnone]

/-- The cluster stays loaded. -/
theorem Ready.next (h : Ready key l) (owned : Owned w')
    (hmark : (l.world.mark key).isSome = true → (w'.mark key).isSome = true)
    (hsession : ∀ sid s, w'.sessions sid = some s → s.key = key → (w'.mark key).isSome = true) :
    Ready key (l.next key a w') := by
  refine ⟨owned, ?_, hsession⟩
  simp only [Log.next, Option.isSome_or, h.loaded]
  cases hm : (l.world.mark key).isSome with
  | false => rfl
  | true =>
    rw [hmark hm]
    rfl

theorem Ready.goesOn (h : Ready key l) (here : l.world.sessions sid = some s) {w₁ : World}
    (touches : Touches s.key l.world w₁) (goes : GoesOn sid s w₁ w') : Ready key (l.next key a w') := by
  have howned : Owned w₁ := h.owned.same touches.sessions touches.active touches.next
  have here₁ : w₁.sessions sid = some s := by rw [touches.sessions, here]
  have hmark : (l.world.mark key).isSome = true → (w₁.mark key).isSome = true := by
    rw [touches.mark]
    exact id
  have hsession : ∀ sid s, w₁.sessions sid = some s → s.key = key → (w₁.mark key).isSome = true := by
    intro sid' s' h' hk
    rw [touches.sessions] at h'
    exact hmark (h.session sid' s' h' hk)
  rcases goes with rfl | ⟨phase, rfl⟩ | rfl
  · exact h.next howned hmark hsession
  · refine h.next (howned.goto here₁ phase) hmark fun sid' s' h' hk => ?_
    rcases goto_sessions h' with ⟨rfl, rfl⟩ | ⟨-, h'⟩
    · exact hsession sid' s here₁ hk
    · exact hsession sid' s' h' hk
  · refine h.next (howned.finish here₁) hmark fun sid' s' h' hk => ?_
    exact hsession sid' s' (finish_sessions h').2 hk

theorem goesOn_stage (h : Owned w) (here : w.sessions sid = some s) (goes : GoesOn sid s w w')
    (hk : s.key ≠ key) : w'.stage key = w.stage key := by
  rcases goes with rfl | ⟨phase, rfl⟩ | rfl
  · rfl
  · rw [World.stage, h.handling_goto here, if_neg hk, World.stage]
  · rw [World.stage, h.handling_finish here, if_neg hk, World.stage]

/-- The record of a session of another cluster. -/
theorem not_recorded (here : w.sessions sid = some s) (ha : a.sid = some sid) (hk : s.key ≠ key) :
    w.arriving key a = none ∧ w.enqueued key a = none := by
  unfold World.arriving World.enqueued
  constructor
  · split
    · cases ha
      simp [here, hk]
    · rfl
  · split
    · cases ha
      rw [here, Option.bind_some]
      split <;> simp [hk]
    · rfl

theorem goesOn_reply (frame : IngestionToAgent) (sent : Bool) :
    GoesOn sid s (w.send s frame) (w.reply sid s frame sent) := by
  cases sent
  · exact .inr (.inr rfl)
  · exact .inr (.inl ⟨_, rfl⟩)

theorem lane_rests (hloaded : (l.next key a w').loaded = l.loaded)
    (hwatermark : w'.persistedThrough key = l.world.persistedThrough key)
    (hstage : w'.stage key = l.world.stage key) (harriving : l.world.arriving key a = none)
    (henqueued : l.world.enqueued key a = none) :
    (l.lane key).Step E ((l.next key a w').lane key) := by
  have hlane : (l.next key a w').lane key = l.lane key := by
    rw [Log.lane, hloaded]
    simp only [Log.next, hwatermark, hstage, harriving, henqueued, Option.toList_none,
      List.map_nil, List.append_nil]
    rfl
  rw [hlane]
  exact .rests

/-- A session of another cluster leaves the lane alone. -/
theorem Ready.other (h : Ready key l) (here : l.world.sessions sid = some s)
    (ha : a.sid = some sid) (hk : s.key ≠ key) (hstep : l.world.session E sid s a = some w') :
    (l.lane key).Step E ((l.next key a w').lane key) := by
  obtain ⟨w₁, touches, goes⟩ := session_goesOn hstep
  have howned : Owned w₁ := h.owned.same touches.sessions touches.active touches.next
  have here₁ : w₁.sessions sid = some s := by rw [touches.sessions, here]
  have hclusters : w'.clusters key = l.world.clusters key := by
    rw [← touches.clusters key (Ne.symm hk)]
    rcases goes with rfl | ⟨phase, rfl⟩ | rfl <;> rfl
  have hstage : w'.stage key = l.world.stage key := by
    rw [goesOn_stage howned here₁ goes hk]
    simp only [World.stage, World.handling, touches.sessions, touches.active]
  obtain ⟨harriving, henqueued⟩ := not_recorded here ha hk
  refine lane_rests (h.next_loaded ?_) ?_ hstage harriving henqueued
  · rw [World.mark, World.mark, hclusters]
  · rw [World.persistedThrough, World.persistedThrough, hclusters]

section Own

variable (h : Ready s.key l) (here : l.world.sessions sid = some s)

include h here

theorem Ready.stage_self : l.world.stage s.key = s.phase.stage := by
  rw [World.stage, h.owned.handling_self here]
  rfl

theorem Ready.ready : l.loaded.isSome = true := by
  rw [h.loaded]
  exact h.session sid s here rfl

/-- A session that goes on within a stage. -/
theorem Ready.stays {w₁ : World} (touches : Touches s.key l.world w₁) (goes : GoesOn sid s w₁ w')
    (hwatermark : w₁.persistedThrough s.key = l.world.persistedThrough s.key)
    (hstage : w'.stage s.key = s.phase.stage) (harriving : l.world.arriving s.key a = none)
    (henqueued : l.world.enqueued s.key a = none) :
    (l.lane s.key).Step E ((l.next s.key a w').lane s.key) := by
  have hclusters : w'.clusters = w₁.clusters := by
    rcases goes with rfl | ⟨phase, rfl⟩ | rfl <;> rfl
  refine lane_rests (h.next_loaded ?_) ?_ ?_ harriving henqueued
  · rw [← touches.mark, World.mark, World.mark, hclusters]
  · rw [← hwatermark, World.persistedThrough, World.persistedThrough, hclusters]
  · rw [hstage, h.stage_self here]

theorem stage_goto (phase : Phase) {w₁ : World} (touches : Touches s.key l.world w₁) :
    (w₁.goto sid s phase).stage s.key = phase.stage := by
  have howned : Owned w₁ := h.owned.same touches.sessions touches.active touches.next
  rw [World.stage, howned.handling_goto (by rw [touches.sessions, here]), if_pos rfl]
  rfl

theorem stage_finish {w₁ : World} (touches : Touches s.key l.world w₁) :
    (w₁.finish sid s).stage s.key = .idle := by
  have howned : Owned w₁ := h.owned.same touches.sessions touches.active touches.next
  rw [World.stage, howned.handling_finish (by rw [touches.sessions, here]), if_pos rfl]
  rfl

theorem stage_reply {w₁ : World} (touches : Touches s.key l.world w₁) (frame : IngestionToAgent)
    (sent : Bool) : (w₁.reply sid s frame sent).stage s.key = .idle := by
  have htouches : Touches s.key l.world (w₁.send s frame) :=
    ⟨touches.sessions, touches.active, touches.next, touches.clusters, touches.mark⟩
  cases sent
  · exact stage_finish h here htouches
  · exact stage_goto h here .receiving htouches

/-- A batch that is answered at once. -/
theorem Ready.answers {batch : ObservationBatch} {frame : IngestionToAgent} {sent : Bool}
    (hphase : s.phase = .receiving)
    (decision : handleBatch E (l.world.persistedThrough s.key) batch = .answer frame) :
    (l.lane s.key).Step E ((l.next s.key (.recv sid (some (.batch batch)) sent)
      ((l.world.receive s batch).reply sid s frame sent)).lane s.key) := by
  have hidle : l.world.stage s.key = .idle := by
    rw [h.stage_self here, hphase]
    rfl
  have touches : Touches s.key l.world (l.world.receive s batch) := .same rfl rfl rfl rfl
  have hstage := stage_reply h here touches frame sent
  have hclusters : ((l.world.receive s batch).reply sid s frame sent).clusters = l.world.clusters := by
    cases sent <;> rfl
  have hlane : (l.next s.key (.recv sid (some (.batch batch)) sent)
      ((l.world.receive s batch).reply sid s frame sent)).lane s.key =
      { l.lane s.key with
        arrived := l.arrived ++ [(l.world.persistedThrough s.key, batch)] } := by
    rw [Log.lane, h.next_loaded (by rw [World.mark, World.mark, hclusters])]
    simp only [Log.next, Log.lane, hstage, hidle, World.persistedThrough, hclusters, World.arriving,
      here, hphase, Option.bind_some, and_self, if_true, World.enqueued, Option.toList_none,
      List.append_nil, Option.toList_some, List.map_cons, List.map_nil]
  rw [hlane]
  exact .answers (h.ready here) hidle decision

/-- A batch that is accepted. -/
theorem Ready.accepts {batch : ObservationBatch} {sent : Bool} (hphase : s.phase = .receiving)
    (decision : handleBatch E (l.world.persistedThrough s.key) batch = .accept p) :
    (l.lane s.key).Step E ((l.next s.key (.recv sid (some (.batch batch)) sent)
      ((l.world.receive s batch).goto sid s (.admitted p))).lane s.key) := by
  have hidle : l.world.stage s.key = .idle := by
    rw [h.stage_self here, hphase]
    rfl
  have touches : Touches s.key l.world (l.world.receive s batch) := .same rfl rfl rfl rfl
  have hstage := stage_goto h here (.admitted p) touches
  have hlane : (l.next s.key (.recv sid (some (.batch batch)) sent)
      ((l.world.receive s batch).goto sid s (.admitted p))).lane s.key =
      { l.lane s.key with
        stage := .accepted p
        arrived := l.arrived ++ [(l.world.persistedThrough s.key, batch)] } := by
    rw [Log.lane, h.next_loaded (by rfl)]
    simp only [Log.next, Log.lane, hstage, World.arriving, here, hphase, Option.bind_some, and_self,
      if_true, World.enqueued, Option.toList_none, List.append_nil, Option.toList_some,
      List.map_cons, List.map_nil]
    rfl
  rw [hlane]
  exact .accepts (h.ready here) hidle decision

/-- The accepted batch goes on the queue. -/
theorem Ready.enqueues {flag flowSent sent : Bool} {now : Timestamp} {q : Queue Batch}
    (hphase : s.phase = .enqueueing p flag now)
    (hq : l.world.queue.tryEnqueue (queuedBatch s sid p now l.world.nextChannel) = some q) :
    (l.lane s.key).Step E ((l.next s.key (.enqueue sid flowSent sent)
      ({ l.world with queue := q, nextChannel := l.world.nextChannel + 1 }.goto sid s
        (.waiting p l.world.nextChannel))).lane s.key) := by
  have hstage : l.world.stage s.key = .accepted p := by
    rw [h.stage_self here, hphase]
    rfl
  have touches : Touches s.key l.world
      { l.world with queue := q, nextChannel := l.world.nextChannel + 1 } := .same rfl rfl rfl rfl
  have hstage' := stage_goto h here (.waiting p l.world.nextChannel) touches
  have hlane : (l.next s.key (.enqueue sid flowSent sent)
      ({ l.world with queue := q, nextChannel := l.world.nextChannel + 1 }.goto sid s
        (.waiting p l.world.nextChannel))).lane s.key =
      { l.lane s.key with stage := .queued p, queued := (l.lane s.key).queued ++ [p.accepted] } := by
    rw [Log.lane, h.next_loaded (by rfl)]
    simp only [Log.next, Log.lane, hstage', World.arriving, here, hphase, Option.bind_some,
      World.enqueued, hq, Option.isSome_some, and_self, if_true, Option.toList_none, List.map_nil,
      List.append_nil, Option.toList_some, List.map_append, List.map_cons]
    rfl
  rw [hlane]
  exact .enqueues hstage

/-- The watermark moves to the last number of the batch. -/
theorem Ready.publishes {sent : Bool} (hphase : s.phase = .publishing p) :
    (l.lane s.key).Step E ((l.next s.key (.publish sid sent)
      ((l.world.advance s.key p.batch.lastSequence).reply sid s p.persistedAck sent)).lane s.key) := by
  have hstage : l.world.stage s.key = .queued p := by
    rw [h.stage_self here, hphase]
    rfl
  have touches : Touches s.key l.world (l.world.advance s.key p.batch.lastSequence) :=
    touches_advance _
  have hstage' := stage_reply h here touches p.persistedAck sent
  have hclusters : ((l.world.advance s.key p.batch.lastSequence).reply sid s p.persistedAck
      sent).clusters = (l.world.advance s.key p.batch.lastSequence).clusters := by
    cases sent <;> rfl
  have hwatermark : (l.world.advance s.key p.batch.lastSequence).persistedThrough s.key =
      p.batch.lastSequence := by
    have hsome := h.session sid s here rfl
    rw [World.mark] at hsome
    simp only [World.persistedThrough, World.advance, Function.update_self]
    cases hc : l.world.clusters s.key with
    | none =>
      rw [hc] at hsome
      cases hsome
    | some st => rfl
  have hlane : (l.next s.key (.publish sid sent)
      ((l.world.advance s.key p.batch.lastSequence).reply sid s p.persistedAck sent)).lane s.key =
      { l.lane s.key with stage := .idle, watermark := p.batch.lastSequence } := by
    rw [Log.lane, h.next_loaded (by rw [World.mark, hclusters, ← World.mark, touches.mark])]
    rw [World.persistedThrough] at hwatermark
    simp only [Log.next, Log.lane, hstage', World.persistedThrough, hclusters, hwatermark,
      World.arriving, World.enqueued, Option.toList_none, List.map_nil, List.append_nil]
  rw [hlane]
  exact .publishes hstage

/-- **A session of the cluster runs the lane.** -/
theorem Ready.own (ha : a.sid = some sid) (ok : a.Succeeds l.world)
    (hstep : l.world.session E sid s a = some w') :
    (l.lane s.key).Step E ((l.next s.key a w').lane s.key) := by
  have hgoto : ∀ w₁ phase, Touches s.key l.world w₁ →
      w₁.persistedThrough s.key = l.world.persistedThrough s.key → phase.stage = s.phase.stage →
      l.world.arriving s.key a = none → l.world.enqueued s.key a = none →
      (l.lane s.key).Step E ((l.next s.key a (w₁.goto sid s phase)).lane s.key) := by
    intro w₁ phase touches hwatermark hstage harriving henqueued
    refine h.stays here touches (.inr (.inl ⟨phase, rfl⟩)) hwatermark ?_ harriving henqueued
    rw [stage_goto h here phase touches, hstage]
  cases a <;> cases ha <;> simp only [World.session] at hstep
  case greet sent =>
    split at hstep <;> cases hstep
    rename_i persistedThrough hphase
    have touches : Touches s.key l.world
        (l.world.send s (serverHello sid persistedThrough E.config)) := .same rfl rfl rfl rfl
    refine h.stays here touches (goesOn_reply _ _) rfl ?_ rfl rfl
    rw [stage_reply h here (.same rfl rfl rfl rfl), hphase]
    rfl
  case recv frame sent =>
    split at hstep
    case h_1 =>
      split at hstep <;> cases hstep
      · exact h.answers here ‹_› ‹_›
      · exact h.accepts here ‹_› ‹_›
    all_goals cases hstep
    · exact lane_rests (h.next_loaded rfl) rfl rfl rfl rfl
    · rename_i hphase hbatch _
      have touches : Touches s.key l.world l.world := .same rfl rfl rfl rfl
      refine h.stays here touches (.inr (.inr rfl)) rfl ?_ ?_ rfl
      · rw [stage_finish h here (.same rfl rfl rfl rfl), hphase]
        rfl
      · unfold World.arriving
        split
        · rename_i heq
          cases heq
          exact absurd rfl (hbatch _)
        · rfl
  case checkDepth sent =>
    cases ok
    split at hstep
    case h_2 => cases hstep
    rename_i hphase
    split at hstep <;> cases hstep
    · exact hgoto _ _ (.same rfl rfl rfl rfl) rfl (by rw [hphase]; rfl) rfl rfl
    · exact hgoto _ _ (.same rfl rfl rfl rfl) rfl (by rw [hphase]; rfl) rfl rfl
  case archive now archived sent =>
    cases ok
    split at hstep <;> cases hstep
    rename_i hphase
    exact hgoto _ _ (.same rfl rfl rfl rfl) rfl (by rw [hphase]; rfl) rfl rfl
  case enqueue flowSent sent =>
    split at hstep
    case h_2 => cases hstep
    rename_i hphase
    split at hstep
    · cases hstep
      exact h.enqueues here hphase ‹_›
    · rename_i hfull
      have hroom : l.world.queue.items.length + l.world.queue.inFlight < l.world.queue.capacity := ok
      rw [Queue.tryEnqueue, if_neg (Nat.not_le.mpr hroom)] at hfull
      cases hfull
  case notified =>
    split at hstep
    case h_2 => cases hstep
    rename_i hphase
    split at hstep <;> cases hstep
    exact hgoto _ _ (.same rfl rfl rfl rfl) rfl (by rw [hphase]; rfl) rfl rfl
  case cancelled => exact ok.elim
  case save outcome sent =>
    cases ok
    split at hstep <;> cases hstep
    rename_i hphase
    exact hgoto _ _ (.same rfl rfl rfl rfl) rfl (by rw [hphase]; rfl) rfl rfl
  case publish sent =>
    split at hstep <;> cases hstep
    exact h.publishes here ‹_›

end Own

variable (key) in
/-- The worker does not touch sessions and clusters. -/
theorem work_touches (h : w.work E a = some w') : Touches key w w' ∧ w'.clusters = w.clusters := by
  cases a <;> try cases h
  case lease =>
    simp only [World.work] at h
    split at h <;> cases h
    exact ⟨.same rfl rfl rfl rfl, rfl⟩
  case persist insert =>
    simp only [World.work] at h
    split at h
    case h_2 => cases h
    split at h <;> cases h <;> exact ⟨.same rfl rfl rfl rfl, rfl⟩
  case markPersisted =>
    simp only [World.work] at h
    split at h <;> cases h
    exact ⟨.same rfl rfl rfl rfl, rfl⟩
  case commit =>
    simp only [World.work] at h
    split at h <;> cases h
    exact ⟨.same rfl rfl rfl rfl, rfl⟩
  case stopWorker =>
    simp only [World.work] at h
    split at h <;> cases h
    exact ⟨.same rfl rfl rfl rfl, rfl⟩

variable (w key) in
theorem unrecorded (ha : a.sid = none) : w.arriving key a = none ∧ w.enqueued key a = none := by
  cases a <;> first | exact ⟨rfl, rfl⟩ | cases ha

/-- A step that changes neither sessions nor the cluster. -/
theorem Ready.untouched (h : Ready key l) (ha : a.sid = none) (hs : w'.sessions = l.world.sessions)
    (hact : w'.active = l.world.active) (hn : w'.nextSession = l.world.nextSession)
    (hpt : w'.persistedThrough key = l.world.persistedThrough key)
    (hmark : (w'.mark key).isSome = (l.world.mark key).isSome) :
    Ready key (l.next key a w') ∧ (l.lane key).Step E ((l.next key a w').lane key) := by
  obtain ⟨harriving, henqueued⟩ := unrecorded key l.world ha
  constructor
  · refine h.next (h.owned.same hs hact hn) (fun hm => hmark.trans hm) fun sid s here hk => ?_
    rw [hs] at here
    exact hmark.trans (h.session sid s here hk)
  · refine lane_rests (h.next_loaded hmark) hpt ?_ harriving henqueued
    simp only [World.stage, World.handling, hs, hact]

section Opened

variable {hello : AgentHello} {st : ClusterState}

theorem opened_active (key : String) : (w.opened hello st).active key =
    if key = clusterKey hello.tenantId hello.clusterId then some w.nextSession else w.active key := by
  by_cases hk : key = clusterKey hello.tenantId hello.clusterId
  · rw [if_pos hk, hk]
    exact Function.update_self ..
  · rw [if_neg hk]
    exact Function.update_of_ne hk ..

theorem Owned.opened (h : Owned w) (idle : w.active (clusterKey hello.tenantId hello.clusterId) = none) :
    Owned (w.opened hello st) := by
  refine ⟨fun sid s here => ?_, fun key sid s ha here => ?_, fun key sid ha => ?_⟩
  · rcases opened_sessions here with ⟨rfl, rfl⟩ | ⟨-, here⟩
    · exact (opened_active _).trans (if_pos rfl)
    · rw [opened_active, if_neg fun hk => ?_]
      · exact h.active sid s here
      · have := h.active sid s here
        rw [hk, idle] at this
        cases this
  · rw [opened_active] at ha
    split at ha
    · rename_i hk
      rcases opened_sessions here with ⟨-, rfl⟩ | ⟨hne, -⟩
      · exact hk.symm
      · exact absurd (Option.some.inj ha).symm hne
    · rcases opened_sessions here with ⟨rfl, -⟩ | ⟨-, here⟩
      · exact absurd (h.fresh key _ ha) (Nat.lt_irrefl _)
      · exact h.owner key sid s ha here
  · rw [opened_active] at ha
    split at ha
    · cases ha
      exact Nat.lt_succ_self _
    · exact (h.fresh key sid ha).trans (Nat.lt_succ_self _)

theorem loads_loaded (hl : w.Loads hello st) : st.loaded = true := by
  rcases hl with ⟨-, h⟩ | ⟨-, rfl⟩
  · exact h
  · rfl

/-- The watermark of a cluster that was loaded before. -/
theorem World.Loads.persistedThrough_eq (hl : w.Loads hello st)
    (hmark : (w.mark (clusterKey hello.tenantId hello.clusterId)).isSome = true) :
    st.persistedThrough = w.persistedThrough (clusterKey hello.tenantId hello.clusterId) := by
  rcases hl with ⟨hst, -⟩ | ⟨hnot, -⟩
  · rw [World.persistedThrough, hst]
    rfl
  · rw [World.mark] at hmark
    cases hc : w.clusters (clusterKey hello.tenantId hello.clusterId) with
    | none =>
      rw [hc] at hmark
      cases hmark
    | some st' =>
      rw [hc] at hmark hnot
      simp only [Option.getD_some] at hnot
      simp [hnot] at hmark

theorem stage_opened : (w.opened hello st).stage (clusterKey hello.tenantId hello.clusterId) = .idle := by
  rw [World.stage, World.handling, opened_active, if_pos rfl]
  simp only [World.opened, Option.bind_some, Function.update_self]
  rfl

/-- A new session of another cluster. -/
theorem Ready.opened_other (h : Ready key l)
    (idle : l.world.active (clusterKey hello.tenantId hello.clusterId) = none)
    (hk : clusterKey hello.tenantId hello.clusterId ≠ key) (ha : a.sid = none) :
    Ready key (l.next key a (l.world.opened hello st)) ∧
      (l.lane key).Step E ((l.next key a (l.world.opened hello st)).lane key) := by
  have hclusters : (l.world.opened hello st).clusters key = l.world.clusters key :=
    Function.update_of_ne (Ne.symm hk) ..
  have hmark : ((l.world.opened hello st).mark key).isSome = (l.world.mark key).isSome := by
    rw [World.mark, World.mark, hclusters]
  obtain ⟨harriving, henqueued⟩ := unrecorded key l.world ha
  constructor
  · refine h.next (h.owned.opened idle) (fun hm => hmark.trans hm) fun sid s here hs => ?_
    rcases opened_sessions here with ⟨-, rfl⟩ | ⟨-, here⟩
    · exact absurd hs hk
    · exact hmark.trans (h.session sid s here hs)
  · refine lane_rests (h.next_loaded hmark) ?_ ?_ harriving henqueued
    · rw [World.persistedThrough, World.persistedThrough, hclusters]
    · rw [World.stage, World.stage, World.handling, World.handling, opened_active, if_neg (Ne.symm hk)]
      cases hsid : l.world.active key with
      | none => rfl
      | some sid =>
        have hne : sid ≠ l.world.nextSession := Nat.ne_of_lt (h.owned.fresh key sid hsid)
        simp only [World.opened, Option.bind_some, Function.update_of_ne hne]

/-- A new session of the cluster; the first one loads the watermark. -/
theorem Ready.opened (h : Ready (clusterKey hello.tenantId hello.clusterId) l)
    (idle : l.world.active (clusterKey hello.tenantId hello.clusterId) = none)
    (loads : l.world.Loads hello st) (ha : a.sid = none) :
    Ready (clusterKey hello.tenantId hello.clusterId)
        (l.next (clusterKey hello.tenantId hello.clusterId) a (l.world.opened hello st)) ∧
      (l.lane (clusterKey hello.tenantId hello.clusterId)).Step E
        ((l.next (clusterKey hello.tenantId hello.clusterId) a (l.world.opened hello st)).lane
          (clusterKey hello.tenantId hello.clusterId)) := by
  generalize hkey : clusterKey hello.tenantId hello.clusterId = key at *
  obtain ⟨harriving, henqueued⟩ := unrecorded key l.world ha
  have hclusters : (l.world.opened hello st).clusters key = some st := by
    rw [← hkey]
    exact Function.update_self ..
  have hmark : (l.world.opened hello st).mark key = some st.persistedThrough := by
    rw [World.mark, hclusters, Option.bind_some, if_pos (loads_loaded loads)]
  have hidle : l.world.stage key = .idle := by
    rw [World.stage, World.handling, idle]
    rfl
  have hstage : (l.world.opened hello st).stage key = .idle := hkey ▸ stage_opened
  have hpt : (l.world.opened hello st).persistedThrough key = st.persistedThrough := by
    rw [World.persistedThrough, hclusters]
    rfl
  constructor
  · refine h.next (h.owned.opened (hkey ▸ idle)) (fun _ => ?_) fun _ _ _ _ => ?_
    · rw [hmark]
      rfl
    · rw [hmark]
      rfl
  · cases hloaded : l.loaded with
    | none =>
      -- the first session of the cluster
      have hlane : (l.next key a (l.world.opened hello st)).lane key =
          { l.lane key with loaded := some st.persistedThrough, watermark := st.persistedThrough } := by
        simp only [Log.next, Log.lane, hloaded, Option.none_or, hmark, hpt, hstage, hidle, harriving,
          henqueued, Option.toList_none, List.map_nil, List.append_nil]
      rw [hlane]
      exact .loads hloaded
    | some n =>
      have hsome : (l.world.mark key).isSome = true := by
        rw [← h.loaded, hloaded]
        rfl
      refine lane_rests (h.next_loaded ?_) ?_ (hstage.trans hidle.symm) harriving henqueued
      · rw [hmark, hsome]
        rfl
      · subst hkey
        rw [hpt, loads.persistedThrough_eq hsome]

end Opened

theorem noteCluster_mark (key' : String) :
    ((w.noteCluster key').mark key).isSome = (w.mark key).isSome := by
  simp only [World.mark, World.noteCluster]
  by_cases hk : key = key'
  · subst hk
    rw [Function.update_self]
    cases w.clusters key with
    | none => rfl
    | some st => rfl
  · rw [Function.update_of_ne hk]

/-- A step of a session or of the worker. -/
theorem Ready.within (h : Ready key l) (smooth : Smooth key l.world a) (hw : (match a.sid with
      | some sid => match l.world.sessions sid with
        | some s => l.world.session E sid s a
        | none => none
      | none => l.world.work E a) = some w') :
    Ready key (l.next key a w') ∧ (l.lane key).Step E ((l.next key a w').lane key) := by
  cases ha : a.sid with
  | none =>
    rw [ha] at hw
    obtain ⟨touches, hclusters⟩ := work_touches key hw
    refine h.untouched ha touches.sessions touches.active touches.next ?_ (touches.mark key)
    rw [World.persistedThrough, World.persistedThrough, hclusters]
  | some sid =>
    simp only [ha] at hw
    cases here : l.world.sessions sid with
    | none =>
      rw [here] at hw
      cases hw
    | some s =>
      simp only [here] at hw
      obtain ⟨w₁, touches, goes⟩ := session_goesOn hw
      refine ⟨h.goesOn here touches goes, ?_⟩
      by_cases hk : s.key = key
      · subst hk
        exact h.own here ha (smooth.succeeds sid s ha here rfl) hw
      · exact h.other here ha hk hw

/-- **One step of the server, nothing failing for the cluster, is a step of its lane.** -/
theorem lane_step {l' : Log} (h : Ready key l) (smooth : Smooth key l.world a)
    (hstep : watched E key l a = some l') : Ready key l' ∧ (l.lane key).Step E (l'.lane key) := by
  obtain ⟨w', hw, rfl⟩ := Option.map_eq_some_iff.mp hstep
  cases a with
  | connect first authenticated loads =>
    cases hw
    rcases connect_cases (w := l.world) first authenticated loads with
      heq | ⟨hello, -, heq⟩ | ⟨hello, st, -, -, -, idle, hloads, heq⟩
    · rw [heq]
      exact h.untouched rfl rfl rfl rfl rfl rfl
    · rw [heq]
      exact h.untouched rfl rfl rfl rfl (noteCluster_persistedThrough _ _ _) (noteCluster_mark _)
    · rw [heq]
      by_cases hk : clusterKey hello.tenantId hello.clusterId = key
      · subst hk
        exact h.opened idle hloads rfl
      · exact h.opened_other idle hk rfl
  | restart => exact absurd rfl smooth.runs
  | _ => exact h.within smooth hw

/-! ### Whole runs -/

/-- A process that has just started, and nothing recorded yet. -/
def Log.start (E : Env) (w : World) : Log := { world := w.start E }

theorem ready_start (E : Env) (w : World) : Ready key (Log.start E w) where
  owned := ⟨fun _ _ h => (by cases h), fun _ _ _ h => (by cases h), fun _ _ h => (by cases h)⟩
  loaded := rfl
  session := fun _ _ h => (by cases h)

theorem laneOk_start (E : Env) (w : World) : ((Log.start E w).lane key).Ok E :=
  ⟨fun _ => ⟨rfl, rfl, rfl⟩, fun _ hn => (by cases hn)⟩

theorem reach_ok {before : World} (h : Machine.Reach (watched E key)
    (fun l a => Smooth key l.world a) (Log.start E before) l) : Ready key l ∧ (l.lane key).Ok E := by
  refine h.invariant (I := fun l => Ready key l ∧ (l.lane key).Ok E)
    ⟨ready_start E before, laneOk_start E before⟩ fun l₁ a l₂ hl smooth hstep => ?_
  obtain ⟨hready, hlane⟩ := lane_step hl.1 smooth hstep
  exact ⟨hready, hl.2.step hlane⟩

/-- A valid batch of the cluster that came without a gap has the number. -/
def Log.Covers (E : Env) (l : Log) (n : ℕ) : Prop :=
  ∃ a ∈ l.arrived, validateBatch E.codec E.config a.2 = .ok () ∧ a.2.firstSequence ≤ a.1 + 1 ∧
    a.2.firstSequence ≤ n ∧ n ≤ a.2.lastSequence

/-- What was queued for the cluster follows `n` in order, up to the watermark, and the
watermark is as far as the batches that came reach. -/
structure ExactlyOnce (E : Env) (key : String) (l : Log) (n : ℕ) : Prop where
  start : n ≤ l.world.persistedThrough key
  sequences : (l.queued.flatMap (·.observationSet.observations)).map (·.sequence) =
    List.range' (n + 1) (l.world.persistedThrough key - n)
  watermark : IsGreatest {q | ∀ m, n < m → m ≤ q → l.Covers E m} (l.world.persistedThrough key)

/-- **Exactly once and in order.** A process starts over any durable state and runs in any
way in which nothing fails for the cluster. Once none of its batches is being handled, the
numbers put on the queue for it are those that follow the watermark it loaded, each once
and in order, up to its watermark; and the watermark is the largest number that the valid
batches without a gap reach. Before a watermark is loaded nothing is queued. -/
theorem exactly_once (E : Env) (before : World) (tenantID clusterID : String) {l : Log}
    (h : Machine.Reach (watched E (clusterKey tenantID clusterID))
      (fun l a => Smooth (clusterKey tenantID clusterID) l.world a) (Log.start E before) l)
    (rest : ∀ sid s, l.world.sessions sid = some s → s.key = clusterKey tenantID clusterID →
      s.phase.pending = none) :
    (l.loaded = none → l.queued = []) ∧
      ∀ n, l.loaded = some n → ExactlyOnce E (clusterKey tenantID clusterID) l n := by
  generalize clusterKey tenantID clusterID = key at *
  obtain ⟨hready, hok⟩ := reach_ok h
  have hidle : (l.lane key).stage = .idle := by
    show l.world.stage key = .idle
    rw [World.stage, World.handling]
    cases hsid : (l.world.active key).bind l.world.sessions with
    | none => rfl
    | some s =>
      obtain ⟨sid, hactive, here⟩ := Option.bind_eq_some_iff.mp hsid
      have hpending := rest sid s here (hready.owned.owner key sid s hactive here)
      show s.phase.stage = .idle
      cases hphase : s.phase <;> rw [hphase] at hpending <;> first | rfl | cases hpending
  refine ⟨fun hnone => ?_, fun n hn => ?_⟩
  · have := (hok.1 hnone).queued
    exact List.map_eq_nil_iff.mp this
  · have hlane := hok.2 n hn
    have hfront : (l.lane key).front = l.world.persistedThrough key := Lane.front_idle hidle
    refine ⟨hlane.start, ?_, fun m hm hle => ?_, fun q hq => ?_⟩
    · have hsequences := hlane.sequences
      rw [hfront, Lane.sequences] at hsequences
      rw [← hsequences]
      show _ = ((l.queued.map (·.observationSet)).flatMap (·.observations)).map (·.sequence)
      rw [List.flatMap_map]
    · exact hlane.covered m hm (hfront ▸ hle)
    · -- a number above the watermark would have come with a batch that is handled by now
      by_contra hlt
      have hstart := hlane.start
      obtain ⟨b, hb, hv, hfirst, -, hlast⟩ := hq (l.world.persistedThrough key + 1)
        (Nat.lt_succ_of_le hstart) (Nat.lt_of_not_le hlt)
      rcases hlane.handled b hb hv hfirst with hle | ⟨p, hp, -⟩
      · exact absurd (hlast.trans hle) (Nat.not_succ_le_self _)
      · rw [Lane.inHand_idle hidle] at hp
        cases hp

/-! ### A run -/

/-- `Smooth`, as a check. -/
def smooth (l : Log) : Action → Bool
  | .restart | .cancelled _ => false
  | .checkDepth _ sent => sent
  | .archive _ _ ok _ => ok
  | .enqueue _ _ _ => l.world.queue.items.length + l.world.queue.inFlight < l.world.queue.capacity
  | .save _ outcome _ => outcome = .ok
  | _ => true

variable (key) in
theorem smooth_sound (l : Log) (a : Action) (h : smooth l a = true) : Smooth key l.world a := by
  refine ⟨?_, fun sid s ha _ _ => ?_⟩
  · rintro rfl
    cases h
  · cases a
    case enqueue =>
      simp only [smooth, decide_eq_true_eq] at h
      exact h
    case save =>
      simp only [smooth, decide_eq_true_eq] at h
      exact h
    case cancelled => cases h
    case checkDepth => exact h
    case archive => exact h
    all_goals exact trivial

/-- A valid batch with the numbers from `first` to `last`. -/
def batchFrom (id : String) (first last : ℕ) : ObservationBatch :=
  let observations := (List.range' first (last + 1 - first)).map plainObservation
  { batchId := id, firstSequence := first, lastSequence := last,
    payloadChecksum := batchChecksum plainCodec observations, observations := observations }

/-- After the first batch come a gap, an overlap and a duplicate. -/
def overlappingRun : List Action :=
  plainRun ++ [.recv 0 (some (.batch (batchFrom "gap" 3 3))) true,
    .recv 0 (some (.batch (batchFrom "overlap" 1 2))) true, .checkDepth 0 true,
    .archive 0 ⟨0, 0⟩ true true,
    .enqueue 0 true true, .lease, .persist (fun _ => .ok), .markPersisted, .commit, .notified 0,
    .save 0 .ok true, .publish 0 true, .recv 0 (some (.batch plainBatch)) true, .recv 0 none true]

theorem exactly_once_overlappingRun : ∃ l : Log, l.arrived.length = 4 ∧
    (l.queued.flatMap (·.observationSet.observations)).map (·.sequence) = [1, 2] ∧
    ExactlyOnce plainEnv (clusterKey "t" "c") l 0 := by
  have hrun : (Machine.run (Machine.guarded (watched plainEnv (clusterKey "t" "c")) smooth)
      (Log.start plainEnv (World.initial plainEnv fun _ _ => 0)) overlappingRun).map (fun l =>
        (l.loaded, l.arrived.length, l.world.active (clusterKey "t" "c"),
          l.world.persistedThrough (clusterKey "t" "c"))) = some (some 0, 4, none, 2) := by
    decide +kernel
  obtain ⟨l, hl, hfacts⟩ := Option.map_eq_some_iff.mp hrun
  simp only [Prod.mk.injEq] at hfacts
  obtain ⟨hloaded, harrived, hactive, hwatermark⟩ := hfacts
  have hreach := Machine.Reach.of_guarded (smooth_sound (clusterKey "t" "c")) hl
  have hrest : ∀ sid s, l.world.sessions sid = some s → s.key = clusterKey "t" "c" →
      s.phase.pending = none := by
    intro sid s here hk
    have := (reach_ok hreach).1.owned.active sid s here
    rw [hk, hactive] at this
    cases this
  have honce := (exactly_once plainEnv _ "t" "c" hreach hrest).2 0 hloaded
  refine ⟨l, harrived, ?_, honce⟩
  rw [honce.sequences, hwatermark]
  rfl

end Ingestion
end KubeCost
