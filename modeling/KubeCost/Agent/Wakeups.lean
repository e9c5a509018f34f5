/-
# Callers that wait for the agent's buffer

`agent/transport/buffer.go` with its callers as goroutines: any number of calls of
`Publish`, one goroutine that calls `Batch` again and again, and calls of `Acknowledge`
and `Close`. A critical section that ends with a send is two steps here, and in between
the goroutine holds the mutex.

`Publish` waits for room and `Batch` for entries, both on one channel with one slot. A
call of `Publish` that finds the buffer full takes the token that was sent for `Batch`,
finds the buffer still full and parks, and `Batch` parks beside a full buffer
(`batch_stranded`). This takes one call of `Publish` more than the buffer has room for,
and no less: `strands_iff`.
-/
import KubeCost.Agent.Buffer
import KubeCost.Machine
import KubeCost.Waiters

namespace KubeCost
namespace Agent
namespace Wakeups

/-- An event that passes `Validate`. -/
structure ValidEvent where
  event : Event
  observation : Observation
  valid : event.validate = .ok observation

/-- The calls that may wait. -/
inductive Call
  | publish (event : ValidEvent)
  | batch (maximum : ℕ)

/-- The buffer, whose channel is that of the waiters, and the calls of `Publish` to come. -/
structure State where
  buffer : Buffer
  calls : List ValidEvent
  waiters : Waiters Call

/-- `NewBuffer`. -/
def State.start (capacity : ℕ) (calls : List ValidEvent) : State := ⟨.new capacity, calls, .new⟩

/-- The critical section of a goroutine that is going to send. -/
def State.update (s : State) (t : ℕ) (buffer : Buffer) : State :=
  { s with buffer := { buffer with notify := s.buffer.notify }, waiters := s.waiters.hold t }

/-- One round of the loop of `Publish` or `Batch`, up to the release of the mutex. -/
def State.round (C : Codec) (clock : String) (s : State) (t : ℕ) : Call → State
  | .publish event =>
    match s.buffer.publish C clock event.event with
    | .done buffer _ => s.update t buffer
    | .full => { s with waiters := s.waiters.wait t (.publish event) }
    | .closed | .invalid _ => { s with waiters := s.waiters.leave t }
  | .batch maximum =>
    if s.buffer.entries.length > 0 then { s with waiters := s.waiters.leave t }
    else if s.buffer.closed then { s with waiters := s.waiters.leave t }
    else { s with waiters := s.waiters.wait t (.batch maximum) }

inductive Action
  /-- The call of `Publish` at an index of `calls` takes the mutex. -/
  | publish (t i : ℕ) (clock : String)
  /-- Goroutine 0 calls `Batch` and takes the mutex. -/
  | batch (maximum : ℕ)
  /-- A goroutine that has received the token takes the mutex. -/
  | resume (t : ℕ) (clock : String)
  | select (t : ℕ)
  | cancel (t : ℕ)
  | acknowledge (t persistedThrough : ℕ) (terminal : List ℕ)
  | close (t : ℕ)
  | signal

def step (C : Codec) (s : State) : Action → Option State
  | .publish t i clock =>
    match s.calls[i]? with
    | some event =>
      if s.waiters.free t && t != 0 then
        some ({ s with calls := s.calls.eraseIdx i }.round C clock t (.publish event))
      else none
    | none => none
  | .batch maximum => if s.waiters.free 0 then some (s.round C "" 0 (.batch maximum)) else none
  | .resume t clock =>
    match s.waiters.place t, s.waiters.mutex with
    | .woken call, none => some (s.round C clock t call)
    | _, _ => none
  | .select t => (s.waiters.select t).map fun waiters => { s with waiters := waiters }
  | .cancel t => (s.waiters.cancel t).map fun waiters => { s with waiters := waiters }
  | .acknowledge t persistedThrough terminal =>
    if s.waiters.free t then some (s.update t (s.buffer.acknowledge persistedThrough terminal)) else none
  | .close t => if s.waiters.free t then some (s.update t s.buffer.close) else none
  | .signal => s.waiters.signal.map fun waiters => { s with waiters := waiters }

/-- What a call waits for. -/
def Ready (b : Buffer) : Call → Prop
  | .publish _ => b.entries.length < b.capacity ∨ b.closed = true
  | .batch _ => b.entries ≠ [] ∨ b.closed = true

/-- **A stranded caller**: no token is in the channel, with a goroutine or about to be sent,
and somebody is parked who need not wait. -/
def Stranded (s : State) : Prop :=
  s.waiters.Quiet ∧
    ∃ t ∈ s.waiters.parked, ∃ call, s.waiters.place t = .selecting call ∧ Ready s.buffer call

/-! ### While no call of `Publish` has to wait -/

/-- The buffer has room for every call to come; only `Batch` waits; and it is served. -/
structure Inv (s : State) : Prop where
  consistent : s.waiters.Consistent
  room : s.buffer.entries.length + s.calls.length ≤ s.buffer.capacity
  batch : ∀ t call, (s.waiters.place t).call? = some call → t = 0 ∧ ∃ maximum, call = .batch maximum
  served : s.waiters.mutex = none → s.buffer.entries ≠ [] ∨ s.buffer.closed = true → s.waiters.Served

variable {C : Codec} {s s' : State} {t : ℕ}

theorem inv_start {capacity : ℕ} {calls : List ValidEvent} (h : calls.length ≤ capacity) :
    Inv (State.start capacity calls) where
  consistent := Waiters.consistent_new
  room := by simpa [State.start, Buffer.new] using h
  batch := fun _ _ hcall => nomatch hcall
  served := fun _ hready => by simp [State.start, Buffer.new] at hready

/-- The place of one goroutine changes. -/
theorem batch_update {place : ℕ → Place Call}
    (h : ∀ t call, (place t).call? = some call → t = 0 ∧ ∃ maximum, call = .batch maximum)
    {there : Place Call} (ht : ∀ call, there.call? = some call → t = 0 ∧ ∃ maximum, call = .batch maximum)
    (t' : ℕ) (call : Call) (hcall : (Function.update place t there t').call? = some call) :
    t' = 0 ∧ ∃ maximum, call = .batch maximum :=
  (Function.forall_update_iff place fun t there => ∀ call, there.call? = some call →
    t = 0 ∧ ∃ maximum, call = .batch maximum).mpr ⟨ht, fun t' _ => h t'⟩ t' call hcall

theorem Inv.update (h : Inv s) (ht : ∀ call, s.waiters.place t ≠ .selecting call) {buffer : Buffer}
    (hroom : buffer.entries.length + s.calls.length ≤ buffer.capacity) : Inv (s.update t buffer) where
  consistent := h.consistent.hold ht
  room := hroom
  batch := batch_update h.batch fun _ hcall => nomatch hcall
  served := fun hmutex => nomatch hmutex

/-- A round of `Publish`. -/
theorem round_publish (s : State) (t : ℕ) (clock : String) (event : ValidEvent) :
    s.round C clock t (.publish event) =
      if s.buffer.closed then { s with waiters := s.waiters.leave t }
      else if s.buffer.entries.length < s.buffer.capacity then
        s.update t { s.buffer with
          next := s.buffer.next + 1
          entries := s.buffer.entries ++
            [Buffer.stamp C clock event.event.key s.buffer.next event.observation] }.signal
      else { s with waiters := s.waiters.wait t (.publish event) } := by
  by_cases hclosed : s.buffer.closed = true
  · simp only [State.round, Buffer.publish, event.valid, hclosed, if_true]
  · by_cases hroom : s.buffer.entries.length < s.buffer.capacity
    · simp only [State.round, Buffer.publish, event.valid, hclosed, hroom, if_true, if_false,
        Bool.false_eq_true]
    · simp only [State.round, Buffer.publish, event.valid, hclosed, hroom, if_false, Bool.false_eq_true]

/-- A call of `Publish` that begins finds room, or the buffer closed. -/
theorem Inv.publish (h : Inv s) (hfree : s.waiters.free t = true) {i : ℕ} {event : ValidEvent}
    (hi : s.calls[i]? = some event) (clock : String) :
    Inv ({ s with calls := s.calls.eraseIdx i }.round C clock t (.publish event)) := by
  obtain ⟨hlt, -⟩ := List.getElem?_eq_some_iff.mp hi
  have hlength : (s.calls.eraseIdx i).length = s.calls.length - 1 := List.length_eraseIdx_of_lt hlt
  have hroom := h.room
  have hrest : Inv { s with calls := s.calls.eraseIdx i } :=
    ⟨h.consistent, by simp only [hlength]; omega, h.batch, h.served⟩
  rw [round_publish]
  split
  · simp only [Waiters.leave_of_away (Waiters.away_of_free hfree).1]
    exact hrest
  · rw [if_pos (by simp only; omega)]
    refine hrest.update (Waiters.not_selecting_of_free hfree) ?_
    simp only [Buffer.signal, List.length_append, List.length_singleton, hlength]
    omega

/-- A round of `Batch`: nobody else waits. -/
theorem Inv.round (h : Inv s) (ht : ∀ call, s.waiters.place t ≠ .selecting call) (hzero : t = 0)
    (maximum : ℕ) (clock : String) : Inv (s.round C clock t (.batch maximum)) := by
  have hbatch := batch_update (t := t) h.batch
    fun call (hcall : Place.away.call? = some call) => nomatch hcall
  have hleave : Inv { s with waiters := s.waiters.leave t } := by
    refine ⟨h.consistent.leave ht, h.room, hbatch, fun _ _ => .inr (.inr fun t' call hplace => ?_)⟩
    obtain ⟨rfl, -⟩ := hbatch t' call (by
      show ((s.waiters.leave t).place t').call? = some call
      rw [hplace]
      rfl)
    subst hzero
    simp [Waiters.leave] at hplace
  rw [State.round]
  split
  · exact hleave
  · split
    · exact hleave
    · rename_i hentries hclosed
      refine ⟨h.consistent.wait ht _, h.room, batch_update h.batch ?_, ?_⟩
      · rintro call ⟨⟩
        exact ⟨hzero, maximum, rfl⟩
      · rintro - (hready | hready)
        · exact absurd (List.eq_nil_of_length_eq_zero (Nat.eq_zero_of_not_pos hentries)) hready
        · exact absurd hready hclosed

theorem Inv.step (h : Inv s) {a : Action} (hs : step C s a = some s') : Inv s' := by
  cases a with
  | publish t i clock =>
    simp only [Wakeups.step] at hs
    split at hs
    · rename_i event hi
      obtain ⟨hfree, hs⟩ := Option.ite_none_right_eq_some.mp hs
      cases hs
      exact h.publish (Bool.and_eq_true_iff.mp hfree).1 hi clock
    · cases hs
  | batch maximum =>
    obtain ⟨hfree, hs⟩ := Option.ite_none_right_eq_some.mp hs
    cases hs
    exact h.round (Waiters.not_selecting_of_free hfree) rfl maximum _
  | resume t clock =>
    simp only [Wakeups.step] at hs
    split at hs
    · rename_i call hplace hmutex
      cases hs
      obtain ⟨hzero, maximum, rfl⟩ := h.batch t call (by rw [hplace]; rfl)
      exact h.round (Waiters.not_selecting_of_woken hplace) hzero maximum clock
    · cases hs
  | select t =>
    obtain ⟨waiters, hselect, rfl⟩ := Option.map_eq_some_iff.mp hs
    exact ⟨h.consistent.select hselect, h.room,
      fun t' call hcall => h.batch t' call (Waiters.call?_select hselect hcall),
      fun hmutex hready => (h.served (Waiters.select_mutex hselect ▸ hmutex) hready).select hselect⟩
  | cancel t =>
    obtain ⟨waiters, hcancel, rfl⟩ := Option.map_eq_some_iff.mp hs
    exact ⟨h.consistent.cancel hcancel, h.room,
      fun t' call hcall => h.batch t' call (Waiters.call?_cancel hcancel hcall),
      fun hmutex hready => (h.served (Waiters.cancel_mutex hcancel ▸ hmutex) hready).cancel hcancel⟩
  | acknowledge t persistedThrough terminal =>
    obtain ⟨hfree, hs⟩ := Option.ite_none_right_eq_some.mp hs
    cases hs
    refine h.update (Waiters.not_selecting_of_free hfree) ?_
    exact le_trans (Nat.add_le_add_right (List.length_filter_le _ _) _) h.room
  | close t =>
    obtain ⟨hfree, hs⟩ := Option.ite_none_right_eq_some.mp hs
    cases hs
    exact h.update (Waiters.not_selecting_of_free hfree) h.room
  | signal =>
    obtain ⟨waiters, hsignal, rfl⟩ := Option.map_eq_some_iff.mp hs
    exact ⟨h.consistent.signal hsignal, h.room,
      fun t' call hcall => h.batch t' call (Waiters.call?_signal hsignal hcall),
      fun _ _ => Waiters.served_signal h.consistent hsignal⟩

theorem Inv.not_stranded (h : Inv s) : ¬ Stranded s := by
  rintro ⟨hquiet, t, ht, call, hplace, hready⟩
  obtain ⟨-, maximum, rfl⟩ := h.batch t call (by rw [hplace]; rfl)
  exact (h.served hquiet.2.1 hready).not_parked h.consistent hquiet ht

/-! ### One call more -/

/-- `Batch` has found the buffer empty and is about to `select`; then `k` events were
published. -/
structure Filled (C : Codec) (capacity : ℕ) (calls : List ValidEvent) (k : ℕ) (s : State) : Prop where
  reach : Machine.Reach (step C) Machine.Always (State.start capacity calls) s
  length : s.buffer.entries.length = k
  capacity : s.buffer.capacity = capacity
  opened : s.buffer.closed = false
  calls : s.calls.length + k = calls.length
  waiters : s.waiters =
    ⟨Function.update (fun _ => .away) 0 (.selecting (.batch 1)), decide (0 < k), [], none⟩

theorem exists_filled (C : Codec) (capacity : ℕ) (calls : List ValidEvent) : ∀ k, k ≤ capacity →
    k ≤ calls.length → ∃ s, Filled C capacity calls k s
  | 0, _, _ => by
    refine ⟨{ State.start capacity calls with waiters := Waiters.new.wait 0 (.batch 1) },
      Machine.Reach.refl.tail (a := .batch 1) trivial rfl, rfl, rfl, rfl, rfl, rfl⟩
  | k + 1, hroom, hcalls => by
    obtain ⟨s, h⟩ := exists_filled C capacity calls k (by omega) (by omega)
    have hlt : 0 < s.calls.length := by have := h.calls; omega
    have hplace : s.waiters.place 1 = .away := by rw [h.waiters]; rfl
    have hfree : s.waiters.free 1 = true := by rw [h.waiters]; rfl
    have hlength := h.length
    have hcapacity := h.capacity
    have hpublish : step C s (.publish 1 0 "") = some
        ({ s with calls := s.calls.eraseIdx 0 }.round C "" 1 (.publish s.calls[0])) := by
      simp only [step, List.getElem?_eq_getElem hlt, hfree]
      rfl
    rw [round_publish, if_neg (by simp [h.opened]), if_pos (by simp only; omega)] at hpublish
    have hsend : ∀ s₁ : State, s₁.waiters = { s.waiters with mutex := some 1 } →
        step C s₁ .signal = some { s₁ with waiters :=
          ⟨Function.update (fun _ => .away) 0 (.selecting (.batch 1)), true, [], none⟩ } := by
      intro s₁ hs₁
      rw [step, hs₁, h.waiters]
      rfl
    refine ⟨_, (h.reach.tail trivial hpublish).tail trivial
      (hsend _ (Waiters.hold_of_away hplace)), ?_, hcapacity, h.opened, ?_, ?_⟩
    · simp [State.update, Buffer.signal, hlength]
    · have := h.calls
      simp only [State.update, List.length_eraseIdx_of_lt hlt]
      omega
    · simp

theorem round_full {s : State} (hopened : s.buffer.closed = false)
    (hfull : ¬ s.buffer.entries.length < s.buffer.capacity) (clock : String) (t : ℕ) (event : ValidEvent) :
    s.round C clock t (.publish event) = { s with waiters := s.waiters.wait t (.publish event) } := by
  rw [round_publish, if_neg (by simp [hopened]), if_neg hfull]

/-- Goroutine 1 has made one call of `Publish` more; `Batch` is in its `select`. -/
def State.crowd (s : State) (there : Place Call) (token : Bool) (parked : List ℕ) : State where
  buffer := s.buffer
  calls := s.calls.eraseIdx 0
  waiters :=
    { place := Function.update (Function.update (fun _ => .away) 0 (.selecting (.batch 1))) 1 there
      token
      parked
      mutex := none }

section Crowd

variable {capacity : ℕ} {calls : List ValidEvent} {event : ValidEvent}

theorem Filled.not_room (h : Filled C capacity calls capacity s) :
    ¬ s.buffer.entries.length < s.buffer.capacity := by
  rw [h.length, h.capacity]
  exact Nat.lt_irrefl _

/-- The call finds the buffer full. -/
theorem Filled.crowd_publish (h : Filled C capacity calls capacity s) (hcapacity : 1 ≤ capacity)
    (hevent : s.calls[0]? = some event) : step C s (.publish 1 0 "") =
      some (s.crowd (.selecting (.publish event)) true []) := by
  have hfree : s.waiters.free 1 = true := by rw [h.waiters]; rfl
  have hround := round_full (C := C) (s := ⟨s.buffer, s.calls.eraseIdx 0, s.waiters⟩) h.opened
    h.not_room "" 1 event
  have htoken : decide (0 < capacity) = true := decide_eq_true hcapacity
  simp only [step, hevent, hfree, hround]
  simp only [h.waiters, htoken]
  rfl

/-- It takes the token that was sent for `Batch`. -/
theorem crowd_take : step C (s.crowd (.selecting (.publish event)) true []) (.select 1) =
    some (s.crowd (.woken (.publish event)) false []) := by
  simp [step, Waiters.select, State.crowd]

/-- It looks, and the buffer is still full. -/
theorem Filled.crowd_resume (h : Filled C capacity calls capacity s) :
    step C (s.crowd (.woken (.publish event)) false []) (.resume 1 "") =
      some (s.crowd (.selecting (.publish event)) false []) := by
  have hround := round_full (C := C) (s := s.crowd (.woken (.publish event)) false []) h.opened
    h.not_room "" 1 event
  simp only [State.crowd] at hround
  simp only [step, State.crowd, Function.update_self, hround]
  simp [Waiters.wait]

theorem crowd_park : step C (s.crowd (.selecting (.publish event)) false []) (.select 1) =
    some (s.crowd (.selecting (.publish event)) false [1]) := by
  simp [step, Waiters.select, State.crowd]

theorem crowd_batch : step C (s.crowd (.selecting (.publish event)) false [1]) (.select 0) =
    some (s.crowd (.selecting (.publish event)) false [1, 0]) := by
  simp [step, Waiters.select, State.crowd]

theorem crowd_quiet (parked : List ℕ) :
    (s.crowd (.selecting (.publish event)) false parked).waiters.Quiet := by
  refine ⟨rfl, rfl, fun t call => ?_⟩
  simp only [State.crowd, Function.update_apply]
  split
  · exact nofun
  · split <;> exact nofun

/-- **A stranded `Batch`**: one call of `Publish` more than there is room for takes the token
that was sent for `Batch`, which then parks beside a full buffer. -/
theorem exists_stranded (C : Codec) (hcapacity : 1 ≤ capacity) (h : capacity < calls.length) :
    ∃ s, Machine.Reach (step C) Machine.Always (State.start capacity calls) s ∧
      s.waiters.Quiet ∧ 0 ∈ s.waiters.parked ∧ s.waiters.place 0 = .selecting (.batch 1) ∧
      s.buffer.entries.length = capacity := by
  obtain ⟨s, hs⟩ := exists_filled C capacity calls capacity (Nat.le_refl _) (Nat.le_of_lt h)
  have hlt : 0 < s.calls.length := by have := hs.calls; omega
  have hreach := hs.reach.tail trivial
    (hs.crowd_publish hcapacity (List.getElem?_eq_getElem hlt)) |>.tail trivial crowd_take
    |>.tail trivial hs.crowd_resume |>.tail trivial crowd_park |>.tail trivial crowd_batch
  exact ⟨_, hreach, crowd_quiet _, by simp [State.crowd], by simp [State.crowd], hs.length⟩

end Crowd

/-- **When the buffer strands nobody.** For every capacity, in every interleaving of the calls
of `Publish` with a `Batch` caller, `Acknowledge`, `Close` and cancellations: no caller is
ever stranded exactly if the buffer has room for all the calls of `Publish` there are. -/
theorem strands_iff (C : Codec) {capacity : ℕ} (hcapacity : 1 ≤ capacity) (calls : List ValidEvent) :
    (∀ s, Machine.Reach (step C) Machine.Always (State.start capacity calls) s → ¬ Stranded s) ↔
      calls.length ≤ capacity := by
  constructor
  · intro h
    by_contra hmore
    obtain ⟨s, hs, hquiet, hparked, hplace, hlength⟩ := exists_stranded C hcapacity (not_le.mp hmore)
    refine h s hs ⟨hquiet, 0, hparked, _, hplace, .inl fun hempty => ?_⟩
    rw [hempty, List.length_nil] at hlength
    omega
  · intro hroom s hs
    have inv : Inv s := hs.invariant (inv_start hroom) fun _ _ _ hinv _ hstep => hinv.step hstep
    exact inv.not_stranded

def smallEvent : ValidEvent :=
  ⟨⟨"k", some { payload := some (.clusterInventory { record := none }) }⟩, _, rfl⟩

theorem strands_iff_oneCall : [smallEvent].length ≤ 1 ∧ ∀ (C : Codec) (s : State),
    Machine.Reach (step C) Machine.Always (State.start 1 [smallEvent]) s → ¬ Stranded s :=
  ⟨Nat.le_refl 1, fun C => (strands_iff C (Nat.le_refl 1) _).mpr (Nat.le_refl 1)⟩

/-- Two calls of `Publish` and room for one: `Batch` is parked beside a full buffer, no token
is under way, and nobody is left who would send one. -/
theorem batch_stranded : 1 < [smallEvent, smallEvent].length ∧ ∀ C : Codec, ∃ s : State,
    Machine.Reach (step C) Machine.Always (State.start 1 [smallEvent, smallEvent]) s ∧
      s.waiters.place 0 = .selecting (.batch 1) ∧ s.buffer.entries.length = 1 ∧ Stranded s := by
  have hmore : 1 < [smallEvent, smallEvent].length := by decide
  refine ⟨hmore, fun C => ?_⟩
  obtain ⟨s, hs, hquiet, hparked, hplace, hlength⟩ := exists_stranded C (Nat.le_refl 1) hmore
  refine ⟨s, hs, hplace, hlength, hquiet, 0, hparked, _, hplace, .inl fun hempty => ?_⟩
  rw [hempty, List.length_nil] at hlength
  omega

end Wakeups
end Agent
end KubeCost
