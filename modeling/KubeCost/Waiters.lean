/-
# Goroutines that wait on a channel with one slot

A mutex guards some state; a goroutine that finds its condition false releases the mutex
and waits in a `select` on a channel with one slot, and looks again when it has received
the token. A send does not block: the token goes to the goroutine that has been parked
the longest, else into the slot, and is dropped when the slot is taken.

Between the release of the mutex and the `select` a goroutine is not parked yet, and
after the send it has not looked yet. `Served` is what a wakeup discipline has to keep
up while the condition holds: a token in the slot, or a goroutine with one, or nobody
who waits. A send establishes it (`served_signal`), and neither a `select` nor a
cancellation loses it (`Served.select`, `Served.cancel`).
-/
import Mathlib.Data.List.Nodup
import Mathlib.Logic.Function.Basic

namespace KubeCost

/-- Where a goroutine is, in a call of type `κ`. -/
inductive Place (κ : Type*)
  /-- Outside of any wait. -/
  | away
  /-- It has released the mutex; about to `select`, or parked there. -/
  | selecting (call : κ)
  /-- It has received the token and has not taken the mutex again. -/
  | woken (call : κ)

/-- The call that the goroutine has to come back to. -/
def Place.call? {κ : Type*} : Place κ → Option κ
  | .away => none
  | .selecting call | .woken call => some call

structure Waiters (κ : Type*) where
  place : ℕ → Place κ
  /-- Whether the slot of the channel is taken. -/
  token : Bool
  /-- The goroutines parked on the channel, the longest first. -/
  parked : List ℕ
  /-- The goroutine that holds the mutex and is going to send. -/
  mutex : Option ℕ

namespace Waiters

variable {κ : Type*} {w w' : Waiters κ} {t : ℕ} {call : κ}

def new : Waiters κ := ⟨fun _ => .away, false, [], none⟩

/-- The goroutine is in no call, and the mutex is free. -/
def free (w : Waiters κ) (t : ℕ) : Bool :=
  match w.place t, w.mutex with
  | .away, none => true
  | _, _ => false

/-! ### Steps -/

/-- The condition was false: the mutex is released. -/
def wait (w : Waiters κ) (t : ℕ) (call : κ) : Waiters κ :=
  { w with place := Function.update w.place t (.selecting call) }

/-- The goroutine releases the mutex and is through. -/
def leave (w : Waiters κ) (t : ℕ) : Waiters κ := { w with place := Function.update w.place t .away }

/-- The goroutine is through but for a send, for which it holds the mutex. -/
def hold (w : Waiters κ) (t : ℕ) : Waiters κ :=
  { w with place := Function.update w.place t .away, mutex := some t }

/-- The `select`: it takes the token, or parks. -/
def select (w : Waiters κ) (t : ℕ) : Option (Waiters κ) :=
  match w.place t with
  | .selecting call =>
    if t ∈ w.parked then none
    else if w.token then
      some { w with place := Function.update w.place t (.woken call), token := false }
    else some { w with parked := w.parked ++ [t] }
  | _ => none

/-- The `select` takes its other case, that of a cancelled context. -/
def cancel (w : Waiters κ) (t : ℕ) : Option (Waiters κ) :=
  match w.place t with
  | .selecting _ =>
    some { w with place := Function.update w.place t .away, parked := w.parked.erase t }
  | _ => none

/-- A send that does not block. -/
def send (w : Waiters κ) : Waiters κ :=
  match w.parked with
  | [] => { w with token := true }
  | t :: parked =>
    match w.place t with
    | .selecting call => { w with place := Function.update w.place t (.woken call), parked := parked }
    | _ => { w with parked := parked }

/-- The send of the goroutine that holds the mutex, which it releases. -/
def signal (w : Waiters κ) : Option (Waiters κ) :=
  match w.mutex with
  | none => none
  | some _ => some { w with mutex := none }.send

theorem away_of_free (h : w.free t = true) : w.place t = .away ∧ w.mutex = none := by
  unfold free at h
  split at h
  · exact ⟨‹_›, ‹_›⟩
  · cases h

theorem not_selecting_of_free (h : w.free t = true) (call : κ) : w.place t ≠ .selecting call := by
  rw [(away_of_free h).1]
  exact nofun

theorem not_selecting_of_woken (h : w.place t = .woken call) (call' : κ) :
    w.place t ≠ .selecting call' := by
  rw [h]
  exact nofun

theorem leave_of_away (h : w.place t = .away) : w.leave t = w := by
  rw [leave, ← h, Function.update_eq_self]

theorem hold_of_away (h : w.place t = .away) : w.hold t = { w with mutex := some t } := by
  rw [hold, ← h, Function.update_eq_self]

theorem select_mutex (h : w.select t = some w') : w'.mutex = w.mutex := by
  unfold select at h
  grind

theorem cancel_mutex (h : w.cancel t = some w') : w'.mutex = w.mutex := by
  unfold cancel at h
  grind

theorem call?_update {place : ℕ → Place κ} {there : Place κ} {t' : ℕ}
    (hthere : ∀ call, there.call? = some call → (place t).call? = some call)
    (h : (Function.update place t there t').call? = some call) : (place t').call? = some call := by
  by_cases heq : t' = t
  · subst heq
    rw [Function.update_self] at h
    exact hthere call h
  · rwa [Function.update_of_ne heq] at h

/-- A `select`, a cancellation and a send start no call. -/
theorem call?_select (h : w.select t = some w') {t' : ℕ} (ht' : (w'.place t').call? = some call) :
    (w.place t').call? = some call := by
  unfold select at h
  split at h
  · rename_i call' hplace
    split at h
    · cases h
    · split at h
      · cases h
        exact call?_update (fun _ hcall => by rw [hplace]; exact hcall) ht'
      · cases h
        exact ht'
  · cases h

theorem call?_cancel (h : w.cancel t = some w') {t' : ℕ} (ht' : (w'.place t').call? = some call) :
    (w.place t').call? = some call := by
  unfold cancel at h
  split at h
  · cases h
    exact call?_update (fun _ hcall => by cases hcall) ht'
  · cases h

theorem call?_send {t' : ℕ} (ht' : (w.send.place t').call? = some call) :
    (w.place t').call? = some call := by
  unfold send at ht'
  split at ht'
  · exact ht'
  · split at ht'
    · rename_i call' hplace
      exact call?_update (fun _ hcall => by rw [hplace]; exact hcall) ht'
    · exact ht'

theorem call?_signal (h : w.signal = some w') {t' : ℕ} (ht' : (w'.place t').call? = some call) :
    (w.place t').call? = some call := by
  unfold signal at h
  split at h
  · cases h
  · cases h
    exact call?_send (w := { w with mutex := none }) ht'

/-! ### What is parked -/

/-- Who is parked is in its `select`, and there once. -/
structure Consistent (w : Waiters κ) : Prop where
  nodup : w.parked.Nodup
  selecting : ∀ t ∈ w.parked, ∃ call, w.place t = .selecting call

/-- A token is under way, or nobody waits. -/
def Served (w : Waiters κ) : Prop :=
  w.token = true ∨ (∃ t call, w.place t = .woken call) ∨ ∀ t call, w.place t ≠ .selecting call

/-- No token is in the slot, with a goroutine, or about to be sent. -/
def Quiet (w : Waiters κ) : Prop :=
  w.token = false ∧ w.mutex = none ∧ ∀ t call, w.place t ≠ .woken call

theorem consistent_new : (new : Waiters κ).Consistent :=
  ⟨List.nodup_nil, fun _ h => absurd h List.not_mem_nil⟩

namespace Consistent

/-- Another place for a goroutine that is not parked. -/
theorem update {place : ℕ → Place κ} {parked : List ℕ} (hnodup : parked.Nodup)
    (hselecting : ∀ t' ∈ parked, ∃ call, place t' = .selecting call) (ht : t ∉ parked)
    (there : Place κ) (token : Bool) (mutex : Option ℕ) :
    Consistent ⟨Function.update place t there, token, parked, mutex⟩ := by
  refine ⟨hnodup, fun t' ht' => ?_⟩
  have hne : t' ≠ t := fun heq => ht (heq ▸ ht')
  show ∃ call, Function.update place t there t' = .selecting call
  rw [Function.update_of_ne hne]
  exact hselecting t' ht'

theorem not_parked (h : w.Consistent) (ht : ∀ call, w.place t ≠ .selecting call) : t ∉ w.parked :=
  fun hmem => (h.selecting t hmem).elim ht

theorem wait (h : w.Consistent) (ht : ∀ call, w.place t ≠ .selecting call) (call : κ) :
    (w.wait t call).Consistent :=
  update h.nodup h.selecting (h.not_parked ht) _ _ _

theorem leave (h : w.Consistent) (ht : ∀ call, w.place t ≠ .selecting call) : (w.leave t).Consistent :=
  update h.nodup h.selecting (h.not_parked ht) _ _ _

theorem hold (h : w.Consistent) (ht : ∀ call, w.place t ≠ .selecting call) : (w.hold t).Consistent :=
  update h.nodup h.selecting (h.not_parked ht) _ _ _

theorem select (h : w.Consistent) (hs : w.select t = some w') : w'.Consistent := by
  unfold Waiters.select at hs
  split at hs
  · rename_i call hplace
    split at hs
    · cases hs
    · rename_i hparked
      split at hs
      · cases hs
        exact update h.nodup h.selecting hparked _ _ _
      · cases hs
        refine ⟨List.nodup_append.mpr ⟨h.nodup, List.nodup_singleton t, ?_⟩, fun t' ht' => ?_⟩
        · rintro a ha _ hb rfl
          exact hparked (List.mem_singleton.mp hb ▸ ha)
        · rcases List.mem_append.mp ht' with ht' | ht'
          · exact h.selecting t' ht'
          · rw [List.mem_singleton.mp ht']
            exact ⟨call, hplace⟩
  · cases hs

theorem cancel (h : w.Consistent) (hs : w.cancel t = some w') : w'.Consistent := by
  unfold Waiters.cancel at hs
  split at hs
  · cases hs
    exact update (h.nodup.erase t) (fun t' ht' => h.selecting t' (List.mem_of_mem_erase ht'))
      (fun ht => (h.nodup.mem_erase_iff.mp ht).1 rfl) _ _ _
  · cases hs

theorem send (h : w.Consistent) : w.send.Consistent := by
  unfold Waiters.send
  split
  · exact ⟨h.nodup, h.selecting⟩
  · rename_i t parked hparked
    have hnodup := h.nodup
    rw [hparked, List.nodup_cons] at hnodup
    have hselecting : ∀ t' ∈ parked, ∃ call, w.place t' = .selecting call := fun t' ht' =>
      h.selecting t' (hparked ▸ List.mem_cons_of_mem _ ht')
    split
    · exact update hnodup.2 hselecting hnodup.1 _ _ _
    · exact ⟨hnodup.2, hselecting⟩

theorem signal (h : w.Consistent) (hs : w.signal = some w') : w'.Consistent := by
  unfold Waiters.signal at hs
  split at hs
  · cases hs
  · cases hs
    exact Consistent.send ⟨h.nodup, h.selecting⟩

end Consistent

/-! ### What keeps waiters served -/

/-- **A send serves the waiters.** -/
theorem served_send (h : w.Consistent) : w.send.Served := by
  unfold send
  split
  · exact .inl rfl
  · rename_i t parked hparked
    obtain ⟨call, hplace⟩ := h.selecting t (hparked ▸ List.mem_cons_self)
    simp only [hplace]
    exact .inr (.inl ⟨t, call, Function.update_self ..⟩)

theorem served_signal (h : w.Consistent) (hs : w.signal = some w') : w'.Served := by
  unfold signal at hs
  split at hs
  · cases hs
  · cases hs
    exact served_send ⟨h.nodup, h.selecting⟩

theorem Served.select (h : w.Served) (hs : w.select t = some w') : w'.Served := by
  unfold Waiters.select at hs
  split at hs
  · rename_i call hplace
    split at hs
    · cases hs
    · split at hs
      · cases hs
        exact .inr (.inl ⟨t, call, Function.update_self ..⟩)
      · -- the one who parks was waiting already
        rename_i htoken
        cases hs
        rcases h with h | h | h
        · exact absurd h htoken
        · exact .inr (.inl h)
        · exact absurd hplace (h t call)
  · cases hs

theorem Served.cancel (h : w.Served) (hs : w.cancel t = some w') : w'.Served := by
  unfold Waiters.cancel at hs
  split at hs
  · rename_i call hplace
    cases hs
    rcases h with h | ⟨t', call', ht'⟩ | h
    · exact .inl h
    · have hne : t' ≠ t := by
        rintro rfl
        rw [hplace] at ht'
        cases ht'
      exact .inr (.inl ⟨t', call', (Function.update_of_ne hne _ _).trans ht'⟩)
    · exact absurd hplace (h t call)
  · cases hs

/-- **Where all is quiet and waiters are served, nobody is parked.** -/
theorem Served.not_parked (h : w.Served) (hc : w.Consistent) (hquiet : w.Quiet) : t ∉ w.parked := by
  intro ht
  obtain ⟨call, hplace⟩ := hc.selecting t ht
  rcases h with h | ⟨t', call', ht'⟩ | h
  · exact Bool.false_ne_true (hquiet.1.symm.trans h)
  · exact hquiet.2.2 t' call' ht'
  · exact h t call hplace

end Waiters
end KubeCost
