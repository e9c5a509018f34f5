/-
# Machines that take step after step

A machine is a partial step function over actions. `run` takes a list of
actions; `Reach` is what some run reaches when every step meets a condition on
the state and the action it takes. An invariant is proved on one step and holds
in every state reached (`Reach.invariant`), and a simulation on one step relates whole
runs (`Reach.simulate`). A step that writes one entry of a map in
the state leaves the others (`update_eq_some`).
-/
import Mathlib.Data.Nat.Notation
import Mathlib.Logic.Function.Basic

namespace KubeCost
namespace Machine

variable {σ α : Type*} {step : σ → α → Option σ} {ok : σ → α → Prop} {s s' s'' : σ}

/-- One action after the other; `none` when one of them is not possible. -/
def run (step : σ → α → Option σ) : σ → List α → Option σ
  | s, [] => some s
  | s, a :: as => (step s a).bind fun s' => run step s' as

theorem run_append : ∀ (as bs : List α) (s : σ),
    run step s (as ++ bs) = (run step s as).bind fun s' => run step s' bs
  | [], _, _ => rfl
  | a :: as, bs, s => by
    cases h : step s a with
    | none => simp only [List.cons_append, run, h, Option.bind_none]
    | some s' => simp only [List.cons_append, run, h, Option.bind_some, run_append as bs s']

/-- The machine that takes a step only when it passes a check. -/
def guarded (step : σ → α → Option σ) (check : σ → α → Bool) (s : σ) (a : α) : Option σ :=
  if check s a = true then step s a else none

/-- The states that runs reach from `s` when every step meets `ok`. -/
inductive Reach (step : σ → α → Option σ) (ok : σ → α → Prop) (s : σ) : σ → Prop
  | refl : Reach step ok s s
  | tail {s' s'' : σ} {a : α} (reach : Reach step ok s s') (meets : ok s' a)
      (steps : step s' a = some s'') : Reach step ok s s''

/-- The condition that every step meets. -/
def Always (_ : σ) (_ : α) : Prop := True

namespace Reach

/-- **An invariant of one step holds in every state reached.** -/
theorem invariant {I : σ → Prop} (start : I s)
    (keeps : ∀ s' a s'', I s' → ok s' a → step s' a = some s'' → I s'')
    (h : Reach step ok s s') : I s' := by
  induction h with
  | refl => exact start
  | tail _ meets steps ih => exact keeps _ _ _ ih meets steps

theorem head {a : α} (meets : ok s a) (steps : step s a = some s')
    (h : Reach step ok s' s'') : Reach step ok s s'' := by
  induction h with
  | refl => exact Reach.refl.tail meets steps
  | tail _ meets' steps' ih => exact ih.tail meets' steps'

theorem trans (h : Reach step ok s s') (h' : Reach step ok s' s'') : Reach step ok s s'' := by
  induction h' with
  | refl => exact h
  | tail _ meets steps ih => exact ih.tail meets steps

theorem mono {ok' : σ → α → Prop} (imp : ∀ s a, ok s a → ok' s a) (h : Reach step ok s s') :
    Reach step ok' s s' := by
  induction h with
  | refl => exact .refl
  | tail _ meets steps ih => exact ih.tail (imp _ _ meets) steps

/-- **A simulation.** When each step of a machine is matched by a run of another machine, from
related states to related states, each of its runs is matched by one. -/
theorem simulate {τ β : Type*} {step' : τ → β → Option τ} {ok' : τ → β → Prop} {R : σ → τ → Prop} {t : τ}
    (start : R s t) (steps : ∀ s a s' t, R s t → ok s a → step s a = some s' →
      ∃ t', Reach step' ok' t t' ∧ R s' t')
    (h : Reach step ok s s') : ∃ t', Reach step' ok' t t' ∧ R s' t' := by
  induction h with
  | refl => exact ⟨t, .refl, start⟩
  | tail _ meets stepped ih =>
    obtain ⟨t₁, hreach, hrel⟩ := ih
    obtain ⟨t₂, hmore, hrel'⟩ := steps _ _ _ _ hrel meets stepped
    exact ⟨t₂, hreach.trans hmore, hrel'⟩

/-- A run whose actions all meet `ok`, whatever the state, reaches its end. -/
theorem of_run : ∀ {as : List α} {s : σ}, (∀ a ∈ as, ∀ s, ok s a) → run step s as = some s' →
    Reach step ok s s'
  | [], s, _, h => by
    cases h
    exact .refl
  | a :: as, s, hok, h => by
    obtain ⟨s₁, h₁, h₂⟩ := Option.bind_eq_some_iff.mp h
    exact head (hok a (List.mem_cons_self ..) s) h₁
      (of_run (fun b hb => hok b (List.mem_cons_of_mem _ hb)) h₂)

/-- A run that checks each step before it takes it. -/
theorem of_guarded {check : σ → α → Bool} (sound : ∀ s a, check s a = true → ok s a) :
    ∀ {as : List α} {s : σ}, run (guarded step check) s as = some s' → Reach step ok s s'
  | [], s, h => by
    cases h
    exact .refl
  | a :: as, s, h => by
    obtain ⟨s₁, h₁, h₂⟩ := Option.bind_eq_some_iff.mp h
    by_cases hc : check s a = true
    · rw [guarded, if_pos hc] at h₁
      exact head (sound s a hc) h₁ (of_guarded sound h₂)
    · rw [guarded, if_neg hc] at h₁
      cases h₁

end Reach

/-! ### Maps in the state -/

theorem update_eq_some {ι β : Type*} [DecidableEq ι] {f : ι → Option β} {i j : ι} {v : Option β}
    {b : β} (h : Function.update f i v j = some b) : (j = i ∧ v = some b) ∨ (j ≠ i ∧ f j = some b) := by
  by_cases hj : j = i
  · rw [hj, Function.update_self] at h
    exact .inl ⟨hj, h⟩
  · rw [Function.update_of_ne hj] at h
    exact .inr ⟨hj, h⟩

end Machine
end KubeCost
