/-
# Chains of checks

A validation function of the services is a chain of checks, each of which
returns an error when its condition holds. `rejectIf` is one such check, and the
simp lemmas below read a chain that succeeds as the conjunction of its checks.
-/
import Mathlib.Logic.Basic

namespace KubeCost

/-- `if c { return e }`. -/
def rejectIf {ε : Type*} (c : Prop) [Decidable c] (e : ε) : Except ε Unit :=
  if c then .error e else .ok ()

/-- `if err != nil { return fmt.Errorf(what + ": %w", err) }`. -/
def attempt (what : String) : Option String → Except String Unit
  | none => .ok ()
  | some err => .error (what ++ ": " ++ err)

section

variable {ε : Type*} {α β : Type} {c : Prop} [Decidable c] {e : ε}

@[simp] theorem rejectIf_eq_ok {u : Unit} : rejectIf c e = .ok u ↔ ¬ c := by
  unfold rejectIf; split <;> simp [*]

theorem mapError_eq_ok {ε ε' α : Type*} {x : Except ε α} {f : ε → ε'} {a : α} :
    x.mapError f = .ok a ↔ x = .ok a := by
  cases x with
  | error e => constructor <;> intro h <;> cases h
  | ok b => constructor <;> intro h <;> cases h <;> rfl

theorem attempt_eq_ok {what : String} {err : Option String} {u : Unit} :
    attempt what err = .ok u ↔ err = none := by
  cases err <;> simp [attempt]

/-- A sequence of two computations succeeds when both do. -/
theorem bind_eq_ok {x : Except ε α} {k : α → Except ε β} {r : β} :
    (x >>= k) = .ok r ↔ ∃ a, x = .ok a ∧ k a = .ok r := by
  cases x <;> simp [bind, Except.bind]

/-- A check followed by the rest of its chain. -/
theorem check_bind_ok {x : Except ε Unit} {k : Unit → Except ε β} {r : β} :
    (x >>= k) = .ok r ↔ x = .ok () ∧ k () = .ok r := by
  rw [bind_eq_ok]
  exact ⟨fun ⟨(), h⟩ => h, fun h => ⟨(), h⟩⟩

/-- A loop of checks succeeds when each does. -/
theorem forM_eq_ok {α : Type} {f : α → Except ε Unit} : ∀ {l : List α} {u : Unit},
    l.forM f = .ok u ↔ ∀ a ∈ l, f a = .ok ()
  | [], _ => by simp [List.forM, pure, Except.pure]
  | a :: l, u => by
    rw [List.forM, check_bind_ok, List.forall_mem_cons]
    exact and_congr_right fun _ => forM_eq_ok

/-- A loop that collects results has those of all its elements. -/
theorem mem_of_mapM_ok {f : α → Except ε β} : ∀ {l : List α} {bs : List β}, l.mapM f = .ok bs →
    ∀ {b : β}, b ∈ bs ↔ ∃ a ∈ l, f a = .ok b
  | [], bs, h, b => by
    cases h
    simp
  | a :: l, bs, h, b => by
    rw [List.mapM_cons] at h
    obtain ⟨first, hfirst, h⟩ := bind_eq_ok.mp h
    obtain ⟨rest, hrest, h⟩ := bind_eq_ok.mp h
    obtain rfl := Except.ok.inj h
    rw [List.mem_cons, mem_of_mapM_ok hrest]
    simp [hfirst, eq_comm]

end

end KubeCost
