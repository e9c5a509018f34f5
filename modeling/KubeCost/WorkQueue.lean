/-
# Work queues that take failed items up again

Items arrive and wait until an attempt at them succeeds; a failed attempt leaves the
item waiting, and whatever it did before it failed stays done. Each item is about one
object and acts on the state of that object alone.

Items about different objects may overtake each other. As long as none overtakes an
earlier one about its own object, what still waits leads every object to where all
that arrived leads it (`Agrees`): it does so at the start, an arrival and an attempt
keep it so (`Agrees.arrive`, `Agrees.retry`, `Agrees.finish`), and when nothing waits
the queue has done what one pass in the order of arrival does (`Agrees.eq`).
-/
import Mathlib.Data.List.Basic

namespace KubeCost
namespace WorkQueue

variable {X O S : Type*}

/-- What the items are about, and what an item does to the state of its object. -/
structure Work (X O S : Type*) where
  object : X → O
  effect : X → S → S

namespace Work

variable {w : Work X O S} {arrived waiting before after : List X} {x : X} {start s t : O → S}

/-- A successful attempt. -/
structure Finishes (w : Work X O S) (x : X) (s t : O → S) : Prop where
  own : t (w.object x) = w.effect x (s (w.object x))
  other : ∀ o, o ≠ w.object x → t o = s o

/-- A failed attempt: its traces are covered when the item succeeds. -/
structure Fails (w : Work X O S) (x : X) (s t : O → S) : Prop where
  own : w.effect x (t (w.object x)) = w.effect x (s (w.object x))
  other : ∀ o, o ≠ w.object x → t o = s o

/-- Another way to do the same to `x`. -/
theorem Finishes.congr {v : Work X O S} (h : w.Finishes x s t) (hobject : v.object = w.object)
    (heffect : v.effect x = w.effect x) : v.Finishes x s t := by
  refine ⟨?_, fun o ho => h.other o (hobject ▸ ho)⟩
  rw [hobject, heffect]
  exact h.own

theorem Fails.congr {v : Work X O S} (h : w.Fails x s t) (hobject : v.object = w.object)
    (heffect : v.effect x = w.effect x) : v.Fails x s t := by
  refine ⟨?_, fun o ho => h.other o (hobject ▸ ho)⟩
  rw [hobject, heffect]
  exact h.own

variable [DecidableEq O]

/-- The items one after the other, as the object `o` sees them. -/
def settle (w : Work X O S) (o : O) (items : List X) (state : S) : S :=
  (items.filter (w.object · = o)).foldl (fun state x => w.effect x state) state

/-- What waits leads where all that arrived leads. -/
def Agrees (w : Work X O S) (start s : O → S) (arrived waiting : List X) : Prop :=
  ∀ o, w.settle o waiting (s o) = w.settle o arrived (start o)

theorem settle_append (o : O) (items more : List X) (state : S) :
    w.settle o (items ++ more) state = w.settle o more (w.settle o items state) := by
  rw [settle, List.filter_append, List.foldl_append]
  rfl

theorem settle_cons_own (x : X) (items : List X) (state : S) :
    w.settle (w.object x) (x :: items) state = w.settle (w.object x) items (w.effect x state) := by
  rw [settle, List.filter_cons_of_pos (by rw [decide_eq_true rfl]), List.foldl_cons]
  rfl

theorem settle_cons_other {o : O} (h : o ≠ w.object x) (items : List X) (state : S) :
    w.settle o (x :: items) state = w.settle o items state := by
  rw [settle, List.filter_cons_of_neg (by rw [decide_eq_true_eq]; exact Ne.symm h)]
  rfl

/-- Items about other objects are not seen. -/
theorem settle_of_forall {o : O} (h : ∀ y ∈ before, w.object y ≠ o) (state : S) :
    w.settle o before state = state := by
  rw [settle, List.filter_eq_nil_iff.mpr fun y hy hdec => h y hy (of_decide_eq_true hdec)]
  rfl

namespace Agrees

theorem refl (start : O → S) : w.Agrees start start [] [] := fun _ => rfl

theorem arrive (h : w.Agrees start s arrived waiting) (x : X) :
    w.Agrees start s (arrived ++ [x]) (waiting ++ [x]) := by
  intro o
  rw [settle_append, settle_append, h o]

/-- A failed attempt that overtakes nothing about its object. -/
theorem retry (h : w.Agrees start s arrived (before ++ x :: after))
    (hfirst : ∀ y ∈ before, w.object y ≠ w.object x) (hfails : w.Fails x s t) :
    w.Agrees start t arrived (before ++ x :: after) := by
  intro o
  rw [← h o]
  by_cases ho : o = w.object x
  · subst ho
    simp only [settle_append, settle_of_forall hfirst, settle_cons_own, hfails.own]
  · rw [hfails.other o ho]

/-- A successful attempt that overtakes nothing about its object. -/
theorem finish (h : w.Agrees start s arrived (before ++ x :: after))
    (hfirst : ∀ y ∈ before, w.object y ≠ w.object x) (hdone : w.Finishes x s t) :
    w.Agrees start t arrived (before ++ after) := by
  intro o
  rw [← h o]
  by_cases ho : o = w.object x
  · subst ho
    simp only [settle_append, settle_of_forall hfirst, settle_cons_own, hdone.own]
  · rw [hdone.other o ho, settle_append, settle_append, settle_cons_other ho]

/-- **When nothing waits, the queue has done what arrived, in order.** -/
theorem eq (h : w.Agrees start s arrived []) (o : O) : s o = w.settle o arrived (start o) := h o

end Agrees
end Work
end WorkQueue
end KubeCost
