/-
# The windows of the samples

`Sampler.Start` samples at once and then on every tick that it receives. A window is the
interval before the sample, whenever the sample comes: the ticker keeps a tick for a
sampler that is busy, so a late sample and the next one on time are closer than the
interval, and their windows overlap (`late_sample_overlaps`).

`windows_apart_iff` says when no two windows of a container overlap, so that no instant is
counted twice: when every two consecutive samples that publish an observation of it are at
least the interval apart. `schedule_sorted` says that the instants of `Start` do not go
back.
-/
import Mathlib.Data.List.Chain
import KubeCost.Agent.Sampler

namespace KubeCost
namespace Agent
namespace Metrics

/-! ### The instants of `Start` -/

/-- What a turn of the loop takes: the time until the sample reads the clock, and the time
from there to its end. -/
structure Turn where
  latency : ℕ
  duration : ℕ

/-- The first tick after an instant, of a ticker made at `made`. -/
def nextTick (interval made after : Instant) : Instant :=
  made + ((after - made) / interval + 1) * interval

/-- The loop of `Start`, free again at `free` after it received a tick at `received`. The
channel holds one tick: the first since then is received at once or awaited, others are
dropped. -/
def schedule (interval made : Instant) : Instant → Instant → List Turn → List Instant
  | _, _, [] => []
  | received, free, turn :: rest =>
    let received := max free (nextTick interval made received)
    let sampled := received + turn.latency
    sampled :: schedule interval made received (sampled + turn.duration) rest

/-- The instants at which `Start` samples, when it makes its ticker at `made`. -/
def startSchedule (interval made : Instant) (first : Turn) (rest : List Turn) : List Instant :=
  (made + first.latency) ::
    schedule interval made made (made + first.latency + first.duration) rest

theorem le_schedule (interval made : Instant) : ∀ (turns : List Turn) (received free : Instant),
    ∀ t ∈ schedule interval made received free turns, free ≤ t
  | [], _, _, _, h => absurd h List.not_mem_nil
  | turn :: rest, received, free, t, h => by
    unfold schedule at h
    have hreceived : free ≤ max free (nextTick interval made received) := le_max_left _ _
    rcases List.mem_cons.mp h with rfl | h
    · exact hreceived.trans (le_add_of_nonneg_right (Int.natCast_nonneg _))
    · refine le_trans ?_ (le_schedule interval made rest _ _ t h)
      exact hreceived.trans ((le_add_of_nonneg_right (Int.natCast_nonneg _)).trans
        (le_add_of_nonneg_right (Int.natCast_nonneg _)))

theorem schedule_sorted (interval made : Instant) : ∀ (turns : List Turn) (received free : Instant),
    (schedule interval made received free turns).Pairwise (· ≤ ·)
  | [], _, _ => List.Pairwise.nil
  | turn :: rest, received, free => by
    unfold schedule
    refine List.pairwise_cons.mpr ⟨fun t ht => ?_, schedule_sorted interval made rest _ _⟩
    exact (le_add_of_nonneg_right (Int.natCast_nonneg _)).trans (le_schedule _ _ _ _ _ t ht)

/-- **The instants of `Start` do not go back.** -/
theorem startSchedule_sorted (interval made : Instant) (first : Turn) (rest : List Turn) :
    (startSchedule interval made first rest).Pairwise (· ≤ ·) := by
  refine List.pairwise_cons.mpr ⟨fun t ht => ?_, schedule_sorted interval made rest _ _⟩
  exact (le_add_of_nonneg_right (Int.natCast_nonneg _)).trans (le_schedule _ _ _ _ _ t ht)

/-! ### Windows -/

def TimeWindow.Covers (w : TimeWindow) (t : Instant) : Prop := w.start ≤ t ∧ t < w.stop

instance (w : TimeWindow) (t : Instant) : Decidable (w.Covers t) := inferInstanceAs (Decidable (_ ∧ _))

/-- No instant is in both windows. -/
def TimeWindow.Apart (w w' : TimeWindow) : Prop := ∀ t, ¬ (w.Covers t ∧ w'.Covers t)

theorem no_common_iff {interval t u : ℤ} (hle : t ≤ u) :
    (∀ x : ℤ, ¬ ((t - interval ≤ x ∧ x < t) ∧ u - interval ≤ x ∧ x < u)) ↔ interval ≤ u - t := by
  constructor
  · intro h
    by_contra hlt
    exact h (u - interval) ⟨⟨by omega, by omega⟩, by omega, by omega⟩
  · rintro h x ⟨⟨h₁, h₂⟩, h₃, h₄⟩
    omega

theorem distances_add {interval t u v : ℤ} (hpos : 0 ≤ interval) (h : interval ≤ u - t)
    (h' : interval ≤ v - u) : interval ≤ v - t := by
  omega

/-- The windows of two samples are apart exactly if the samples are. -/
theorem apart_iff {interval t u : Instant} (hle : t ≤ u) :
    (windowAt interval t).Apart (windowAt interval u) ↔ interval ≤ u - t := no_common_iff hle

/-- Of windows that are apart at most one covers an instant. -/
theorem length_covering_le {windows : List TimeWindow} (h : windows.Pairwise TimeWindow.Apart)
    (t : Instant) : (windows.filter fun w => w.Covers t).length ≤ 1 := by
  have hcovers : ∀ w ∈ windows.filter (fun w => w.Covers t), w.Covers t := fun w hw =>
    of_decide_eq_true (List.mem_filter.mp hw).2
  have hapart := h.filter fun w => decide (w.Covers t)
  rcases hl : windows.filter (fun w => decide (w.Covers t)) with _ | ⟨a, _ | ⟨b, rest⟩⟩
  · rw [hl]
    exact Nat.zero_le 1
  · rw [hl]
    exact Nat.le_refl 1
  · rw [hl] at hapart hcovers
    exact absurd ⟨hcovers a List.mem_cons_self, hcovers b (List.mem_cons_of_mem _ List.mem_cons_self)⟩
      ((List.pairwise_cons.mp hapart).1 b List.mem_cons_self t)

/-- A sample of a run: when it reads the clock, and what it gets from outside. -/
structure Sampling where
  time : Instant
  readings : Readings

/-- What a run publishes. -/
def published (interval : Instant) (samplings : List Sampling) : List MetricEvent :=
  samplings.flatMap fun s => (sample interval s.readings s.time).1

/-- The samples that publish an observation of the container. -/
def observing (interval : Instant) (container : ContainerIdentity) (samplings : List Sampling) :
    List Sampling :=
  samplings.filter fun s => windowsOf container (sample interval s.readings s.time).1 ≠ []

/-- **Each sample that publishes an observation of a container gives it one window**, up to
the instant of the sample. -/
theorem windowsOf_published (interval : Instant) (container : ContainerIdentity) :
    ∀ samplings : List Sampling, windowsOf container (published interval samplings) =
      (observing interval container samplings).map fun s => windowAt interval s.time
  | [] => rfl
  | s :: rest => by
    have ih := windowsOf_published interval container rest
    have hcons : windowsOf container (published interval (s :: rest)) =
        windowsOf container (sample interval s.readings s.time).1 ++
          windowsOf container (published interval rest) := List.filterMap_append
    rw [hcons, ih]
    rcases windowsOf_sample interval s.readings s.time container with h | h
    · have hskip : observing interval container (s :: rest) = observing interval container rest :=
        List.filter_cons_of_neg (by simp [h])
      rw [h, hskip]
      rfl
    · have hkeep : observing interval container (s :: rest) = s :: observing interval container rest :=
        List.filter_cons_of_pos (by simp [h])
      rw [h, hkeep]
      rfl

/-- **When the windows do not overlap.** For every interval and every samples whose instants
do not go back: no two windows of a container overlap, and no instant is counted twice,
exactly if every two consecutive samples that publish an observation of the container are
at least the interval apart. -/
theorem windows_apart_iff (interval : Instant) (samplings : List Sampling)
    (hsorted : samplings.Pairwise fun s s' => s.time ≤ s'.time) (container : ContainerIdentity) :
    ((windowsOf container (published (newInterval interval) samplings)).Pairwise TimeWindow.Apart ∧
      ∀ t, ((windowsOf container (published (newInterval interval) samplings)).filter
        fun w => w.Covers t).length ≤ 1) ↔
    (observing (newInterval interval) container samplings).IsChain fun s s' =>
      newInterval interval ≤ s'.time - s.time := by
  have hpos := newInterval_pos interval
  have hle := hsorted.filter fun s =>
    decide (windowsOf container (sample (newInterval interval) s.readings s.time).1 ≠ [])
  have hpairwise : (windowsOf container (published (newInterval interval) samplings)).Pairwise
        TimeWindow.Apart ↔ (observing (newInterval interval) container samplings).Pairwise
        fun s s' => newInterval interval ≤ s'.time - s.time := by
    rw [windowsOf_published, List.pairwise_map]
    constructor
    · exact fun h => (h.and hle).imp fun hs => (apart_iff hs.2).mp hs.1
    · exact fun h => (h.and hle).imp fun hs => (apart_iff hs.2).mpr hs.1
  rw [and_iff_left_of_imp length_covering_le, hpairwise]
  -- from sample to sample is enough: the distances add up
  have htrans : ∀ s s' s'' : Sampling, newInterval interval ≤ s'.time - s.time →
      newInterval interval ≤ s''.time - s'.time → newInterval interval ≤ s''.time - s.time := by
    intro s s' s'' h h'
    exact distances_add hpos.le h h'
  have : IsTrans Sampling fun s s' => newInterval interval ≤ s'.time - s.time := ⟨htrans⟩
  exact List.isChain_iff_pairwise.symm


/-! ### A late sample -/

/-- A pod with one container, and what the metrics API says of it. -/
def oneContainer : Readings where
  pods := .ok [{ objectMeta := { uid := "u", name := "p", «namespace» := "n", creationTimestamp := ⟨0, 0⟩ }
                 containers := [{ name := "c" }] }]
  podMetrics := .ok [⟨"p", "n", [⟨"c", [("cpu", ⟨250, 1, "250m"⟩)]⟩]⟩]

def oneIdentity : ContainerIdentity := ⟨"u", "n", "p", "c"⟩

/-- Samples at these instants, each of the pod. -/
def samplingsAt (times : List Instant) : List Sampling := times.map fun t => ⟨t, oneContainer⟩

/-- Samples on every tick of ten seconds. -/
theorem windows_apart_iff_onTime :
    startSchedule 10000000000 0 ⟨0, 1000000000⟩ [⟨0, 1000000000⟩] = [0, 10000000000] ∧
    (windowsOf oneIdentity (published (newInterval 10000000000)
      (samplingsAt [0, 10000000000]))).Pairwise TimeWindow.Apart := by
  have hchain : observing (newInterval 10000000000) oneIdentity (samplingsAt [0, 10000000000]) =
      samplingsAt [0, 10000000000] := List.filter_eq_self.mpr (by
    intro s hs
    rcases List.mem_pair.mp hs with rfl | rfl <;> decide +kernel)
  refine ⟨by decide, ((windows_apart_iff 10000000000 (samplingsAt [0, 10000000000]) ?_
    oneIdentity).mpr ?_).1⟩
  · exact List.pairwise_pair.mpr (by decide)
  · rw [hchain]
    exact List.isChain_pair.mpr (by decide)

/-- **A sample that takes fifteen of its ten seconds**: the tick that waited is sampled at
once, the next one on time, and the windows of the two overlap. -/
theorem late_sample_overlaps :
    startSchedule 10000000000 0 ⟨0, 15000000000⟩ [⟨0, 1000000000⟩, ⟨0, 0⟩] =
      [0, 15000000000, 20000000000] ∧
    windowsOf oneIdentity (published (newInterval 10000000000)
      (samplingsAt [0, 15000000000, 20000000000])) =
      [⟨-10000000000, 0⟩, ⟨5000000000, 15000000000⟩, ⟨10000000000, 20000000000⟩] ∧
    ¬ (windowsOf oneIdentity (published (newInterval 10000000000)
      (samplingsAt [0, 15000000000, 20000000000]))).Pairwise TimeWindow.Apart := by
  have hwindows : windowsOf oneIdentity (published (newInterval 10000000000)
      (samplingsAt [0, 15000000000, 20000000000])) =
      [⟨-10000000000, 0⟩, ⟨5000000000, 15000000000⟩, ⟨10000000000, 20000000000⟩] := by
    decide +kernel
  refine ⟨by decide, hwindows, fun h => ?_⟩
  rw [hwindows] at h
  have hlate := (List.pairwise_cons.mp h).2
  exact (List.pairwise_cons.mp hlate).1 _ List.mem_cons_self 10000000000 (by decide)

end Metrics
end Agent
end KubeCost
