/-
# The lane of a cluster

What one cluster gets out of the service, seen from far away: a watermark, at most one
batch in hand, and the batches that were put on the queue. A batch is dropped as a
duplicate, turned away because of a gap, or cut to what is new and queued, and the
watermark moves to its last number once it is persisted.

`Lane.Ok.step` is the invariant: the queued numbers follow the watermark that was loaded
first without gap or repetition, and every valid batch that came without a gap is queued
by the time it is handled.
-/
import KubeCost.Ingestion.Watermark

namespace KubeCost
namespace Ingestion

variable {E : Env} {p : Pending}

/-! ### The numbers of a batch -/

theorem BatchOk.sequences {C : Codec} {config : Config} {b : ObservationBatch}
    (h : BatchOk C config b) : b.observations.map (·.sequence) =
      List.range' b.firstSequence (b.lastSequence - b.firstSequence + 1) := by
  refine List.ext_getElem (by rw [List.length_map, List.length_range', h.count]) fun i hi _ => ?_
  rw [List.length_map] at hi
  rw [List.getElem_map, List.getElem_range', Nat.one_mul]
  exact (h.observations i _ (List.getElem?_eq_getElem hi)).sequence

/-- The suffix after a watermark that the batch extends has the numbers that come next. -/
theorem suffixAfter_sequences {C : Codec} {config : Config} {b : ObservationBatch}
    (h : BatchOk C config b) {n : ℕ} (hfirst : b.firstSequence ≤ n + 1) (hlast : n < b.lastSequence) :
    (suffixAfter C b n).observations.map (·.sequence) =
      List.range' (n + 1) (b.lastSequence - n) := by
  rw [suffixAfter_observations, List.map_drop, h.sequences, List.drop_range']
  congr 1 <;> omega

/-- A valid batch without a gap is answered at once only when it is a duplicate. -/
theorem handleBatch_duplicate {n : ℕ} {batch : ObservationBatch} {frame : IngestionToAgent}
    (h : handleBatch E n batch = .answer frame) (hv : validateBatch E.codec E.config batch = .ok ())
    (hfirst : batch.firstSequence ≤ n + 1) : batch.lastSequence ≤ n := by
  unfold handleBatch at h
  rw [hv] at h
  dsimp only at h
  by_contra hlast
  rw [if_neg hlast, if_neg (Nat.not_lt.mpr hfirst)] at h
  cases h

/-! ### Lanes -/

/-- How far the batch in hand has come. -/
inductive Stage
  | idle
  | accepted (p : Pending)
  | queued (p : Pending)

structure Lane where
  /-- The watermark that was loaded first. -/
  loaded : Option ℕ
  watermark : ℕ
  stage : Stage
  queued : List ObservationBatch
  /-- Every batch that came, with the watermark at its arrival. -/
  arrived : List (ℕ × ObservationBatch)

namespace Lane

inductive Step (E : Env) (l : Lane) : Lane → Prop
  | rests : Step E l l
  | loads {n : ℕ} (first : l.loaded = none) : Step E l { l with loaded := some n, watermark := n }
  | answers {batch frame} (ready : l.loaded.isSome = true) (idle : l.stage = .idle)
    (decision : handleBatch E l.watermark batch = .answer frame) :
    Step E l { l with arrived := l.arrived ++ [(l.watermark, batch)] }
  | accepts {batch} {p : Pending} (ready : l.loaded.isSome = true) (idle : l.stage = .idle)
    (decision : handleBatch E l.watermark batch = .accept p) :
    Step E l { l with stage := .accepted p, arrived := l.arrived ++ [(l.watermark, batch)] }
  | enqueues {p : Pending} (stage : l.stage = .accepted p) :
    Step E l { l with stage := .queued p, queued := l.queued ++ [p.accepted] }
  | publishes {p : Pending} (stage : l.stage = .queued p) :
    Step E l { l with stage := .idle, watermark := p.batch.lastSequence }

/-- The numbers that were put on the queue, in order. -/
def sequences (l : Lane) : List ℕ := (l.queued.flatMap (·.observations)).map (·.sequence)

/-- The last number that was put on the queue, or the watermark. -/
def front (l : Lane) : ℕ :=
  match l.stage with
  | .queued p => p.batch.lastSequence
  | _ => l.watermark

def inHand (l : Lane) : Option Pending :=
  match l.stage with
  | .idle => none
  | .accepted p | .queued p => some p

/-- A valid batch that came without a gap has the number. -/
def Covers (E : Env) (l : Lane) (n : ℕ) : Prop :=
  ∃ a ∈ l.arrived, validateBatch E.codec E.config a.2 = .ok () ∧ a.2.firstSequence ≤ a.1 + 1 ∧
    a.2.firstSequence ≤ n ∧ n ≤ a.2.lastSequence

/-- The locals of the batch in hand fit the lane. -/
structure Fits (E : Env) (l : Lane) (p : Pending) : Prop where
  arrived : (l.watermark, p.batch) ∈ l.arrived
  valid : validateBatch E.codec E.config p.batch = .ok ()
  suffix : p.accepted = suffixAfter E.codec p.batch l.watermark
  first : p.batch.firstSequence ≤ l.watermark + 1
  last : l.watermark < p.batch.lastSequence

/-- A lane that started at `n`. -/
structure LaneOk (E : Env) (l : Lane) (n : ℕ) : Prop where
  start : n ≤ l.watermark
  hand : ∀ p, l.inHand = some p → l.Fits E p
  sequences : l.sequences = List.range' (n + 1) (l.front - n)
  covered : ∀ q, n < q → q ≤ l.front → l.Covers E q
  handled : ∀ a ∈ l.arrived, validateBatch E.codec E.config a.2 = .ok () →
    a.2.firstSequence ≤ a.1 + 1 →
    a.2.lastSequence ≤ l.watermark ∨ ∃ p, l.inHand = some p ∧ p.batch = a.2

/-- Nothing has come for a lane that was not loaded. -/
structure Unloaded (l : Lane) : Prop where
  stage : l.stage = .idle
  queued : l.queued = []
  arrived : l.arrived = []

def Ok (E : Env) (l : Lane) : Prop :=
  (l.loaded = none → l.Unloaded) ∧ ∀ n, l.loaded = some n → l.LaneOk E n

variable {l l' : Lane} {n : ℕ}

theorem Covers.append (h : l.Covers E n) (a : ℕ × ObservationBatch) :
    { l with arrived := l.arrived ++ [a] }.Covers E n := by
  obtain ⟨b, hb, h⟩ := h
  exact ⟨b, List.mem_append_left _ hb, h⟩

theorem front_idle (h : l.stage = .idle) : l.front = l.watermark := by
  rw [front, h]

theorem inHand_idle (h : l.stage = .idle) : l.inHand = none := by
  rw [inHand, h]

theorem LaneOk.answers (h : l.LaneOk E n) {batch : ObservationBatch} {frame : IngestionToAgent}
    (idle : l.stage = .idle) (decision : handleBatch E l.watermark batch = .answer frame) :
    { l with arrived := l.arrived ++ [(l.watermark, batch)] }.LaneOk E n where
  start := h.start
  hand := fun p hp => by
    have hnone := inHand_idle idle
    rw [show l.inHand = some p from hp] at hnone
    cases hnone
  sequences := h.sequences
  covered := fun q hq hq' => (h.covered q hq hq').append _
  handled := by
    intro a ha hv hfirst
    rcases List.mem_append.mp ha with ha | ha
    · exact h.handled a ha hv hfirst
    · cases List.mem_singleton.mp ha
      exact .inl (handleBatch_duplicate decision hv hfirst)

theorem LaneOk.accepts (h : l.LaneOk E n) {batch : ObservationBatch} (idle : l.stage = .idle)
    (decision : handleBatch E l.watermark batch = .accept p) :
    { l with stage := .accepted p, arrived := l.arrived ++ [(l.watermark, batch)] }.LaneOk E n := by
  obtain ⟨rfl, hv, hfirst, hlast⟩ := handleBatch_accept decision
  refine ⟨h.start, fun p hp => ?_, ?_, fun q hq hq' => ?_, fun a ha hv' hfirst' => ?_⟩
  · cases hp
    exact ⟨List.mem_append_right _ (List.mem_singleton_self _), hv, rfl, hfirst, hlast⟩
  · rw [← front_idle idle] at *
    exact h.sequences
  · refine (h.covered q hq ?_).append (l.watermark, batch)
    rw [front_idle idle]
    exact hq'
  · rcases List.mem_append.mp ha with ha | ha
    · rcases h.handled a ha hv' hfirst' with hle | ⟨p, hp, -⟩
      · exact .inl hle
      · rw [inHand_idle idle] at hp
        cases hp
    · cases List.mem_singleton.mp ha
      exact .inr ⟨_, rfl, rfl⟩

theorem LaneOk.enqueues (h : l.LaneOk E n) (stage : l.stage = .accepted p) :
    { l with stage := .queued p, queued := l.queued ++ [p.accepted] }.LaneOk E n := by
  have hhand : l.inHand = some p := by rw [inHand, stage]
  have hfront : l.front = l.watermark := by rw [front, stage]
  have hfits := h.hand p hhand
  have hstart := h.start
  have hlast := hfits.last
  have hok := (validateBatch_iff _ _ _).mp hfits.valid
  refine ⟨h.start, fun p' hp => ?_, ?_, fun q hq hq' => ?_, fun a ha hv hfirst => ?_⟩
  · cases hp
    exact ⟨hfits.arrived, hfits.valid, hfits.suffix, hfits.first, hfits.last⟩
  · -- the new numbers follow the watermark
    have hold := h.sequences
    rw [hfront] at hold
    unfold Lane.sequences at hold ⊢
    simp only [List.flatMap_append, List.map_append, List.flatMap_cons, List.flatMap_nil,
      List.append_nil]
    have hnew := suffixAfter_sequences hok hfits.first hlast
    rw [← hfits.suffix] at hnew
    have hfront' : { l with stage := .queued p, queued := l.queued ++ [p.accepted] }.front =
        p.batch.lastSequence := rfl
    rw [hold, hnew, hfront', show l.watermark + 1 = n + 1 + 1 * (l.watermark - n) by omega, List.range'_append]
    congr 1
    omega
  · by_cases hle : q ≤ l.watermark
    · exact h.covered q hq (by rw [hfront]; exact hle)
    · have hq'' : q ≤ p.batch.lastSequence := hq'
      have hfirst : p.batch.firstSequence ≤ q := hfits.first.trans (by omega)
      exact ⟨(l.watermark, p.batch), hfits.arrived, hfits.valid, hfits.first, hfirst, hq''⟩
  · rcases h.handled a ha hv hfirst with hle | ⟨p', hp', hb⟩
    · exact .inl hle
    · rw [hhand] at hp'
      exact .inr ⟨p', hp', hb⟩

theorem LaneOk.publishes (h : l.LaneOk E n) (stage : l.stage = .queued p) :
    { l with stage := .idle, watermark := p.batch.lastSequence }.LaneOk E n := by
  have hhand : l.inHand = some p := by rw [inHand, stage]
  have hfront : l.front = p.batch.lastSequence := by rw [front, stage]
  have hlast := (h.hand p hhand).last
  have hstart := h.start
  refine ⟨by dsimp only; omega, fun p hp => (by cases hp), ?_, fun q hq hq' => ?_,
    fun a ha hv hfirst => .inl ?_⟩
  · have hold := h.sequences
    rw [hfront] at hold
    exact hold
  · exact h.covered q hq (by rw [hfront]; exact hq')
  · rcases h.handled a ha hv hfirst with hle | ⟨p', hp', hb⟩
    · dsimp only
      omega
    · rw [hhand] at hp'
      cases hp'
      rw [hb]

/-- **One step of a lane.** -/
theorem Ok.step (h : l.Ok E) (hs : l.Step E l') : l'.Ok E := by
  cases hs with
  | rests => exact h
  | loads first =>
    obtain ⟨hstage, hqueued, harrived⟩ := h.1 first
    refine ⟨fun hnone => (by cases hnone), fun n hn => ?_⟩
    cases hn
    refine ⟨Nat.le_refl _, fun p hp => ?_, ?_, fun q hq hq' => ?_, fun a ha => ?_⟩
    · rw [inHand_idle (by exact hstage)] at hp
      cases hp
    · rw [front_idle (by exact hstage), Nat.sub_self]
      simp only [Lane.sequences, hqueued]
      rfl
    · rw [front_idle (by exact hstage)] at hq'
      exact absurd hq' (Nat.not_le.mpr hq)
    · simp only [harrived] at ha
      cases ha
  | answers ready idle decision =>
    refine ⟨fun hnone => ?_, fun n hn => (h.2 n hn).answers idle decision⟩
    rw [show l.loaded = none from hnone] at ready
    cases ready
  | accepts ready idle decision =>
    refine ⟨fun hnone => ?_, fun n hn => (h.2 n hn).accepts idle decision⟩
    rw [show l.loaded = none from hnone] at ready
    cases ready
  | enqueues stage =>
    refine ⟨fun hnone => ?_, fun n hn => (h.2 n hn).enqueues stage⟩
    have hidle := (h.1 hnone).stage
    rw [stage] at hidle
    cases hidle
  | publishes stage =>
    refine ⟨fun hnone => ?_, fun n hn => (h.2 n hn).publishes stage⟩
    have hidle := (h.1 hnone).stage
    rw [stage] at hidle
    cases hidle

end Lane

end Ingestion
end KubeCost
