/-
# Decisions and regeneration

The worker gives a container the same recommendation id for the whole hour in which it
runs, and saves it in status open at the version of its clock. A second run in the
hour replaces the row on which somebody has decided in between, and the recommendation
reads as open again (`reopened_by_worker`).

`decisions_survive` is what keeps decisions: a run of the worker must not write, for a
recommendation that is rejected, suppressed or executing, at a version that reaches
the stored one, and neither must an approval that has read the recommendation before the
decision.
-/
import KubeCost.Workflow.System

namespace KubeCost
namespace Workflow

open Recommendations Replacing Machine

/-- Rejected, suppressed or executing. -/
def decided : Status → Bool
  | .rejected | .suppressed | .executing => true
  | _ => false

/-- The recommendation reads as decided. -/
def DecidedAt (table : List Fact) (t id : String) : Prop :=
  ∃ row ∈ select table t id, decided row.status = true

/-- The rows of a recommendation are about one target. -/
def OneTarget (table : List Fact) : Prop :=
  ∀ row ∈ table, ∀ row' ∈ table, row.tenantId = row'.tenantId →
    row.recommendationId = row'.recommendationId → row.sortingKey = row'.sortingKey

/-- An approval that is about to be written has a lower version than a decision on its
recommendation. -/
def Phase.Respects (table : List Fact) : Phase → Prop
  | .prepared call _ => call.command.nextStatus = .approved →
      ∀ row ∈ select table call.command.tenantId call.command.recommendationId,
        decided row.status = true → call.command.occurredAt.unixNano < row.version
  | _ => True

/-- The steps that respect decisions. No id stands for two targets; where a recommendation
is decided, the worker and approvals write at lower versions. -/
def Respects (w : World) : Action → Prop
  | .insertRecommendation c => (w.calls c).Respects w.db.recommendation
  | .worker run => OneTarget (w.db.recommendation ++ run.rows) ∧
      ∀ new ∈ run.rows,
        ∀ row ∈ select w.db.recommendation new.tenantId new.recommendationId,
          decided row.status = true → run.savedAt.unixNano < row.version
  | _ => True

instance (table : List Fact) (t id : String) : Decidable (DecidedAt table t id) :=
  inferInstanceAs (Decidable (∃ row ∈ select table t id, decided row.status = true))

instance (table : List Fact) : Decidable (OneTarget table) :=
  inferInstanceAs (Decidable (∀ row ∈ table, ∀ row' ∈ table, row.tenantId = row'.tenantId →
    row.recommendationId = row'.recommendationId → row.sortingKey = row'.sortingKey))

instance (table : List Fact) : (phase : Phase) → Decidable (phase.Respects table)
  | .prepared _ _ => inferInstanceAs (Decidable (_ → ∀ row ∈ select table _ _, _ → _ < row.version))
  | .idle => .isTrue trivial
  | .inserted _ _ => .isTrue trivial
  | .done _ => .isTrue trivial

instance (w : World) : (a : Action) → Decidable (Respects w a)
  | .read _ _ => .isTrue trivial
  | .insertRecommendation c => inferInstanceAs (Decidable ((w.calls c).Respects w.db.recommendation))
  | .insertAction _ => .isTrue trivial
  | .worker run => inferInstanceAs (Decidable (OneTarget _ ∧ ∀ new ∈ run.rows,
      ∀ row ∈ select w.db.recommendation new.tenantId new.recommendationId, _ → _ < row.version))

/-! ### Reading a table with one target for each recommendation -/

variable {table : List Fact} {t id : String} {row new : Fact}

theorem OneTarget.mono {table' : List Fact} (h : OneTarget table') (hsub : ∀ row ∈ table, row ∈ table') :
    OneTarget table :=
  fun row hrow row' hrow' => h row (hsub row hrow) row' (hsub row' hrow')

/-- Two rows of a recommendation have one sorting key. -/
theorem OneTarget.sortingKey_eq (h : OneTarget table) (hrow : row ∈ table) (hnew : new ∈ table)
    (habout : row.isAbout t id = true) (habout' : new.isAbout t id = true) :
    row.sortingKey = new.sortingKey := by
  obtain ⟨ht, hid⟩ := isAbout_eq_true.mp habout
  obtain ⟨ht', hid'⟩ := isAbout_eq_true.mp habout'
  exact h row hrow new hnew (ht.trans ht'.symm) (hid.trans hid'.symm)

/-- A new row with the sorting key of a stored one brings no second target. -/
theorem OneTarget.append (h : OneTarget table) (hrow : row ∈ table)
    (hkey : new.sortingKey = row.sortingKey) : OneTarget (table ++ [new]) := by
  have hsame : ∀ r ∈ table ++ [new], ∃ s ∈ table, r.sortingKey = s.sortingKey := by
    intro r hr
    rcases List.mem_append.mp hr with hr | hr
    · exact ⟨r, hr, rfl⟩
    · exact ⟨row, hrow, by rw [List.mem_singleton.mp hr, hkey]⟩
  intro a ha b hb ht hid
  obtain ⟨a', ha', hak⟩ := hsame a ha
  obtain ⟨b', hb', hbk⟩ := hsame b hb
  have habout := isAbout_congr hak a.tenantId a.recommendationId
  have habout' := isAbout_congr hbk a.tenantId a.recommendationId
  rw [isAbout_self] at habout
  rw [isAbout_eq_true.mpr ⟨ht.symm, hid.symm⟩] at habout'
  rw [hak, hbk]
  exact h.sortingKey_eq ha' hb' habout.symm habout'.symm

/-- The recommendation is read at its sorting key. -/
theorem select_eq_find? {k : String × String × String × String × String × String}
    (h : ∀ row ∈ table, row.isAbout t id = decide (row.sortingKey = k)) :
    select table t id =
      (final Fact.sortingKey byVersion table).find? fun row => row.sortingKey = k := by
  rw [select, List.filter_congr fun row hrow => h row (mem_of_mem_final hrow), filter_final]
  cases (final Fact.sortingKey byVersion table).find? fun row => row.sortingKey = k <;> rfl

/-- **The new row is read, or the one that was read before.** -/
theorem select_append_or (hone : OneTarget (table ++ [new])) (hnew : new.isAbout t id = true)
    (h : select table t id = some row) :
    select (table ++ [new]) t id = some new ∨ select (table ++ [new]) t id = some row := by
  have hmem : new ∈ table ++ [new] := List.mem_append_right _ (List.mem_singleton_self _)
  have hkey : ∀ r ∈ table ++ [new], r.isAbout t id = decide (r.sortingKey = new.sortingKey) := by
    intro r hr
    rw [Bool.eq_iff_iff, decide_eq_true_eq]
    exact ⟨fun habout => hone.sortingKey_eq hr hmem habout hnew,
      fun hk => (isAbout_congr hk t id).trans hnew⟩
  have hold := select_eq_find? fun r hr => hkey r (List.mem_append_left _ hr)
  rw [select_eq_find? hkey, final_append, find?_place_self, ← hold, h]
  by_cases hle : byVersion row new = true
  · exact .inl (congrArg some (if_pos hle))
  · exact .inr (congrArg some (if_neg hle))

/-- Rows that respect a decision leave it as it is read. -/
theorem select_append_rows (h : select table t id = some row) : ∀ (rows : List Fact),
    OneTarget (table ++ rows) → (∀ new ∈ rows, new.isAbout t id = true → new.version < row.version) →
    select (table ++ rows) t id = some row := by
  intro rows
  induction rows using List.reverseRecOn with
  | nil => intro _ _; rwa [List.append_nil]
  | append_singleton rows new ih =>
    intro hone hlt
    have hread := ih (hone.mono fun r hr => by
      rw [← List.append_assoc]
      exact List.mem_append_left _ hr) fun r hr => hlt r (List.mem_append_left _ hr)
    have hmem : new ∈ table ++ (rows ++ [new]) := by simp
    rw [← List.append_assoc]
    by_cases habout : new.isAbout t id = true
    · have hrow : row ∈ table ++ (rows ++ [new]) := List.mem_append_left _ (mem_of_select h)
      refine select_append_of_lower hread ?_ (hlt new (by simp) habout)
      exact hone.sortingKey_eq hmem hrow habout (isAbout_of_select h)
    · rw [select_append_of_ne (Bool.eq_false_iff.mpr habout), hread]

/-! ### One step -/

/-- What holds besides in every state: a call that goes on to its inserts has read a
stored row, from which its transition is allowed. -/
structure Consistent (w : World) : Prop where
  oneTarget : OneTarget w.db.recommendation
  prepared : ∀ c call result, w.calls c = .prepared call result →
    ∃ current ∈ w.db.recommendation,
      current.isAbout call.command.tenantId call.command.recommendationId = true ∧
      transitionAllowed current.status call.command.nextStatus = true ∧ result = plan call current

variable {w w' : World} {a : Action}

/-- A status that a transition leads to is a decision, unless it is the approval. -/
theorem decided_of_transitionAllowed {current next : Status}
    (h : transitionAllowed current next = true) (hne : next ≠ .approved) : decided next = true := by
  cases next <;> simp_all [transitionAllowed, decided]

/-- A call that moves on leaves the state consistent when its new phase is. -/
theorem Consistent.set {c : ℕ} {phase : Phase} (h : Consistent w)
    (hphase : ∀ call result, phase = .prepared call result → ∃ current ∈ w.db.recommendation,
      current.isAbout call.command.tenantId call.command.recommendationId = true ∧
      transitionAllowed current.status call.command.nextStatus = true ∧ result = plan call current) :
    Consistent (w.set c phase) where
  oneTarget := h.oneTarget
  prepared c' call result hc := by
    rcases set_calls_cases hc with ⟨-, hc⟩ | ⟨-, hc⟩
    · exact hphase call result hc.symm
    · exact h.prepared c' call result hc

theorem Consistent.withRows {rows : List Fact} (h : Consistent w)
    (hone : OneTarget (w.db.recommendation ++ rows)) : Consistent (w.withRows rows) where
  oneTarget := hone
  prepared c call result hc := by
    obtain ⟨current, hmem, hrest⟩ := h.prepared c call result hc
    exact ⟨current, List.mem_append_left _ hmem, hrest⟩

theorem Consistent.step (h : Consistent w) (hok : Respects w a) (hstep : Step w a w') :
    Consistent w' := by
  cases hstep with
  | refused _ _ => exact h.set fun _ _ hp => nomatch hp
  | prepared _ ok =>
    refine h.set fun call result hp => ?_
    cases hp
    obtain ⟨current, hacc, hplan⟩ := prepare_eq_ok.mp ok
    exact ⟨current, mem_of_select hacc.stored, isAbout_of_select hacc.stored, hacc.allowed, hplan.symm⟩
  | rowFailed _ _ => exact h.set fun _ _ hp => nomatch hp
  | rowInserted here _ =>
    obtain ⟨current, hmem, -, -, rfl⟩ := h.prepared _ _ _ here
    exact (h.withRows (h.oneTarget.append hmem (plan_sortingKey _ _))).set fun _ _ hp => nomatch hp
  | actionFailed _ _ => exact h.set fun _ _ hp => nomatch hp
  | actionInserted _ =>
    exact Consistent.set ⟨h.oneTarget, h.prepared⟩ fun _ _ hp => nomatch hp
  | workerFailed => exact h
  | workerSaved => exact h.withRows hok.1

/-- A call that inserts its row keeps what is decided. -/
theorem DecidedAt.insertRow {c : ℕ} {call : Call} {result : WorkflowResult} (hcons : Consistent w)
    (here : w.calls c = .prepared call result) (hok : Respects w (.insertRecommendation c))
    (h : DecidedAt w.db.recommendation t id) :
    DecidedAt (w.db.recommendation ++ [result.recommendation]) t id := by
  obtain ⟨row, hsel, hdec⟩ := h
  obtain ⟨current, hmem, habout, hallowed, rfl⟩ := hcons.prepared _ _ _ here
  by_cases hnew : (plan call current).recommendation.isAbout t id = true
  · have hcur : current.isAbout t id = true :=
      (isAbout_congr (plan_sortingKey call current) t id).symm.trans hnew
    by_cases happroved : call.command.nextStatus = .approved
    · -- an approval that comes late has a lower version and is not seen
      obtain ⟨ht, hid⟩ := isAbout_eq_true.mp habout
      obtain ⟨ht', hid'⟩ := isAbout_eq_true.mp hcur
      simp only [Respects, here, Phase.Respects] at hok
      have hlt := hok happroved row (by rw [← ht, ← hid, ht', hid', hsel]; rfl) hdec
      have hkey : (plan call current).recommendation.sortingKey = row.sortingKey := by
        rw [plan_sortingKey]
        exact hcons.oneTarget.sortingKey_eq hmem (mem_of_select hsel) hcur (isAbout_of_select hsel)
      exact ⟨row, select_append_of_lower hsel hkey (by rwa [plan_version]), hdec⟩
    · -- every other command decides
      have hone := hcons.oneTarget.append hmem (plan_sortingKey call current)
      rcases select_append_or hone hnew hsel with hread | hread
      · refine ⟨_, hread, ?_⟩
        rw [plan_recommendation]
        exact decided_of_transitionAllowed hallowed happroved
      · exact ⟨row, hread, hdec⟩
  · exact ⟨row, (select_append_of_ne (Bool.eq_false_iff.mpr hnew)).trans hsel, hdec⟩

/-- A run of the worker leaves a decided row as it is. -/
theorem DecidedAt.insertRows {run : WorkerRun} (hok : Respects w (.worker run))
    (h : DecidedAt w.db.recommendation t id) : DecidedAt (w.db.recommendation ++ run.rows) t id := by
  obtain ⟨row, hsel, hdec⟩ := h
  refine ⟨row, select_append_rows hsel _ hok.1 fun new hnew habout => ?_, hdec⟩
  obtain ⟨ht, hid⟩ := isAbout_eq_true.mp habout
  rw [(mem_rows hnew).2]
  exact hok.2 new hnew row (by rw [ht, hid, hsel]; rfl) hdec

/-- **One step keeps what is decided.** -/
theorem DecidedAt.step (hcons : Consistent w) (hok : Respects w a) (hstep : Step w a w')
    (h : DecidedAt w.db.recommendation t id) : DecidedAt w'.db.recommendation t id := by
  cases hstep with
  | rowInserted here _ => exact h.insertRow hcons here hok
  | workerSaved => exact h.insertRows hok
  | refused _ _ => exact h
  | prepared _ _ => exact h
  | rowFailed _ _ => exact h
  | actionFailed _ _ => exact h
  | actionInserted _ => exact h
  | workerFailed => exact h

/-! ### Runs -/

/-- **Decisions survive.** In every run of commands and of the worker whose steps respect
decisions, from tables with one target for each recommendation: once a recommendation reads
as rejected, suppressed or executing, it never reads as anything else. -/
theorem decisions_survive {w₀ w w' : World} {t id : String}
    (hidle : ∀ c, w₀.calls c = .idle) (hone : OneTarget w₀.db.recommendation)
    (hreach : Reach step Respects w₀ w)
    (hdecided : DecidedAt w.db.recommendation t id)
    (hlater : Reach step Respects w w') : DecidedAt w'.db.recommendation t id := by
  have hstart : Consistent w₀ := ⟨hone, fun c _ _ hc => nomatch (hidle c).symm.trans hc⟩
  have hcons : Consistent w :=
    hreach.invariant hstart fun _ _ _ h hok hs => h.step hok (step_cases hs)
  have hboth : Consistent w' ∧ DecidedAt w'.db.recommendation t id :=
    hlater.invariant (I := fun w => Consistent w ∧ DecidedAt w.db.recommendation t id)
      ⟨hcons, hdecided⟩ fun _ _ _ h hok hs =>
        ⟨h.1.step hok (step_cases hs), h.2.step h.1 hok (step_cases hs)⟩
  exact hboth.2

/-! ### A container that is regenerated -/

/-- A run of the worker, and a rejection of what it found. -/
def plainSteps : List Action :=
  [.worker (plainRun (plainHour + 1)), .read 0 (plainCall .reject (plainHour + 2) 0),
    .insertRecommendation 0, .insertAction 0]

/-- The status that is read after some steps on an empty database. -/
def statusAfter (steps : List Action) : Option Status :=
  (run step World.start steps).bind fun w =>
    (select w.db.recommendation "t" plainId).map Fact.status

/-- The rejection survives a run of the worker in the next hour, whose recommendation has
another id. -/
theorem decisions_survive_next_hour : ∃ w w',
    Reach step Respects World.start w ∧
    DecidedAt w.db.recommendation "t" plainId ∧
    step w (.worker (plainRun (plainHour + Instant.hour))) = some w' ∧
    w'.db.recommendation.length = 3 ∧ DecidedAt w'.db.recommendation "t" plainId := by
  let check : World → Action → Bool := fun w a => decide (Respects w a)
  have hrun : ((run (guarded step check) World.start plainSteps).bind fun w =>
      (step w (.worker (plainRun (plainHour + Instant.hour)))).map fun w' =>
        decide (DecidedAt w.db.recommendation "t" plainId ∧ w'.db.recommendation.length = 3 ∧
          Respects w (.worker (plainRun (plainHour + Instant.hour))))) = some true := by
    decide +kernel
  obtain ⟨w, hw, hrest⟩ := Option.bind_eq_some_iff.mp hrun
  obtain ⟨w', hw', hd⟩ := Option.map_eq_some_iff.mp hrest
  obtain ⟨hdecided, hlength, hok⟩ := of_decide_eq_true hd
  have hreach : Reach step Respects World.start w :=
    .of_guarded (fun _ _ h => of_decide_eq_true h) hw
  exact ⟨w, w', hreach, hdecided, hw', hlength,
    decisions_survive (fun _ => rfl) (by decide) hreach hdecided (Reach.refl.tail hok hw')⟩

/-- **The worker runs once more in the hour, and the rejected recommendation is open.** -/
theorem reopened_by_worker : statusAfter plainSteps = some .rejected ∧
    statusAfter (plainSteps ++ [.worker (plainRun (plainHour + 3))]) = some .opened := by
  decide +kernel

end Workflow
end KubeCost
