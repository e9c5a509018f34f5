/-
# The current views follow the agent

From the informers to the views: a collector processes changes and publishes events, one
buffer numbers them, and their rows are inserted at least once, in any order and
number, however often batches are split, sent again and retried. For each entity the
view then shows what the last published event about it says (`views_converge`).

The three parts are the order of the published events (`inv_of_reach`), the numbers of
the buffer (`Numbered`) and the ranking of the views (`view_of_last`).
-/
import KubeCost.Agent.Buffer
import KubeCost.Delivery.Chronology
import KubeCost.Ingestion.Views

namespace KubeCost
namespace Delivery
namespace Chronology

open Agent Collector Ingestion

/-- A buffer takes the events, one after the other, and they come out as these
observations; acknowledgements may come at any time. -/
inductive Numbered (C : Codec) : Buffer → List Event → List Observation → Prop
  | nil (b : Buffer) : Numbered C b [] []
  | publish {b b' : Buffer} (clock : String) {e : Event} {es : List Event} {o : Observation}
      {os : List Observation} (taken : b.publish C clock e = .done b' o) (rest : Numbered C b' es os) :
      Numbered C b (e :: es) (o :: os)
  | acknowledge {b : Buffer} {es : List Event} {os : List Observation} (persistedThrough : ℕ)
      (terminal : List ℕ) (rest : Numbered C (b.acknowledge persistedThrough terminal) es os) :
      Numbered C b es os

/-- The observation as it comes out of the buffer. -/
structure Numbers (e : Event) (o : Observation) : Prop where
  time : timeOf e = o.observedAt
  payload : e.observation.bind (·.payload) = o.payload

theorem numbers_of_publish {C : Codec} {clock : String} {e : Event} {b b' : Buffer} {o : Observation}
    (h : b.publish C clock e = .done b' o) : Numbers e o := by
  unfold Buffer.publish at h
  split at h
  · cases h
  · rename_i observation hvalidate
    have hobservation : e.observation = some observation := by
      unfold Event.validate at hvalidate
      split at hvalidate
      · cases hvalidate
      · split at hvalidate
        · cases hvalidate
        · rename_i found hfound
          split at hvalidate <;> cases hvalidate
          exact hfound
    split at h
    · cases h
    · split at h
      · cases h
        exact ⟨by rw [timeOf, hobservation]; rfl, by rw [hobservation]; rfl⟩
      · cases h

/-- The events and the observations correspond, and the numbers grow. -/
theorem Numbered.spec {C : Codec} {b : Buffer} {es : List Event} {os : List Observation}
    (h : Numbered C b es os) : List.Forall₂ Numbers es os ∧
      os.Pairwise (fun o o' => o.sequence < o'.sequence) ∧ ∀ o ∈ os, b.next ≤ o.sequence := by
  induction h with
  | nil b => exact ⟨.nil, .nil, fun _ h => absurd h List.not_mem_nil⟩
  | publish clock taken rest ih =>
    obtain ⟨hcorrespond, hgrow, hnext⟩ := ih
    obtain ⟨hsequence, -, hincrement, -⟩ := Buffer.publish_done taken
    refine ⟨.cons (numbers_of_publish taken) hcorrespond, .cons (fun o' ho' => ?_) hgrow, ?_⟩
    · have := hnext o' ho'
      omega
    · intro o' ho'
      rcases List.mem_cons.mp ho' with rfl | ho'
      · exact hsequence.ge
      · have := hnext o' ho'
        omega
  | acknowledge n terminal rest ih => exact ih

/-- A relation of the events carries over to the observations. -/
theorem pairwise_numbers {P : Event → Event → Prop} {Q : Observation → Observation → Prop}
    (hPQ : ∀ e e' o o', Numbers e o → Numbers e' o' → P e e' → Q o o') {es : List Event}
    {os : List Observation} (h : List.Forall₂ Numbers es os) (hP : es.Pairwise P) : os.Pairwise Q := by
  induction h with
  | nil => exact .nil
  | cons hhead htail ih =>
    obtain ⟨hfirst, hrest⟩ := List.pairwise_cons.mp hP
    refine .cons (fun o' ho' => ?_) (ih hrest)
    obtain ⟨i, hi, rfl⟩ := List.getElem_of_mem ho'
    have hlength := htail.length_eq
    exact hPQ _ _ _ _ hhead (List.Forall₂.get htail (hlength ▸ hi) hi)
      (hfirst _ (List.getElem_mem (hlength ▸ hi)))

theorem Numbers.concerns_iff {e : Event} {o : Observation} (h : Numbers e o)
    (E : String × List Value) : Concerns E o ↔ entity e = some E := by
  rw [Concerns, entity, h.payload]

/-- **The observations of a session are chronological.** -/
theorem Inv.chronological {C : Codec} {b : Builder} {s : Session} {buffer : Buffer}
    {os : List Observation} (inv : Inv b s) (h : Numbered C buffer s.published os) : Chronological os := by
  obtain ⟨hcorrespond, hgrow, -⟩ := h.spec
  refine ⟨hgrow, fun o ho _ => ?_, pairwise_numbers ?_ hcorrespond inv.order⟩
  · obtain ⟨i, hi, rfl⟩ := List.getElem_of_mem ho
    have hlength := hcorrespond.length_eq
    have hnumbers := List.Forall₂.get hcorrespond (hlength ▸ hi) hi
    obtain ⟨t, ht, hvalid⟩ := inv.dated _ (List.getElem_mem (hlength ▸ hi))
    exact ⟨t, hnumbers.time.symm.trans ht, hvalid⟩
  · intro e e' o o' hn hn' hfollows E hE ho ho' t t' ht ht'
    exact Timestamp.millis_le (hfollows E hE ((hn.concerns_iff E).mp ho) ((hn'.concerns_iff E).mp ho')
      t t' (hn.time.trans ht) (hn'.time.trans ht'))

/-- **The current views converge to the last published state.** The changes of one
collector are processed without an error under a clock that never goes backwards, one
buffer numbers the events, and their rows are inserted at least once. Whatever the
order and the number of the inserts, the view of an entity is the row of the last
published event about it if that is an upsert, and empty otherwise. -/
theorem views_converge {C : Codec} {b : Builder} {s : Session} {capacity : ℕ}
    {os : List Observation} {t c : String} {rows : List MappedRow} (hclock : Clock b)
    (hsession : Machine.Reach (collect C b) Machine.Always Session.new s)
    (hreg : Regular b s.history) (hos : Numbered C (Buffer.new capacity) s.published os)
    (hrows : Inserted t c os rows) {E : String × List Value} (hE : E.1 ≠ "") :
    (lastAbout E os = none → view rows t c E = []) ∧
    ∀ o, lastAbout E os = some o → ∃ payload row, o.payload = some payload ∧ RowIn t c o row ∧
      view rows t c E = if getOperation payload.record = .upsert then [row.stored] else [] := by
  have hchronological := (inv_of_reach hclock hsession hreg).chronological hos
  exact ⟨fun hnone => view_of_none hrows hnone,
    fun o hlast => view_of_last hrows hchronological hE hlast⟩

/-! ### A namespace that comes back -/

/-- Readings a second apart, until the clock stops. -/
def slowClock : Builder := ⟨fun n => ⟨min n 100, 0⟩⟩

theorem clock_slowClock : Clock slowClock where
  step n := by
    simp only [slowClock, Timestamp.nanoseconds]
    omega
  valid n := by
    simp [slowClock, Timestamp.isValid]

/-- The namespace is created, deleted and created again. -/
def comesBack : List Change := [comes "a", goes "a", comes "a"]

/-- The event about the namespace at a reading of the clock. -/
def seenAt (tick : ℕ) (operation : Operation) : Event :=
  slowClock.namespace tick (smallNamespace "a") operation

/-- The observation that a buffer makes of it. -/
def stampedAt (tick n : ℕ) (operation : Operation) : Observation :=
  Buffer.stamp smallCodec "" (seenAt tick operation).key n ((seenAt tick operation).observation.getD {})

theorem regular_comesBack : Regular slowClock comesBack := by
  have hpod : ∀ p operation, Change.pod p operation ∉ comesBack := by
    intro p operation
    simp [comesBack, comes, goes]
  refine ⟨fun e he => ?_, ?_, fun e he => ?_, fun podUID name huses => ?_⟩
  · simp [comesBack, comes, goes] at he
  · simp [comesBack, comes, goes]
  · simp [comesBack, comes, goes] at he
  · obtain ⟨⟨p, operation, -, hmem, -⟩, -⟩ := huses
    exact hpod p operation hmem

theorem numbered_comesBack : Numbered smallCodec (Buffer.new 8)
    [seenAt 0 .upsert, seenAt 2 .delete, seenAt 4 .upsert]
    [stampedAt 0 1 .upsert, stampedAt 2 2 .delete, stampedAt 4 3 .upsert] :=
  .publish "" rfl (.publish "" rfl (.publish "" rfl (.nil _)))

theorem rowIn_stampedAt (tick n : ℕ) (operation : Operation) (hn : n ≠ 0) :
    ∃ row, RowIn "t" "c" (stampedAt tick n operation) row := by
  cases operation
  all_goals exact ⟨_, plainCopy ⟨0, 0⟩, rfl, rfl, mapObservation_eq_ok.mpr
    ⟨⟨by decide, by decide, Hash.hexEncode_sha256_ne _, hn⟩, rfl⟩⟩

theorem views_converge_comesBack : ∃ s rows, Machine.Reach (collect smallCodec slowClock)
      Machine.Always Session.new s ∧ s.history = comesBack ∧ rows.length = 4 ∧
    ∃ row, RowIn "t" "c" (stampedAt 4 3 .upsert) row ∧
      view rows "t" "c" ("namespace", [.string "a"]) = [row.stored] := by
  have hrun : (Machine.run (collect smallCodec slowClock) Session.new
      (comesBack.map fun change => ⟨change, fun _ => none, .steady none⟩)).map
        (fun s => (s.history, s.published)) =
          some (comesBack, [seenAt 0 .upsert, seenAt 2 .delete, seenAt 4 .upsert]) := by
    decide +kernel
  obtain ⟨s, hs, hends⟩ := Option.map_eq_some_iff.mp hrun
  obtain ⟨hhistory, hpublished⟩ := Prod.mk.inj hends
  have hreach : Machine.Reach (collect smallCodec slowClock) Machine.Always Session.new s :=
    Machine.Reach.of_run (fun _ _ _ => trivial) hs
  obtain ⟨row₁, h₁⟩ := rowIn_stampedAt 0 1 .upsert (by decide)
  obtain ⟨row₂, h₂⟩ := rowIn_stampedAt 2 2 .delete (by decide)
  obtain ⟨row₃, h₃⟩ := rowIn_stampedAt 4 3 .upsert (by decide)
  -- the first row comes twice, and the last one first
  have hrows : Inserted "t" "c" [stampedAt 0 1 .upsert, stampedAt 2 2 .delete, stampedAt 4 3 .upsert]
      [row₃, row₁, row₂, row₁] := by
    constructor
    · simp [h₁, h₂, h₃]
    · simp [h₁, h₂, h₃]
  obtain ⟨-, hlast⟩ := views_converge clock_slowClock hreach (hhistory ▸ regular_comesBack)
    (hpublished ▸ numbered_comesBack) hrows (E := ("namespace", [.string "a"])) (by decide)
  obtain ⟨payload, row, hpayload, hrow, hview⟩ := hlast (stampedAt 4 3 .upsert) rfl
  cases hpayload
  exact ⟨s, _, hreach, hhistory, rfl, row, hrow, hview⟩

end Chronology
end Delivery
end KubeCost
