/-
# The times of the collector's events

The views rank the rows of an entity by the time of the observation before its number,
so they follow the agent only if the times of the published events about one entity
do not go back. The clock alone does not give that: the deletion of a container that a
pod lost carries the time of the container's last event. `Inv` is what makes up for it.
The remembered event of a container is at least as late as everything that was published
about the container, because a change that is processed without an error renews it.

This needs that no container of a pod is an init container at one time and a regular
one at another: both have one row in the view, but two keys in the collector.
-/
import KubeCost.Agent.Collector
import KubeCost.Ingestion.Tables
import KubeCost.Machine

namespace KubeCost

/-- Nanoseconds since the epoch. -/
def Timestamp.nanoseconds (t : Timestamp) : ℤ := t.seconds * 1000000000 + t.nanos

theorem Timestamp.millis_le {t t' : Timestamp} (h : t.nanoseconds ≤ t'.nanoseconds) :
    t.millis ≤ t'.millis := by
  simp only [Timestamp.nanoseconds, Timestamp.millis] at h ⊢
  omega

namespace Delivery
namespace Chronology

open Agent Collector Ingestion

/-! ### Sessions of a collector -/

/-- A change, and what the collector meets when it processes it. -/
structure Input where
  change : Change
  lister : String → Option String
  attempt : Attempt

/-- A collector with the changes it has processed and the events it has published. -/
structure Session where
  collector : Collector
  history : List Change
  published : List Event

def Session.new : Session := ⟨Collector.new, [], []⟩

/-- The next change; it is processed without an error. -/
def collect (C : Codec) (b : Builder) (s : Session) (input : Input) : Option Session :=
  let processed := s.collector.process C b input.lister input.attempt input.change
  if processed.error = none then
    some ⟨processed.collector, s.history ++ [input.change], s.published ++ processed.published⟩
  else none

/-- The clock never goes backwards, and stays in the years of a timestamp. -/
structure Clock (b : Builder) : Prop where
  step : ∀ n, (b.now n).nanoseconds ≤ (b.now (n + 1)).nanoseconds
  valid : ∀ n, (b.now n).isValid = true

/-- The history has the container of this name, as an init container or not. -/
def Uses (history : List Change) (init : Bool) (podUID name : String) : Prop :=
  ∃ p operation c, .pod p operation ∈ history ∧ p.objectMeta.uid = podUID ∧
    (c, init) ∈ Builder.specs p ∧ c.name = name

/-- The changes that `Start` and the informers queue: one for the cluster, and no
container changes between init and regular. -/
structure Regular (b : Builder) (history : List Change) : Prop where
  cluster : ∀ e, .cluster e ∈ history → ∃ tick clusterID version systemNamespace,
    e = b.cluster tick clusterID version systemNamespace ∧
      systemNamespace.objectMeta.creationTimestamp.isValid = true
  once : history.Pairwise fun x y => ∀ e e', ¬ (x = .cluster e ∧ y = .cluster e')
  snapshot : ∀ e, .snapshot e ∈ history → ∃ tick snapshotID phase marker,
    e = b.snapshot tick snapshotID phase marker
  kinds : ∀ podUID name, ¬ (Uses history true podUID name ∧ Uses history false podUID name)

/-! ### Times and entities of events -/

def timeOf (e : Event) : Option Timestamp := e.observation.bind (·.observedAt)

def entity (e : Event) : Option (String × List Value) := (e.observation.bind (·.payload)).map entityOf

/-- Made at the clock reading `n` or after. -/
def Since (b : Builder) (n : ℕ) (e : Event) : Prop :=
  ∀ t, timeOf e = some t → (b.now n).nanoseconds ≤ t.nanoseconds

/-- Made before the clock reading `n`, at a valid time. -/
def Before (b : Builder) (n : ℕ) (e : Event) : Prop :=
  ∃ t, timeOf e = some t ∧ t.isValid = true ∧ ∀ m, n ≤ m → t.nanoseconds ≤ (b.now m).nanoseconds

def Precedes (e e' : Event) : Prop :=
  ∀ t t', timeOf e = some t → timeOf e' = some t' → t.nanoseconds ≤ t'.nanoseconds

/-- The events are not about one entity, or in order. -/
def Follows (e e' : Event) : Prop :=
  ∀ E : String × List Value, E.1 ≠ "" → entity e = some E → entity e' = some E → Precedes e e'

section

variable {b : Builder} {e e' : Event} {m n : ℕ}

theorem Clock.mono (h : Clock b) (hmn : m ≤ n) : (b.now m).nanoseconds ≤ (b.now n).nanoseconds :=
  monotone_nat_of_le_succ h.step hmn

theorem Before.mono (h : Before b m e) (hmn : m ≤ n) : Before b n e := by
  obtain ⟨t, ht, hvalid, hle⟩ := h
  exact ⟨t, ht, hvalid, fun k hk => hle k (hmn.trans hk)⟩

theorem Before.precedes (h : Before b m e) (h' : Since b n e') (hmn : m ≤ n) : Precedes e e' := by
  intro t t' ht ht'
  obtain ⟨τ, hτ, -, hle⟩ := h
  rw [hτ, Option.some.injEq] at ht
  subst ht
  exact (hle n hmn).trans (h' t' ht')

/-- An event that the builder makes at the reading `n`. -/
theorem Clock.dated (h : Clock b) {resourceVersion : String} {payload : Payload}
    (he : e.observation = b.observation (n + 1) resourceVersion (b.now n) payload) :
    Since b n e ∧ Before b (n + 1) e := by
  have htime : timeOf e = some (if b.now n = zeroTime then b.now (n + 1) else b.now n) := by
    rw [timeOf, he]
    rfl
  by_cases hzero : b.now n = zeroTime
  · rw [if_pos hzero] at htime
    refine ⟨fun t ht => ?_, b.now (n + 1), htime, h.valid _, fun m hm => h.mono hm⟩
    rw [htime, Option.some.injEq] at ht
    exact ht ▸ h.step n
  · rw [if_neg hzero] at htime
    refine ⟨fun t ht => ?_, b.now n, htime, h.valid _, fun m hm => h.mono (Nat.le_of_succ_le hm)⟩
    rw [htime, Option.some.injEq] at ht
    exact ht ▸ le_rfl

theorem entity_about {podUID : String} {i : ContainerInventory} (h : About podUID i e) :
    entity e = some ("container", [.string podUID, .string i.containerName]) := by
  obtain ⟨o, ho, hpayload⟩ := h.observation
  simp [entity, ho, hpayload, entityOf, h.pod]

end

/-! ### The events that are built for a change -/

section

variable {b : Builder} {lister : String → Option String} {tick : ℕ} {change : Change} {e : Event}

theorem pairwise_containersFrom (h : Clock b) (p : Pod) (ns : String) (operation : Operation) :
    ∀ (tick : ℕ) (specs : List (Container × Bool)),
      (b.containersFrom p ns operation tick specs).Pairwise Precedes
  | _, [] => List.Pairwise.nil
  | tick, (c, init) :: specs => by
    rw [Builder.containersFrom]
    refine List.Pairwise.cons (fun e he => ?_) (pairwise_containersFrom h p ns operation _ specs)
    obtain ⟨i, c', init', -, hle, -, rfl⟩ := mem_containersFrom he
    exact (h.dated rfl).2.precedes (h.dated rfl).1 (by omega)

/-- The events of an informer's change are made while it is processed. -/
theorem Clock.dated_built (h : Clock b) (hx : change.object ≠ none)
    (he : e ∈ built b lister tick change) :
    Since b tick e ∧ Before b (tick + readings change) e := by
  obtain ⟨-, i, resourceVersion, payload, hle, hlt, ho, -⟩ := mem_built hx he
  obtain ⟨hsince, hbefore⟩ := h.dated ho
  exact ⟨fun t ht => (h.mono hle).trans (hsince t ht), hbefore.mono (by omega)⟩

theorem Clock.pairwise_built (h : Clock b) (hx : change.object ≠ none) :
    (built b lister tick change).Pairwise Precedes := by
  cases change <;> simp only [Collector.built]
  case cluster | snapshot => exact absurd rfl hx
  case pod p operation =>
    refine List.Pairwise.cons (fun e he => ?_) (pairwise_containersFrom h p _ operation _ _)
    obtain ⟨i, c, init, -, hle, -, rfl⟩ := mem_containersFrom he
    exact (h.dated rfl).2.precedes (h.dated rfl).1 (by omega)
  all_goals exact List.pairwise_singleton _ _

theorem table_eq {table : String} {values : List Value} (h : entity e = some (table, values))
    {E : String × List Value} (hE : entity e = some E) : table = E.1 := by
  rw [h, Option.some.injEq] at hE
  exact congrArg Prod.fst hE

/-- What is built for an informer's change is not about the cluster; about containers it is
only for a pod. -/
theorem entity_built (hx : change.object ≠ none) (he : e ∈ built b lister tick change) :
    (∀ E, entity e = some E → E.1 ≠ "cluster") ∧
      ∀ podUID name, entity e = some ("container", [.string podUID, .string name]) →
        ∃ p operation c init, change = .pod p operation ∧ p.objectMeta.uid = podUID ∧
          (c, init) ∈ Builder.specs p ∧ c.name = name ∧ e.key = Builder.containerKey init podUID name ∧
          e ∈ (built b lister tick change).drop 1 := by
  cases change <;> simp only [Collector.built, List.mem_cons, List.not_mem_nil, or_false] at he
  case cluster | snapshot => exact absurd rfl hx
  case pod p operation =>
    rcases he with rfl | he
    · have htable : ∀ E, entity (b.pod tick p (namespaceUID lister p.objectMeta.namespace) operation) =
          some E → "pod" = E.1 := fun E => table_eq rfl
      exact ⟨fun E h => htable E h ▸ by decide, fun podUID name h => absurd (htable _ h) (by simp)⟩
    · have hmem := he
      obtain ⟨i, c, init, hspec, -, -, rfl⟩ := mem_containersFrom he
      obtain ⟨inventory, habout, -, hname⟩ := about_container b i p c (Builder.statusOf p c.name)
        (namespaceUID lister p.objectMeta.namespace) init operation
      refine ⟨fun E h => table_eq (entity_about habout) h ▸ by decide, fun podUID name h => ?_⟩
      rw [entity_about habout] at h
      simp only [Option.some.injEq, Prod.mk.injEq, true_and, List.cons.injEq, Value.string.injEq,
        and_true] at h
      obtain ⟨rfl, rfl⟩ := h
      exact ⟨p, operation, c, init, rfl, rfl, hspec, hname.symm, by rw [hname]; rfl, hmem⟩
  all_goals
    subst he
    exact ⟨fun E h => table_eq rfl h ▸ by decide, fun podUID name h => absurd (table_eq rfl h) (by simp)⟩

end

/-! ### What a session keeps -/

/-- About an object of an informer. -/
def Tracked (e : Event) : Prop := ∃ E, entity e = some E ∧ E.1 ≠ "" ∧ E.1 ≠ "cluster"

structure Inv (b : Builder) (s : Session) : Prop where
  about : ∀ uid, ∀ e ∈ s.collector.podContainers uid, ∃ i, About uid i e ∧
    Uses s.history i.initContainer uid i.containerName
  before : ∀ uid, ∀ e ∈ s.collector.podContainers uid, Before b s.collector.tick e
  /-- What the collector remembers of a container is its latest. -/
  latest : ∀ uid, ∀ e ∈ s.collector.podContainers uid, ∀ e' ∈ s.published, Follows e' e
  keys : ∀ uid, ((s.collector.podContainers uid).map (·.key)).Nodup
  dated : ∀ e ∈ s.published, ∃ t, timeOf e = some t ∧ t.isValid = true
  passed : ∀ e ∈ s.published, Tracked e → Before b s.collector.tick e
  cluster : ∀ e ∈ s.published, entity e = some ("cluster", []) → ∃ e', .cluster e' ∈ s.history
  order : s.published.Pairwise Follows

/-- Events that a session can publish next. -/
structure Fits (b : Builder) (s : Session) (change : Change) (events : List Event) : Prop where
  dated : ∀ e ∈ events, ∃ t, timeOf e = some t ∧ t.isValid = true
  passed : ∀ e ∈ events, Tracked e → Before b (s.collector.tick + readings change) e
  cluster : ∀ e ∈ events, entity e = some ("cluster", []) → ∃ e', change = .cluster e'
  after : ∀ e ∈ s.published, ∀ e' ∈ events, Follows e e'
  order : events.Pairwise Follows

theorem Uses.append {history : List Change} {init : Bool} {podUID name : String}
    (h : Uses history init podUID name) (change : Change) :
    Uses (history ++ [change]) init podUID name := by
  obtain ⟨p, operation, c, hmem, huid, hspec, hname⟩ := h
  exact ⟨p, operation, c, List.mem_append_left _ hmem, huid, hspec, hname⟩

theorem Regular.of_append {b : Builder} {history : List Change} {change : Change}
    (h : Regular b (history ++ [change])) : Regular b history where
  cluster := fun e he => h.cluster e (List.mem_append_left _ he)
  once := (List.pairwise_append.mp h.once).1
  snapshot := fun e he => h.snapshot e (List.mem_append_left _ he)
  kinds := fun podUID name ⟨hinit, hregular⟩ =>
    h.kinds podUID name ⟨hinit.append change, hregular.append change⟩

theorem Regular.kind_eq {b : Builder} {history : List Change} (h : Regular b history)
    {init init' : Bool} {podUID name : String} (hu : Uses history init podUID name)
    (hu' : Uses history init' podUID name) : init = init' := by
  cases init <;> cases init'
  · rfl
  · exact absurd ⟨hu', hu⟩ (h.kinds podUID name)
  · exact absurd ⟨hu, hu'⟩ (h.kinds podUID name)
  · rfl

section

variable {b : Builder} {s : Session} {change : Change} {lister : String → Option String}
  {attempt : Attempt} {e e' previous : Event} {uid : String}

theorem fits_cluster (hclock : Clock b) (inv : Inv b s)
    (hreg : Regular b (s.history ++ [.cluster e])) : Fits b s (.cluster e) [e] := by
  obtain ⟨tick, clusterID, version, systemNamespace, rfl, hvalid⟩ :=
    hreg.cluster e (List.mem_append_right _ (List.mem_singleton_self _))
  have hentity : entity (b.cluster tick clusterID version systemNamespace) = some ("cluster", []) := rfl
  refine ⟨?_, ?_, fun _ _ _ => ⟨_, rfl⟩, ?_, List.pairwise_singleton _ _⟩
  · intro e he
    rw [List.mem_singleton.mp he]
    refine ⟨_, rfl, ?_⟩
    split
    · exact hclock.valid tick
    · exact hvalid
  · rintro e he ⟨E, hE, -, hcluster⟩
    rw [List.mem_singleton.mp he, hentity, Option.some.injEq] at hE
    exact absurd (hE ▸ rfl) hcluster
  · intro e he e' he' E _ hE hE'
    rw [List.mem_singleton.mp he', hentity] at hE'
    obtain ⟨first, hfirst⟩ := inv.cluster e he (hE.trans hE'.symm)
    exact absurd ⟨rfl, rfl⟩ ((List.pairwise_append.mp hreg.once).2.2 _ hfirst _
      (List.mem_singleton_self _) first _)

theorem fits_snapshot (hclock : Clock b) (hreg : Regular b (s.history ++ [.snapshot e])) :
    Fits b s (.snapshot e) [e] := by
  obtain ⟨tick, snapshotID, phase, marker, rfl⟩ :=
    hreg.snapshot e (List.mem_append_right _ (List.mem_singleton_self _))
  have hentity : entity (b.snapshot tick snapshotID phase marker) = some ("", []) := rfl
  have hnone : ∀ e ∈ [b.snapshot tick snapshotID phase marker], ∀ E : String × List Value,
      E.1 ≠ "" → entity e ≠ some E := by
    intro e he E hE heq
    rw [List.mem_singleton.mp he, hentity, Option.some.injEq] at heq
    exact hE (heq ▸ rfl)
  refine ⟨?_, ?_, ?_, ?_, List.pairwise_singleton _ _⟩
  · intro e he
    rw [List.mem_singleton.mp he]
    obtain ⟨-, t, ht, hvalid, -⟩ := hclock.dated (n := tick)
      (e := b.snapshot tick snapshotID phase marker) rfl
    exact ⟨t, ht, hvalid⟩
  · rintro e he ⟨E, hE, hne, -⟩
    exact absurd hE (hnone e he E hne)
  · intro e he hE
    exact absurd hE (hnone e he _ (by decide))
  · intro e _ e' he' E hne _ hE'
    exact absurd hE' (hnone e' he' E hne)

/-- A built event about a remembered container has its key. -/
theorem Inv.key_eq (inv : Inv b s) (hreg : Regular b (s.history ++ [change])) (hx : change.object ≠ none)
    (hprevious : previous ∈ s.collector.podContainers uid)
    (he : e ∈ built b lister s.collector.tick change) (hentity : entity e = entity previous) :
    previous.key = e.key ∧ e ∈ (built b lister s.collector.tick change).drop 1 := by
  obtain ⟨i, habout, huses⟩ := inv.about uid previous hprevious
  rw [entity_about habout] at hentity
  obtain ⟨p, operation, c, init, rfl, rfl, hspec, hname, hkey, hmem⟩ :=
    (entity_built hx he).2 _ _ hentity
  have hkind : i.initContainer = init := hreg.kind_eq (huses.append _)
    ⟨p, operation, c, List.mem_append_right _ (List.mem_singleton_self _), rfl, hspec, hname⟩
  exact ⟨by rw [habout.key, hkey, hkind], hmem⟩

/-- Remembered events of one pod about one container are one. -/
theorem Inv.key_inj (inv : Inv b s) (hreg : Regular b s.history)
    (he : e ∈ s.collector.podContainers uid) (he' : e' ∈ s.collector.podContainers uid)
    (hentity : entity e = entity e') : e.key = e'.key := by
  obtain ⟨i, habout, huses⟩ := inv.about uid e he
  obtain ⟨i', habout', huses'⟩ := inv.about uid e' he'
  rw [entity_about habout, entity_about habout'] at hentity
  simp only [Option.some.injEq, Prod.mk.injEq, true_and, List.cons.injEq, Value.string.injEq,
    and_true] at hentity
  rw [habout.key, habout'.key, hentity, hreg.kind_eq huses (hentity ▸ huses')]

theorem Inv.asDelete (inv : Inv b s) (he : e ∈ s.collector.podContainers uid) :
    entity (asDelete e) = entity e ∧ timeOf (asDelete e) = timeOf e := by
  obtain ⟨i, habout, -⟩ := inv.about uid e he
  obtain ⟨habout', -, htime⟩ := habout.asDelete
  exact ⟨by rw [entity_about habout, entity_about habout'], htime⟩

theorem fits_informed (hclock : Clock b) (inv : Inv b s) (hreg : Regular b (s.history ++ [change]))
    (hx : change.object ≠ none) : Fits b s change (s.collector.events b lister attempt.order change) := by
  have hbuilt : ∀ e ∈ built b lister s.collector.tick change,
      Since b s.collector.tick e ∧ Before b (s.collector.tick + readings change) e :=
    fun e he => hclock.dated_built hx he
  have hremoved : ∀ e ∈ removed attempt.order s.collector (built b lister s.collector.tick change) change,
      ∃ p, change = .pod p .upsert ∧ ∃ previous ∈ s.collector.podContainers p.objectMeta.uid,
        previous.key ∉ ((built b lister s.collector.tick change).drop 1).map (·.key) ∧
        asDelete previous = e := fun e he => (mem_removed attempt.shuffles).mp he
  have hbefore : ∀ e ∈ s.collector.events b lister attempt.order change,
      Before b (s.collector.tick + readings change) e := by
    intro e he
    rcases List.mem_append.mp he with he | he
    · exact (hbuilt e he).2
    · obtain ⟨p, -, previous, hprevious, -, rfl⟩ := hremoved e he
      obtain ⟨t, ht, hvalid, hle⟩ := (inv.before _ previous hprevious).mono (Nat.le_add_right _ _)
      exact ⟨t, (inv.asDelete hprevious).2.trans ht, hvalid, hle⟩
  refine ⟨fun e he => ?_, fun e he _ => hbefore e he, fun e he hcluster => ?_, ?_, ?_⟩
  · obtain ⟨t, ht, hvalid, -⟩ := hbefore e he
    exact ⟨t, ht, hvalid⟩
  · rcases List.mem_append.mp he with he | he
    · exact absurd rfl ((entity_built hx he).1 _ hcluster)
    · obtain ⟨p, -, previous, hprevious, -, rfl⟩ := hremoved e he
      obtain ⟨i, habout, -⟩ := inv.about _ previous hprevious
      rw [(inv.asDelete hprevious).1, entity_about habout] at hcluster
      simp at hcluster
  · intro e he e' he' E hne hE hE'
    rcases List.mem_append.mp he' with he' | he'
    · -- a new event comes after all that was published
      have htracked : Tracked e := ⟨E, hE, hne, (entity_built hx he').1 E hE'⟩
      exact (inv.passed e he htracked).precedes (hbuilt e' he').1 le_rfl
    · obtain ⟨p, -, previous, hprevious, -, rfl⟩ := hremoved e' he'
      obtain ⟨hentity, htime⟩ := inv.asDelete hprevious
      intro t t' ht ht'
      exact inv.latest _ previous hprevious e he E hne hE (hentity ▸ hE') t t' ht (htime ▸ ht')
  · refine List.pairwise_append.mpr ⟨?_, ?_, ?_⟩
    · exact (hclock.pairwise_built hx).imp fun h _ _ _ _ => h
    · have hnodup := List.pairwise_map.mp (nodup_keys_removed attempt.shuffles inv.keys
        (built b lister s.collector.tick change) change)
      refine hnodup.imp_of_mem fun {e e'} he he' hne E _ hE hE' => ?_
      obtain ⟨p, rfl, previous, hprevious, -, rfl⟩ := hremoved e he
      obtain ⟨p', hp', previous', hprevious', -, rfl⟩ := hremoved e' he'
      cases hp'
      rw [asDelete_key, asDelete_key] at hne
      refine absurd (inv.key_inj hreg.of_append hprevious hprevious' ?_) hne
      rw [← (inv.asDelete hprevious).1, ← (inv.asDelete hprevious').1, hE, hE']
    · intro e he e' he' E _ hE hE'
      obtain ⟨p, -, previous, hprevious, hkey, rfl⟩ := hremoved e' he'
      obtain ⟨hkeys, hmem⟩ := inv.key_eq hreg hx hprevious he
        (hE.trans (hE'.symm.trans (inv.asDelete hprevious).1))
      exact absurd (List.mem_map.mpr ⟨e, hmem, hkeys.symm⟩) hkey

/-- A change of `Start`, or one of an informer. -/
theorem informed_or (change : Change) :
    (∃ e, change = .cluster e) ∨ (∃ e, change = .snapshot e) ∨ change.object ≠ none := by
  cases change with
  | cluster e => exact .inl ⟨e, rfl⟩
  | snapshot e => exact .inr (.inl ⟨e, rfl⟩)
  | _ => exact .inr (.inr (Option.some_ne_none _))

variable (lister attempt) in
/-- **What a regular change publishes fits the session.** -/
theorem Inv.fits (hclock : Clock b) (inv : Inv b s) (hreg : Regular b (s.history ++ [change])) :
    Fits b s change (s.collector.events b lister attempt.order change) := by
  rcases informed_or change with ⟨e, rfl⟩ | ⟨e, rfl⟩ | hx
  · exact fits_cluster hclock inv hreg
  · exact fits_snapshot hclock hreg
  · exact fits_informed hclock inv hreg hx

/-- An event of a change about a container belongs to a change of its pod. -/
theorem Inv.pod_of_entity (inv : Inv b s) (hreg : Regular b (s.history ++ [change]))
    (he : e ∈ s.collector.events b lister attempt.order change) {name : String}
    (hentity : entity e = some ("container", [.string uid, .string name])) :
    ∃ p operation, change = .pod p operation ∧ p.objectMeta.uid = uid := by
  have hlast : change ∈ s.history ++ [change] := List.mem_append_right _ (List.mem_singleton_self _)
  rcases informed_or change with ⟨e', rfl⟩ | ⟨e', rfl⟩ | hx
  · obtain ⟨_, _, _, _, rfl, -⟩ := hreg.cluster e' hlast
    rw [List.mem_singleton.mp he] at hentity
    exact absurd (table_eq rfl hentity) (by simp)
  · obtain ⟨_, _, _, _, rfl⟩ := hreg.snapshot e' hlast
    rw [List.mem_singleton.mp he] at hentity
    exact absurd (table_eq rfl hentity) (by simp)
  rcases List.mem_append.mp he with he | he
  · obtain ⟨p, operation, -, -, hp, huid, -⟩ := (entity_built hx he).2 _ _ hentity
    exact ⟨p, operation, hp, huid⟩
  · obtain ⟨p, hp, previous, hprevious, -, rfl⟩ := (mem_removed attempt.shuffles).mp he
    obtain ⟨i, habout, -⟩ := inv.about _ previous hprevious
    rw [(inv.asDelete hprevious).1, entity_about habout] at hentity
    simp only [Option.some.injEq, Prod.mk.injEq, true_and, List.cons.injEq, Value.string.injEq] at hentity
    exact ⟨p, .upsert, hp, hentity.1⟩

variable (attempt) in
/-- What a pod's update makes the collector remember is the latest of each container. -/
theorem Inv.renewed (hclock : Clock b) (inv : Inv b s) {p : Pod}
    (hreg : Regular b (s.history ++ [.pod p .upsert]))
    (he : e ∈ keep (b.containers (s.collector.tick + 2) p
      (namespaceUID lister p.objectMeta.namespace) .upsert)) :
    (∃ i, About p.objectMeta.uid i e ∧
      Uses (s.history ++ [.pod p .upsert]) i.initContainer p.objectMeta.uid i.containerName) ∧
    Before b (s.collector.tick + readings (.pod p .upsert)) e ∧
    (∀ e' ∈ s.published, Follows e' e) ∧
    ∀ e' ∈ s.collector.events b lister attempt.order (.pod p .upsert), Follows e' e := by
  have hx : (Change.pod p .upsert).object ≠ none := Option.some_ne_none _
  have hmem := mem_keep he
  have hbuilt : e ∈ built b lister s.collector.tick (.pod p .upsert) := List.mem_cons_of_mem _ hmem
  obtain ⟨hsince, hbefore⟩ := hclock.dated_built hx hbuilt
  obtain ⟨i, c, init, hspec, -, -, heq⟩ := mem_containersFrom hmem
  obtain ⟨inventory, habout, hinit, hname⟩ := about_container b i p c (Builder.statusOf p c.name)
    (namespaceUID lister p.objectMeta.namespace) init .upsert
  rw [← heq] at habout
  have huses : Uses (s.history ++ [.pod p .upsert]) inventory.initContainer p.objectMeta.uid
      inventory.containerName :=
    ⟨p, .upsert, c, List.mem_append_right _ (List.mem_singleton_self _), rfl, hinit ▸ hspec, hname.symm⟩
  refine ⟨⟨inventory, habout, huses⟩, hbefore, fun e' he' E hne hE' hE => ?_, fun e' he' E hne hE' hE => ?_⟩
  · have htracked : Tracked e' := ⟨E, hE', hne, (entity_built hx hbuilt).1 E hE⟩
    exact (inv.passed e' he' htracked).precedes hsince le_rfl
  · rcases List.mem_append.mp he' with he' | he'
    · -- two built events about one container: the collector keeps the later
      rw [entity_about habout] at hE
      rw [← hE] at hE'
      obtain ⟨q, operation, c', init', hq, -, hspec', hname', hkey', hmem'⟩ :=
        (entity_built hx he').2 _ _ hE'
      cases hq
      have hkind : inventory.initContainer = init' := hreg.kind_eq huses
        ⟨p, .upsert, c', List.mem_append_right _ (List.mem_singleton_self _), rfl, hspec', hname'⟩
      have hkey : e'.key = e.key := by rw [hkey', habout.key, hkind]
      rcases keep_last (pairwise_containersFrom hclock p _ .upsert _ _) he hmem' hkey with rfl | h
      · intro t t' ht ht'
        rw [ht, Option.some.injEq] at ht'
        exact ht' ▸ le_rfl
      · exact h
    · obtain ⟨q, hq, previous, hprevious, hkey, rfl⟩ := (mem_removed attempt.shuffles).mp he'
      cases hq
      obtain ⟨hkeys, hdrop⟩ := inv.key_eq hreg hx hprevious hbuilt
        (hE.trans (hE'.symm.trans (inv.asDelete hprevious).1))
      exact absurd (List.mem_map.mpr ⟨e, hdrop, hkeys.symm⟩) hkey

/-- What the session remembers of a container after a change is as old as before, and the
change is about another pod; or the change is an update of the pod. -/
theorem Inv.mem_update (inv : Inv b s) (he : e ∈ s.collector.updatePodContainers
      (s.collector.events b lister attempt.order change) change uid) :
    e ∈ s.collector.podContainers uid ∧ (∀ p operation, change = .pod p operation → p.objectMeta.uid ≠ uid) ∨
      ∃ p, change = .pod p .upsert ∧ p.objectMeta.uid = uid ∧
        e ∈ keep (b.containers (s.collector.tick + 2) p
          (namespaceUID lister p.objectMeta.namespace) .upsert) := by
  have hholds : s.collector.Holds := fun uid e he => (inv.about uid e he).imp fun _ h => h.1
  rcases mem_updatePodContainers he with h | ⟨p, rfl, rfl, -, -⟩
  · exact .inl h
  · rw [updatePodContainers, Function.update_self, kept_upsert hholds] at he
    exact .inr ⟨p, rfl, rfl, he⟩

theorem Inv.nodup_update (inv : Inv b s) (events : List Event) :
    ((s.collector.updatePodContainers events change uid).map (·.key)).Nodup := by
  unfold updatePodContainers
  split
  · rename_i p
    by_cases huid : uid = p.objectMeta.uid
    · rw [huid, Function.update_self]
      exact List.nodup_nil
    · rw [Function.update_of_ne huid]
      exact inv.keys uid
  · rename_i p
    by_cases huid : uid = p.objectMeta.uid
    · rw [huid, Function.update_self]
      exact nodup_keys_keep _
    · rw [Function.update_of_ne huid]
      exact inv.keys uid
  · exact inv.keys uid

/-- What `collect` does to a session. -/
theorem collect_eq_some {C : Codec} {input : Input} {s' : Session} (h : collect C b s input = some s') :
    s'.history = s.history ++ [input.change] ∧
    s'.collector.tick = s.collector.tick + readings input.change ∧
    s'.collector.podContainers = s.collector.updatePodContainers
      (s.collector.events b input.lister input.attempt.order input.change) input.change ∧
    ∃ taken, taken.Sublist (s.collector.events b input.lister input.attempt.order input.change) ∧
      s'.published = s.published ++ taken := by
  unfold collect Collector.process at h
  simp only at h
  have hsublist := publishAll_sublist C input.attempt.publish input.change.operation 0
    (s.collector.events b input.lister input.attempt.order input.change) s.collector.cache
  split at h
  · rw [if_neg (Option.some_ne_none _)] at h
    cases h
  · rw [if_pos rfl] at h
    cases h
    exact ⟨rfl, rfl, rfl, _, hsublist, rfl⟩

/-- **The next change keeps the invariant.** -/
theorem Inv.collect {C : Codec} {input : Input} {s' : Session} (hclock : Clock b) (inv : Inv b s)
    (hreg : Regular b (s.history ++ [input.change])) (h : collect C b s input = some s') : Inv b s' := by
  obtain ⟨hhistory, htick, hpods, taken, hsublist, hpublished⟩ := collect_eq_some h
  have hfits := inv.fits input.lister input.attempt hclock hreg
  have hgrows : s.collector.tick ≤ s'.collector.tick := by omega
  refine ⟨?_, ?_, ?_, ?_, ?_, ?_, ?_, ?_⟩
  · intro uid e he
    rw [hpods] at he
    rw [hhistory]
    rcases inv.mem_update he with ⟨hmem, -⟩ | ⟨p, hp, rfl, hmem⟩
    · obtain ⟨i, habout, huses⟩ := inv.about uid e hmem
      exact ⟨i, habout, huses.append _⟩
    · rw [hp] at hreg ⊢
      exact (inv.renewed input.attempt hclock hreg hmem).1
  · intro uid e he
    rw [hpods] at he
    rcases inv.mem_update he with ⟨hmem, -⟩ | ⟨p, hp, rfl, hmem⟩
    · exact (inv.before uid e hmem).mono hgrows
    · rw [htick, hp]
      rw [hp] at hreg
      exact (inv.renewed input.attempt hclock hreg hmem).2.1
  · intro uid e he e' he'
    rw [hpods] at he
    rw [hpublished] at he'
    rcases inv.mem_update he with ⟨hmem, hother⟩ | ⟨p, hp, rfl, hmem⟩
    · rcases List.mem_append.mp he' with he' | he'
      · exact inv.latest uid e hmem e' he'
      · -- no event of the change is about this container
        intro E _ hE' hE
        obtain ⟨i, habout, -⟩ := inv.about uid e hmem
        rw [entity_about habout] at hE
        rw [← hE] at hE'
        obtain ⟨p, operation, hp, huid⟩ := inv.pod_of_entity hreg (hsublist.subset he') hE'
        exact absurd huid (hother p operation hp)
    · rw [hp] at hreg hsublist
      obtain ⟨-, -, hold, hnew⟩ := inv.renewed input.attempt hclock hreg hmem
      rcases List.mem_append.mp he' with he' | he'
      · exact hold e' he'
      · exact hnew e' (hsublist.subset he')
  · intro uid
    rw [hpods]
    exact inv.nodup_update _
  · intro e he
    rw [hpublished] at he
    rcases List.mem_append.mp he with he | he
    · exact inv.dated e he
    · exact hfits.dated e (hsublist.subset he)
  · intro e he htracked
    rw [hpublished] at he
    rcases List.mem_append.mp he with he | he
    · exact (inv.passed e he htracked).mono hgrows
    · rw [htick]
      exact hfits.passed e (hsublist.subset he) htracked
  · intro e he hcluster
    rw [hpublished] at he
    rw [hhistory]
    rcases List.mem_append.mp he with he | he
    · obtain ⟨e', he'⟩ := inv.cluster e he hcluster
      exact ⟨e', List.mem_append_left _ he'⟩
    · obtain ⟨e', he'⟩ := hfits.cluster e (hsublist.subset he) hcluster
      exact ⟨e', List.mem_append_right _ (List.mem_singleton.mpr he'.symm)⟩
  · rw [hpublished]
    refine List.pairwise_append.mpr ⟨inv.order, hfits.order.sublist hsublist, fun e he e' he' => ?_⟩
    exact hfits.after e he e' (hsublist.subset he')

end

/-- **In every session the published events about an entity are in the order of their
times.** -/
theorem inv_of_reach {C : Codec} {b : Builder} {s : Session} (hclock : Clock b)
    (h : Machine.Reach (collect C b) Machine.Always Session.new s) (hreg : Regular b s.history) :
    Inv b s := by
  refine h.invariant (I := fun s => Regular b s.history → Inv b s) ?_ ?_ hreg
  · intro _
    refine ⟨?_, ?_, ?_, fun _ => List.nodup_nil, ?_, ?_, ?_, List.Pairwise.nil⟩ <;>
      intros <;> exact absurd ‹_ ∈ _› List.not_mem_nil
  · intro s₁ input s₂ hinv _ hstep hreg
    rw [(collect_eq_some hstep).1] at hreg
    exact (hinv hreg.of_append).collect hclock hreg hstep

end Chronology
end Delivery
end KubeCost
