/-
# The stream of deltas

What `agent/inventory/collector.go` hands to the publisher, over a whole history of
changes: in any order, with repetitions, and with any of the calls of `Publish` failing.
The cache follows the stream, and for each key the stream is well formed: it starts
with an update, an update differs from the one right before it, and a deletion comes
right after an update (`deltas_wellFormed`).

One call of `publishDelta` extends the stream by at most one event
(`WellFormed.publishDelta`); a change and a history are loops over such calls. A failure
after any of them leaves a prefix of the loop, so nothing more is needed for the
failures.
-/
import Mathlib.Data.List.Chain
import KubeCost.Agent.Retries

namespace KubeCost
namespace Agent

open Collector

/-! ### Well-formed streams -/

/-- The events under a key. -/
def ofKey (events : List Event) (k : String) : List Event := events.filter (·.key = k)

/-- The fingerprint of an event. -/
def print (C : Codec) (e : Event) : Option String :=
  e.observation.bind fun o => (fingerprint C o).toOption

/-- `e` may come right after `u` under a key: a deletion after an update, and an update
not after one with its fingerprint. -/
def MayFollow (C : Codec) (u e : Event) : Prop :=
  (isDelete e = true → isDelete u = false) ∧
    (isDelete u = false → isDelete e = false → print C u ≠ print C e)

/-- The cache follows the stream: it has the keys whose last published event is no
deletion, each with that event's fingerprint; and under each key the stream starts with
an update, and every event may follow the one before it. -/
structure WellFormed (C : Codec) (cache : Cache) (published : List Event) : Prop where
  keys : ∀ k, cache k ≠ none ↔ ∃ e ∈ (ofKey published k).getLast?, isDelete e = false
  prints : ∀ k, ∀ e ∈ (ofKey published k).getLast?, isDelete e = false → cache k = print C e
  starts : ∀ k, ∀ e ∈ (ofKey published k).head?, isDelete e = false
  chain : ∀ k, (ofKey published k).IsChain (MayFollow C)

theorem ofKey_concat_self (events : List Event) (e : Event) :
    ofKey (events ++ [e]) e.key = ofKey events e.key ++ [e] := by
  simp [ofKey, List.filter_append]

theorem ofKey_concat_of_ne {events : List Event} {e : Event} {k : String} (h : k ≠ e.key) :
    ofKey (events ++ [e]) k = ofKey events k := by
  simp [ofKey, List.filter_append, Ne.symm h]

/-- The stream under one key, and what the cache has for it. -/
structure KeyFormed (C : Codec) (cell : Option String) (events : List Event) : Prop where
  kept : cell ≠ none ↔ ∃ e ∈ events.getLast?, isDelete e = false
  prints : ∀ e ∈ events.getLast?, isDelete e = false → cell = print C e
  starts : ∀ e ∈ events.head?, isDelete e = false
  chain : events.IsChain (MayFollow C)

section

variable {C : Codec} {cache : Cache} {published : List Event} {e : Event}

theorem wellFormed_iff : WellFormed C cache published ↔
    ∀ k, KeyFormed C (cache k) (ofKey published k) :=
  ⟨fun h k => ⟨h.keys k, h.prints k, h.starts k, h.chain k⟩, fun h =>
    ⟨fun k => (h k).kept, fun k => (h k).prints, fun k => (h k).starts, fun k => (h k).chain⟩⟩

namespace KeyFormed

variable {cell v : Option String} {events : List Event} (h : KeyFormed C cell events)
  (hdelete : isDelete e = true → v = none) (hnew : cell ≠ v)

include h hdelete hnew

/-- A deletion is new only after an update. -/
theorem last_of_delete (hd : isDelete e = true) : ∃ u ∈ events.getLast?, isDelete u = false :=
  h.kept.mp (hdelete hd ▸ hnew)

theorem starts_concat : ∀ u ∈ (events ++ [e]).head?, isDelete u = false := by
  cases events with
  | nil =>
    rintro _ ⟨⟩
    by_contra hd
    obtain ⟨u, hu, -⟩ := h.last_of_delete hdelete hnew (Bool.not_eq_false _ ▸ hd)
    cases hu
  | cons u rest =>
    rintro _ ⟨⟩
    exact h.starts u rfl

variable (hupsert : isDelete e = false → v = print C e ∧ v ≠ none)

include hupsert

theorem mayFollow_last : ∀ u ∈ events.getLast?, MayFollow C u e := by
  refine fun u hu => ⟨fun hd => ?_, fun hud hed heq => ?_⟩
  · obtain ⟨u', hu', hud⟩ := h.last_of_delete hdelete hnew hd
    rwa [Option.mem_unique hu hu']
  · rw [h.prints u hu hud, (hupsert hed).1] at hnew
    exact hnew heq

/-- **One more event**, which says something new. -/
theorem concat : KeyFormed C v (events ++ [e]) where
  kept := by
    rw [List.getLast?_concat]
    simp only [Option.mem_some_iff, exists_eq_left']
    cases hd : isDelete e with
    | true => simp [hdelete hd]
    | false => simp [(hupsert hd).2]
  prints := by
    rw [List.getLast?_concat]
    rintro _ ⟨⟩ hd
    exact (hupsert hd).1
  starts := h.starts_concat hdelete hnew
  chain := by
    refine List.isChain_append.mpr ⟨h.chain, List.isChain_singleton _, fun u hu e' he' => ?_⟩
    cases he'
    exact h.mayFollow_last hdelete hnew hupsert u hu

end KeyFormed

theorem WellFormed.nil (C : Codec) : WellFormed C (fun _ => none) [] where
  keys := fun _ => by simp [ofKey]
  prints := fun _ _ h => by cases h
  starts := fun _ _ h => by cases h
  chain := fun _ => .nil

theorem WellFormed.concat (h : WellFormed C cache published) {v : Option String}
    (hdelete : isDelete e = true → v = none) (hupsert : isDelete e = false → v = print C e ∧ v ≠ none)
    (hnew : cache e.key ≠ v) :
    WellFormed C (Function.update cache e.key v) (published ++ [e]) := by
  rw [wellFormed_iff] at h ⊢
  intro k
  by_cases hk : k = e.key
  · subst hk
    rw [Function.update_self, ofKey_concat_self]
    exact (h e.key).concat hdelete hnew hupsert
  · rw [Function.update_of_ne hk, ofKey_concat_of_ne hk]
    exact h k

end

/-! ### Publishing -/

section

variable {C : Codec} {cache : Cache} {published : List Event} {e : Event}

/-- `Changed` compares the fingerprint of the event with the cache. -/
theorem changed_eq_ok {changed : Bool} {fp : String} (h : cache.changed C e = .ok (changed, fp)) :
    print C e = some fp ∧ fp ≠ "" ∧ (changed = true → cache e.key ≠ some fp) := by
  unfold Cache.changed at h
  split at h
  · cases h
  · rename_i o ho
    have hobservation : e.observation = some o := by
      unfold Event.validate at ho
      grind
    split at h
    · cases h
    · rename_i fp' hfp
      cases h
      refine ⟨by simp [print, hobservation, hfp, Except.toOption], ?_, of_decide_eq_true⟩
      unfold fingerprint at hfp
      split at hfp
      · cases hfp
      · split at hfp
        · cases hfp
        · cases hfp
          exact Hash.hexEncode_sha256_ne _

/-- **One call of `publishDelta`**, whatever `Publish` returns. -/
theorem WellFormed.publishDelta (h : WellFormed C cache published) (hkey : e.key ≠ "")
    {operation : Operation} (hoperation : operation = .delete → isDelete e = true)
    (publish : Option String) :
    WellFormed C (publishDelta C publish operation e cache).cache
      (published ++ if (Agent.publishDelta C publish operation e cache).published then [e] else []) := by
  have hsame : WellFormed C cache (published ++ []) := by rwa [List.append_nil]
  unfold Agent.publishDelta
  split
  · rename_i hdelete
    have hd : isDelete e = true := hdelete.elim hoperation id
    split
    · exact hsame
    · rename_i hcached
      cases publish with
      | some error => exact hsame
      | none => exact h.concat (fun _ => rfl) (fun hu => absurd (hu.symm.trans hd) (by decide)) hcached
  · rename_i hupsert
    have hu : isDelete e = false := by
      rw [not_or] at hupsert
      exact Bool.not_eq_true _ ▸ hupsert.2
    split
    · exact hsame
    · exact hsame
    · rename_i fp hchanged
      obtain ⟨hfp, hne, hnew⟩ := changed_eq_ok hchanged
      cases publish with
      | some error => exact hsame
      | none =>
        have hcommit : cache.commit e.key fp = .ok (Function.update cache e.key (some fp)) :=
          if_neg fun hempty => hempty.elim hkey hne
        simp only [hcommit]
        exact h.concat (fun hd => absurd (hu.symm.trans hd) (by decide))
          (fun _ => ⟨hfp.symm, Option.some_ne_none _⟩) (hnew rfl)

/-- The loop of `process`. -/
theorem WellFormed.publishAll (publish : ℕ → Option String) {operation : Operation} :
    ∀ (i : ℕ) {events : List Event} {cache : Cache} {published : List Event},
      (∀ e ∈ events, e.key ≠ "" ∧ (operation = .delete → isDelete e = true)) →
      WellFormed C cache published →
      WellFormed C (publishAll C publish operation i events cache).cache
        (published ++ (Agent.publishAll C publish operation i events cache).published)
  | _, [], _, _, _, h => by rwa [Agent.publishAll, List.append_nil]
  | i, e :: events, cache, published, hall, h => by
    obtain ⟨hkey, hoperation⟩ := hall e List.mem_cons_self
    have hstep := h.publishDelta hkey hoperation (publish i)
    rw [Agent.publishAll]
    simp only
    split
    · exact hstep
    · have hrest := WellFormed.publishAll publish (i + 1)
        (fun e he => hall e (List.mem_cons_of_mem _ he)) hstep
      rwa [List.append_assoc] at hrest

end

/-! ### Histories -/

/-- The events of a change of the informers have keys, and those of a deletion are
deletions. -/
theorem key_and_delete {c : Collector} (hc : c.Holds) {change : Change} (hx : change.object ≠ none)
    {b : Builder} {lister : String → Option String} {attempt : Attempt} {e : Event}
    (he : e ∈ c.events b lister attempt.order change) :
    e.key ≠ "" ∧ (change.operation = .delete → isDelete e = true) := by
  rcases List.mem_append.mp he with he | he
  · obtain ⟨hkey, i, resourceVersion, payload, -, -, ho, hrecord⟩ := mem_built hx he
    exact ⟨hkey, isDelete_wire ho rfl hrecord⟩
  · have hdelete := isDelete_removed hc attempt.shuffles he
    obtain ⟨p, rfl, previous, hprevious, -, rfl⟩ := (mem_removed attempt.shuffles).mp he
    obtain ⟨inventory, habout⟩ := hc _ _ hprevious
    rw [asDelete_key, habout.key]
    exact ⟨containerKey_ne _ _ _, fun _ => hdelete⟩

/-- The collector and what the publisher has taken so far. -/
structure History where
  collector : Collector
  published : List Event

namespace History

def new : History := ⟨Collector.new, []⟩

/-- One call of `process`, which may fail. -/
def process (C : Codec) (b : Builder) (h : History) (x : Handed) : History :=
  let processed := h.collector.process C b x.lister x.attempt x.change
  ⟨processed.collector, h.published ++ processed.published⟩

def run (C : Codec) (b : Builder) (xs : List Handed) : History := xs.foldl (process C b) new

theorem run_concat (C : Codec) (b : Builder) (xs : List Handed) (x : Handed) :
    run C b (xs ++ [x]) = (run C b xs).process C b x := by
  rw [run, List.foldl_append]
  rfl

theorem run_holds (C : Codec) (b : Builder) (xs : List Handed) : (run C b xs).collector.Holds := by
  induction xs using List.reverseRecOn with
  | nil => exact holds_new
  | append_singleton xs x ih =>
    rw [run_concat]
    exact ih.process C b x.lister x.attempt x.change

/-- One change, up to the first failure. -/
theorem wellFormed_process {C : Codec} {b : Builder} {h : History} {x : Handed}
    (hc : h.collector.Holds) (hx : x.change.object ≠ none)
    (hwf : WellFormed C h.collector.cache h.published) :
    WellFormed C (h.process C b x).collector.cache (h.process C b x).published := by
  have hevents : ∀ e ∈ h.collector.events b x.lister x.attempt.order x.change,
      e.key ≠ "" ∧ (x.change.operation = .delete → isDelete e = true) :=
    fun e he => key_and_delete hc hx he
  have hall := hwf.publishAll x.attempt.publish 0 hevents
  unfold process Collector.process
  simp only
  split
  · exact hall
  · exact hall

end History

/-- **The stream of deltas is well formed.** After every history of changes to nodes,
namespaces, deployments and pods, in any order, with repetitions and with any failures
of `Publish`: the cache has exactly the keys whose last published event is no deletion,
each with that event's fingerprint; and under each key no two consecutive updates have
the same fingerprint, and every deletion comes right after an update. -/
theorem deltas_wellFormed (C : Codec) (b : Builder) {xs : List Handed}
    (h : ∀ x ∈ xs, x.change.object ≠ none) :
    WellFormed C (History.run C b xs).collector.cache (History.run C b xs).published := by
  induction xs using List.reverseRecOn with
  | nil => exact .nil C
  | append_singleton xs x ih =>
    rw [List.forall_mem_append] at h
    rw [History.run_concat]
    exact History.wellFormed_process (History.run_holds C b xs)
      (h.2 x (List.mem_singleton_self x)) (ih h.1)

/-- A namespace comes, which fails at first, is seen again, and goes twice. -/
def smallHistory : List Handed :=
  [⟨comes "u", fun _ => none, .steady (some "unavailable")⟩, ⟨comes "u", fun _ => none, .steady none⟩,
    ⟨comes "u", fun _ => none, .steady none⟩, ⟨goes "u", fun _ => none, .steady none⟩,
    ⟨goes "u", fun _ => none, .steady none⟩]

theorem deltas_wellFormed_smallHistory :
    ((History.run smallCodec ⟨fun _ => zeroTime⟩ smallHistory).published.map isDelete = [false, true]) ∧
    WellFormed smallCodec (History.run smallCodec ⟨fun _ => zeroTime⟩ smallHistory).collector.cache
      (History.run smallCodec ⟨fun _ => zeroTime⟩ smallHistory).published :=
  ⟨by decide +kernel, deltas_wellFormed smallCodec _ (by simp [smallHistory, comes, goes, Change.object])⟩

end Agent
end KubeCost
