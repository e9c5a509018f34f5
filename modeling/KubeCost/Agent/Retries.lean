/-
# Retries and the order of changes

`processNext`: a change whose processing failed is put back and taken up later, while
other changes are processed. "One worker processes changes to preserve source
ordering" (`docs/17-ck-kube-agent-v1.md`), but a retry carries the object as it was
when the change was queued: when a newer change to the object has been processed
meanwhile, the older one has the last word (`gone_namespace_stands`).

A retry also asks the informer's store for the namespace again, and by then the store may
answer with another UID: the update that is published has the UID of the last attempt.

`Ordered` is the condition that no attempt overtakes an earlier change to its object, and that
every attempt at an update finds the UID that belongs to the change. Each object has its own
keys in the cache (`ownerOf`), an attempt touches only those (`fails_of_error`,
`finishes_of_success`), and so the queue does what one pass over the changes in the order of
arrival does (`standing_eq_replay`), whatever fails.
-/
import Mathlib.Data.List.TakeWhile
import KubeCost.Agent.Collector
import KubeCost.Machine
import KubeCost.WorkQueue

namespace KubeCost
namespace Agent

open Collector WorkQueue

/-! ### The worker -/

/-- The queue and the worker. `arrived` and `published` are the whole history. -/
structure Worker where
  collector : Collector
  /-- The changes that have not been processed, in the order of their arrival. -/
  waiting : List Change
  arrived : List Change
  published : List Event

namespace Worker

def new : Worker := ⟨Collector.new, [], [], []⟩

inductive Action
  /-- A handler queues a change. -/
  | arrive (change : Change)
  /-- `processNext` gets the change at an index of `waiting`; `lister` is what the informer's
  store has of the namespaces at that time. -/
  | attempt (index : ℕ) (lister : String → Option String) (attempt : Attempt)

def step (C : Codec) (b : Builder) (w : Worker) : Action → Option Worker
  | .arrive change => some { w with waiting := w.waiting ++ [change], arrived := w.arrived ++ [change] }
  | .attempt index lister attempt =>
    match w.waiting[index]? with
    | none => none
    | some change =>
      let processed := w.collector.process C b lister attempt change
      some { w with
        collector := processed.collector
        waiting := if processed.error = none then w.waiting.eraseIdx index else w.waiting
        published := w.published ++ processed.published }

end Worker

/-- The keys whose last published event is no deletion, with its fingerprint. -/
def standing (C : Codec) (published : List Event) : Cache := writeAll C published fun _ => none

/-- A change that `process` is handed, and what is not up to the collector: what the lister
of the namespaces knows by then, and the attempt. -/
structure Handed where
  change : Change
  lister : String → Option String
  attempt : Attempt

/-- The changes one after the other, each in one attempt: the collector after them and
what was published. -/
def replay (C : Codec) (b : Builder) : List Handed → Collector → Collector × List Event
  | [], c => (c, [])
  | x :: rest, c =>
    let processed := c.process C b x.lister x.attempt x.change
    let later := replay C b rest processed.collector
    (later.1, processed.published ++ later.2)

/-! ### Objects and their keys -/

/-- A change of the informers; no UID has a slash. -/
def Change.Informed (change : Change) : Prop := ∃ o, change.object = some o ∧ '/' ∉ o.2.toList

theorem Change.Informed.object_ne {change : Change} (h : change.Informed) : change.object ≠ none := by
  obtain ⟨o, ho, -⟩ := h
  rw [ho]
  exact Option.some_ne_none _

/-- The UID of the namespace that the events of a change get: deployments and pods have one. -/
def Change.namespaceUID (lister : String → Option String) : Change → String
  | .deployment object _ => Collector.namespaceUID lister object.objectMeta.namespace
  | .pod object _ => Collector.namespaceUID lister object.objectMeta.namespace
  | _ => ""

/-- The store answers with the UID that belongs to the change, if it is an update. -/
def Change.Finds (uid : Change → String) (lister : String → Option String) (change : Change) : Prop :=
  change.operation = .upsert → change.namespaceUID lister = uid change

instance (uid : Change → String) (lister : String → Option String) (change : Change) :
    Decidable (change.Finds uid lister) := inferInstanceAs (Decidable (_ → _))

/-- **No attempt overtakes an earlier change to its object**, and each finds the namespace's UID
that belongs to its change. -/
def Ordered (uid : Change → String) (w : Worker) : Worker.Action → Prop
  | .arrive change => change.Informed
  | .attempt index lister _ => ∀ change ∈ w.waiting[index]?, change.Finds uid lister ∧
      ∀ earlier ∈ w.waiting.take index, earlier.object ≠ change.object

/-- Up to the first slash, and after it. -/
def cut (text : List Char) : List Char × List Char :=
  (text.takeWhile (· ≠ '/'), (text.dropWhile (· ≠ '/')).drop 1)

def kindOf (word : List Char) : Option Kind :=
  if word = "node".toList then some .node
  else if word = "namespace".toList then some .namespace
  else if word = "deployment".toList then some .deployment
  else if word = "pod".toList ∨ word = "container".toList ∨ word = "init-container".toList then some .pod
  else none

/-- The object that a key of the cache belongs to. -/
def ownerOf (key : String) : Option (Kind × String) :=
  (kindOf (cut key.toList).1).map (·, String.ofList (cut (cut key.toList).2).1)

theorem ne_slash {text : List Char} (h : '/' ∉ text) : ∀ c ∈ text, decide (c ≠ '/') = true :=
  fun _ hc => decide_eq_true fun hslash => h (hslash ▸ hc)

theorem cut_of_not_mem {text : List Char} (h : '/' ∉ text) : cut text = (text, []) := by
  have hall := ne_slash h
  rw [cut, List.takeWhile_eq_self_iff.mpr hall, List.dropWhile_eq_nil_iff.mpr hall]
  rfl

theorem cut_append {text rest : List Char} (h : '/' ∉ text) :
    cut (text ++ '/' :: rest) = (text, rest) := by
  have hall := ne_slash h
  rw [cut, List.takeWhile_append_of_pos hall, List.dropWhile_append_of_pos hall,
    List.takeWhile_cons_of_neg (by simp), List.dropWhile_cons_of_neg (by simp), List.append_nil]
  rfl

/-- The owner of a key that is a word, a slash and a UID, or goes on after a second one. -/
theorem ownerOf_eq (word : String) {uid key : String} (rest : List Char) (hword : '/' ∉ word.toList)
    (huid : '/' ∉ uid.toList) (hrest : rest = [] ∨ ∃ tail, rest = '/' :: tail)
    (hkey : key.toList = word.toList ++ '/' :: (uid.toList ++ rest)) :
    ownerOf key = (kindOf word.toList).map (·, uid) := by
  have hcut : (cut (uid.toList ++ rest)).1 = uid.toList := by
    rcases hrest with rfl | ⟨tail, rfl⟩
    · rw [List.append_nil, cut_of_not_mem huid]
    · rw [cut_append huid]
  rw [ownerOf, hkey, cut_append hword, hcut, String.ofList_toList]

theorem ownerOf_containerKey {uid : String} (huid : '/' ∉ uid.toList) (init : Bool) (name : String) :
    ownerOf (Builder.containerKey init uid name) = some (.pod, uid) := by
  cases init
  · refine (ownerOf_eq "container" ('/' :: name.toList) (by decide) huid (.inr ⟨_, rfl⟩) ?_).trans rfl
    simp [Builder.containerKey]
  · refine (ownerOf_eq "init-container" ('/' :: name.toList) (by decide) huid (.inr ⟨_, rfl⟩) ?_).trans rfl
    simp [Builder.containerKey]

section

variable {C : Codec} {b : Builder} {lister : String → Option String} {c : Collector}
  {change : Change} {attempt : Attempt} {e : Event} {tick : ℕ}

/-- The events built for a change have keys of its object. -/
theorem owner_built (hx : change.Informed) (he : e ∈ built b lister tick change) :
    ownerOf e.key = change.object := by
  obtain ⟨o, ho, huid⟩ := hx
  cases change <;> cases ho <;> simp only [built, List.mem_cons, List.not_mem_nil, or_false] at he
  case node object operation =>
    subst he
    exact (ownerOf_eq "node" [] (by decide) huid (.inl rfl) (by simp [Builder.node])).trans rfl
  case «namespace» object operation =>
    subst he
    exact (ownerOf_eq "namespace" [] (by decide) huid (.inl rfl) (by simp [Builder.namespace])).trans rfl
  case deployment object operation =>
    subst he
    exact (ownerOf_eq "deployment" [] (by decide) huid (.inl rfl) (by simp [Builder.deployment])).trans rfl
  case pod object operation =>
    rcases he with rfl | he
    · exact (ownerOf_eq "pod" [] (by decide) huid (.inl rfl) (by simp [Builder.pod])).trans rfl
    · obtain ⟨i, ct, init, -, -, -, rfl⟩ := mem_containersFrom he
      exact ownerOf_containerKey huid init ct.name

/-- So do the deletions of the containers that a pod lost. -/
theorem owner_removed {order : List Event → List Event} {events : List Event} (hx : change.Informed)
    (hc : c.Holds) (horder : ∀ l, (order l).Perm l) (he : e ∈ removed order c events change) :
    ownerOf e.key = change.object := by
  obtain ⟨p, rfl, previous, hprevious, -, rfl⟩ := (mem_removed horder).mp he
  obtain ⟨o, ho, huid⟩ := hx
  cases ho
  obtain ⟨inventory, habout⟩ := hc _ _ hprevious
  rw [asDelete_key, habout.key]
  exact ownerOf_containerKey huid _ _

theorem owner_events (hx : change.Informed) (hc : c.Holds)
    (he : e ∈ c.events b lister attempt.order change) : ownerOf e.key = change.object := by
  rcases List.mem_append.mp he with he | he
  · exact owner_built hx he
  · exact owner_removed hx hc attempt.shuffles he

/-! ### The events of an attempt are sound -/

theorem isDelete_wire {event : Event} {o : Observation} {payload : Payload} {operation : Operation}
    (ho : event.observation = some o) (hpayload : o.payload = some payload)
    (hrecord : payload.record = record operation) (hdelete : operation = .delete) :
    isDelete event = true := by
  subst hdelete
  simp [isDelete, ho, hpayload, hrecord, record, getOperation, Operation.wire]

variable (hC : ∀ o, C.marshal o ≠ none)

include hC

theorem sound_built (hx : change.object ≠ none) (he : e ∈ built b lister tick change) :
    Sound C change.operation e := by
  obtain ⟨hkey, i, resourceVersion, payload, -, -, ho, hrecord⟩ := mem_built hx he
  exact ⟨hkey, ⟨_, ho, Option.some_ne_none _, hC _⟩, isDelete_wire ho rfl hrecord⟩

theorem sound_events (hx : change.Informed) (hc : c.Holds)
    (he : e ∈ c.events b lister attempt.order change) : Sound C change.operation e := by
  rcases List.mem_append.mp he with he | he
  · exact sound_built hC hx.object_ne he
  · obtain ⟨p, rfl, previous, hprevious, -, rfl⟩ := (mem_removed attempt.shuffles).mp he
    obtain ⟨inventory, habout⟩ := hc _ _ hprevious
    obtain ⟨habout', hdelete, -⟩ := habout.asDelete
    obtain ⟨o, ho, hpayload⟩ := habout'.observation
    refine ⟨?_, ⟨o, ho, ?_, hC _⟩, fun _ => hdelete⟩
    · rw [habout'.key]
      exact containerKey_ne _ _ _
    · rw [hpayload]
      exact Option.some_ne_none _

end

/-! ### What an object sees -/

/-- The part of the collector's state that belongs to an object: its keys in the cache,
and for a pod the keys of the containers that the collector remembers. -/
def part (c : Collector) (o : Option (Kind × String)) : Cache × (String → Bool) :=
  (fun k => if ownerOf k = o then c.cache k else none,
   match o with
   | some (.pod, uid) => fun k => k ∈ (c.podContainers uid).map (·.key)
   | _ => fun _ => false)

/-- The events of a change, without their times. -/
def imprint (lister : String → Option String) (change : Change) : List Event :=
  built ⟨fun _ => zeroTime⟩ lister 0 change

/-- The keys of containers that a change makes the collector delete. -/
def drops (change : Change) (held : String → Bool) (k : String) : Bool :=
  match change with
  | .pod p .upsert => held k && decide (k ∉ containerKeys p)
  | _ => false

/-- What the collector remembers after a change. -/
def holds (change : Change) (held : String → Bool) : String → Bool :=
  match change with
  | .pod p .upsert => fun k => k ∈ containerKeys p
  | .pod _ .delete => fun _ => false
  | _ => held

/-- What a change does to the part of its object. -/
def work (C : Codec) (lister : String → Option String) :
    Work Change (Option (Kind × String)) (Cache × (String → Bool)) where
  object := Change.object
  effect change state :=
    (fun k => if drops change state.2 k then none else writeAll C (imprint lister change) state.1 k,
     holds change state.2)

/-- What a change does when its events have the namespace's UID that belongs to it. -/
def workOf (C : Codec) (uid : Change → String) :
    Work Change (Option (Kind × String)) (Cache × (String → Bool)) where
  object := Change.object
  effect change := (work C fun _ => some (uid change)).effect change

section

variable {C : Codec} {b : Builder} {lister : String → Option String} {c : Collector}
  {change : Change} {attempt : Attempt} {k : String} {tick : ℕ}

/-- Neither the clock nor the UID of the namespace is in the keys. -/
theorem keys_built (lister' : String → Option String) :
    (built b lister tick change).map (·.key) = (imprint lister' change).map (·.key) := by
  cases change with
  | pod p operation =>
    simp only [imprint, built, List.map_cons, keys_containers]
    rfl
  | _ => rfl

theorem namespaceUID_const {uid name : String} (h : Collector.namespaceUID lister name = uid) :
    Collector.namespaceUID (fun _ => some uid) name = uid := by
  unfold Collector.namespaceUID at h ⊢
  by_cases hempty : name = ""
  · rwa [if_pos hempty] at h ⊢
  · rw [if_neg hempty, Option.getD_some]

/-- A store that answers with one UID gives the events of a store that has it for the change. -/
theorem imprint_const {uid : String} (h : change.namespaceUID lister = uid) :
    imprint lister change = imprint (fun _ => some uid) change := by
  cases change <;> simp only [Change.namespaceUID] at h <;> simp only [imprint, built]
  case deployment object operation => rw [namespaceUID_const h, h]
  case pod object operation => rw [namespaceUID_const h, h]

/-- The events of a deletion write nothing but that their keys are gone. -/
theorem values_imprint (hx : change.object ≠ none) (hop : change.operation = .delete) :
    (imprint lister change).map (fun e => (e.key, value C e)) =
      ((imprint lister change).map (·.key)).map fun k => (k, none) := by
  have hvalue : ∀ e ∈ imprint lister change, value C e = none := by
    intro e he
    obtain ⟨-, i, resourceVersion, payload, -, -, ho, hrecord⟩ := mem_built hx he
    exact if_pos (isDelete_wire ho rfl hrecord hop)
  rw [List.map_map]
  exact List.map_congr_left fun e he => by rw [hvalue e he]; rfl

/-- Only an update writes what the store answered. -/
theorem writeAll_imprint {uid : Change → String} (hx : change.object ≠ none)
    (hfinds : change.Finds uid lister) (cache : Cache) : writeAll C (imprint lister change) cache =
      writeAll C (imprint (fun _ => some (uid change)) change) cache := by
  cases hop : change.operation with
  | upsert => rw [imprint_const (hfinds hop)]
  | delete =>
    apply writeAll_eq_of_map
    rw [values_imprint hx hop, values_imprint hx hop]
    exact congrArg _ (keys_built fun _ => some (uid change))

theorem effect_workOf {uid : Change → String} (hx : change.object ≠ none)
    (hfinds : change.Finds uid lister) :
    (workOf C uid).effect change = (work C lister).effect change := by
  funext state
  refine Prod.ext (funext fun k => ?_) rfl
  show (if drops change state.2 k then none
      else writeAll C (imprint (fun _ => some (uid change)) change) state.1 k) =
    if drops change state.2 k then none else writeAll C (imprint lister change) state.1 k
  rw [writeAll_imprint hx hfinds]

theorem values_containersFrom (b b' : Builder) (p : Pod) (ns : String) (operation : Operation) :
    ∀ (specs : List (Container × Bool)) (tick tick' : ℕ),
      (b.containersFrom p ns operation tick specs).map (fun e => (e.key, value C e)) =
        (b'.containersFrom p ns operation tick' specs).map fun e => (e.key, value C e)
  | [], _, _ => rfl
  | spec :: specs, tick, tick' => by
    rw [Builder.containersFrom, Builder.containersFrom, List.map_cons, List.map_cons,
      values_containersFrom b b' p ns operation specs (tick + 2) (tick' + 2)]
    rfl

/-- The clock has no part in what the events write. -/
theorem writeAll_built (cache : Cache) :
    writeAll C (built b lister tick change) cache = writeAll C (imprint lister change) cache := by
  apply writeAll_eq_of_map
  cases change <;> simp only [imprint, built, List.map_cons, List.map_nil]
  case pod p operation =>
    rw [Builder.containers, Builder.containers, values_containersFrom b ⟨fun _ => zeroTime⟩]
    rfl
  all_goals rfl

/-- The deletions are for the keys that `drops` names. -/
theorem mem_keys_removed :
    k ∈ (removed attempt.order c (built b lister tick change) change).map (·.key) ↔
      drops change (part c change.object).2 k = true := by
  rw [List.mem_map]
  constructor
  · rintro ⟨e, he, rfl⟩
    obtain ⟨p, rfl, previous, hprevious, hkey, rfl⟩ := (mem_removed attempt.shuffles).mp he
    rw [asDelete_key]
    simp only [drops, part, Change.object, Bool.and_eq_true, decide_eq_true_eq]
    refine ⟨List.mem_map_of_mem hprevious, fun hin => hkey ?_⟩
    rwa [← keys_containers b (tick + 2) p (namespaceUID lister p.objectMeta.namespace) .upsert] at hin
  · intro h
    unfold drops at h
    split at h
    · rename_i p
      simp only [part, Change.object, Bool.and_eq_true, decide_eq_true_eq] at h
      obtain ⟨previous, hprevious, rfl⟩ := List.mem_map.mp h.1
      have hkey : previous.key ∉ (b.containers (tick + 2) p
          (namespaceUID lister p.objectMeta.namespace) .upsert).map (·.key) := by
        rw [keys_containers]
        exact h.2
      exact ⟨asDelete previous,
        (mem_removed attempt.shuffles).mpr ⟨p, rfl, previous, hprevious, hkey, rfl⟩, asDelete_key _⟩
    · exact absurd h Bool.false_ne_true

theorem updatePodContainers_of_ne {events : List Event} {uid : String}
    (h : change.object ≠ some (.pod, uid)) :
    c.updatePodContainers events change uid = c.podContainers uid := by
  unfold updatePodContainers
  split
  · exact Function.update_of_ne (fun huid => h (by rw [huid]; rfl)) _ _
  · exact Function.update_of_ne (fun huid => h (by rw [huid]; rfl)) _ _
  · rfl

/-- The events of a change, by what they write. -/
theorem writeAll_events (hc : c.Holds) (cache : Cache) :
    writeAll C (c.events b lister attempt.order change) cache k =
      if drops change (part c change.object).2 k then none
      else writeAll C (imprint lister change) cache k := by
  rw [events, writeAll_append, writeAll_of_deletes fun e he => isDelete_removed hc attempt.shuffles he,
    writeAll_built]
  exact if_congr mem_keys_removed rfl rfl

/-- A key of the object that no event of the change has keeps its value. -/
theorem mem_keys_events : k ∈ (c.events b lister attempt.order change).map (·.key) ↔
    k ∈ (imprint lister change).map (·.key) ∨ drops change (part c change.object).2 k = true := by
  rw [events, List.map_append, List.mem_append, keys_built lister]
  exact or_congr Iff.rfl mem_keys_removed

/-- What an attempt did to a collector: the events are split at the error. The cache is what
the handled events write, and what the published ones alone write too. -/
structure Handled (C : Codec) (c : Collector) (change : Change) (events : List Event)
    (processed : Processed) (handled rest : List Event) : Prop where
  split : events = handled ++ rest
  cache : processed.collector.cache = writeAll C handled c.cache
  published : processed.collector.cache = writeAll C processed.published c.cache
  done : processed.error = none →
    rest = [] ∧ processed.collector.podContainers = c.updatePodContainers events change
  failed : processed.error ≠ none → processed.collector.podContainers = c.podContainers

variable (hC : ∀ o, C.marshal o ≠ none) (hx : change.Informed) (hc : c.Holds)

include hC hx hc

variable (b lister attempt) in
/-- What an attempt does: it handles the events up to the error. -/
theorem handled_process : ∃ handled rest,
    Handled C c change (c.events b lister attempt.order change)
      (c.process C b lister attempt change) handled rest := by
  obtain ⟨handled, rest, hsplit, hcache, htaken, herror, -⟩ :=
    publishAll_eq attempt.publish 0 c.cache fun e he => sound_events (b := b) hC hx hc he
  refine ⟨handled, rest, ?_⟩
  unfold Collector.process
  simp only
  cases hpass : (publishAll C attempt.publish change.operation 0
      (c.events b lister attempt.order change) c.cache).error with
  | some error => exact ⟨hsplit, hcache, htaken, fun h => (nomatch h), fun _ => rfl⟩
  | none => exact ⟨hsplit, hcache, htaken, fun _ => ⟨herror hpass, rfl⟩, fun h => absurd rfl h⟩

variable (b lister) in
/-- Only the publisher fails. -/
theorem error_process (h : ∀ i, attempt.publish i = none) :
    (c.process C b lister attempt change).error = none := by
  have hsound : ∀ e ∈ c.events b lister attempt.order change, Sound C change.operation e :=
    fun e he => sound_events hC hx hc he
  obtain ⟨-, -, -, -, -, -, hnone⟩ := publishAll_eq attempt.publish 0 c.cache hsound
  unfold Collector.process
  simp only [hnone h]

/-- **An attempt leaves the other objects alone.** -/
theorem part_process_of_ne {o : Option (Kind × String)} (ho : o ≠ change.object) :
    part (c.process C b lister attempt change).collector o = part c o := by
  obtain ⟨handled, rest, h⟩ := handled_process b lister attempt hC hx hc
  refine Prod.ext ?_ ?_
  · funext k
    simp only [part]
    by_cases hk : ownerOf k = o
    · rw [if_pos hk, if_pos hk, h.cache, writeAll_of_not_mem]
      intro hmem
      obtain ⟨e, he, rfl⟩ := List.mem_map.mp hmem
      exact ho (hk.symm.trans (owner_events hx hc (h.split ▸ List.mem_append_left _ he)))
    · rw [if_neg hk, if_neg hk]
  · rcases o with _ | ⟨kind, uid⟩
    · rfl
    · cases kind <;> simp only [part]
      have hsame : (c.process C b lister attempt change).collector.podContainers uid =
          c.podContainers uid := by
        by_cases herror : (c.process C b lister attempt change).error = none
        · rw [(h.done herror).2, updatePodContainers_of_ne (Ne.symm ho)]
        · rw [h.failed herror]
      rw [hsame]

theorem fails_of_error (herror : (c.process C b lister attempt change).error ≠ none) :
    (work C lister).Fails change (part c) (part (c.process C b lister attempt change).collector) := by
  refine ⟨?_, fun o ho => part_process_of_ne hC hx hc ho⟩
  obtain ⟨handled, rest, h⟩ := handled_process b lister attempt hC hx hc
  have hheld : (part (c.process C b lister attempt change).collector change.object).2 =
      (part c change.object).2 := by
    simp only [part, h.failed herror]
  show (work C lister).effect change (part _ change.object) =
    (work C lister).effect change (part c change.object)
  refine Prod.ext ?_ ?_
  · funext k
    show (if drops change (part (c.process C b lister attempt change).collector change.object).2 k
        then none else _) = if drops change (part c change.object).2 k then none else _
    rw [hheld]
    by_cases hdrops : drops change (part c change.object).2 k = true
    · rw [if_pos hdrops, if_pos hdrops]
    · rw [if_neg hdrops, if_neg hdrops]
      by_cases hk : k ∈ (imprint lister change).map (·.key)
      · exact writeAll_of_mem hk _ _
      · refine writeAll_congr ?_
        simp only [part, h.cache]
        rw [writeAll_of_not_mem]
        intro hmem
        have hevents : k ∈ (c.events b lister attempt.order change).map (·.key) := by
          rw [h.split, List.map_append]
          exact List.mem_append_left _ hmem
        exact (mem_keys_events.mp hevents).elim hk hdrops
  · show holds change _ = holds change _
    rw [hheld]

theorem finishes_of_success (herror : (c.process C b lister attempt change).error = none) :
    (work C lister).Finishes change (part c)
      (part (c.process C b lister attempt change).collector) := by
  refine ⟨?_, fun o ho => part_process_of_ne hC hx hc ho⟩
  obtain ⟨handled, rest, h⟩ := handled_process b lister attempt hC hx hc
  obtain ⟨hrest, hpods⟩ := h.done herror
  have hall : c.events b lister attempt.order change = handled := by
    rw [h.split, hrest, List.append_nil]
  refine Prod.ext ?_ ?_
  · funext k
    show (if ownerOf k = change.object then _ else none) =
      if drops change (part c change.object).2 k then none else _
    by_cases hk : ownerOf k = change.object
    · rw [if_pos hk, h.cache, ← hall, writeAll_events hc]
      refine if_congr Iff.rfl rfl (writeAll_congr ?_)
      exact (if_pos hk).symm
    · -- no event of the change has a key of another object
      have hkeys : k ∉ (imprint lister change).map (·.key) := by
        intro hmem
        obtain ⟨e, he, rfl⟩ := List.mem_map.mp hmem
        exact hk (owner_built hx he)
      rw [if_neg hk]
      split
      · rfl
      · rw [writeAll_of_not_mem hkeys]
        exact (if_neg hk).symm
  · obtain ⟨o, ho, -⟩ := hx
    show (part (c.process C b lister attempt change).collector change.object).2 =
      holds change (part c change.object).2
    cases change <;> cases ho <;> simp only [part, Change.object, holds]
    rename_i p operation
    rw [hpods]
    cases operation with
    | delete =>
      funext k
      simp [updatePodContainers]
    | upsert =>
      funext k
      simp only [updatePodContainers, Function.update_self, kept_upsert hc b lister attempt,
        mem_keys_keep, keys_containers]

end

/-! ### Runs -/

/-- What holds of a collector with a history of changes and publications. -/
structure Consistent (C : Codec) (uid : Change → String) (c : Collector)
    (arrived waiting : List Change) (published : List Event) : Prop where
  holds : c.Holds
  informed : ∀ change ∈ arrived, change.Informed
  pending : ∀ change ∈ waiting, change.Informed
  agrees : (workOf C uid).Agrees (part Collector.new) (part c) arrived waiting
  cache : c.cache = standing C published

namespace Consistent

variable {C : Codec} {b : Builder} {uid : Change → String} {c c' : Collector}
  {arrived before after waiting : List Change} {published published' : List Event}
  {change : Change}

theorem new (C : Codec) (uid : Change → String) : Consistent C uid Collector.new [] [] [] where
  holds := holds_new
  informed := fun _ h => absurd h List.not_mem_nil
  pending := fun _ h => absurd h List.not_mem_nil
  agrees := .refl _
  cache := rfl

theorem arrive (h : Consistent C uid c arrived waiting published) (hx : change.Informed) :
    Consistent C uid c (arrived ++ [change]) (waiting ++ [change]) published where
  holds := h.holds
  informed := List.forall_mem_append.mpr ⟨h.informed, List.forall_mem_singleton.mpr hx⟩
  pending := List.forall_mem_append.mpr ⟨h.pending, List.forall_mem_singleton.mpr hx⟩
  agrees := h.agrees.arrive change
  cache := h.cache

/-- **One attempt**, at a change that overtakes nothing to its object. -/
theorem attempt (hC : ∀ o, C.marshal o ≠ none) {lister : String → Option String}
    (hfinds : change.Finds uid lister)
    (h : Consistent C uid c arrived (before ++ change :: after) published)
    (hfirst : ∀ earlier ∈ before, earlier.object ≠ change.object) (a : Attempt) :
    Consistent C uid (c.process C b lister a change).collector arrived
      (if (c.process C b lister a change).error = none then before ++ after
        else before ++ change :: after)
      (published ++ (c.process C b lister a change).published) := by
  have hx : change.Informed := h.pending change (List.mem_append_right _ List.mem_cons_self)
  have heffect : (workOf C uid).effect change = (work C lister).effect change :=
    effect_workOf hx.object_ne hfinds
  obtain ⟨handled, rest, hhandled⟩ := handled_process b lister a hC hx h.holds
  have hcache : (c.process C b lister a change).collector.cache =
      standing C (published ++ (c.process C b lister a change).published) := by
    rw [standing, writeAll_append, ← standing, ← h.cache]
    exact hhandled.published
  by_cases herror : (c.process C b lister a change).error = none
  · rw [if_pos herror]
    refine ⟨h.holds.process C b lister a change, h.informed, fun y hy => h.pending y ?_,
      h.agrees.finish hfirst ((finishes_of_success hC hx h.holds herror).congr rfl heffect), hcache⟩
    rw [List.mem_append] at hy ⊢
    exact hy.imp_right (List.mem_cons_of_mem _)
  · rw [if_neg herror]
    exact ⟨h.holds.process C b lister a change, h.informed, h.pending,
      h.agrees.retry hfirst ((fails_of_error hC hx h.holds herror).congr rfl heffect), hcache⟩

/-- Changes that are processed as they arrive, and without failures. -/
theorem replay (hC : ∀ o, C.marshal o ≠ none) : ∀ {plain : List Handed} {c : Collector}
    {arrived : List Change} {published : List Event}, Consistent C uid c arrived [] published →
    (∀ x ∈ plain, x.change.Informed) → (∀ x ∈ plain, x.change.Finds uid x.lister) →
    (∀ x ∈ plain, ∀ i, x.attempt.publish i = none) →
    Consistent C uid (replay C b plain c).1 (arrived ++ plain.map Handed.change) []
      (published ++ (Agent.replay C b plain c).2)
  | [], c, arrived, published, h, _, _, _ => by
    rw [List.map_nil, List.append_nil]
    show Consistent C uid c arrived [] (published ++ [])
    rwa [List.append_nil]
  | x :: plain, c, arrived, published, h, hx, hfinds, hsmooth => by
    have hchange := hx _ List.mem_cons_self
    have hnone := error_process b x.lister hC hchange h.holds (hsmooth _ List.mem_cons_self)
    have hstep := (h.arrive hchange).attempt (b := b) hC (hfinds _ List.mem_cons_self)
      (fun _ h => absurd h List.not_mem_nil) x.attempt
    rw [if_pos hnone] at hstep
    have hrest := replay hC hstep (fun y hy => hx y (List.mem_cons_of_mem _ hy))
      (fun y hy => hfinds y (List.mem_cons_of_mem _ hy))
      fun y hy => hsmooth y (List.mem_cons_of_mem _ hy)
    rw [List.map_cons, List.append_cons]
    rw [List.append_assoc published] at hrest
    exact hrest

/-- **The history of arrivals determines what stands.** -/
theorem standing_eq (h : Consistent C uid c arrived [] published)
    (h' : Consistent C uid c' arrived [] published') :
    standing C published = standing C published' := by
  rw [← h.cache, ← h'.cache]
  funext k
  have hpart : part c (ownerOf k) = part c' (ownerOf k) := by
    rw [h.agrees.eq, h'.agrees.eq]
  have hk := congrFun (congrArg Prod.fst hpart) k
  simpa [part] using hk

end Consistent

/-- A state of the worker whose history is consistent. -/
theorem Worker.consistent {C : Codec} {b : Builder} {uid : Change → String} {w : Worker}
    (hC : ∀ o, C.marshal o ≠ none)
    (h : Machine.Reach (Worker.step C b) (Ordered uid) Worker.new w) :
    Consistent C uid w.collector w.arrived w.waiting w.published := by
  refine h.invariant (I := fun w => Consistent C uid w.collector w.arrived w.waiting w.published)
    (.new C uid) fun w₁ action w₂ hinv hok hstep => ?_
  cases action with
  | arrive change =>
    cases hstep
    exact hinv.arrive hok
  | attempt index lister a =>
    rw [Worker.step] at hstep
    split at hstep
    · cases hstep
    · rename_i change hget
      cases hstep
      have hsplit : w₁.waiting = w₁.waiting.take index ++ change :: w₁.waiting.drop (index + 1) := by
        obtain ⟨hlt, hval⟩ := List.getElem?_eq_some_iff.mp hget
        rw [← hval, ← List.drop_eq_getElem_cons hlt, List.take_append_drop]
      obtain ⟨hfinds, hfirst⟩ := hok change hget
      rw [hsplit] at hinv
      have hnext := hinv.attempt (b := b) hC hfinds hfirst a
      simp only [List.eraseIdx_eq_take_drop_succ]
      rwa [← hsplit] at hnext

/-- **Retries that overtake nothing preserve the source order.** However often `Publish`
fails, and whatever the informer's store has at each attempt beside the namespaces that are asked
for: once every change has been processed, the keys whose last published event is no deletion,
and their fingerprints, are those of one pass over the changes in the order of their arrival. -/
theorem standing_eq_replay {C : Codec} {b b' : Builder} {uid : Change → String} {w : Worker}
    (hC : ∀ o, C.marshal o ≠ none)
    (h : Machine.Reach (Worker.step C b) (Ordered uid) Worker.new w) (hdone : w.waiting = [])
    {plain : List Handed} (hsame : plain.map Handed.change = w.arrived)
    (hfinds : ∀ x ∈ plain, x.change.Finds uid x.lister)
    (hsmooth : ∀ x ∈ plain, ∀ i, x.attempt.publish i = none) :
    standing C w.published = standing C (replay C b' plain Collector.new).2 := by
  have hworker := Worker.consistent hC h
  rw [hdone] at hworker
  have hinformed : ∀ x ∈ plain, x.change.Informed := fun x hx =>
    hworker.informed x.change (hsame ▸ List.mem_map_of_mem hx)
  have hreplay := (Consistent.new C uid).replay (b := b') hC hinformed hfinds hsmooth
  rw [List.nil_append, hsame, List.nil_append] at hreplay
  exact hworker.standing_eq hreplay

/-! ### Three runs -/

/-- `Ordered`, as a test. -/
def Ordered.check (uid : Change → String) (w : Worker) : Worker.Action → Bool
  | .arrive change => (change.object.map fun o => decide ('/' ∉ o.2.toList)).getD false
  | .attempt index lister _ => (w.waiting[index]?.map fun change =>
      (change.operation != .upsert || change.namespaceUID lister == uid change) &&
      (w.waiting.take index).all fun earlier => earlier.object ≠ change.object).getD false

theorem Ordered.of_check {uid : Change → String} (w : Worker) (action : Worker.Action)
    (h : Ordered.check uid w action = true) : Ordered uid w action := by
  cases action with
  | arrive change =>
    cases ho : change.object with
    | none => simp [Ordered.check, ho] at h
    | some o => exact ⟨o, ho, by simpa [Ordered.check, ho] using h⟩
  | attempt index lister a =>
    intro change hget
    rw [Option.mem_def] at hget
    simp only [Ordered.check, hget, Option.map_some, Option.getD_some, Bool.and_eq_true,
      Bool.or_eq_true, bne_iff_ne, beq_iff_eq, List.all_eq_true, decide_eq_true_eq] at h
    exact ⟨fun hop => h.1.resolve_left fun hne => hne hop, h.2⟩

/-- A deployment in the namespace `n`. -/
def rollout : Change :=
  .deployment { objectMeta := { uid := "d", name := "d", «namespace» := "n", creationTimestamp := ⟨0, 0⟩ } }
    .upsert

/-- The encoding of an observation of a deployment with little more than its names. -/
def rolloutMarshal (o : Observation) : List UInt8 :=
  match o.payload with
  | some (.deploymentInventory i) =>
    let m := getMetadata i.metadata
    smallTime 0x1a o.observedAt ++ smallTime 0x22 o.collectedAt ++
      shortField [0xba, 0x01]
        (shortField [0x0a] [0x08, if getOperation i.record = .delete then 2 else 1] ++
          shortField [0x12] (shortField [0x0a] (utf8 m.uid) ++ shortField [0x12] (utf8 m.name) ++
            shortField [0x1a] (utf8 m.namespace) ++ smallTime 0x32 m.createdAt) ++
          if i.namespaceUid = "" then [] else shortField [0x3a] (utf8 i.namespaceUid))
  | _ => smallMarshal o

def rolloutCodec : Codec where
  marshal := fun o => some (rolloutMarshal o)
  size := fun b => (b.observations.flatMap rolloutMarshal).length

/-- A step of the runs: every clock reading is the first second. -/
def smallStep : Worker → Worker.Action → Option Worker := Worker.step rolloutCodec ⟨fun _ => ⟨1, 0⟩⟩

/-- A store that has no namespace yet, and one that has `n` under a UID. -/
def nowhere : String → Option String := fun _ => none

def knows (uid : String) : String → Option String := fun name => if name = "n" then some uid else none

/-- The UID of the namespace that belongs to a change of the runs. -/
def uidOf (change : Change) : String := if change = rollout then "b" else ""

/-- While `Publish` fails for a deployment, a namespace overtakes it; the deployment is taken up
again, and the namespace goes. -/
def orderedRun : List Worker.Action :=
  [.arrive (comes "b"), .arrive rollout, .attempt 1 (knows "b") (.steady (some "unavailable")),
    .attempt 0 nowhere (.steady none), .attempt 0 (knows "b") (.steady none), .arrive (goes "b"),
    .attempt 0 nowhere (.steady none)]

/-- The same changes in the order of their arrival. -/
def orderedChanges : List Handed :=
  [⟨comes "b", nowhere, .steady none⟩, ⟨rollout, knows "b", .steady none⟩,
    ⟨goes "b", nowhere, .steady none⟩]

theorem standing_eq_replay_orderedRun : ∃ w, Machine.Reach smallStep (Ordered uidOf) Worker.new w ∧
    w.waiting = [] ∧ w.arrived = [comes "b", rollout, goes "b"] ∧
    standing rolloutCodec w.published = standing rolloutCodec
      (replay rolloutCodec ⟨fun _ => ⟨1, 0⟩⟩ orderedChanges Collector.new).2 := by
  have hrun : (Machine.run (Machine.guarded smallStep (Ordered.check uidOf)) Worker.new orderedRun).map
      (fun w => (w.waiting, w.arrived)) = some ([], [comes "b", rollout, goes "b"]) := by
    decide +kernel
  obtain ⟨w, hw, hends⟩ := Option.map_eq_some_iff.mp hrun
  obtain ⟨hwaiting, harrived⟩ := Prod.mk.inj hends
  have hreach : Machine.Reach smallStep (Ordered uidOf) Worker.new w :=
    Machine.Reach.of_guarded Ordered.of_check hw
  refine ⟨w, hreach, hwaiting, harrived, standing_eq_replay (fun _ => Option.some_ne_none _) hreach
    hwaiting (by rw [harrived]; rfl) (fun x hx => ?_) fun x hx i => ?_⟩
  · simp only [orderedChanges, List.mem_cons, List.not_mem_nil, or_false] at hx
    rcases hx with rfl | rfl | rfl <;> decide +kernel
  · simp only [orderedChanges, List.mem_cons, List.not_mem_nil, or_false] at hx
    rcases hx with rfl | rfl | rfl <;> rfl

/-- The deletion of a namespace overtakes its creation. -/
def overtakenRun : List Worker.Action :=
  [.arrive (comes "a"), .arrive (goes "a"), .attempt 0 nowhere (.steady (some "unavailable")),
    .attempt 1 nowhere (.steady none), .attempt 0 nowhere (.steady none)]

/-- A namespace that is gone stands: when it was deleted, its creation had not been
published yet, so there was nothing to delete; the creation is published later. -/
theorem gone_namespace_stands : ∃ w, Machine.run smallStep Worker.new overtakenRun = some w ∧
    w.waiting = [] ∧ w.arrived = [comes "a", goes "a"] ∧
    (standing rolloutCodec w.published "namespace/a").isSome = true ∧
    standing rolloutCodec (replay rolloutCodec ⟨fun _ => ⟨1, 0⟩⟩
      [⟨comes "a", nowhere, .steady none⟩, ⟨goes "a", nowhere, .steady none⟩]
      Collector.new).2 "namespace/a" = none := by
  have hrun : (Machine.run smallStep Worker.new overtakenRun).map
      (fun w => (w.waiting, w.arrived, (standing rolloutCodec w.published "namespace/a").isSome)) =
        some ([], [comes "a", goes "a"], true) := by
    decide +kernel
  obtain ⟨w, hw, hends⟩ := Option.map_eq_some_iff.mp hrun
  simp only [Prod.mk.injEq] at hends
  exact ⟨w, hw, hends.1, hends.2.1, hends.2.2, by decide +kernel⟩

-- A retry that overtakes nothing, but finds another namespace than the one pass does.
example : ((Machine.run smallStep Worker.new [.arrive rollout,
      .attempt 0 (knows "b") (.steady (some "unavailable")), .attempt 0 (knows "c") (.steady none)]).map
      fun w => standing rolloutCodec w.published "deployment/d") ≠
    some (standing rolloutCodec (replay rolloutCodec ⟨fun _ => ⟨1, 0⟩⟩
      [⟨rollout, knows "b", .steady none⟩] Collector.new).2 "deployment/d") := by decide +kernel

end Agent
end KubeCost
