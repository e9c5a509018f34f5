/-
# The inventory collector

`agent/inventory/collector.go` and `cache.go`. The handlers of the informers queue
changes; the worker builds the events of a change and publishes those that differ
from what the cache has under their key. For pods it remembers the containers of the
last change, so that an update that lost one publishes a deletion for it.

`process` is one attempt at a change. It stops at the first error, with the cache as
far as it got; the containers of a pod are remembered only at the end. Go's order
over a map is arbitrary, and so is the order of the deletions here.

What an event leaves in the cache depends only on its key and payload (`value`), and
`publishDelta_eq` and `publishAll_eq` say what an attempt does in those terms: the
cache is what the events up to the error write, and also what the published ones
write.
-/
import Mathlib.Data.List.Induction
import Mathlib.Logic.Function.Basic
import KubeCost.Agent.Builder

namespace KubeCost
namespace Agent

/-! ### Changes -/

/-- `change`, as `Start` and the handlers of the informers queue it. -/
inductive Change
  | cluster (event : Event)
  | snapshot (event : Event)
  | node (object : Node) (operation : Operation)
  | «namespace» (object : Namespace) (operation : Operation)
  | deployment (object : Deployment) (operation : Operation)
  | pod (object : Pod) (operation : Operation)
deriving DecidableEq

def Change.operation : Change → Operation
  | .cluster _ | .snapshot _ => .upsert
  | .node _ operation | .namespace _ operation | .deployment _ operation | .pod _ operation => operation

/-- The kinds of the informers. -/
inductive Kind
  | node
  | «namespace»
  | deployment
  | pod
deriving DecidableEq

/-- The object of a change of the informers: kind and UID. -/
def Change.object : Change → Option (Kind × String)
  | .cluster _ | .snapshot _ => none
  | .node object _ => some (.node, object.objectMeta.uid)
  | .namespace object _ => some (.namespace, object.objectMeta.uid)
  | .deployment object _ => some (.deployment, object.objectMeta.uid)
  | .pod object _ => some (.pod, object.objectMeta.uid)

/-- `isDelete`. -/
def isDelete (event : Event) : Bool :=
  match event.observation.bind (·.payload) with
  | some payload => getOperation payload.record = .delete
  | none => false

/-- `asDelete`. -/
def asDelete (event : Event) : Event :=
  match event.observation with
  | none => event
  | some observation =>
    match observation.payload with
    | some (.containerInventory inventory) =>
      { event with
        observation := some {
          observedAt := observation.observedAt
          collectedAt := observation.collectedAt
          sourceResourceVersion := observation.sourceResourceVersion
          payload := some (.containerInventory { inventory with record := record .delete }) } }
    | _ => event

/-! ### The cache -/

/-- `Cache`: the fingerprint under each key. -/
abbrev Cache := String → Option String

namespace Cache

/-- `Changed`. -/
def changed (C : Codec) (cache : Cache) (event : Event) : Except String (Bool × String) :=
  match event.validate with
  | .error error => .error error
  | .ok observation =>
    match fingerprint C observation with
    | .error error => .error error
    | .ok print => .ok (cache event.key ≠ some print, print)

/-- `Commit`. -/
def commit (cache : Cache) (key print : String) : Except String Cache :=
  if key = "" ∨ print = "" then .error "cache key and fingerprint are required"
  else .ok (Function.update cache key (some print))

/-- `Delete`. -/
def delete (cache : Cache) (key : String) : Cache := Function.update cache key none

end Cache

/-! ### Publishing -/

/-- What `publishDelta` did: its error, the cache after it, and whether the publisher
took the event. -/
structure Delta where
  error : Option String
  cache : Cache
  published : Bool

/-- `publishDelta`; `publish` is the error of `Publish`, should it be called. -/
def publishDelta (C : Codec) (publish : Option String) (operation : Operation) (event : Event)
    (cache : Cache) : Delta :=
  if operation = .delete ∨ isDelete event then
    if cache event.key = none then ⟨none, cache, false⟩
    else
      match publish with
      | some error => ⟨some error, cache, false⟩
      | none => ⟨none, cache.delete event.key, true⟩
  else
    match cache.changed C event with
    | .error error => ⟨some error, cache, false⟩
    | .ok (false, _) => ⟨none, cache, false⟩
    | .ok (true, print) =>
      match publish with
      | some error => ⟨some error, cache, false⟩
      | none =>
        match cache.commit event.key print with
        | .error error => ⟨some error, cache, true⟩
        | .ok cache => ⟨none, cache, true⟩

/-- What a loop over events did: its error, the cache after it, and the events that the
publisher took, in order. -/
structure Pass where
  error : Option String
  cache : Cache
  published : List Event

/-- The loop of `process`; `publish i` is the error of `Publish` for event number `i`. -/
def publishAll (C : Codec) (publish : ℕ → Option String) (operation : Operation) :
    ℕ → List Event → Cache → Pass
  | _, [], cache => ⟨none, cache, []⟩
  | i, event :: events, cache =>
    let delta := publishDelta C (publish i) operation event cache
    let taken := if delta.published then [event] else []
    match delta.error with
    | some error => ⟨some error, delta.cache, taken⟩
    | none =>
      let rest := publishAll C publish operation (i + 1) events delta.cache
      ⟨rest.error, rest.cache, taken ++ rest.published⟩

/-! ### What events leave in the cache -/

/-- What the cache has under the key of an event once it is handled. -/
def value (C : Codec) (event : Event) : Option String :=
  if isDelete event then none
  else (event.observation.bind fun o => C.marshal (bare o)).map fun data => hexEncode (Hash.sha256 data)

/-- The cache once events are handled, one after the other. -/
def writeAll (C : Codec) (events : List Event) (cache : Cache) : Cache :=
  events.foldl (fun cache event => Function.update cache event.key (value C event)) cache

section

variable {C : Codec} {events : List Event} {k : String}

theorem writeAll_append (events more : List Event) (cache : Cache) :
    writeAll C (events ++ more) cache = writeAll C more (writeAll C events cache) :=
  List.foldl_append

theorem writeAll_concat (events : List Event) (event : Event) (cache : Cache) :
    writeAll C (events ++ [event]) cache =
      Function.update (writeAll C events cache) event.key (value C event) :=
  writeAll_append events [event] cache

theorem writeAll_of_not_mem (h : k ∉ events.map (·.key)) (cache : Cache) :
    writeAll C events cache k = cache k := by
  induction events generalizing cache with
  | nil => rfl
  | cons event events ih =>
    rw [List.map_cons, List.mem_cons, not_or] at h
    rw [writeAll, List.foldl_cons, ← writeAll, ih h.2, Function.update_of_ne h.1]

/-- What was there before does not matter at the keys of the events. -/
theorem writeAll_of_mem (h : k ∈ events.map (·.key)) (cache cache' : Cache) :
    writeAll C events cache k = writeAll C events cache' k := by
  induction events using List.reverseRecOn with
  | nil => exact absurd h List.not_mem_nil
  | append_singleton events event ih =>
    rw [writeAll_concat, writeAll_concat]
    by_cases hk : k = event.key
    · rw [hk, Function.update_self, Function.update_self]
    · rw [Function.update_of_ne hk, Function.update_of_ne hk]
      rw [List.map_append, List.mem_append] at h
      exact ih (h.resolve_right fun hlast => hk (List.mem_singleton.mp hlast))

theorem writeAll_congr {cache cache' : Cache} (h : cache k = cache' k) :
    writeAll C events cache k = writeAll C events cache' k := by
  by_cases hk : k ∈ events.map (·.key)
  · exact writeAll_of_mem hk _ _
  · rw [writeAll_of_not_mem hk, writeAll_of_not_mem hk, h]

theorem writeAll_of_deletes (h : ∀ e ∈ events, isDelete e = true) (cache : Cache) :
    writeAll C events cache k = if k ∈ events.map (·.key) then none else cache k := by
  induction events using List.reverseRecOn with
  | nil => rfl
  | append_singleton events event ih =>
    have hvalue : value C event = none :=
      if_pos (h event (List.mem_append_right _ (List.mem_singleton_self _)))
    rw [writeAll_concat, hvalue]
    by_cases hk : k = event.key
    · rw [hk, Function.update_self, if_pos]
      rw [List.map_append]
      exact List.mem_append_right _ List.mem_cons_self
    · rw [Function.update_of_ne hk, ih fun e he => h e (List.mem_append_left _ he)]
      refine if_congr ?_ rfl rfl
      simp [hk]

/-- Only keys and values matter. -/
theorem writeAll_eq_of_map {events' : List Event}
    (h : events.map (fun e => (e.key, value C e)) = events'.map fun e => (e.key, value C e))
    (cache : Cache) : writeAll C events cache = writeAll C events' cache := by
  have hmap : ∀ l : List Event, writeAll C l cache =
      (l.map fun e => (e.key, value C e)).foldl (fun m p => Function.update m p.1 p.2) cache := by
    intro l
    rw [List.foldl_map]
    rfl
  rw [hmap, hmap, h]

end

/-- An event that `publishDelta` has nothing to say against. -/
structure Sound (C : Codec) (operation : Operation) (event : Event) : Prop where
  key : event.key ≠ ""
  payload : ∃ o, event.observation = some o ∧ o.payload ≠ none ∧ C.marshal (bare o) ≠ none
  operation : operation = .delete → isDelete event = true

/-- The check of the cache, for a sound event that is no deletion. -/
theorem Sound.changed {C : Codec} {operation : Operation} {event : Event}
    (h : Sound C operation event) (hdelete : isDelete event = false) (cache : Cache) :
    ∃ print, value C event = some print ∧ print ≠ "" ∧
      cache.changed C event = .ok (cache event.key ≠ some print, print) := by
  obtain ⟨o, ho, hpayload, hmarshal⟩ := h.payload
  obtain ⟨data, hdata⟩ := Option.ne_none_iff_exists'.mp hmarshal
  refine ⟨hexEncode (Hash.sha256 data), ?_, Hash.hexEncode_sha256_ne data, ?_⟩
  · simp [value, hdelete, ho, hdata]
  · simp only [Cache.changed, Event.validate, if_neg h.key, ho, if_neg hpayload, fingerprint, hdata]

/-- **What `publishDelta` does with a sound event**: it asks for a publication exactly if
the cache does not have the event's value yet. -/
theorem publishDelta_eq {C : Codec} {operation : Operation} {event : Event}
    (h : Sound C operation event) (publish : Option String) (cache : Cache) :
    publishDelta C publish operation event cache =
      if cache event.key = value C event then ⟨none, cache, false⟩
      else
        match publish with
        | some error => ⟨some error, cache, false⟩
        | none => ⟨none, Function.update cache event.key (value C event), true⟩ := by
  unfold publishDelta
  by_cases hdelete : isDelete event = true
  · have hvalue : value C event = none := if_pos hdelete
    rw [if_pos (Or.inr hdelete), hvalue]
    rfl
  · have hupsert : ¬ (operation = .delete ∨ isDelete event = true) := by
      rintro (hop | hdel)
      · exact hdelete (h.operation hop)
      · exact hdelete hdel
    obtain ⟨print, hvalue, hprint, hchanged⟩ := h.changed (Bool.eq_false_iff.mpr hdelete) cache
    rw [if_neg hupsert, hchanged, hvalue]
    by_cases hcached : cache event.key = some print
    · simp only [hcached, ne_eq, not_true_eq_false, decide_false, if_true]
    · have hcommit : cache.commit event.key print = .ok (Function.update cache event.key (some print)) :=
        if_neg fun hempty => hempty.elim h.key hprint
      simp only [hcached, ne_eq, not_false_eq_true, decide_true, if_false, hcommit]

/-- The publisher takes some of the events, in their order. -/
theorem publishAll_sublist (C : Codec) (publish : ℕ → Option String) (operation : Operation) :
    ∀ (i : ℕ) (events : List Event) (cache : Cache),
      (publishAll C publish operation i events cache).published.Sublist events
  | _, [], _ => List.nil_sublist _
  | i, event :: events, cache => by
    have htaken : ∀ d : Delta, (if d.published then [event] else []).Sublist [event] := by
      intro d
      split
      · exact List.Sublist.refl _
      · exact List.nil_sublist _
    rw [publishAll]
    simp only
    split
    · exact (htaken _).trans (List.singleton_sublist.mpr List.mem_cons_self)
    · exact (htaken _).append (publishAll_sublist C publish operation (i + 1) events _)

/-- **What the loop does with sound events**: it handles them up to the error. The cache
is what the handled events write, and what the published ones alone write too. -/
theorem publishAll_eq {C : Codec} {operation : Operation} (publish : ℕ → Option String) :
    ∀ (i : ℕ) {events : List Event} (cache : Cache), (∀ e ∈ events, Sound C operation e) →
      ∃ handled rest, events = handled ++ rest ∧
        (publishAll C publish operation i events cache).cache = writeAll C handled cache ∧
        (publishAll C publish operation i events cache).cache =
          writeAll C (publishAll C publish operation i events cache).published cache ∧
        ((publishAll C publish operation i events cache).error = none → rest = []) ∧
        ((∀ j, publish j = none) → (publishAll C publish operation i events cache).error = none)
  | _, [], _, _ => ⟨[], [], rfl, rfl, rfl, fun _ => rfl, fun _ => rfl⟩
  | i, event :: events, cache, h => by
    have hrest := fun c => publishAll_eq publish (i + 1) c fun e he => h e (List.mem_cons_of_mem _ he)
    have hdelta := publishDelta_eq (h event List.mem_cons_self) (publish i) cache
    rw [publishAll]
    by_cases hcached : cache event.key = value C event
    · -- nothing to publish: the event writes what is there
      rw [if_pos hcached] at hdelta
      obtain ⟨handled, rest, hsplit, hcache, htaken, herror, hnone⟩ := hrest cache
      have hself : Function.update cache event.key (value C event) = cache := by
        rw [← hcached, Function.update_eq_self]
      simp only [hdelta]
      refine ⟨event :: handled, rest, by rw [hsplit]; rfl, ?_, htaken, herror, hnone⟩
      rw [hcache, writeAll, writeAll, List.foldl_cons, hself]
    · rw [if_neg hcached] at hdelta
      cases hpublish : publish i with
      | some error =>
        rw [hpublish] at hdelta
        simp only [hdelta]
        exact ⟨[], event :: events, rfl, rfl, rfl, fun hnone => (nomatch hnone), fun hall =>
          absurd (hall i) (by rw [hpublish]; exact Option.some_ne_none _)⟩
      | none =>
        rw [hpublish] at hdelta
        obtain ⟨handled, rest, hsplit, hcache, htaken, herror, hnone⟩ :=
          hrest (Function.update cache event.key (value C event))
        simp only [hdelta]
        exact ⟨event :: handled, rest, by rw [hsplit]; rfl, hcache, htaken, herror, hnone⟩

/-! ### The collector -/

/-- The state of the worker. `podContainers` has the last events of the containers of a
pod, one for each key; `tick` counts the readings of the builder's clock. -/
structure Collector where
  cache : Cache
  podContainers : String → List Event
  tick : ℕ

namespace Collector

/-- `NewCollector`. -/
def new : Collector where
  cache := fun _ => none
  podContainers := fun _ => []
  tick := 0

/-- What is not up to the collector in one attempt at a change. -/
structure Attempt where
  /-- The order in which the map of a pod's containers is read. -/
  order : List Event → List Event
  shuffles : ∀ events, (order events).Perm events
  /-- The error of `Publish` for each event. -/
  publish : ℕ → Option String

/-- An attempt in which `Publish` returns the same for every event. -/
def Attempt.steady (publish : Option String) : Attempt := ⟨id, fun _ => .refl _, fun _ => publish⟩

/-- `namespaceUID`; `lister` knows the UIDs of the namespaces. -/
def namespaceUID (lister : String → Option String) (name : String) : String :=
  if name = "" then "" else (lister name).getD ""

/-- The events that the builder makes for a change. -/
def built (b : Builder) (lister : String → Option String) (tick : ℕ) : Change → List Event
  | .cluster event | .snapshot event => [event]
  | .node object operation => [b.node tick object operation]
  | .namespace object operation => [b.namespace tick object operation]
  | .deployment object operation =>
    [b.deployment tick object (namespaceUID lister object.objectMeta.namespace) operation]
  | .pod object operation =>
    b.pod tick object (namespaceUID lister object.objectMeta.namespace) operation ::
      b.containers (tick + 2) object (namespaceUID lister object.objectMeta.namespace) operation

/-- How often a change reads the clock. -/
def readings : Change → ℕ
  | .cluster _ | .snapshot _ => 0
  | .node .. | .namespace .. | .deployment .. => 2
  | .pod object _ => 2 + 2 * (Builder.specs object).length

/-- The deletions for the containers that a pod no longer has. -/
def removed (order : List Event → List Event) (c : Collector) (events : List Event) :
    Change → List Event
  | .pod object .upsert =>
    ((order (c.podContainers object.objectMeta.uid)).filter fun previous =>
      previous.key ∉ (events.drop 1).map (·.key)).map asDelete
  | _ => []

/-- `events`. -/
def events (b : Builder) (lister : String → Option String) (order : List Event → List Event)
    (c : Collector) (change : Change) : List Event :=
  built b lister c.tick change ++ removed order c (built b lister c.tick change) change

/-- The map that `updatePodContainers` makes: the last event of each key. -/
def keep (events : List Event) : List Event :=
  events.foldl (fun kept event => kept.filter (·.key ≠ event.key) ++ [event]) []

/-- `updatePodContainers`. -/
def updatePodContainers (c : Collector) (events : List Event) : Change → String → List Event
  | .pod object .delete => Function.update c.podContainers object.objectMeta.uid []
  | .pod object .upsert => Function.update c.podContainers object.objectMeta.uid
    (keep ((events.drop 1).filter fun event => !isDelete event))
  | _ => c.podContainers

/-- What `process` did: its error, the collector after it, and the events that the
publisher took. -/
structure Processed where
  error : Option String
  collector : Collector
  published : List Event

/-- `process`. -/
def process (C : Codec) (b : Builder) (lister : String → Option String) (attempt : Attempt)
    (c : Collector) (change : Change) : Processed :=
  let events := c.events b lister attempt.order change
  let pass := publishAll C attempt.publish change.operation 0 events c.cache
  match pass.error with
  | some error =>
    ⟨some error, { c with cache := pass.cache, tick := c.tick + readings change }, pass.published⟩
  | none =>
    ⟨none, { cache := pass.cache, podContainers := c.updatePodContainers events change,
             tick := c.tick + readings change }, pass.published⟩

/-! ### Containers -/

/-- The keys of a pod's containers. -/
def containerKeys (p : Pod) : List String :=
  (Builder.specs p).map fun spec => Builder.containerKey spec.2 p.objectMeta.uid spec.1.name

theorem keys_containersFrom (b : Builder) (p : Pod) (ns : String) (operation : Operation) :
    ∀ (tick : ℕ) (specs : List (Container × Bool)),
      (b.containersFrom p ns operation tick specs).map (·.key) =
        specs.map fun spec => Builder.containerKey spec.2 p.objectMeta.uid spec.1.name
  | _, [] => rfl
  | tick, (c, init) :: specs => by
    rw [Builder.containersFrom, List.map_cons, List.map_cons, keys_containersFrom b p ns operation]
    rfl

theorem keys_containers (b : Builder) (tick : ℕ) (p : Pod) (ns : String) (operation : Operation) :
    (b.containers tick p ns operation).map (·.key) = containerKeys p :=
  keys_containersFrom b p ns operation tick _

/-- An event about a container of a pod, under the key of that container. -/
structure About (podUID : String) (inventory : ContainerInventory) (event : Event) : Prop where
  pod : inventory.podUid = podUID
  key : event.key = Builder.containerKey inventory.initContainer podUID inventory.containerName
  observation : ∃ o, event.observation = some o ∧ o.payload = some (.containerInventory inventory)

theorem mem_containersFrom {b : Builder} {p : Pod} {ns : String} {operation : Operation} {e : Event} :
    ∀ {tick : ℕ} {specs : List (Container × Bool)}, e ∈ b.containersFrom p ns operation tick specs →
      ∃ i c init, (c, init) ∈ specs ∧ tick ≤ i ∧ i + 2 ≤ tick + 2 * specs.length ∧
        e = b.container i p c (Builder.statusOf p c.name) ns init operation
  | _, [], h => absurd h List.not_mem_nil
  | tick, (c, init) :: specs, h => by
    rw [Builder.containersFrom] at h
    rcases List.mem_cons.mp h with rfl | h
    · refine ⟨tick, c, init, List.mem_cons_self, le_rfl, ?_, rfl⟩
      rw [List.length_cons]
      omega
    · obtain ⟨i, c', init', hmem, hle, hlt, rfl⟩ := mem_containersFrom h
      refine ⟨i, c', init', List.mem_cons_of_mem _ hmem, by omega, ?_, rfl⟩
      rw [List.length_cons]
      omega

/-- What holds of every event that is built for a change of an informer: its clock readings,
the operation of its record, and that it has a key. -/
structure Made (b : Builder) (tick : ℕ) (change : Change) (e : Event) : Prop where
  key : e.key ≠ ""
  observation : ∃ i resourceVersion payload, tick ≤ i ∧ i + 2 ≤ tick + readings change ∧
    e.observation = b.observation (i + 1) resourceVersion (b.now i) payload ∧
    payload.record = record change.operation

theorem append_ne_empty {word : String} (h : word ≠ "") (rest : String) : word ++ rest ≠ "" := by
  intro heq
  have hlist := congrArg String.toList heq
  rw [String.toList_append] at hlist
  exact h (String.toList_inj.mp (List.append_eq_nil_iff.mp hlist).1)

theorem containerKey_ne (init : Bool) (podUID name : String) : Builder.containerKey init podUID name ≠ "" := by
  cases init <;> simp [Builder.containerKey]

theorem mem_built {b : Builder} {lister : String → Option String} {tick : ℕ} {change : Change}
    {e : Event} (hx : change.object ≠ none) (he : e ∈ built b lister tick change) :
    Made b tick change e := by
  cases change <;> simp only [built, List.mem_cons, List.not_mem_nil, or_false] at he
  case cluster | snapshot => exact absurd rfl hx
  case pod p operation =>
    rcases he with rfl | he
    · refine ⟨append_ne_empty (by decide) _, tick, _, _, le_rfl, ?_, rfl, rfl⟩
      simp only [readings]
      omega
    · obtain ⟨i, c, init, -, hle, hlt, rfl⟩ := mem_containersFrom he
      refine ⟨containerKey_ne _ _ _, i, _, _, by omega, ?_, rfl, rfl⟩
      simp only [readings]
      omega
  all_goals
    subst he
    exact ⟨append_ne_empty (by decide) _, tick, _, _, le_rfl, le_rfl, rfl, rfl⟩

theorem about_container (b : Builder) (tick : ℕ) (p : Pod) (c : Container) (status : ContainerStatus)
    (ns : String) (init : Bool) (operation : Operation) :
    ∃ inventory, About p.objectMeta.uid inventory (b.container tick p c status ns init operation) ∧
      inventory.initContainer = init ∧ inventory.containerName = c.name := by
  refine ⟨_, ⟨?_, ?_, ⟨_, rfl, rfl⟩⟩, ?_, ?_⟩ <;> rfl

@[simp] theorem asDelete_key (e : Event) : (asDelete e).key = e.key := by
  unfold asDelete
  split
  · rfl
  · split <;> rfl

/-- A deletion is about the same container, made and collected at the same times. -/
theorem About.asDelete {podUID : String} {inventory : ContainerInventory} {e : Event}
    (h : About podUID inventory e) :
    About podUID { inventory with record := record .delete } (asDelete e) ∧
      isDelete (Agent.asDelete e) = true ∧
      (Agent.asDelete e).observation.bind (·.observedAt) = e.observation.bind (·.observedAt) := by
  obtain ⟨o, ho, hpayload⟩ := h.observation
  have heq : Agent.asDelete e = { e with
      observation := some {
        observedAt := o.observedAt
        collectedAt := o.collectedAt
        sourceResourceVersion := o.sourceResourceVersion
        payload := some (.containerInventory { inventory with record := record .delete }) } } := by
    simp only [Agent.asDelete, ho, hpayload]
  rw [heq]
  refine ⟨⟨h.pod, h.key, _, rfl, rfl⟩, ?_, ?_⟩
  · rfl
  · rw [ho]
    rfl

theorem keep_concat (events : List Event) (event : Event) :
    keep (events ++ [event]) = (keep events).filter (·.key ≠ event.key) ++ [event] := by
  rw [keep, List.foldl_append]
  rfl

theorem mem_keep {e : Event} {events : List Event} (h : e ∈ keep events) : e ∈ events := by
  induction events using List.reverseRecOn with
  | nil => exact h
  | append_singleton events event ih =>
    rw [keep_concat] at h
    rcases List.mem_append.mp h with h | h
    · exact List.mem_append_left _ (ih (List.mem_of_mem_filter h))
    · exact List.mem_append_right _ h

/-- The map has the keys of the events. -/
theorem mem_keys_keep {k : String} {events : List Event} :
    k ∈ (keep events).map (·.key) ↔ k ∈ events.map (·.key) := by
  induction events using List.reverseRecOn with
  | nil => exact Iff.rfl
  | append_singleton events event ih =>
    rw [keep_concat]
    simp only [List.map_append, List.mem_append, ← ih, List.map_cons, List.map_nil,
      List.mem_singleton]
    by_cases hk : k = event.key
    · simp [hk]
    · simp only [hk, or_false, List.mem_map, List.mem_filter, decide_eq_true_eq]
      constructor
      · rintro ⟨e, ⟨he, -⟩, rfl⟩
        exact ⟨e, he, rfl⟩
      · rintro ⟨e, he, rfl⟩
        exact ⟨e, ⟨he, hk⟩, rfl⟩

/-- The map has one event for each key. -/
theorem nodup_keys_keep (events : List Event) : ((keep events).map (·.key)).Nodup := by
  induction events using List.reverseRecOn with
  | nil => exact List.nodup_nil
  | append_singleton events event ih =>
    rw [keep_concat, List.map_append]
    refine List.nodup_append.mpr ⟨(List.filter_sublist.map _).nodup ih, List.nodup_singleton _, ?_⟩
    rintro k hk k' hk' rfl
    obtain ⟨e, he, rfl⟩ := List.mem_map.mp hk
    exact of_decide_eq_true (List.mem_filter.mp he).2 (List.mem_singleton.mp hk')

/-- The event of a key is the last one. -/
theorem keep_last {R : Event → Event → Prop} {e e' : Event} {events : List Event}
    (hR : events.Pairwise R) (h : e ∈ keep events) (h' : e' ∈ events) (hkey : e'.key = e.key) :
    e' = e ∨ R e' e := by
  induction events using List.reverseRecOn with
  | nil => exact absurd h' List.not_mem_nil
  | append_singleton events event ih =>
    obtain ⟨hevents, -, hlast⟩ := List.pairwise_append.mp hR
    rw [keep_concat] at h
    rcases List.mem_append.mp h with h | h
    · obtain ⟨hkept, hne⟩ := List.mem_filter.mp h
      rcases List.mem_append.mp h' with h' | h'
      · exact ih hevents hkept h'
      · rw [List.mem_singleton.mp h'] at hkey
        exact absurd hkey.symm (of_decide_eq_true hne)
    · rw [List.mem_singleton.mp h]
      rcases List.mem_append.mp h' with h' | h'
      · exact .inr (hlast e' h' event (List.mem_singleton_self _))
      · exact .inl (List.mem_singleton.mp h')

/-- The remembered events of a pod are about its containers. -/
def Holds (c : Collector) : Prop :=
  ∀ uid, ∀ e ∈ c.podContainers uid, ∃ inventory, About uid inventory e

theorem holds_new : new.Holds := fun _ _ he => absurd he List.not_mem_nil

/-- What is deleted with a change: what the collector remembers of a pod and the change no
longer has. -/
theorem mem_removed {order : List Event → List Event} {c : Collector} {built : List Event}
    {change : Change} {e : Event} (horder : ∀ events, (order events).Perm events) :
    e ∈ removed order c built change ↔ ∃ p, change = .pod p .upsert ∧
      ∃ previous ∈ c.podContainers p.objectMeta.uid, previous.key ∉ (built.drop 1).map (·.key) ∧
        asDelete previous = e := by
  unfold removed
  split
  · rename_i p
    simp only [List.mem_map, List.mem_filter, (horder _).mem_iff, decide_eq_true_eq]
    constructor
    · rintro ⟨previous, ⟨hmem, hkey⟩, rfl⟩
      exact ⟨p, rfl, previous, hmem, hkey, rfl⟩
    · rintro ⟨q, hq, previous, hmem, hkey, rfl⟩
      cases hq
      exact ⟨previous, ⟨hmem, hkey⟩, rfl⟩
  · rename_i hne
    refine ⟨fun h => absurd h List.not_mem_nil, ?_⟩
    rintro ⟨p, rfl, -⟩
    exact absurd rfl (hne p)

/-- No container is deleted twice. -/
theorem nodup_keys_removed {order : List Event → List Event} {c : Collector}
    (horder : ∀ l, (order l).Perm l) (h : ∀ uid, ((c.podContainers uid).map (·.key)).Nodup)
    (events : List Event) (change : Change) :
    ((removed order c events change).map (·.key)).Nodup := by
  unfold removed
  split
  · rename_i p
    have hkeys : (fun e : Event => e.key) ∘ asDelete = fun e => e.key := funext asDelete_key
    rw [List.map_map, hkeys]
    exact (List.filter_sublist.map _).nodup (((horder _).map _).nodup_iff.mpr (h _))
  · exact List.nodup_nil

/-- The events of a pod's change after its first are about the pod's containers. -/
theorem Holds.about {c : Collector} (h : c.Holds) {b : Builder} {lister : String → Option String}
    {order : List Event → List Event} (horder : ∀ events, (order events).Perm events) {p : Pod}
    {operation : Operation} {e : Event}
    (he : e ∈ (c.events b lister order (.pod p operation)).drop 1) :
    ∃ inventory, About p.objectMeta.uid inventory e := by
  rcases List.mem_append.mp he with he | he
  · obtain ⟨i, ct, init, -, -, -, rfl⟩ := mem_containersFrom he
    obtain ⟨inventory, habout, -⟩ := about_container b i p ct _ _ init operation
    exact ⟨inventory, habout⟩
  · obtain ⟨q, hq, previous, hprevious, -, rfl⟩ := (mem_removed horder).mp he
    cases hq
    obtain ⟨inventory, habout⟩ := h _ _ hprevious
    exact ⟨_, habout.asDelete.1⟩

theorem isDelete_removed {c : Collector} {change : Change} {order : List Event → List Event}
    {events : List Event} {e : Event} (hc : c.Holds) (horder : ∀ l, (order l).Perm l)
    (he : e ∈ removed order c events change) : isDelete e = true := by
  obtain ⟨p, rfl, previous, hprevious, -, rfl⟩ := (mem_removed horder).mp he
  obtain ⟨inventory, habout⟩ := hc _ _ hprevious
  exact habout.asDelete.2.1

/-- An update of a pod makes the collector remember the containers it has now. -/
theorem kept_upsert {c : Collector} (hc : c.Holds) (b : Builder) (lister : String → Option String)
    (attempt : Attempt) (p : Pod) :
    ((c.events b lister attempt.order (.pod p .upsert)).drop 1).filter (fun e => !isDelete e) =
      b.containers (c.tick + 2) p (namespaceUID lister p.objectMeta.namespace) .upsert := by
  have hevents : (c.events b lister attempt.order (.pod p .upsert)).drop 1 =
      b.containers (c.tick + 2) p (namespaceUID lister p.objectMeta.namespace) .upsert ++
        removed attempt.order c (built b lister c.tick (.pod p .upsert)) (.pod p .upsert) := rfl
  rw [hevents, List.filter_append, List.filter_eq_self.mpr, List.filter_eq_nil_iff.mpr, List.append_nil]
  · intro e he
    rw [isDelete_removed hc attempt.shuffles he]
    exact Bool.false_ne_true
  · intro e he
    obtain ⟨i, ct, init, -, -, -, rfl⟩ := mem_containersFrom he
    rfl

/-- What the collector remembers after a change was already remembered, or is an event of
the change about the pod's containers. -/
theorem mem_updatePodContainers {c : Collector} {events : List Event} {change : Change}
    {uid : String} {e : Event} (h : e ∈ c.updatePodContainers events change uid) :
    e ∈ c.podContainers uid ∧ (∀ p operation, change = .pod p operation → p.objectMeta.uid ≠ uid) ∨
      ∃ p, change = .pod p .upsert ∧ p.objectMeta.uid = uid ∧ e ∈ events.drop 1 ∧
        isDelete e = false := by
  unfold updatePodContainers at h
  split at h
  · rename_i p
    by_cases huid : uid = p.objectMeta.uid
    · rw [huid, Function.update_self] at h
      exact absurd h List.not_mem_nil
    · rw [Function.update_of_ne huid] at h
      refine .inl ⟨h, fun q operation hq => ?_⟩
      cases hq
      exact Ne.symm huid
  · rename_i p
    by_cases huid : uid = p.objectMeta.uid
    · rw [huid, Function.update_self] at h
      obtain ⟨hmem, hdelete⟩ := List.mem_filter.mp (mem_keep h)
      exact .inr ⟨p, rfl, huid.symm, hmem, by simpa using hdelete⟩
    · rw [Function.update_of_ne huid] at h
      refine .inl ⟨h, fun q operation hq => ?_⟩
      cases hq
      exact Ne.symm huid
  · rename_i hdelete hupsert
    refine .inl ⟨h, fun p operation hp => ?_⟩
    cases operation with
    | upsert => exact absurd hp (hupsert p)
    | delete => exact absurd hp (hdelete p)

/-- **An attempt keeps the remembered events about their pods' containers.** -/
theorem Holds.process {c : Collector} (h : c.Holds) (C : Codec) (b : Builder)
    (lister : String → Option String) (attempt : Attempt) (change : Change) :
    (c.process C b lister attempt change).collector.Holds := by
  unfold Collector.process
  simp only
  split
  · exact h
  · intro uid e he
    rcases mem_updatePodContainers he with ⟨hmem, -⟩ | ⟨p, rfl, rfl, hmem, -⟩
    · exact h uid e hmem
    · exact h.about attempt.shuffles hmem

end Collector

/-! ### An encoding for small runs -/

/-- A time of few whole seconds, in the field of this tag. -/
def smallTime (tag : UInt8) : Option Timestamp → List UInt8
  | none => []
  | some t => shortField [tag] (if t.seconds = 0 then [] else [0x08, UInt8.ofNat t.seconds.toNat])

/-- The encoding of an observation of a namespace without labels, owners and a deletion
time. -/
def smallMarshal (o : Observation) : List UInt8 :=
  smallTime 0x1a o.observedAt ++ smallTime 0x22 o.collectedAt ++
    match o.payload with
    | some (.namespaceInventory i) =>
      let m := getMetadata i.metadata
      shortField [0xb2, 0x01]
        (shortField [0x0a] [0x08, if getOperation i.record = .delete then 2 else 1] ++
          shortField [0x12] (shortField [0x0a] (utf8 m.uid) ++ shortField [0x12] (utf8 m.name) ++
            smallTime 0x32 m.createdAt))
    | _ => []

/-- A namespace that the encoding fits. -/
def smallNamespace (uid : String) : Namespace where
  objectMeta := { uid := uid, name := "n", creationTimestamp := ⟨0, 0⟩ }

def comes (uid : String) : Change := .namespace (smallNamespace uid) .upsert

def goes (uid : String) : Change := .namespace (smallNamespace uid) .delete

def smallCodec : Codec where
  marshal := fun o => some (smallMarshal o)
  size := fun b => (b.observations.flatMap smallMarshal).length

end Agent
end KubeCost
