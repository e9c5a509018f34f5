/-
# The containers of a pod

The containers that stand in the stream of deltas should be those of their pod: the ones
in the spec of its last update, and none once it is deleted. On an update the collector
compares the spec with the containers it remembers. On a deletion it goes by the object
it is handed and forgets the rest (`agent/inventory/collector.go`, `events` and
`updatePodContainers`), and an informer that missed the watch hands over an object that
may be older, or newer, than the last update.

`liveness_iff` says exactly when the containers follow their pods: when every deletion
carries all the containers of the last update. `container_outlives_pod` is a container
that outlives its pod.
-/
import KubeCost.Agent.Stream

namespace KubeCost
namespace Agent

open Collector

/-! ### Changes to pods -/

/-- A change to a pod that is processed without a failure of `Publish`. A UID has no
slash. -/
structure PodChange where
  pod : Pod
  operation : Operation
  lister : String → Option String
  order : List Event → List Event
  shuffles : ∀ events, (order events).Perm events
  noSlash : '/' ∉ pod.objectMeta.uid.toList

namespace PodChange

def uid (x : PodChange) : String := x.pod.objectMeta.uid

def attempt (x : PodChange) : Attempt := ⟨x.order, x.shuffles, fun _ => none⟩

def handed (x : PodChange) : Handed := ⟨.pod x.pod x.operation, x.lister, x.attempt⟩

theorem uid_noSlash (x : PodChange) : '/' ∉ x.uid.toList := x.noSlash

theorem informed (x : PodChange) : x.handed.change.Informed := ⟨_, rfl, x.noSlash⟩

end PodChange

/-- The last change to a pod. -/
def lastChange (xs : List PodChange) (uid : String) : Option PodChange :=
  (xs.filter (·.uid = uid)).getLast?

/-- The keys of the containers that a pod has by its last change. -/
def expected (xs : List PodChange) (uid : String) : List String :=
  match lastChange xs uid with
  | none => []
  | some x =>
    match x.operation with
    | .upsert => containerKeys x.pod
    | .delete => []

/-- The last published event of the key is an update. -/
def Live (published : List Event) (k : String) : Prop :=
  ∃ e ∈ (ofKey published k).getLast?, isDelete e = false

/-- **The containers follow their pods**: the live keys of a pod's containers are those of
its last change. -/
def Follows (C : Codec) (b : Builder) (xs : List PodChange) : Prop :=
  ∀ uid, '/' ∉ uid.toList → ∀ init name,
    Live (History.run C b (xs.map (·.handed))).published (Builder.containerKey init uid name) ↔
      Builder.containerKey init uid name ∈ expected xs uid

theorem expected_concat_self (xs : List PodChange) (x : PodChange) :
    expected (xs ++ [x]) x.uid =
      match x.operation with
      | .upsert => containerKeys x.pod
      | .delete => [] := by
  simp [expected, lastChange, List.filter_append]

theorem expected_concat_of_ne {xs : List PodChange} {x : PodChange} {uid : String} (h : uid ≠ x.uid) :
    expected (xs ++ [x]) uid = expected xs uid := by
  simp [expected, lastChange, List.filter_append, Ne.symm h]

/-! ### One change -/

section

variable {C : Codec} (hC : ∀ o, C.marshal o ≠ none) {lister : String → Option String} {p : Pod}
  {init : Bool} {name : String}

theorem containerKey_ne_pod (init : Bool) (uid name other : String) :
    Builder.containerKey init uid name ≠ "pod/" ++ other := by
  intro h
  have hlist := congrArg String.toList h
  cases init <;> simp [Builder.containerKey] at hlist

/-- The keys of the events of a pod's change. -/
theorem mem_keys_imprint {operation : Operation} {uid : String} :
    Builder.containerKey init uid name ∈ (imprint lister (.pod p operation)).map (·.key) ↔
      Builder.containerKey init uid name ∈ containerKeys p := by
  simp only [imprint, built, List.map_cons, List.mem_cons, keys_containers]
  exact or_iff_right (containerKey_ne_pod init uid name _)

include hC in
theorem value_ne_none {e : Event} (he : e ∈ imprint lister (.pod p .upsert)) : value C e ≠ none := by
  have hvalue : ∀ o, isDelete e = false → e.observation = some o → value C e ≠ none := by
    intro o hd ho
    rw [value, hd, ho]
    simpa using hC _
  rcases List.mem_cons.mp he with rfl | he
  · exact hvalue _ rfl rfl
  · obtain ⟨i, ct, init, -, -, -, rfl⟩ := mem_containersFrom he
    exact hvalue _ rfl rfl

theorem isDelete_imprint {e : Event} (he : e ∈ imprint lister (.pod p .delete)) :
    isDelete e = true := by
  have hx : (Change.pod p .delete).object ≠ none := Option.some_ne_none _
  obtain ⟨-, i, resourceVersion, payload, -, -, ho, hrecord⟩ := mem_built hx he
  exact isDelete_wire ho rfl hrecord rfl

theorem writeAll_ne_none {events : List Event} {k : String} (h : ∀ e ∈ events, value C e ≠ none)
    (hk : k ∈ events.map (·.key)) (cache : Cache) : writeAll C events cache k ≠ none := by
  induction events using List.reverseRecOn with
  | nil => exact absurd hk List.not_mem_nil
  | append_singleton events e ih =>
    rw [List.forall_mem_append] at h
    rw [writeAll_concat]
    by_cases heq : k = e.key
    · rw [heq, Function.update_self]
      exact h.2 e (List.mem_singleton_self e)
    · rw [Function.update_of_ne heq]
      rw [List.map_append, List.mem_append] at hk
      exact ih h.1 (hk.resolve_right fun hlast => heq (List.mem_singleton.mp hlast))

end

section

variable {C : Codec} (b : Builder) (hC : ∀ o, C.marshal o ≠ none)

/-- The collector after the changes. -/
def collectorAfter (C : Codec) (b : Builder) (xs : List PodChange) : Collector :=
  (History.run C b (xs.map (·.handed))).collector

theorem collectorAfter_concat (xs : List PodChange) (x : PodChange) :
    collectorAfter C b (xs ++ [x]) =
      ((collectorAfter C b xs).process C b x.lister x.attempt (.pod x.pod x.operation)).collector := by
  rw [collectorAfter, List.map_append, List.map_singleton, History.run_concat]
  rfl

/-- A key is live when the cache has it. -/
theorem live_iff (xs : List PodChange) (k : String) :
    Live (History.run C b (xs.map (·.handed))).published k ↔ (collectorAfter C b xs).cache k ≠ none := by
  refine ((deltas_wellFormed C b fun y hy => ?_).keys k).symm
  obtain ⟨x, -, rfl⟩ := List.mem_map.mp hy
  exact x.informed.object_ne

include hC

theorem finishes (xs : List PodChange) (x : PodChange) :
    (work C x.lister).Finishes (.pod x.pod x.operation) (part (collectorAfter C b xs))
      (part (collectorAfter C b (xs ++ [x]))) := by
  have hc : (collectorAfter C b xs).Holds := History.run_holds C b _
  rw [collectorAfter_concat]
  exact finishes_of_success hC x.informed hc (error_process b x.lister hC x.informed hc fun _ => rfl)

variable {xs : List PodChange} {x : PodChange} {init : Bool} {name uid : String}

omit hC in
theorem part_eq (c : Collector) (huid : '/' ∉ uid.toList) (init : Bool) (name : String) :
    (part c (some (.pod, uid))).1 (Builder.containerKey init uid name) =
      c.cache (Builder.containerKey init uid name) :=
  if_pos (ownerOf_containerKey huid init name)

/-- The key of a container of a pod, after a change to the pod. -/
theorem cache_after (init : Bool) (name : String) :
    (collectorAfter C b (xs ++ [x])).cache (Builder.containerKey init x.uid name) =
      if drops (.pod x.pod x.operation) (part (collectorAfter C b xs) (some (.pod, x.uid))).2
        (Builder.containerKey init x.uid name) then none
      else writeAll C (imprint x.lister (.pod x.pod x.operation)) (collectorAfter C b xs).cache
        (Builder.containerKey init x.uid name) := by
  have hown : (part (collectorAfter C b (xs ++ [x])) (some (.pod, x.uid))).1
      (Builder.containerKey init x.uid name) = _ :=
    congrFun (congrArg Prod.fst (finishes b hC xs x).own) _
  rw [part_eq _ x.uid_noSlash] at hown
  rw [hown]
  exact if_congr Iff.rfl rfl (writeAll_congr (part_eq _ x.uid_noSlash init name))

/-- A deletion removes the containers of the object it carries, and no others. -/
theorem cache_delete (hx : x.operation = .delete) (init : Bool) (name : String) :
    (collectorAfter C b (xs ++ [x])).cache (Builder.containerKey init x.uid name) ≠ none ↔
      (collectorAfter C b xs).cache (Builder.containerKey init x.uid name) ≠ none ∧
        Builder.containerKey init x.uid name ∉ containerKeys x.pod := by
  have hkeep : drops (.pod x.pod .delete) (part (collectorAfter C b xs) (some (.pod, x.uid))).2
      (Builder.containerKey init x.uid name) = false := rfl
  rw [cache_after b hC, hx, hkeep, if_neg Bool.false_ne_true,
    writeAll_of_deletes fun e he => isDelete_imprint he]
  by_cases hk : Builder.containerKey init x.uid name ∈ containerKeys x.pod
  · rw [if_pos (mem_keys_imprint.mpr hk)]
    simp [hk]
  · rw [if_neg (mt mem_keys_imprint.mp hk)]
    simp [hk]

/-- An update brings the containers it has, and removes those that the collector remembers
and it has not. -/
theorem cache_upsert (hx : x.operation = .upsert) (init : Bool) (name : String) :
    (collectorAfter C b (xs ++ [x])).cache (Builder.containerKey init x.uid name) ≠ none ↔
      Builder.containerKey init x.uid name ∈ containerKeys x.pod ∨
        (collectorAfter C b xs).cache (Builder.containerKey init x.uid name) ≠ none ∧
          Builder.containerKey init x.uid name ∉
            ((collectorAfter C b xs).podContainers x.uid).map (·.key) := by
  rw [cache_after b hC, hx]
  by_cases hk : Builder.containerKey init x.uid name ∈ containerKeys x.pod
  · have hkeep : drops (.pod x.pod .upsert) (part (collectorAfter C b xs) (some (.pod, x.uid))).2
        (Builder.containerKey init x.uid name) = false := by simp [drops, hk]
    rw [hkeep, if_neg Bool.false_ne_true]
    exact iff_of_true (writeAll_ne_none (fun e he => value_ne_none hC he) (mem_keys_imprint.mpr hk) _)
      (.inl hk)
  · have hdrops : drops (.pod x.pod .upsert) (part (collectorAfter C b xs) (some (.pod, x.uid))).2
        (Builder.containerKey init x.uid name) = decide (Builder.containerKey init x.uid name ∈
          ((collectorAfter C b xs).podContainers x.uid).map (·.key)) := by
      simp only [drops, part, hk, not_false_eq_true, decide_true, Bool.and_true]
    rw [writeAll_of_not_mem (mt mem_keys_imprint.mp hk), hdrops]
    by_cases hheld : Builder.containerKey init x.uid name ∈
        ((collectorAfter C b xs).podContainers x.uid).map (·.key)
    · simp only [hheld, hk, decide_true, if_true]
      simp
    · simp only [hheld, hk, decide_false, Bool.false_eq_true, if_false, false_or, not_false_eq_true,
        and_true]

/-- What the collector remembers of the pod after a change to it. -/
theorem mem_held {k : String} :
    k ∈ ((collectorAfter C b (xs ++ [x])).podContainers x.uid).map (·.key) ↔
      k ∈ expected (xs ++ [x]) x.uid := by
  have hown : decide (k ∈ ((collectorAfter C b (xs ++ [x])).podContainers x.uid).map (·.key)) = _ :=
    congrFun (congrArg Prod.snd (finishes b hC xs x).own) k
  rw [expected_concat_self]
  cases hx : x.operation with
  | upsert =>
    rw [hx] at hown
    exact decide_eq_decide.mp hown
  | delete =>
    rw [hx] at hown
    exact iff_of_false (of_decide_eq_false hown) List.not_mem_nil

/-- A change to one pod leaves the others alone. -/
theorem other_pod (huid : uid ≠ x.uid) (hslash : '/' ∉ uid.toList) :
    (∀ init name, (collectorAfter C b (xs ++ [x])).cache (Builder.containerKey init uid name) =
      (collectorAfter C b xs).cache (Builder.containerKey init uid name)) ∧
    ∀ k, k ∈ ((collectorAfter C b (xs ++ [x])).podContainers uid).map (·.key) ↔
      k ∈ ((collectorAfter C b xs).podContainers uid).map (·.key) := by
  have hother : part (collectorAfter C b (xs ++ [x])) (some (.pod, uid)) =
      part (collectorAfter C b xs) (some (.pod, uid)) := by
    refine (finishes b hC xs x).other _ fun heq => huid ?_
    cases heq
    rfl
  refine ⟨fun init name => ?_, fun k => ?_⟩
  · rw [← part_eq _ hslash, hother, part_eq _ hslash]
  · exact decide_eq_decide.mp (congrFun (congrArg Prod.snd hother) k)

/-! ### Histories -/

/-- The collector knows the containers of a pod: those in the cache, and those it
remembers, are the expected ones. -/
structure Tracks (C : Codec) (b : Builder) (xs : List PodChange) (uid : String) : Prop where
  cached : ∀ init name, (collectorAfter C b xs).cache (Builder.containerKey init uid name) ≠ none ↔
    Builder.containerKey init uid name ∈ expected xs uid
  held : ∀ k, k ∈ ((collectorAfter C b xs).podContainers uid).map (·.key) ↔ k ∈ expected xs uid

omit hC in
theorem follows_iff : Follows C b xs ↔ ∀ uid, '/' ∉ uid.toList → ∀ init name,
    (collectorAfter C b xs).cache (Builder.containerKey init uid name) ≠ none ↔
      Builder.containerKey init uid name ∈ expected xs uid := by
  unfold Follows
  simp only [live_iff]

omit hC in
/-- The expected keys are keys of the pod's containers. -/
theorem exists_of_mem_expected {k : String} (h : k ∈ expected xs uid) :
    ∃ init name, k = Builder.containerKey init uid name := by
  unfold expected at h
  split at h
  · cases h
  · rename_i x hx
    have huid : x.uid = uid :=
      of_decide_eq_true (List.mem_filter.mp (List.mem_of_mem_getLast? hx)).2
    split at h
    · obtain ⟨spec, -, rfl⟩ := List.mem_map.mp h
      exact ⟨spec.2, spec.1.name, by rw [← huid]; rfl⟩
    · cases h

theorem Tracks.concat (h : Tracks C b xs uid) (hslash : '/' ∉ uid.toList)
    (hdelete : uid = x.uid → x.operation = .delete → expected xs uid ⊆ containerKeys x.pod) :
    Tracks C b (xs ++ [x]) uid := by
  by_cases huid : uid = x.uid
  · subst huid
    refine ⟨fun init name => ?_, fun k => mem_held b hC⟩
    rw [expected_concat_self]
    cases hx : x.operation with
    | upsert =>
      -- what was live and is not remembered: nothing, by the invariant
      rw [cache_upsert b hC hx, h.cached, h.held]
      simp only [and_not_self, or_false]
    | delete =>
      rw [cache_delete b hC hx, h.cached]
      exact iff_of_false (fun hk => hk.2 (hdelete rfl hx hk.1)) List.not_mem_nil
  · obtain ⟨hcache, hheld⟩ := other_pod (C := C) b hC huid hslash
    refine ⟨fun init name => ?_, fun k => ?_⟩
    · rw [hcache, expected_concat_of_ne huid]
      exact h.cached init name
    · rw [hheld, expected_concat_of_ne huid]
      exact h.held k

/-- Every pod is tracked as long as the deletions carry what their pods had. -/
theorem tracks_of_carried : ∀ {xs : List PodChange}, (∀ ys d, (ys ++ [d]).IsPrefix xs →
      d.operation = .delete → expected ys d.uid ⊆ containerKeys d.pod) →
    ∀ uid, '/' ∉ uid.toList → Tracks C b xs uid := by
  intro xs h uid hslash
  induction xs using List.reverseRecOn with
  | nil =>
    refine ⟨fun init name => ?_, fun k => Iff.rfl⟩
    exact iff_of_false (fun hne => hne rfl) List.not_mem_nil
  | append_singleton xs x ih =>
    refine Tracks.concat b hC (ih fun ys d hys => h ys d (hys.trans (List.prefix_append _ _))) hslash ?_
    rintro rfl hx
    exact h xs x (List.prefix_refl _) hx

/-- **When containers follow their pods.** After each change of a history without failures
of `Publish`, the live keys of the containers of every pod are those of the spec in its
last update, and none after a deletion, exactly if every deletion carries all the
containers of the update before it. -/
theorem liveness_iff (xs : List PodChange) :
    (∀ ys, ys.IsPrefix xs → Follows C b ys) ↔
      ∀ ys d, (ys ++ [d]).IsPrefix xs → d.operation = .delete →
        expected ys d.uid ⊆ containerKeys d.pod := by
  constructor
  · intro h ys d hys hd k hk
    have hbefore := (follows_iff b).mp (h ys ((List.prefix_append _ _).trans hys))
    have hafter := (follows_iff b).mp (h (ys ++ [d]) hys)
    obtain ⟨init, name, rfl⟩ := exists_of_mem_expected hk
    have hgone := (hafter d.uid d.uid_noSlash init name).not
    rw [expected_concat_self, hd, cache_delete b hC hd, hbefore d.uid d.uid_noSlash] at hgone
    by_contra hnot
    exact hgone.mpr List.not_mem_nil ⟨hk, hnot⟩
  · intro h ys hys
    rw [follows_iff]
    intro uid hslash
    exact (tracks_of_carried b hC (fun zs d hzs => h zs d (hzs.trans hys)) uid hslash).cached

end

/-! ### A container that outlives its pod -/

def smallPod (containers : List String) : Pod where
  objectMeta := { uid := "u", name := "p", creationTimestamp := ⟨0, 0⟩ }
  containers := containers.map fun name => { name := name }

theorem smallPod_noSlash (containers : List String) :
    '/' ∉ (smallPod containers).objectMeta.uid.toList := by
  simp [smallPod]

def podComes (containers : List String) : PodChange :=
  ⟨smallPod containers, .upsert, fun _ => none, id, List.Perm.refl, smallPod_noSlash containers⟩

def podGoes (containers : List String) : PodChange :=
  ⟨smallPod containers, .delete, fun _ => none, id, List.Perm.refl, smallPod_noSlash containers⟩

/-- The encoding of an observation of such a pod or of one of its containers. -/
def podMarshal (o : Observation) : List UInt8 :=
  let recorded (record : Option InventoryRecord) :=
    shortField [0x0a] [0x08, if getOperation record = .delete then 2 else 1]
  smallTime 0x1a o.observedAt ++ smallTime 0x22 o.collectedAt ++
    match o.payload with
    | some (.podInventory i) =>
      let m := getMetadata i.metadata
      shortField [0xc2, 0x01] (recorded i.record ++
        shortField [0x12] (shortField [0x0a] (utf8 m.uid) ++ shortField [0x12] (utf8 m.name) ++
          smallTime 0x32 m.createdAt))
    | some (.containerInventory i) =>
      shortField [0xca, 0x01] (recorded i.record ++ shortField [0x12] (utf8 i.podUid) ++
        shortField [0x22] (utf8 i.podName) ++ shortField [0x2a] (utf8 i.containerName) ++
        (if i.requests = none then [] else shortField [0x4a] []) ++
        (if i.limits = none then [] else shortField [0x52] []))
    | _ => []

def podCodec : Codec where
  marshal := fun o => some (podMarshal o)
  size := fun b => (b.observations.flatMap podMarshal).length

/-- A clock that stands still. -/
def stillClock : Builder := ⟨fun _ => ⟨1, 0⟩⟩

theorem liveness_iff_podGoes :
    expected [podComes ["a"]] "u" = [Builder.containerKey false "u" "a"] ∧
    ∀ ys, ys.IsPrefix [podComes ["a"], podGoes ["b", "a"]] → Follows podCodec stillClock ys := by
  refine ⟨by decide +kernel,
    (liveness_iff stillClock (C := podCodec) (fun _ => Option.some_ne_none _) _).mpr ?_⟩
  intro ys d hys hd
  rcases ys with _ | ⟨y, _ | ⟨y', ys⟩⟩
  · exact List.nil_subset _
  · simp only [List.cons_append, List.nil_append, List.cons_prefix_cons, List.prefix_nil, and_true] at hys
    obtain ⟨rfl, rfl, -⟩ := hys
    decide +kernel
  · simp [List.cons_prefix_cons] at hys

/-- A pod with two containers, and its deletion with an object that has one of them. -/
def goneHistory : List PodChange := [podComes ["a", "b"], podGoes ["a"]]

/-- **A container outlives its pod**: the pod is deleted, and its container is never. -/
theorem container_outlives_pod :
    (lastChange goneHistory "u").map (·.operation) = some .delete ∧
    Live (History.run podCodec stillClock (goneHistory.map (·.handed))).published
      (Builder.containerKey false "u" "b") ∧
    ¬ Follows podCodec stillClock goneHistory := by
  have hlast : ((ofKey (History.run podCodec stillClock (goneHistory.map (·.handed))).published
      (Builder.containerKey false "u" "b")).getLast?.map isDelete) = some false := by decide +kernel
  have hnone : expected goneHistory "u" = [] := by decide +kernel
  obtain ⟨e, he, hd⟩ := Option.map_eq_some_iff.mp hlast
  refine ⟨by decide +kernel, ⟨e, he, hd⟩, fun h => ?_⟩
  have hmem := (h "u" (by decide) false "b").mp ⟨e, he, hd⟩
  rw [hnone] at hmem
  exact List.not_mem_nil hmem

end Agent
end KubeCost
