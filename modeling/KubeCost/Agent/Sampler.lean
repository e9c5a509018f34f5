/-
# Samples of the agent

`agent/metrics/sampler.go`: a sample reads the clock, lists the pods, asks the kubelets
and the metrics API what the containers use, and publishes one observation for each
container that it has a specification and a usage of, then one for each node. Every
observation covers the interval that ends when the clock was read.

The answers of the cluster, the orders in which maps are visited, the clock when an event
is made and the errors of `Publish` are inputs (`Readings`). `windowsOf_sample` says that a
sample publishes at most one observation of a container, and which window it has.

`float64` products are read as exact, and the numbers fit 64 bits.
-/
import KubeCost.Agent.Builder
import KubeCost.Keyed
import KubeCost.Time

namespace KubeCost
namespace Agent
namespace Metrics

open Keyed

/-! ### What the cluster answers -/

structure SummaryMemory where
  workingSetBytes : Option ℕ := none
  rssBytes : Option ℕ := none

structure SummaryContainer where
  name : String
  memory : Option SummaryMemory := none

structure SummaryPod where
  name : String
  «namespace» : String
  containers : List SummaryContainer := []

/-- The answer of a kubelet; `usageNanoCores` is absent when its `cpu` is. -/
structure Summary where
  nodeName : String := ""
  usageNanoCores : Option ℕ := none
  memory : Option SummaryMemory := none
  pods : List SummaryPod := []

structure PodMetricsContainer where
  name : String
  usage : ResourceList := []

structure PodMetrics where
  name : String
  «namespace» : String
  containers : List PodMetricsContainer := []

/-! ### Specifications and usage -/

structure SummaryKey where
  «namespace» : String
  podName : String
  container : String
deriving DecidableEq

structure PodContainerSpec where
  podUID : String
  «namespace» : String
  podName : String
  containerName : String
  containerID : String
  requests : ResourceList
  limits : ResourceList
deriving DecidableEq

structure UsageSample where
  cpuCoreNanoseconds : Option ℤ := none
  memoryWorkingSetSeconds : Option ℤ := none
  memoryRSSSeconds : Option ℤ := none
  containerID : String := ""
deriving DecidableEq

structure NodeUsageSample where
  nodeUID : String
  nodeName : String
  cpuCoreNanoseconds : Option ℤ := none
  memoryWorkingSetSeconds : Option ℤ := none
  memoryRSSSeconds : Option ℤ := none
deriving DecidableEq

structure SummaryResult where
  containers : Map SummaryKey UsageSample
  nodes : Map String NodeUsageSample

def PodContainerSpec.key (spec : PodContainerSpec) : SummaryKey :=
  ⟨spec.namespace, spec.podName, spec.containerName⟩

/-- A product with the seconds of a duration, cut to an integer. -/
def overSeconds (amount : ℤ) (duration : Instant) : ℤ := Int.tdiv (amount * duration) 1000000000

def cpuCoreNanoseconds (millicores : ℤ) (duration : Instant) : ℤ :=
  overSeconds (millicores * 1000000) duration

def byteSeconds (bytes : ℤ) (duration : Instant) : ℤ := overSeconds bytes duration

/-- The containers of a pod that `specs` adds, in order. -/
def podSpecs (pod : Pod) : List PodContainerSpec :=
  if pod.objectMeta.uid = "" ∨ pod.phase = "Succeeded" ∨ pod.phase = "Failed" then []
  else (pod.initContainers ++ pod.containers).map fun container =>
    { podUID := pod.objectMeta.uid
      «namespace» := pod.objectMeta.namespace
      podName := pod.objectMeta.name
      containerName := container.name
      containerID := (Builder.statusOf pod container.name).containerID
      requests := container.requests
      limits := container.limits }

/-- `specs`: of two containers with one key the last. -/
def specs (pods : Except String (List Pod)) : Except String (Map SummaryKey PodContainerSpec) := do
  let pods ← pods.mapError ("list pods for metrics sampling: " ++ ·)
  return collect (fun _ => true) PodContainerSpec.key (fun spec _ => spec) (pods.flatMap podSpecs) ∅

def nodeUsage (node : Node) (summary : Summary) (duration : Instant) : NodeUsageSample where
  nodeUID := node.objectMeta.uid
  nodeName := if summary.nodeName ≠ "" then summary.nodeName else node.objectMeta.name
  cpuCoreNanoseconds := summary.usageNanoCores.map fun n => overSeconds n duration
  memoryWorkingSetSeconds := summary.memory.bind fun memory =>
    memory.workingSetBytes.map fun n => byteSeconds (Instant.wrap64 n) duration
  memoryRSSSeconds := summary.memory.bind fun memory =>
    memory.rssBytes.map fun n => byteSeconds (Instant.wrap64 n) duration

/-- The usage of a container with what a kubelet says of its memory. -/
def addMemory (interval : Instant) (memory : Option SummaryMemory) (item : UsageSample) : UsageSample :=
  match memory with
  | none => item
  | some memory =>
    { item with
      memoryWorkingSetSeconds := match memory.workingSetBytes with
        | none => item.memoryWorkingSetSeconds
        | some n => some (byteSeconds (Instant.wrap64 n) interval)
      memoryRSSSeconds := match memory.rssBytes with
        | none => item.memoryRSSSeconds
        | some n => some (byteSeconds (Instant.wrap64 n) interval) }

/-- The containers of a kubelet's answer with their keys. -/
def Summary.containers (summary : Summary) : List (SummaryKey × SummaryContainer) :=
  summary.pods.flatMap fun pod =>
    pod.containers.map fun container => (⟨pod.namespace, pod.name, container.name⟩, container)

/-- `summary`; each node comes with what its kubelet answers. -/
def summary (interval : Instant) (nodes : Except String (List (Node × Except String Summary))) :
    Except String SummaryResult := do
  let nodes ← nodes.mapError ("list nodes for summary sampling: " ++ ·)
  let answers := nodes.filterMap fun node => node.2.toOption.map fun summary => (node.1, summary)
  let failed := nodes.length - answers.length
  let result : SummaryResult :=
    { nodes := collect (fun _ => true) (fun answer => answer.1.objectMeta.name)
        (fun answer _ => nodeUsage answer.1 answer.2 interval) answers ∅
      containers := collect (fun _ => true) Prod.fst
        (fun container item => addMemory interval container.2.memory (item.getD {}))
        (answers.flatMap fun answer => answer.2.containers) ∅ }
  if result.containers.entries.length = 0 ∧ result.nodes.entries.length = 0 ∧ failed > 0 then
    .error "all kubelet summary requests failed"
  else .ok result

/-- The usage of a container with what the metrics API says of it. -/
def addUsage (interval : Instant) (usage : ResourceList) (item : UsageSample) : UsageSample :=
  { item with
    cpuCoreNanoseconds := match usage.lookup "cpu" with
      | none => item.cpuCoreNanoseconds
      | some cpu => some (cpuCoreNanoseconds cpu.milliValue interval)
    memoryWorkingSetSeconds := match usage.lookup "memory" with
      | none => item.memoryWorkingSetSeconds
      | some memory => some (byteSeconds memory.value interval) }

/-- `usage`: the metrics API goes before the kubelets, which are enough when it fails. -/
def usage (interval : Instant) (summary : Map SummaryKey UsageSample)
    (podMetrics : Except String (List PodMetrics)) : Except String (Map SummaryKey UsageSample) :=
  match podMetrics with
  | .error err =>
    if summary.entries.length > 0 then .ok summary else .error ("read pod metrics: " ++ err)
  | .ok pods =>
    .ok (collect (fun _ => true) Prod.fst
      (fun container item => addUsage interval container.2.usage (item.getD {}))
      (pods.flatMap fun pod => pod.containers.map fun container =>
        ((⟨pod.namespace, pod.name, container.name⟩ : SummaryKey), container)) summary)

/-! ### Observations -/

/-- `[start, stop)`. -/
structure TimeWindow where
  start : Instant
  stop : Instant
deriving DecidableEq

inductive MetricQuality
  | complete
  | partialQuality
deriving DecidableEq

structure ContainerMetrics where
  podUid : String
  «namespace» : String
  podName : String
  containerName : String
  containerId : String
  window : TimeWindow
  cpuUsageCoreNanoseconds : Option ℤ
  memoryWorkingSetByteSeconds : Option ℤ
  memoryRssByteSeconds : Option ℤ
  cpuRequestCoreNanoseconds : Option ℤ
  cpuLimitCoreNanoseconds : Option ℤ
  memoryRequestByteSeconds : Option ℤ
  memoryLimitByteSeconds : Option ℤ
  quality : MetricQuality
deriving DecidableEq

structure NodeMetrics where
  nodeUid : String
  nodeName : String
  window : TimeWindow
  cpuUsageCoreNanoseconds : Option ℤ
  memoryWorkingSetByteSeconds : Option ℤ
  memoryRssByteSeconds : Option ℤ
  quality : MetricQuality
deriving DecidableEq

/-- An event of the sampler; its observation has the metrics as the payload. -/
structure MetricEvent where
  key : String
  observedAt : Instant
  collectedAt : Instant
  metrics : ContainerMetrics ⊕ NodeMetrics
deriving DecidableEq

def cpuResourceTime (resources : ResourceList) (duration : Instant) : Option ℤ :=
  (resources.lookup "cpu").map fun quantity => cpuCoreNanoseconds quantity.milliValue duration

def memoryResourceTime (resources : ResourceList) (duration : Instant) : Option ℤ :=
  (resources.lookup "memory").map fun quantity => byteSeconds quantity.value duration

/-- A sample without the processor or the working set is partial. -/
def qualityOf (cpu memory : Option ℤ) : MetricQuality :=
  if cpu = none ∨ memory = none then .partialQuality else .complete

/-- The metrics of `event`. -/
def containerMetrics (window : TimeWindow) (spec : PodContainerSpec) (sample : UsageSample) :
    ContainerMetrics where
  podUid := spec.podUID
  «namespace» := spec.namespace
  podName := spec.podName
  containerName := spec.containerName
  containerId := firstNonEmpty [spec.containerID, sample.containerID]
  window := window
  cpuUsageCoreNanoseconds := sample.cpuCoreNanoseconds
  memoryWorkingSetByteSeconds := sample.memoryWorkingSetSeconds
  memoryRssByteSeconds := sample.memoryRSSSeconds
  cpuRequestCoreNanoseconds := cpuResourceTime spec.requests (window.stop - window.start)
  cpuLimitCoreNanoseconds := cpuResourceTime spec.limits (window.stop - window.start)
  memoryRequestByteSeconds := memoryResourceTime spec.requests (window.stop - window.start)
  memoryLimitByteSeconds := memoryResourceTime spec.limits (window.stop - window.start)
  quality := qualityOf sample.cpuCoreNanoseconds sample.memoryWorkingSetSeconds

/-- `event`; `clock` is what `now` returns when the event with a key is made. -/
def event (clock : String → Instant) (window : TimeWindow) (spec : PodContainerSpec)
    (sample : UsageSample) : MetricEvent :=
  let key := "metrics/container/" ++ spec.namespace ++ "/" ++ spec.podName ++ "/" ++
    spec.containerName ++ "/" ++ toString (Instant.wrap64 window.stop)
  { key := key
    observedAt := window.stop
    collectedAt := clock key
    metrics := .inl (containerMetrics window spec sample) }

def nodeEvent (clock : String → Instant) (window : TimeWindow) (sample : NodeUsageSample) :
    MetricEvent :=
  let key := "metrics/node/" ++ sample.nodeName ++ "/" ++ toString (Instant.wrap64 window.stop)
  { key := key
    observedAt := window.stop
    collectedAt := clock key
    metrics := .inr
      { nodeUid := sample.nodeUID
        nodeName := sample.nodeName
        window := window
        cpuUsageCoreNanoseconds := sample.cpuCoreNanoseconds
        memoryWorkingSetByteSeconds := sample.memoryWorkingSetSeconds
        memoryRssByteSeconds := sample.memoryRSSSeconds
        quality := qualityOf sample.cpuCoreNanoseconds sample.memoryWorkingSetSeconds } }

def NodeUsageSample.hasMeasurement (sample : NodeUsageSample) : Bool :=
  sample.cpuCoreNanoseconds.isSome || sample.memoryWorkingSetSeconds.isSome ||
    sample.memoryRSSSeconds.isSome

/-! ### A sample -/

/-- What a sample gets from outside. -/
structure Readings where
  pods : Except String (List Pod)
  nodes : Except String (List (Node × Except String Summary)) := .ok []
  podMetrics : Except String (List PodMetrics) := .ok []
  specOrder : Order ((_ : SummaryKey) × PodContainerSpec) := Order.listed
  nodeOrder : Order ((_ : String) × NodeUsageSample) := Order.listed
  clock : String → Instant := fun _ => 0
  /-- The error of publishing the event with a key. -/
  publish : String → Option String := fun _ => none

/-- The events up to the first that is not taken, and the error of that one. -/
def publishAll (publish : String → Option String) : List MetricEvent → List MetricEvent × Option String
  | [] => ([], none)
  | e :: rest =>
    match publish e.key with
    | some err => ([], some err)
    | none => (e :: (publishAll publish rest).1, (publishAll publish rest).2)

/-- The events of the containers that have a usage, as the loop makes them. -/
def containerEvents (r : Readings) (window : TimeWindow) (specs : Map SummaryKey PodContainerSpec)
    (usage : Map SummaryKey UsageSample) : List MetricEvent :=
  (r.specOrder.visit specs.entries).filterMap fun e =>
    (usage.lookup e.1).map fun sample => event r.clock window e.2 sample

def nodeEvents (r : Readings) (window : TimeWindow) (nodes : Map String NodeUsageSample) :
    List MetricEvent :=
  ((r.nodeOrder.visit nodes.entries).filter fun e =>
    !(e.2.nodeUID = "" || e.2.nodeName = "" || !e.2.hasMeasurement)).map fun e =>
      nodeEvent r.clock window e.2

/-- The window of a sample at `stop`. -/
def windowAt (interval stop : Instant) : TimeWindow := ⟨stop - interval, stop⟩

/-- The events that a sample makes, in order. -/
def sampleEvents (interval : Instant) (r : Readings) (stop : Instant) :
    Except String (List MetricEvent) := do
  let specs ← specs r.pods
  -- an error of the kubelets is logged only
  let summary := match summary interval r.nodes with
    | .ok summary => summary
    | .error _ => ⟨∅, ∅⟩
  let usage ← usage interval summary.containers r.podMetrics
  return containerEvents r (windowAt interval stop) specs usage ++
    nodeEvents r (windowAt interval stop) summary.nodes

/-- `Sample` when the clock shows `stop`: what is published, and the error it returns. -/
def sample (interval : Instant) (r : Readings) (stop : Instant) : List MetricEvent × Option String :=
  match sampleEvents interval r stop with
  | .error err => ([], some err)
  | .ok events => publishAll r.publish events

/-- `NewSampler`: an interval that is not positive becomes ten seconds. -/
def newInterval (interval : Instant) : Instant := if interval ≤ 0 then 10000000000 else interval

theorem newInterval_pos (interval : Instant) : 0 < newInterval interval := by
  unfold newInterval
  split
  · decide
  · exact not_le.mp ‹_›

/-! ### The windows of a container -/

/-- What tells one container from another. -/
structure ContainerIdentity where
  podUid : String
  «namespace» : String
  podName : String
  containerName : String
deriving DecidableEq

def ContainerMetrics.identity (m : ContainerMetrics) : ContainerIdentity :=
  ⟨m.podUid, m.namespace, m.podName, m.containerName⟩

/-- The window of an event, if it is an observation of the container. -/
def MetricEvent.windowFor (container : ContainerIdentity) (e : MetricEvent) : Option TimeWindow :=
  match e.metrics with
  | .inl m => if m.identity = container then some m.window else none
  | .inr _ => none

/-- The windows of the observations of a container. -/
def windowsOf (container : ContainerIdentity) (events : List MetricEvent) : List TimeWindow :=
  events.filterMap (·.windowFor container)

variable {interval stop : Instant} {r : Readings} {container : ContainerIdentity}
  {events : List MetricEvent}

theorem publishAll_sublist (publish : String → Option String) :
    ∀ events : List MetricEvent, (publishAll publish events).1.Sublist events
  | [] => List.Sublist.refl _
  | e :: rest => by
    unfold publishAll
    split
    · exact List.nil_sublist _
    · exact (publishAll_sublist publish rest).cons_cons e

/-- A specification is kept under its own key. -/
theorem lookup_specs {pods : Except String (List Pod)} {m : Map SummaryKey PodContainerSpec}
    (h : specs pods = .ok m) {k : SummaryKey} {spec : PodContainerSpec}
    (hk : m.lookup k = some spec) : spec.key = k := by
  obtain ⟨pods', -, h⟩ := bind_eq_ok.mp h
  obtain rfl := Except.ok.inj h
  refine forall_collect (P := fun k spec => spec.key = k) (fun _ _ _ _ => rfl) ?_ k spec hk
  intro k a h
  rw [AList.lookup_empty] at h
  cases h

theorem windowFor_event {window : TimeWindow} {spec : PodContainerSpec} {sample : UsageSample}
    {w : TimeWindow} (h : (event r.clock window spec sample).windowFor container = some w) :
    spec.key = ⟨container.namespace, container.podName, container.containerName⟩ ∧ w = window := by
  have hif : (if (containerMetrics window spec sample).identity = container then
      some (containerMetrics window spec sample).window else none) = some w := h
  obtain ⟨hidentity, hw⟩ := Option.ite_none_right_eq_some.mp hif
  rw [← hidentity]
  exact ⟨rfl, (Option.some.inj hw).symm⟩

/-- A list in which no two elements pass a test has at most one that does. -/
theorem length_filterMap_le_one {α β : Type*} {f : α → Option β} : ∀ {l : List α},
    l.Pairwise (fun a b => f a = none ∨ f b = none) → (l.filterMap f).length ≤ 1
  | [], _ => Nat.zero_le 1
  | a :: l, h => by
    obtain ⟨ha, hl⟩ := List.pairwise_cons.mp h
    cases hf : f a with
    | none =>
      rw [List.filterMap_cons_none hf]
      exact length_filterMap_le_one hl
    | some b =>
      have hnil : l.filterMap f = [] :=
        List.filterMap_eq_nil_iff.mpr fun c hc => (ha c hc).resolve_left (by simp [hf])
      rw [List.filterMap_cons_some hf, hnil]
      exact Nat.le_refl 1

/-- No two of the events are of one container. -/
theorem containerEvents_apart {specs : Map SummaryKey PodContainerSpec}
    {usage : Map SummaryKey UsageSample} {window : TimeWindow}
    (hkeys : ∀ k spec, specs.lookup k = some spec → spec.key = k) (container : ContainerIdentity) :
    (containerEvents r window specs usage).Pairwise fun e e' =>
      e.windowFor container = none ∨ e'.windowFor container = none := by
  have hperm := r.specOrder.perm specs.entries
  have hnodup : (r.specOrder.visit specs.entries).Pairwise fun e e' => e.1 ≠ e'.1 :=
    List.nodupKeys_iff_pairwise.mp ((List.perm_nodupKeys hperm).mpr specs.nodupKeys)
  refine List.pairwise_filterMap.mpr (hnodup.imp_of_mem ?_)
  intro e e' he he' hne a ha a' ha'
  obtain ⟨sample, -, rfl⟩ := Option.map_eq_some_iff.mp ha
  obtain ⟨sample', -, rfl⟩ := Option.map_eq_some_iff.mp ha'
  by_contra hboth
  rw [not_or] at hboth
  obtain ⟨w, hw⟩ := Option.ne_none_iff_exists'.mp hboth.1
  obtain ⟨w', hw'⟩ := Option.ne_none_iff_exists'.mp hboth.2
  have hkey := hkeys e.1 e.2 (AList.mem_lookup_iff.mpr (hperm.mem_iff.mp he))
  have hkey' := hkeys e'.1 e'.2 (AList.mem_lookup_iff.mpr (hperm.mem_iff.mp he'))
  exact hne (by rw [← hkey, ← hkey', (windowFor_event hw).1, (windowFor_event hw').1])

theorem windowFor_nodeEvents {window : TimeWindow} {nodes : Map String NodeUsageSample}
    {e : MetricEvent} (h : e ∈ nodeEvents r window nodes) : e.windowFor container = none := by
  obtain ⟨entry, -, rfl⟩ := List.mem_map.mp h
  rfl

/-- What the events of a sample are. -/
theorem sampleEvents_eq_ok (h : sampleEvents interval r stop = .ok events) :
    ∃ m nodes usage, specs r.pods = .ok m ∧
      events = containerEvents r (windowAt interval stop) m usage ++
        nodeEvents r (windowAt interval stop) nodes := by
  obtain ⟨m, hm, h⟩ := bind_eq_ok.mp h
  obtain ⟨u, -, h⟩ := bind_eq_ok.mp h
  exact ⟨m, _, u, hm, (Except.ok.inj h).symm⟩

/-- No two of them are of one container. -/
theorem sampleEvents_apart (h : sampleEvents interval r stop = .ok events)
    (container : ContainerIdentity) : events.Pairwise fun e e' =>
      e.windowFor container = none ∨ e'.windowFor container = none := by
  obtain ⟨m, nodes, usage, hm, rfl⟩ := sampleEvents_eq_ok h
  refine List.pairwise_append.mpr ⟨containerEvents_apart (fun _ _ => lookup_specs hm) container, ?_, ?_⟩
  · exact List.pairwise_of_forall_mem_list fun e he _ _ => .inl (windowFor_nodeEvents he)
  · exact fun _ _ e' he' => .inr (windowFor_nodeEvents he')

theorem windowFor_sampleEvents (h : sampleEvents interval r stop = .ok events) {e : MetricEvent}
    (he : e ∈ events) {w : TimeWindow} (hw : e.windowFor container = some w) :
    w = windowAt interval stop := by
  obtain ⟨m, nodes, usage, -, rfl⟩ := sampleEvents_eq_ok h
  rcases List.mem_append.mp he with he | he
  · obtain ⟨entry, -, hevent⟩ := List.mem_filterMap.mp he
    obtain ⟨s, -, rfl⟩ := Option.map_eq_some_iff.mp hevent
    exact (windowFor_event hw).2
  · rw [windowFor_nodeEvents he] at hw
    cases hw

/-- **A sample publishes at most one observation of a container**, and its window is the
interval up to the reading of the clock. -/
theorem windowsOf_sample (interval : Instant) (r : Readings) (stop : Instant)
    (container : ContainerIdentity) :
    windowsOf container (sample interval r stop).1 = [] ∨
      windowsOf container (sample interval r stop).1 = [windowAt interval stop] := by
  unfold sample
  cases h : sampleEvents interval r stop with
  | error err => exact .inl rfl
  | ok events =>
    show windowsOf container (publishAll r.publish events).1 = [] ∨
      windowsOf container (publishAll r.publish events).1 = [windowAt interval stop]
    have hsub := publishAll_sublist r.publish events
    have hlength : (windowsOf container (publishAll r.publish events).1).length ≤ 1 :=
      length_filterMap_le_one ((sampleEvents_apart h container).sublist hsub)
    have hall : ∀ w ∈ windowsOf container (publishAll r.publish events).1,
        w = windowAt interval stop := by
      intro w hw
      obtain ⟨e, he, hfor⟩ := List.mem_filterMap.mp hw
      exact windowFor_sampleEvents h (hsub.subset he) hfor
    rcases Nat.le_one_iff_eq_zero_or_eq_one.mp hlength with hzero | hone
    · exact .inl (List.length_eq_zero_iff.mp hzero)
    · obtain ⟨w, hw⟩ := List.length_eq_one_iff.mp hone
      rw [hw] at hall ⊢
      rw [hall w List.mem_cons_self]
      exact .inr rfl

end Metrics
end Agent
end KubeCost
