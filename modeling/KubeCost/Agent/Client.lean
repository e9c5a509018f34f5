/-
# The agent's client

`agent/transport/client.go`: `Client.connect` opens a stream, sends a hello,
acknowledges what the server's hello says, and then sends one batch at a time
and waits for its acknowledgement. A client is where `connect` is, with the
buffer; `history` records every published observation and `sent` every frame
handed to a stream. What a step can do is `Move` (`step_move`).
-/
import KubeCost.Agent.Buffer

namespace KubeCost
namespace Agent

/-- The parts of the configuration that the transport reads, as `config.FromEnv`
lets them through. -/
structure ClientConfig where
  tenantId : String
  clusterId : String
  agentInstanceId : String
  agentVersion : String
  kubernetesVersion : String
  queueCapacity : ℕ
  batchSize : ℕ
  tenantId_ne : tenantId ≠ ""
  clusterId_ne : clusterId ≠ ""
  agentInstanceId_ne : agentInstanceId ≠ ""
  batchSize_pos : 1 ≤ batchSize
  batchSize_le : batchSize ≤ queueCapacity

inductive Phase
  | disconnected
  /-- The hello is sent; the server's hello is awaited. -/
  | handshaking
  /-- At the top of the loop, before `Batch`. -/
  | ready
  /-- In `awaitAcknowledgement`. -/
  | awaiting (batchID : String)
deriving DecidableEq

structure Client where
  buffer : Buffer
  phase : Phase
  history : List Observation
  sent : List AgentToIngestion
deriving DecidableEq

namespace Client

/-- A new agent process. -/
def start (config : ClientConfig) : Client where
  buffer := Buffer.new config.queueCapacity
  phase := .disconnected
  history := []
  sent := []

/-- `Client.hello`. -/
def hello (config : ClientConfig) (client : Client) : AgentHello where
  tenantId := config.tenantId
  clusterId := config.clusterId
  agentInstanceId := config.agentInstanceId
  agentVersion := config.agentVersion
  kubernetesVersion := config.kubernetesVersion
  supportedProtocolVersions := [⟨1, 0⟩]
  resumeAfterSequence := client.buffer.persisted

/-- The batch that `connect` builds from the observations `Batch` returned. -/
def batchOf (C : Codec) (config : ClientConfig) (createdAt : Timestamp) (first : Observation)
    (rest : List Observation) : ObservationBatch :=
  let last := ((first :: rest).getLast (List.cons_ne_nil _ _)).sequence
  { batchId := config.clusterId ++ "-" ++ toString first.sequence ++ "-" ++ toString last
    firstSequence := first.sequence
    lastSequence := last
    createdAt := some createdAt
    payloadChecksum := batchChecksum C (first :: rest)
    observations := first :: rest }

/-- The sequences that an acknowledgement rejects for good. -/
def terminal (ack : BatchAcknowledgement) : List ℕ :=
  (ack.rejections.filter fun rejection => !rejection.retryable).map (·.sequence)

/-- `handleFrame`: an error frame ends the stream. -/
def handleFrame (client : Client) : IngestionToAgent → Client
  | .error _ => { client with phase := .disconnected }
  | _ => client

inductive Action
  | publish (clock : String) (event : Event)
  | close
  | dial
  | heartbeat
  /-- `Batch` returns observations and they are sent. -/
  | send (createdAt : Timestamp) (ok : Bool)
  /-- A frame comes from the stream. -/
  | receive (frame : IngestionToAgent)
  /-- The stream fails, or the context ends. -/
  | disconnect

/-- The first frame of a stream. -/
def handshake (client : Client) : IngestionToAgent → Client
  | .hello hello =>
    if hello.selectedProtocolVersion.major = 1 then
      { client with
        buffer := client.buffer.acknowledge hello.acceptedThroughSequence []
        phase := .ready }
    else { client with phase := .disconnected }
  | _ => { client with phase := .disconnected }

/-- A frame in `awaitAcknowledgement`: one for another batch is passed over. -/
def awaitAcknowledgement (client : Client) (batchID : String) : IngestionToAgent → Client
  | .acknowledgement ack =>
    if ack.batchId ≠ "" ∧ ack.batchId ≠ batchID then client
    else
      { client with
        buffer := client.buffer.acknowledge ack.persistedThroughSequence (terminal ack)
        phase := .ready }
  | frame => client.handleFrame frame

/-- One step of the agent; `none` when it is not possible. -/
def step (C : Codec) (config : ClientConfig) (client : Client) : Action → Option Client
  | .publish clock event =>
    match client.buffer.publish C clock event with
    | .done buffer observation =>
      some { client with buffer := buffer, history := client.history ++ [observation] }
    | .full => none
    | .invalid _ | .closed => some client
  | .close => some { client with buffer := client.buffer.close }
  | .dial =>
    match client.phase with
    | .disconnected =>
      some { client with
        phase := .handshaking
        sent := client.sent ++ [.hello (client.hello config)] }
    | _ => none
  | .heartbeat =>
    match client.phase with
    | .ready | .awaiting _ =>
      some { client with
        sent := client.sent ++ [.heartbeat ⟨client.buffer.next - 1, client.buffer.persisted⟩] }
    | _ => none
  | .send createdAt ok =>
    match client.phase, client.buffer.batch config.batchSize with
    | .ready, first :: rest =>
      let batch := batchOf C config createdAt first rest
      some { client with
        phase := if ok then .awaiting batch.batchId else .disconnected
        sent := client.sent ++ [.batch batch] }
    | _, _ => none
  | .receive frame =>
    match client.phase with
    | .handshaking => some (client.handshake frame)
    | .ready =>
      if client.buffer.batch config.batchSize = [] then some (client.handleFrame frame) else none
    | .awaiting batchID => some (client.awaitAcknowledgement batchID frame)
    | .disconnected => none
  | .disconnect => some { client with phase := .disconnected }

/-- The moves of the agent, by what they change. -/
inductive Move (C : Codec) (config : ClientConfig) (client : Client) : Action → Client → Prop
  | published {clock event buffer o} (result : client.buffer.publish C clock event = .done buffer o) :
    Move C config client (.publish clock event)
      { client with buffer := buffer, history := client.history ++ [o] }
  | closed : Move C config client .close { client with buffer := client.buffer.close }
  | phased {a phase} : Move C config client a { client with phase := phase }
  | dialled {a} :
    Move C config client a
      { client with
        phase := .handshaking
        sent := client.sent ++ [.hello (client.hello config)] }
  | beat {a beat} :
    Move C config client a { client with sent := client.sent ++ [.heartbeat beat] }
  | sent {createdAt ok first rest phase}
    (result : client.buffer.batch config.batchSize = first :: rest) :
    Move C config client (.send createdAt ok)
      { client with
        phase := phase
        sent := client.sent ++ [.batch (batchOf C config createdAt first rest)] }
  | greeted {hello} :
    Move C config client (.receive (.hello hello))
      { client with
        buffer := client.buffer.acknowledge hello.acceptedThroughSequence []
        phase := .ready }
  | acknowledged {ack batchID} (waits : client.phase = .awaiting batchID)
    (mine : ack.batchId = "" ∨ ack.batchId = batchID) :
    Move C config client (.receive (.acknowledgement ack))
      { client with
        buffer := client.buffer.acknowledge ack.persistedThroughSequence (terminal ack)
        phase := .ready }

variable {C : Codec} {config : ClientConfig} {client client' : Client}

theorem handleFrame_move {a : Action} (frame : IngestionToAgent) :
    Move C config client a (client.handleFrame frame) := by
  unfold handleFrame
  split
  · exact .phased
  · exact @Move.phased C config client a client.phase

/-- **Every step of the agent is one of the moves.** -/
theorem step_move {a : Action} (h : client.step C config a = some client') :
    Move C config client a client' := by
  have still : ∀ a, Move C config client a client := fun a =>
    @Move.phased C config client a client.phase
  cases a with
  | publish clock event =>
    simp only [step] at h
    split at h <;> cases h
    · exact .published ‹_›
    · exact still _
    · exact still _
  | close =>
    cases h
    exact .closed
  | dial =>
    simp only [step] at h
    split at h <;> cases h
    exact .dialled
  | heartbeat =>
    simp only [step] at h
    split at h <;> cases h
    · exact .beat
    · exact .beat
  | send createdAt ok =>
    simp only [step] at h
    split at h <;> cases h
    exact .sent ‹_›
  | receive frame =>
    simp only [step] at h
    split at h
    · cases h
      unfold handshake
      split
      · split
        · exact .greeted
        · exact .phased
      · exact .phased
    · split at h <;> cases h
      exact handleFrame_move frame
    · rename_i batchID hphase
      cases h
      unfold awaitAcknowledgement
      split
      · rename_i ack
        split
        · exact still _
        · rename_i hid
          refine .acknowledged hphase ?_
          by_contra hne
          exact hid (not_or.mp hne)
      · exact handleFrame_move _
    · cases h
  | disconnect =>
    cases h
    exact .phased

end Client

end Agent
end KubeCost
