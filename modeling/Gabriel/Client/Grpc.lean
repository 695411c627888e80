import Mathlib.Logic.Function.Basic
import Mathlib.Data.Finset.Basic
import Gabriel.Protocol

/-!
# The gRPC client

One session of `GrpcClient`, that is one call of `_run_session`: a control stream, on which the client registers and
gets its results, and for each input producer a task with a stream of its own.  The tasks are coroutines; a step runs
one of them from where it is suspended to its next `await`.  An exception in a task ends the session, since
`_run_session` then cancels the other tasks and closes the channel.
-/

namespace Gabriel.GrpcClient

/-! ### Token pools -/

/-- `_TokenPool`: an `asyncio.BoundedSemaphore` with its bound. -/
structure TokenPool where
  maxTokens : Nat
  value : Nat
  value_le : value ≤ maxTokens

namespace TokenPool

def new (numTokens : Nat) : TokenPool := ⟨numTokens, numTokens, Nat.le_refl _⟩

/-- `return_token`: `BoundedSemaphore.release` raises a `ValueError` at the bound. -/
def returnToken (pool : TokenPool) : Option TokenPool :=
  if h : pool.value < pool.maxTokens then some ⟨pool.maxTokens, pool.value + 1, h⟩ else none

/-- `get_token`: it does not return while there is no token. -/
def getToken (pool : TokenPool) : Option TokenPool :=
  if 0 < pool.value then
    some ⟨pool.maxTokens, pool.value - 1, Nat.le_trans (Nat.sub_le _ _) pool.value_le⟩
  else none

end TokenPool

/-! ### The state of a session -/

/-- What ends a session. -/
inductive SessionError
  /-- `_DisconnectedError`. -/
  | disconnected
  | cancelled
  /-- The consumer or a producer of the application raises. -/
  | callback
  /-- The server had no engine for an input. -/
  | noEngineForInput
  /-- `StatusCode.Name` of a number without a name. -/
  | unknownStatus
  /-- A producer targets engines that are not connected. -/
  | targetsNotConnected
  /-- The semaphore of a pool is released above its bound. -/
  | tooManyTokens
  /-- A token is returned for a producer that has no pool. -/
  | noTokenPool
  deriving DecidableEq, Repr

inductive Status
  | running
  | ended (err : Option SessionError)
  deriving DecidableEq, Repr

/-- Where a `_producer_handler` is suspended. -/
inductive ProducerPc
  /-- Waiting for the registration. -/
  | starting
  /-- At the head of its loop. -/
  | looping
  /-- Waiting for the producer to be resumed, or awaiting `get_token`. -/
  | acquiring
  /-- Holding a token and awaiting `produce`. -/
  | producing
  /-- Awaiting the write of an input. -/
  | writing
  | finished
  deriving DecidableEq, Repr

structure Producer where
  pc : ProducerPc := .starting
  frameId : Int := 1
  deriving DecidableEq, Repr

/-- The attributes of `GrpcClient` during a session, and its tasks. -/
structure Session where
  status : Status := .running
  /-- `_running`. -/
  running : Bool := true
  clientInfo : Option AnyProto
  /-- `_num_tokens_per_producer`, once `_registered_event` is set. -/
  registered : Option Nat := none
  engineIds : Finset String := ∅
  tokens : String → Option TokenPool := fun _ => none
  /-- The ids of `input_producers` when the session starts. -/
  producerIds : List String
  /-- The `_producer_handler` of each producer. -/
  producers : String → Option Producer
  /-- `_registration_handler` has not seen the registration yet. -/
  registering : Bool := true
  /-- `_consumer_handler` awaits a message. -/
  reading : Bool := true

/-- The streams of a session. -/
inductive ClientStream
  | control
  | producer (p : String)
  deriving DecidableEq, Repr

/-- What a step puts on the streams. -/
inductive Output
  | nothing
  /-- The stream of a producer is opened. -/
  | openStream (p : String)
  | write (stream : ClientStream) (msg : FromClient)

/-- The outcome of `produce`.  The targets of a producer are read twice, for the check and for the message, and may
be changed by another thread in between. -/
inductive Produced
  | raises
  | nothing
  | frame (frame : InputFrame) (checked targets : List String)

inductive Event
  /-- `stop` is called. -/
  | stop
  /-- The registration is sent, for the first time or again after a timeout. -/
  | register
  /-- `_registration_handler` sees the registration. -/
  | acknowledged
  /-- A message is read; `raises` tells whether the consumer of the application raises on it. -/
  | read (msg : ToClient) (raises : Bool)
  /-- A `_producer_handler` goes on after the registration. -/
  | openStream (p : String)
  /-- It takes the head of its loop; `wanted` tells whether the producer is still in `input_producers`. -/
  | loop (p : String) (wanted : Bool)
  | getToken (p : String)
  | produce (p : String) (out : Produced)
  /-- The write of an input returns. -/
  | written (p : String)
  /-- A read or a write fails, or the server closes the control stream. -/
  | disconnect
  | cancel
  /-- All tasks have returned. -/
  | finish

namespace Session

/-- The session of a client with the producers `ps`. -/
def start (clientInfo : Option AnyProto) (ps : List String) : Session :=
  { clientInfo := clientInfo, producerIds := ps, producers := fun p => if p ∈ ps then some {} else none }

def fail (s : Session) (err : SessionError) : Session := { s with status := .ended (some err) }

def setProducer (s : Session) (p : String) (producer : Producer) : Session :=
  { s with producers := Function.update s.producers p (some producer) }

def setPool (s : Session) (p : String) (pool : TokenPool) : Session :=
  { s with tokens := Function.update s.tokens p (some pool) }

/-- `_build_registration_message`. -/
def registrationMessage (s : Session) : FromClient := .registration (s.clientInfo.getD {})

/-- `self._tokens[p].return_token()`. -/
def returnToken (s : Session) (p : String) : Except SessionError Session :=
  match s.tokens p with
  | none => .error .noTokenPool
  | some pool =>
    match pool.returnToken with
    | none => .error .tooManyTokens
    | some pool => .ok (s.setPool p pool)

/-- `_process_registered`. -/
def processRegistered (s : Session) (numTokensPerProducer : Nat) (engineIds : Finset String) : Session :=
  { s with registered := some numTokensPerProducer, engineIds := engineIds }

/-- `_process_response`. -/
def processResponse (s : Session) (wrapper : ResultWrapper) (raises : Bool) : Except SessionError Session :=
  let giveBack := if wrapper.returnToken then s.returnToken wrapper.producerId else .ok s
  match wrapper.result.status.code with
  | .success => if raises then .error .callback else giveBack
  | .noEngineForInput => .error .noEngineForInput
  | .unrecognized _ _ => .error .unknownStatus
  | _ => giveBack

/-- A message in `_consumer_handler`. -/
def processMessage (s : Session) (raises : Bool) : ToClient → Except SessionError Session
  | .registered numTokensPerProducer engineIds => .ok (s.processRegistered numTokensPerProducer engineIds)
  | .resultWrapper wrapper => s.processResponse wrapper raises
  | .engineIdsUpdate engineIds => .ok { s with engineIds := engineIds }

/-- `_consumer_handler` from the return of a read to the next one, or to the end of its loop. -/
def read (s : Session) (msg : ToClient) (raises : Bool) : Session :=
  match s.processMessage raises msg with
  | .error err => s.fail err
  | .ok s => { s with reading := s.running }

/-- `_producer_handler` from the registration on. -/
def openStream (s : Session) (p : String) (producer : Producer) : Option (Session × Output) :=
  if s.running then
    s.registered.map fun n =>
      ((s.setPool p (.new n)).setProducer p { producer with pc := .looping }, .openStream p)
  else some (s.setProducer p { producer with pc := .finished }, .nothing)

/-- A frame that was produced goes back to the pool: the producer had none, or an empty one. -/
def skip (s : Session) (p : String) (producer : Producer) : Session :=
  match s.returnToken p with
  | .error err => s.fail err
  | .ok s => s.setProducer p { producer with pc := .looping }

/-- `_producer_handler` from the return of `produce` to its next `await`.  Only the default frame is serialized to
the empty string. -/
def produce (s : Session) (p : String) (producer : Producer) : Produced → Session × Output
  | .raises => (s.fail .callback, .nothing)
  | .nothing => (s.skip p producer, .nothing)
  | .frame frame checked targets =>
    if frame = {} then (s.skip p producer, .nothing)
    else if ∀ id ∈ checked, id ∈ s.engineIds then
      (s.setProducer p { pc := .writing, frameId := producer.frameId + 1 },
        .write (.producer p) (.input
          { frameId := producer.frameId, producerId := p, targetEngineIds := targets, inputFrame := frame }))
    else (s.fail .targetsNotConnected, .nothing)

/-- A step of a session that has not ended. -/
def stepRunning (s : Session) : Event → Option (Session × Output)
  | .stop => some ({ s with running := false }, .nothing)
  | .register => if s.registering then some (s, .write .control s.registrationMessage) else none
  | .acknowledged =>
    if s.registered.isSome ∨ ¬ s.running then some ({ s with registering := false }, .nothing) else none
  | .read msg raises => if s.reading then some (s.read msg raises, .nothing) else none
  | .openStream p => do
    let producer ← s.producers p
    if producer.pc = .starting then s.openStream p producer else none
  | .loop p wanted => do
    let producer ← s.producers p
    if producer.pc = .looping then
      let pc := if s.running ∧ wanted then .acquiring else .finished
      some (s.setProducer p { producer with pc := pc }, .nothing)
    else none
  | .getToken p => do
    let producer ← s.producers p
    if producer.pc = .acquiring then
      let pool ← s.tokens p
      let pool ← pool.getToken
      some ((s.setPool p pool).setProducer p { producer with pc := .producing }, .nothing)
    else none
  | .produce p out => do
    let producer ← s.producers p
    if producer.pc = .producing then some (s.produce p producer out) else none
  | .written p => do
    let producer ← s.producers p
    if producer.pc = .writing then some (s.setProducer p { producer with pc := .looping }, .nothing) else none
  | .disconnect => some (s.fail .disconnected, .nothing)
  | .cancel => some (s.fail .cancelled, .nothing)
  | .finish =>
    if s.reading = false ∧ s.registering = false ∧
        ∀ p ∈ s.producerIds, (s.producers p).map Producer.pc = some .finished then
      some ({ s with status := .ended none }, .nothing)
    else none

def step (s : Session) (ev : Event) : Option (Session × Output) :=
  if s.status = .running then s.stepRunning ev else none

end Session

end Gabriel.GrpcClient
