import Gabriel.Client.Grpc

/-!
# The ZeroMQ client

`ZeroMQClient` has one DEALER socket, which its consumer closes and replaces when it has heard nothing from the server
for a while.  The tasks of the client are coroutines; a step runs one of them from where it is suspended to its next
`await`.  An exception in a task ends the client, since `launch_async` then cancels the other tasks.

The tokens of a producer are counted by an `asyncio` semaphore.  `reset_tokens` replaces the semaphore of a pool, so
that a producer loop may be suspended in `acquire` of one that the pool no longer has.
-/

namespace Gabriel.ZeroMQClient

open GrpcClient (Produced)

/-! ### Token pools -/

/-- `_TokenPool`.  The semaphore that it is made with raises a `ValueError` when it is released above its bound, those
that replace it do not. -/
structure TokenPool where
  maxTokens : Nat
  /-- `_sem._value`. -/
  value : Nat
  /-- `_sem` is the semaphore that the pool was made with. -/
  bounded : Bool
  /-- The number of times that `_sem` was replaced. -/
  resets : Nat
  deriving DecidableEq, Repr

namespace TokenPool

def new (numTokens : Nat) : TokenPool := { maxTokens := numTokens, value := numTokens, bounded := true, resets := 0 }

def resetTokens (pool : TokenPool) : TokenPool :=
  { pool with value := pool.maxTokens, bounded := false, resets := pool.resets + 1 }

/-- The check of `BoundedSemaphore.release`. -/
def full (pool : TokenPool) : Prop := pool.bounded ∧ pool.maxTokens ≤ pool.value

instance (pool : TokenPool) : Decidable pool.full := inferInstanceAs (Decidable (_ ∧ _))

end TokenPool

/-! ### The state of the client -/

/-- What ends the client. -/
inductive ClientError
  | cancelled
  /-- The consumer or a producer of the application raises. -/
  | callback
  | noEngineForInput
  /-- `StatusCode.Name` of a number without a name. -/
  | unknownStatus
  /-- A producer targets no engines. -/
  | noTargets
  /-- A producer targets engines that are not connected. -/
  | targetsNotConnected
  /-- The semaphore of a pool is released above its bound. -/
  | tooManyTokens
  /-- A token is returned for a producer that has no pool. -/
  | noTokenPool
  deriving DecidableEq, Repr

/-- Where a `_producer_handler` is suspended. -/
inductive ProducerPc
  /-- Waiting for the registration. -/
  | starting
  /-- At the head of its loop. -/
  | looping
  /-- Waiting for the producer to be resumed. -/
  | paused
  /-- Before the call of `acquire`. -/
  | acquiring
  /-- In `acquire` of the semaphore `sem`, which had no token. -/
  | waiting (sem : Nat)
  /-- In `acquire` of the semaphore `sem`, which has given it a token. -/
  | woken (sem : Nat)
  /-- Holding a token and waiting for the connection. -/
  | disconnected
  /-- Holding a token and awaiting the producer's task. -/
  | producing
  /-- Awaiting the send of an input. -/
  | sending
  | finished
  deriving DecidableEq, Repr

structure Producer where
  pc : ProducerPc := .starting
  frameId : Int := 1
  deriving DecidableEq, Repr

/-- Where `_registration_handler` is suspended. -/
inductive RegistrationPc
  | starting
  /-- Awaiting the send of a `Registration`. -/
  | sending
  /-- Waiting for `_registered_event`. -/
  | acknowledging
  /-- Waiting for `_reregistration_needed`. -/
  | watching
  | finished
  deriving DecidableEq, Repr

/-- What the client puts on its socket. -/
inductive Uplink
  | hello
  | heartbeat
  | message (msg : FromClient)
  deriving DecidableEq

/-- What the server sends to the client.  A `ToClient` without a message is serialized to the empty string, as a
heartbeat. -/
inductive Downlink
  | heartbeat
  | undecodable
  | message (msg : ToClient)
  deriving DecidableEq

/-- The attributes of `ZeroMQClient` and its tasks. -/
structure State where
  ended : Option ClientError := none
  /-- `_running`. -/
  running : Bool := true
  clientInfo : Option AnyProto
  /-- `_connected`. -/
  connected : Bool := true
  /-- `_registered_event`. -/
  registeredEvent : Bool := false
  /-- `_reregistration_needed`. -/
  reregistrationNeeded : Bool := false
  numTokensPerProducer : Nat := 0
  engineIds : Finset String := ∅
  pendingHeartbeat : Bool := false
  scheduleHeartbeat : Bool := false
  tokens : String → Option TokenPool := fun _ => none
  /-- The ids of `input_producers` when the client is launched. -/
  producerIds : List String
  /-- The `_producer_handler` of each producer. -/
  producers : String → Option Producer
  registration : RegistrationPc := .starting
  /-- `_consumer_handler` has not left its loop. -/
  consuming : Bool := true

/-- What a step puts on the socket, possibly after replacing it. -/
structure Output where
  reconnects : Bool := false
  sent : List Uplink := []

inductive Event
  /-- `stop` is called. -/
  | stop
  | cancel
  /-- The poll of the consumer times out. -/
  | pollTimeout
  /-- A message is received; `raises` tells whether the consumer of the application raises on it. -/
  | receive (msg : Downlink) (raises : Bool)
  /-- `_registration_handler` sends its first message. -/
  | register
  /-- The send of a `Registration` returns. -/
  | registrationSent
  /-- There is no acknowledgement in time, and the `Registration` is sent again. -/
  | retry
  /-- `_registration_handler` sees the acknowledgement. -/
  | acknowledged
  /-- `_registration_handler` sees that it has to register again. -/
  | reregister
  /-- `_heartbeat_loop` sees that a heartbeat is scheduled; `recent` tells whether the last one was sent recently. -/
  | heartbeat (recent : Bool)
  /-- A `_producer_handler` goes on after the registration. -/
  | start (p : String)
  /-- It takes the head of its loop; `wanted` tells whether the producer is still in `input_producers`, `paused` whether
  it is stopped. -/
  | loop (p : String) (wanted paused : Bool)
  /-- The producer has been resumed. -/
  | unpaused (p : String)
  /-- `acquire` is called. -/
  | getToken (p : String)
  /-- `get_token` times out. -/
  | tokenTimeout (p : String)
  /-- `get_token` returns; `targets` are the target engines of the producer. -/
  | gotToken (p : String) (targets : List String)
  /-- A `_producer_handler` sees that the client is connected again. -/
  | reconnected (p : String)
  /-- The producer's task has not produced in time. -/
  | produceTimeout (p : String)
  | produce (p : String) (out : Produced)
  /-- The send of an input returns. -/
  | inputSent (p : String)

namespace State

/-- A client with the producers `ps`. -/
def launch (clientInfo : Option AnyProto) (ps : List String) : State :=
  { clientInfo := clientInfo, producerIds := ps, producers := fun p => if p ∈ ps then some {} else none }

/-- The first exception ends the client. -/
def fail (s : State) (err : ClientError) : State := { s with ended := s.ended.or (some err) }

def setProducer (s : State) (p : String) (producer : Producer) : State :=
  { s with producers := Function.update s.producers p (some producer) }

def setPool (s : State) (p : String) (pool : TokenPool) : State :=
  { s with tokens := Function.update s.tokens p (some pool) }

/-- The handler of the producer `p` goes on to `pc`. -/
def goTo (s : State) (p : String) (pc : ProducerPc) : State :=
  { s with producers := Function.update s.producers p ((s.producers p).map fun producer => { producer with pc := pc }) }

/-- `_build_registration_message`. -/
def registrationMessage (s : State) : Uplink := .message (.registration (s.clientInfo.getD {}))

/-! ### Tokens -/

/-- `self._tokens[p].return_token()`: a loop that is suspended in `acquire` of the pool's semaphore gets the token. -/
def returnToken (s : State) (p : String) : State :=
  match s.tokens p with
  | none => s.fail .noTokenPool
  | some pool =>
    if pool.full then s.fail .tooManyTokens
    else if (s.producers p).map Producer.pc = some (.waiting pool.resets) then s.goTo p (.woken pool.resets)
    else s.setPool p { pool with value := pool.value + 1 }

/-- `reset_tokens` for all producers. -/
def resetTokens (s : State) : State := { s with tokens := fun p => (s.tokens p).map TokenPool.resetTokens }

/-! ### The consumer -/

/-- `_process_registered`. -/
def processRegistered (s : State) (numTokensPerProducer : Nat) (engineIds : Finset String) : State :=
  { s with numTokensPerProducer := numTokensPerProducer, engineIds := engineIds, registeredEvent := true }

/-- `_process_response`. -/
def processResponse (s : State) (wrapper : ResultWrapper) (raises : Bool) : State :=
  let giveBack := if wrapper.returnToken then s.returnToken wrapper.producerId else s
  match wrapper.result.status.code with
  | .success => if raises then s.fail .callback else giveBack
  | .noEngineForInput => s.fail .noEngineForInput
  | .unrecognized _ _ => s.fail .unknownStatus
  | _ => giveBack

/-- A message after the check of the connection. -/
def processMessage (s : State) (raises : Bool) : Downlink → State
  | .heartbeat => { s with pendingHeartbeat := false }
  | .undecodable => s
  | .message (.registered numTokensPerProducer engineIds) => s.processRegistered numTokensPerProducer engineIds
  | .message (.resultWrapper wrapper) => s.processResponse wrapper raises
  | .message (.engineIdsUpdate engineIds) => { s with engineIds := engineIds }

/-- The first message after a disconnection. -/
def noteConnection (s : State) : State :=
  if s.connected then s else { s.resetTokens with connected := true, reregistrationNeeded := true }

/-- `_consumer_handler` from the return of `recv` to the next `poll`. -/
def receive (s : State) (msg : Downlink) (raises : Bool) : State :=
  let s := s.noteConnection.processMessage raises msg
  { s with consuming := s.running }

/-- `_consumer_handler` after a poll that timed out. -/
def pollTimeout (s : State) : State × Output :=
  ({ s with connected := false, pendingHeartbeat := true, consuming := s.running },
    { reconnects := true, sent := [.heartbeat] })

/-! ### Registration and heartbeats -/

/-- The head of the loop of `_registration_handler`. -/
def register (s : State) : State × Output :=
  if s.running then ({ s with registration := .sending }, { sent := [s.registrationMessage] })
  else ({ s with registration := .finished }, {})

/-- `_registration_handler` after its wait for an acknowledgement. -/
def acknowledge (s : State) : Option (State × Output) :=
  if ¬ s.running then some ({ s with registration := .finished }, {})
  else if s.registeredEvent then some ({ s with registration := .watching }, {})
  else none

/-- `_registration_handler` after its wait for a reconnection. -/
def reregister (s : State) : Option (State × Output) :=
  if ¬ s.running then some ({ s with registration := .finished }, {})
  else if s.reregistrationNeeded then
    some ({ s with reregistrationNeeded := false, registeredEvent := false }.register)
  else none

/-- `_heartbeat_loop` from the return of its wait on. -/
def heartbeat (s : State) (recent : Bool) : State × Output :=
  let s := { s with scheduleHeartbeat := false }
  if recent ∨ s.connected = false ∨ s.pendingHeartbeat then (s, {})
  else ({ s with pendingHeartbeat := true }, { sent := [.heartbeat] })

/-! ### Producers -/

/-- `_producer_handler` after its wait for the registration. -/
def start (s : State) (p : String) : Option State :=
  if ¬ s.running then some (s.goTo p .finished)
  else if s.registeredEvent then some ((s.setPool p (.new s.numTokensPerProducer)).goTo p .looping)
  else none

/-- `acquire` of the semaphore of the pool. -/
def getToken (s : State) (p : String) : Option State := do
  let pool ← s.tokens p
  if 0 < pool.value then
    some ((s.setPool p { pool with value := pool.value - 1 }).goTo p (.woken pool.resets))
  else some (s.goTo p (.waiting pool.resets))

/-- `get_token` is cancelled by its timeout; a token that it already has goes back to its semaphore. -/
def tokenTimeout (s : State) (p : String) (pc : ProducerPc) : Option State :=
  let s' := { s with scheduleHeartbeat := true }.goTo p .looping
  match pc with
  | .acquiring | .waiting _ => some s'
  | .woken sem => do
    let pool ← s.tokens p
    if sem = pool.resets then some (s'.setPool p { pool with value := pool.value + 1 }) else some s'
  | _ => none

/-- `_producer_handler` with a token in its hands. -/
def gotToken (s : State) (p : String) (targets : List String) : State :=
  if targets = [] then ((s.returnToken p).goTo p .finished).fail .noTargets
  else if s.connected then s.goTo p .producing
  else s.goTo p .disconnected

/-- The token that was taken for an input goes back, and the handler goes on with its loop. -/
def skip (s : State) (p : String) : State := (s.returnToken p).goTo p .looping

/-- `_producer_handler` from the return of the producer's task to its next `await`.  Only the default frame is
serialized to the empty string. -/
def produce (s : State) (p : String) (producer : Producer) : Produced → State × Output
  | .raises => (s.fail .callback, {})
  | .nothing => (s.skip p, {})
  | .frame frame checked targets =>
    if frame = {} then (s.skip p, {})
    else if ∀ id ∈ checked, id ∈ s.engineIds then
      (s.setProducer p { pc := .sending, frameId := producer.frameId + 1 },
        { sent := [.message (.input
          { frameId := producer.frameId, producerId := p, targetEngineIds := targets, inputFrame := frame })] })
    else (s.fail .targetsNotConnected, {})

/-- A step of the handler of the producer `p`, which is suspended at `producer.pc`. -/
def stepProducer (s : State) (p : String) (producer : Producer) : Event → Option (State × Output)
  | .start _ => if producer.pc = .starting then (s.start p).map (·, {}) else none
  | .loop _ wanted paused =>
    if producer.pc = .looping then
      let pc := if s.running ∧ wanted then (if paused then .paused else .acquiring) else .finished
      some (s.goTo p pc, {})
    else none
  | .unpaused _ => if producer.pc = .paused then some (s.goTo p .acquiring, {}) else none
  | .getToken _ => if producer.pc = .acquiring then (s.getToken p).map (·, {}) else none
  | .tokenTimeout _ => (s.tokenTimeout p producer.pc).map (·, {})
  | .gotToken _ targets =>
    match producer.pc with
    | .woken _ => some (s.gotToken p targets, {})
    | _ => none
  | .reconnected _ =>
    if producer.pc = .disconnected then
      if ¬ s.running then some (s.goTo p .finished, {})
      else if s.connected then some (s.goTo p .producing, {})
      else none
    else none
  | .produceTimeout _ =>
    if producer.pc = .producing then some ({ s.skip p with scheduleHeartbeat := true }, {}) else none
  | .produce _ out => if producer.pc = .producing then some (s.produce p producer out) else none
  | .inputSent _ => if producer.pc = .sending then some (s.goTo p .looping, {}) else none
  | _ => none

end State

/-- The producer whose handler takes a step. -/
def Event.producer : Event → Option String
  | .start p | .loop p _ _ | .unpaused p | .getToken p | .tokenTimeout p | .gotToken p _ | .reconnected p
  | .produceTimeout p | .produce p _ | .inputSent p => some p
  | _ => none

namespace State

/-- A step of a task other than the handlers of the producers. -/
def stepTask (s : State) : Event → Option (State × Output)
  | .stop => some ({ s with running := false }, {})
  | .cancel => some (s.fail .cancelled, {})
  | .pollTimeout => if s.consuming then some s.pollTimeout else none
  | .receive msg raises => if s.consuming then some (s.receive msg raises, {}) else none
  | .register => if s.registration = .starting then some s.register else none
  | .registrationSent =>
    if s.registration = .sending then some ({ s with registration := .acknowledging }, {}) else none
  | .retry =>
    if s.registration = .acknowledging then
      some ({ s with registration := .sending }, { sent := [s.registrationMessage] })
    else none
  | .acknowledged => if s.registration = .acknowledging then s.acknowledge else none
  | .reregister => if s.registration = .watching then s.reregister else none
  | .heartbeat recent => if s.scheduleHeartbeat then some (s.heartbeat recent) else none
  | _ => none

def step (s : State) (ev : Event) : Option (State × Output) :=
  if s.ended = none then
    match ev.producer with
    | some p => (s.producers p).bind fun producer => s.stepProducer p producer ev
    | none => s.stepTask ev
  else none

end State

end Gabriel.ZeroMQClient
