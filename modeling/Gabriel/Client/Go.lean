import Gabriel.Lib.Machine
import Gabriel.Protocol
import Mathlib.Data.Finset.Basic

/-!
# The Go client

The sessions of the Go `GrpcClient`.  `runSession` starts a `producerHandler` for each input producer, a
`consumerHandler` and a `registrationHandler`, and waits for all of them; `Launch` then reconnects or returns.  The
handlers are goroutines: a step runs one of them from one operation on shared or external state to the next.

The context of a session is done when the session or the context of `Launch` is cancelled.  The waits for
`connectedCond` and for a paused producer do not look at it, the other waits do.  A call to gRPC may fail at any time;
what is said about the server is that a result with `ReturnToken` answers an input that has not been answered so yet.
-/

namespace Gabriel.GoClient

/-! ### Token pools -/

/-- A `tokenPool`, with the weight that its `semaphore.Weighted` has given out. -/
structure TokenPool where
  maxTokens : Nat
  acquired : Nat := 0
  deriving DecidableEq, Repr

namespace TokenPool

/-- `GetToken`, which has no result while all tokens are taken. -/
def getToken (pool : TokenPool) : Option TokenPool :=
  if pool.acquired < pool.maxTokens then some { pool with acquired := pool.acquired + 1 } else none

/-- `ReturnToken`, which has no result where `Release` panics because it releases more than is held. -/
def returnToken (pool : TokenPool) : Option TokenPool :=
  if 0 < pool.acquired then some { pool with acquired := pool.acquired - 1 } else none

end TokenPool

/-! ### The producer handlers -/

/-- Where a `producerHandler` is. -/
inductive HandlerPc
  /-- In `connectedCond.Wait`. -/
  | waiting
  /-- In `openStream`. -/
  | opening
  /-- Before it reads `client.tokenPool`. -/
  | fetching
  /-- At the check of its context. -/
  | looping
  /-- At the call of `IsRunning`. -/
  | checking
  /-- In `waitForRunning`. -/
  | pausing
  /-- In `GetToken`. -/
  | acquiring
  /-- Holding a token, in the `select` of its context and the producer's channel. -/
  | producing
  /-- In `Send`. -/
  | sending (input : Input)
  | finished
  deriving DecidableEq, Repr

/-- An input that was sent, with the pool that its token is from. -/
structure Sent where
  frameId : Int
  pool : Nat
  deriving DecidableEq, Repr

/-- A call of `ReturnToken`: the pool that the token is from and the pool that it is returned to. -/
structure Returned where
  acquired : Nat
  released : Nat
  deriving DecidableEq, Repr

/-- An `InputProducer`, the pools under its name and the variables of its handler. -/
structure Producer where
  running : Bool := true
  targetEngineIds : List String
  pc : HandlerPc := .waiting
  /-- The pools that were made for the producer, of which `client.tokenPool` has the last one. -/
  pools : List TokenPool := []
  /-- The variable `tokenPool` of the handler. -/
  tokenPool : Option Nat := none
  frameId : Int := 1
  /-- The inputs of the session whose tokens the server has not returned. -/
  outstanding : List Sent := []
  /-- The tokens that were returned in the session. -/
  returned : List Returned := []
  deriving DecidableEq, Repr

/-- How a step of a handler ends: with nothing to report, with an `errDisconnected` and the end of the session, with
another error and the end of the client, or in a panic. -/
inductive Outcome
  | quiet
  | disconnected
  | fatal (err : String)
  | panic
  deriving DecidableEq, Repr

inductive HandlerEvent
  /-- `connectedCond.Wait` returns. -/
  | connected
  | openStream (ok : Bool)
  | fetch
  | checkContext
  | checkRunning
  /-- `waitForRunning` returns. -/
  | resumed
  | getToken
  /-- A wait ends because the context is done. -/
  | done
  /-- The producer's channel has a frame, or is closed. -/
  | produce (frame : Option InputFrame)
  | send (ok : Bool)
  deriving DecidableEq, Repr

/-- What a `producerHandler` reads of the client. -/
structure View where
  ctxDone : Bool
  connected : Bool
  engineIds : Finset String

namespace Producer

/-- `client.tokenPool[producer.Name]`. -/
def current (producer : Producer) : Option Nat :=
  match producer.pools.length with
  | 0 => none
  | n + 1 => some n

def newPool (producer : Producer) (maxTokens : Nat) : Producer :=
  { producer with pools := producer.pools ++ [{ maxTokens := maxTokens }] }

def getToken (producer : Producer) (pool : Nat) : Option Producer :=
  ((producer.pools[pool]?).bind TokenPool.getToken).map fun p => { producer with pools := producer.pools.set pool p }

/-- A token of the pool `acquired` is returned to the pool `released`. -/
def returnToken (producer : Producer) (acquired released : Nat) : Option Producer :=
  ((producer.pools[released]?).bind TokenPool.returnToken).map fun p =>
    { producer with
      pools := producer.pools.set released p
      returned := producer.returned ++ [⟨acquired, released⟩] }

/-- The token for a frame that is not sent is returned. -/
def skip (producer : Producer) (pool : Nat) : Producer × Outcome :=
  match producer.returnToken pool pool with
  | none => (producer, .panic)
  | some producer => ({ producer with pc := .looping }, .quiet)

/-- What the handler of the producer `name` does with what the channel gives it. -/
def produce (producer : Producer) (name : String) (engineIds : Finset String) (pool : Nat) :
    Option InputFrame → Producer × Outcome
  | none => producer.skip pool
  | some frame =>
    -- the frame without any field has size zero
    if frame = {} then producer.skip pool
    else
      match producer.targetEngineIds.find? (· ∉ engineIds) with
      | some engineId =>
        ({ producer with
            pc := .finished
            frameId := producer.frameId + 1 },
          .fatal ("engine " ++ engineId ++ " not connected to the server"))
      | none =>
        ({ producer with
            pc := .sending
              { frameId := producer.frameId
                producerId := name
                targetEngineIds := producer.targetEngineIds
                inputFrame := frame }
            frameId := producer.frameId + 1
            outstanding := producer.outstanding ++ [⟨producer.frameId, pool⟩] },
          .quiet)

/-- A step of the `producerHandler` of the producer `name`.  The variable `tokenPool` is nil if there was no pool under
the name, and its use then a panic. -/
def stepHandler (name : String) (view : View) (producer : Producer) (ev : HandlerEvent) :
    Option (Producer × Outcome) :=
  match ev, producer.pc with
  | .connected, .waiting => if view.connected then some ({ producer with pc := .opening }, .quiet) else none
  | .openStream ok, .opening =>
    some (if ok then ({ producer with pc := .fetching }, .quiet)
      else ({ producer with pc := .finished }, .disconnected))
  | .fetch, .fetching =>
    some ({ producer with
      pc := .looping
      tokenPool := producer.current
      frameId := 1 }, .quiet)
  | .checkContext, .looping =>
    some ({ producer with pc := if view.ctxDone then .finished else .checking }, .quiet)
  | .checkRunning, .checking =>
    some ({ producer with pc := if producer.running then .acquiring else .pausing }, .quiet)
  | .resumed, .pausing => if producer.running then some ({ producer with pc := .acquiring }, .quiet) else none
  | .getToken, .acquiring =>
    match producer.tokenPool with
    | none => some (producer, .panic)
    | some pool => (producer.getToken pool).map fun producer => ({ producer with pc := .producing }, .quiet)
  | .done, .acquiring | .done, .producing =>
    if view.ctxDone then some ({ producer with pc := .finished }, .quiet) else none
  | .produce frame, .producing =>
    match producer.tokenPool with
    | none => some (producer, .panic)
    | some pool => some (producer.produce name view.engineIds pool frame)
  | .send ok, .sending _ =>
    some (if ok then ({ producer with pc := .looping }, .quiet)
      else ({ producer with pc := .finished }, .disconnected))
  | _, _ => none

/-- The producer at the start of a session. -/
def restart (producer : Producer) : Producer :=
  { producer with
    pc := .waiting
    tokenPool := none
    frameId := 1
    outstanding := []
    returned := [] }

end Producer

/-! ### The client -/

/-- Where `consumerHandler` is. -/
inductive ConsumerPc
  /-- At the check of its context. -/
  | looping
  /-- In `Recv`. -/
  | receiving
  /-- In `processRegistered`, with new pools to be made for `todo`. -/
  | registering (todo : List String)
  | finished
  deriving DecidableEq, Repr

/-- Where `registrationHandler` is. -/
inductive RegistrationPc
  /-- In `sendControlMsg`. -/
  | sending
  /-- In the `select` of its context and the ticker. -/
  | ticking
  | finished
  deriving DecidableEq, Repr

/-- Where the goroutine of `Launch` is. -/
inductive LaunchPc
  /-- In `runSession`. -/
  | session
  /-- In `reconnect`. -/
  | reconnecting
  | stopped
  deriving DecidableEq, Repr

/-- The error of `Recv`: the end of the stream, an error with the status code `Canceled`, or another one. -/
inductive RecvError
  | eof
  | canceled
  | other
  deriving DecidableEq, Repr

inductive ConsumerEvent
  | checkContext
  | receive (msg : ToClient)
  | recvError (err : RecvError)
  /-- The next assignment in `processRegistered`. -/
  | register
  deriving DecidableEq

inductive RegistrationEvent
  | send (ok : Bool)
  | tick
  /-- The context is done. -/
  | done
  deriving DecidableEq, Repr

inductive UserEvent
  | pause (name : String)
  | resume (name : String)
  | changeTargetEngines (name : String) (targetEngineIds : List String)
  /-- The context of `Launch` is cancelled. -/
  | cancel
  deriving DecidableEq, Repr

inductive LaunchEvent
  /-- `runSession` returns. -/
  | endSession
  | connect (ok : Bool)
  /-- `reconnect` returns because the context is done. -/
  | giveUp
  deriving DecidableEq, Repr

inductive Action
  | handler (name : String) (ev : HandlerEvent)
  | consumer (ev : ConsumerEvent)
  | registration (ev : RegistrationEvent)
  | user (ev : UserEvent)
  | launch (ev : LaunchEvent)
  deriving DecidableEq

structure State where
  /-- The names of `inputProducers`. -/
  names : List String
  producers : String → Producer
  consumer : ConsumerPc := .looping
  registration : RegistrationPc := .sending
  launch : LaunchPc := .session
  connected : Bool := false
  numTokensPerProducer : Nat := 0
  engineIds : Finset String := ∅
  /-- `sessCancel` was called. -/
  sessCancelled : Bool := false
  /-- The context of `Launch` is done. -/
  launchCancelled : Bool := false
  disconnected : Bool := false
  fatalErr : Option String := none
  /-- A goroutine has panicked, which ends the process. -/
  panicked : Bool := false

namespace State

/-- The context of the session is done. -/
def ctxDone (s : State) : Bool := s.sessCancelled || s.launchCancelled

def view (s : State) : View := { ctxDone := s.ctxDone, connected := s.connected, engineIds := s.engineIds }

def setProducer (s : State) (name : String) (producer : Producer) : State :=
  { s with producers := Function.update s.producers name producer }

/-- The errors that the handlers send to `sessErrCh`, which has room for all of them, and how they cancel. -/
def report (s : State) : Outcome → State
  | .quiet => s
  | .disconnected =>
    { s with
      disconnected := true
      sessCancelled := true }
  | .fatal err =>
    { s with
      fatalErr := some err
      launchCancelled := true }
  | .panic => { s with panicked := true }

def stepHandler (s : State) (name : String) (ev : HandlerEvent) : Option State :=
  ((s.producers name).stepHandler name s.view ev).map fun r => (s.setProducer name r.1).report r.2

/-- The last part of `processResult`, for a result of the input `frameId` of the producer `name`.  There is no result
if no such input is outstanding. -/
def returnToken (s : State) (name : String) (frameId : Int) : Option State :=
  match (s.producers name).current with
  | none => some { s with consumer := .looping }
  | some pool =>
    ((s.producers name).outstanding.find? (·.frameId = frameId)).map fun sent =>
      match (s.producers name).returnToken sent.pool pool with
      | none => s.report .panic
      | some producer =>
        { s.setProducer name { producer with outstanding := producer.outstanding.erase sent } with
          consumer := .looping }

/-- What `consumerHandler` does with a message. -/
def receive (s : State) : ToClient → Option State
  | .registered numTokensPerProducer engineIds =>
    some { s with
      numTokensPerProducer := numTokensPerProducer
      engineIds := s.engineIds ∪ engineIds
      consumer := .registering s.names }
  | .resultWrapper wrapper =>
    if wrapper.returnToken then s.returnToken wrapper.producerId wrapper.result.frameId
    else some { s with consumer := .looping }
  | .engineIdsUpdate engineIds =>
    some { s with
      engineIds := engineIds
      consumer := .looping }

def stepConsumer (s : State) (ev : ConsumerEvent) : Option State :=
  match ev, s.consumer with
  | .checkContext, .looping => some { s with consumer := if s.ctxDone then .finished else .receiving }
  | .receive msg, .receiving => s.receive msg
  | .recvError err, .receiving =>
    some ({ s with consumer := .finished }.report
      (match err with
        | .eof | .other => .disconnected
        | .canceled => .quiet))
  | .register, .registering (name :: todo) =>
    some { s.setProducer name ((s.producers name).newPool s.numTokensPerProducer) with consumer := .registering todo }
  | .register, .registering [] =>
    some { s with
      connected := true
      consumer := .looping }
  | _, _ => none

def stepRegistration (s : State) (ev : RegistrationEvent) : Option State :=
  match ev, s.registration with
  | .send ok, .sending =>
    some (if ok then { s with registration := .ticking }
      else { s with registration := .finished }.report .disconnected)
  | .tick, .ticking => some { s with registration := if s.connected then .finished else .sending }
  | .done, .ticking => if s.ctxDone then some { s with registration := .finished } else none
  | _, _ => none

def stepUser (s : State) : UserEvent → State
  | .pause name => s.setProducer name { s.producers name with running := false }
  | .resume name => s.setProducer name { s.producers name with running := true }
  | .changeTargetEngines name ids => s.setProducer name { s.producers name with targetEngineIds := ids }
  | .cancel => { s with launchCancelled := true }

/-- All handlers of the session have returned. -/
def allFinished (s : State) : Prop :=
  s.consumer = .finished ∧ s.registration = .finished ∧ ∀ name ∈ s.names, (s.producers name).pc = .finished

instance (s : State) : Decidable s.allFinished := inferInstanceAs (Decidable (_ ∧ _ ∧ _))

/-- `Launch` returns and cancels its context. -/
def stop (s : State) : State :=
  { s with
    launch := .stopped
    launchCancelled := true }

/-- `runSession` returns to the loop of `Launch`. -/
def endSession (s : State) : State :=
  if s.fatalErr.isSome || s.launchCancelled || !s.disconnected then { s with sessCancelled := true }.stop
  else
    { s with
      sessCancelled := true
      launch := .reconnecting }

/-- `runSession` is called. -/
def newSession (s : State) : State :=
  { names := s.names
    producers := fun name => (s.producers name).restart
    numTokensPerProducer := s.numTokensPerProducer
    launchCancelled := s.launchCancelled }

def stepLaunch (s : State) (ev : LaunchEvent) : Option State :=
  match ev, s.launch with
  | .endSession, .session => if s.allFinished then some s.endSession else none
  | .connect ok, .reconnecting => some (if ok then s.newSession else s)
  | .giveUp, .reconnecting => if s.launchCancelled then some s.stop else none
  | _, _ => none

def step (s : State) (a : Action) : Option State :=
  if s.panicked then none
  else
    match a with
    | .handler name ev => if s.launch = .session ∧ name ∈ s.names then s.stepHandler name ev else none
    | .consumer ev => if s.launch = .session then s.stepConsumer ev else none
    | .registration ev => if s.launch = .session then s.stepRegistration ev else none
    | .user ev => some (s.stepUser ev)
    | .launch ev => s.stepLaunch ev

end State

/-- What `NewInputProducer` is given. -/
structure InputProducer where
  name : String
  targetEngineIds : List String
  deriving DecidableEq, Repr

/-- The input producers that `NewGrpcClient` accepts. -/
structure Settings where
  inputProducers : List InputProducer
  names_nodup : (inputProducers.map InputProducer.name).Nodup
  targets_ne_nil : ∀ producer ∈ inputProducers, producer.targetEngineIds ≠ []

namespace Settings

variable (settings : Settings)

/-- The target engines of the producer `name`. -/
def targets (name : String) : List String :=
  ((settings.inputProducers.find? (·.name = name)).map InputProducer.targetEngineIds).getD []

/-- The client when `Launch` has connected to the server. -/
def init : State :=
  { names := settings.inputProducers.map InputProducer.name
    producers := fun name => { targetEngineIds := settings.targets name } }

/-- A client with its reconnections. -/
def machine : Machine State Action where
  init := settings.init
  step := State.step

end Settings

end Gabriel.GoClient
