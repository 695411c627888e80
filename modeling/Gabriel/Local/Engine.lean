import Gabriel.Lib.Machine
import Gabriel.Server.State

/-!
# A single engine with a local server

`LocalEngine` runs one engine in a process of its own, connected to `_LocalServer` by a pipe.  Inputs that
`_send_to_engine` accepts wait in one queue.  `_engine_comm` takes them out one at a time: it sends two messages over
the pipe, waits for the event `_result_ready`, clears it, reads one message and passes it on to the client.  The reads
and writes of the pipe run in an executor, the event is set by the selector of the event loop, and the engine process
runs in parallel to all of this.

The messages on the pipe are of any type `β` with serialisation functions as protobuf has them (`Codec`); the pipe is a
FIFO of whole messages.  The executor's write and the continuation of the coroutine are one step, since nothing that
happens in between can depend on them.
-/

namespace Gabriel

/-- `SerializeToString` and `ParseFromString` of the messages on the pipe. -/
structure Codec (β : Type) where
  ofFromClient : FromClient → β
  toFromClient : β → Option FromClient
  ofAny : AnyProto → β
  toAny : β → Option AnyProto
  /-- No bytes at all. -/
  isEmpty : β → Bool
  ofResult : Result → β
  toResult : β → Option Result
  toFromClient_of : ∀ m, toFromClient (ofFromClient m) = some m
  toAny_of : ∀ a, toAny (ofAny a) = some a
  eq_default_of_isEmpty : ∀ a, isEmpty (ofAny a) = true → a = {}
  toResult_of : ∀ r, toResult (ofResult r) = some r

namespace LocalEngine

/-! ### The engine -/

/-- The field `status` of what an engine returns; other values are given by the `repr` of their type. -/
inductive EngineStatus
  | status (status : Status)
  | other (type : String)
  deriving DecidableEq, Repr

/-- The field `payload` of what an engine returns. -/
inductive EnginePayload
  | none
  | str (payload : String)
  | bytes (payload : List UInt8)
  | any (payload : AnyProto)
  | other (type : String)
  deriving DecidableEq, Repr

/-- What `engine.handle` returns. -/
inductive Handled
  | result (status : EngineStatus) (payload : EnginePayload)
  | other (type : String)
  deriving DecidableEq, Repr

/-- What a call of `engine.handle` comes to. -/
inductive Outcome
  | returned (value : Handled)
  | raised
  deriving DecidableEq, Repr

/-- The `result_proto` that `_run_engine` sends for what the engine returned. -/
def resultProto (engineId : String) (frameId : Int) (handled : Handled) : Result :=
  let resultProto : Result := { frameId := frameId, targetEngineId := engineId }
  let error (message : String) : Result := { resultProto with status := { code := .engineError, message := message } }
  match handled with
  | .other type =>
    error ("Incorrect type returned by engine. Expected a value of type cognitive_engine.Result, found " ++ type)
  | .result (.other type) _ =>
    error ("Return status not populated correctly by engine. Expected a value of type gabriel_pb2.Status, found " ++
      type)
  | .result (.status status) payload =>
    if status.code ≠ .success then { resultProto with status := status }
    else
      match payload with
      | .none => error "Engine did not specify result payload"
      | .str payload => { resultProto with status := status, payload := .stringResult payload }
      | .bytes payload => { resultProto with status := status, payload := .bytesResult payload }
      | .any payload => { resultProto with status := status, payload := .anyResult payload }
      | .other type => error ("Engine produced unsupported result payload type: " ++ type)

/-- The results that the loop of `_run_engine` sends for a sequence of inputs, each with what `handle` does on it.  An
exception of `handle` ends the process. -/
def runEngine (engineId : String) : List (FromClient × Outcome) → List Result
  | [] => []
  | (_, .raised) :: _ => []
  | (fromClient, .returned value) :: rest =>
    resultProto engineId fromClient.asInput.frameId value :: runEngine engineId rest

/-- Where `_run_engine` is. -/
inductive EnginePc
  /-- At the first `recv_bytes`. -/
  | receiving
  /-- At the second `recv_bytes`. -/
  | gotInput (fromClient : FromClient)
  /-- In `handle`. -/
  | handling (fromClient : FromClient) (clientInfo : AnyProto)
  /-- The process has ended with an exception. -/
  | dead
  deriving DecidableEq, Repr

/-- A call of `handle` that returned. -/
structure Computation where
  inputFrame : InputFrame
  clientInfo : AnyProto
  returned : Handled
  deriving DecidableEq, Repr

/-! ### The server -/

/-- An element of `_input_queue`. -/
structure Job where
  fromClient : FromClient
  address : Address
  clientInfo : AnyProto
  deriving DecidableEq, Repr

/-- A call of `send_result`. -/
structure SendResult where
  address : Address
  producerId : String
  engineId : String
  result : Result
  returnToken : Bool
  deriving DecidableEq, Repr

/-- Where `_engine_comm` is. -/
inductive Comm (β : Type)
  /-- In `wait_for_start`. -/
  | starting
  /-- At `_input_queue.get()`. -/
  | getting
  /-- The executor sends the first message of a job, or the second. -/
  | sendingInput (job : Job)
  | sendingInfo (job : Job)
  /-- At `_result_ready.wait()`. -/
  | waiting (job : Job)
  /-- The executor is in `recv_bytes`. -/
  | receiving (job : Job)
  /-- `recv_bytes` has returned, but the coroutine has not gone on yet. -/
  | received (job : Job) (data : β)
  /-- In `send_result`. -/
  | sendingResult
  /-- The loop has ended. -/
  | stopped
  deriving DecidableEq, Repr

structure Config where
  engineId : String
  inputQueueMaxsize : Int

/-- The two processes and the pipe, with the history of the inputs accepted, the calls of `handle`, the results that
`_engine_comm` has read and the calls of `send_result`. -/
structure State (β : Type) where
  inputQueue : List Job := []
  comm : Comm β := .starting
  engine : EnginePc := .receiving
  /-- The two directions of the pipe. -/
  toEngine : List β := []
  toServer : List β := []
  /-- `_result_ready`. -/
  resultReady : Bool := false
  /-- The calls of `_result_ready.set` that the selector has scheduled. -/
  callbacks : Nat := 0
  accepted : List Job := []
  computed : List Computation := []
  read : List Result := []
  sent : List SendResult := []

variable {β : Type}

/-- `_input_queue.full()`. -/
def inputQueueFull (cfg : Config) (queue : List Job) : Bool :=
  0 < cfg.inputQueueMaxsize ∧ cfg.inputQueueMaxsize ≤ queue.length

/-- `_send_to_engine`. -/
def sendToEngine (cfg : Config) (s : State β) (job : Job) : State β × StatusCode × String :=
  if inputQueueFull cfg s.inputQueue then (s, .serverDroppedFrame, "Input queue is full, dropping input")
  else ({ s with inputQueue := s.inputQueue ++ [job], accepted := s.accepted ++ [job] }, .success, "")

/-- The test of the loop of `_engine_comm`. -/
def loopTest (isRunning : Bool) : Comm β := if isRunning then .getting else .stopped

/-- The steps of the two processes. -/
inductive Action
  /-- A client's input reaches `_send_to_engine`. -/
  | sendToEngine (job : Job)
  /-- `wait_for_start` returns. -/
  | start (isRunning : Bool)
  | get
  | inputSent
  | infoSent
  /-- The selector finds the pipe readable and schedules the callback. -/
  | poll
  /-- A scheduled callback sets the event. -/
  | fire
  /-- `_result_ready.wait()` returns. -/
  | wake
  /-- The executor reads a message from the pipe. -/
  | recv
  /-- The coroutine goes on with the message. -/
  | resume
  /-- `send_result` returns, or raises: then the loop ends. -/
  | resultSent (raises isRunning : Bool)
  /-- `_run_engine` receives a message. -/
  | engineRecv
  /-- `handle` returns, or raises. -/
  | handled (returned : Handled)
  | handleRaised

/-- `_run_engine` receives its next message. -/
def engineRecv (cd : Codec β) (s : State β) (data : β) (rest : List β) : Option (State β) :=
  match s.engine with
  | .receiving =>
    match cd.toFromClient data with
    | none => some { s with toEngine := rest, engine := .dead }
    | some fromClient => some { s with toEngine := rest, engine := .gotInput fromClient }
  | .gotInput fromClient =>
    -- no bytes stand for the default `Any`
    match if cd.isEmpty data then some {} else cd.toAny data with
    | none => some { s with toEngine := rest, engine := .dead }
    | some clientInfo => some { s with toEngine := rest, engine := .handling fromClient clientInfo }
  | _ => none

/-- `_engine_comm` from the return of `recv_bytes` to the call of `send_result`. -/
def resume (cd : Codec β) (cfg : Config) (s : State β) (job : Job) (data : β) : State β :=
  match cd.toResult data with
  | none => { s with comm := .stopped }
  | some result =>
    { s with
      comm := .sendingResult
      read := s.read ++ [result]
      sent := s.sent ++ [{
        address := job.address
        producerId := job.fromClient.asInput.producerId
        engineId := cfg.engineId
        result := result
        returnToken := true }] }

def step (cd : Codec β) (cfg : Config) (s : State β) : Action → Option (State β)
  | .sendToEngine job => some (sendToEngine cfg s job).1
  | .start isRunning =>
    match s.comm with
    | .starting => some { s with comm := loopTest isRunning }
    | _ => none
  | .get =>
    match s.comm, s.inputQueue with
    | .getting, job :: rest => some { s with inputQueue := rest, comm := .sendingInput job }
    | _, _ => none
  | .inputSent =>
    match s.comm with
    | .sendingInput job =>
      some { s with toEngine := s.toEngine ++ [cd.ofFromClient job.fromClient], comm := .sendingInfo job }
    | _ => none
  | .infoSent =>
    match s.comm with
    | .sendingInfo job =>
      some { s with toEngine := s.toEngine ++ [cd.ofAny job.clientInfo], comm := .waiting job }
    | _ => none
  | .poll => if s.toServer ≠ [] then some { s with callbacks := s.callbacks + 1 } else none
  | .fire =>
    match s.callbacks with
    | 0 => none
    | n + 1 => some { s with callbacks := n, resultReady := true }
  | .wake =>
    match s.comm with
    | .waiting job => if s.resultReady then some { s with resultReady := false, comm := .receiving job } else none
    | _ => none
  | .recv =>
    match s.comm, s.toServer with
    | .receiving job, data :: rest => some { s with toServer := rest, comm := .received job data }
    | _, _ => none
  | .resume =>
    match s.comm with
    | .received job data => some (resume cd cfg s job data)
    | _ => none
  | .resultSent raises isRunning =>
    match s.comm with
    | .sendingResult => some { s with comm := if raises then .stopped else loopTest isRunning }
    | _ => none
  | .engineRecv =>
    match s.toEngine with
    | data :: rest => engineRecv cd s data rest
    | [] => none
  | .handled returned =>
    match s.engine with
    | .handling fromClient clientInfo =>
      some { s with
        engine := .receiving
        toServer := s.toServer ++ [cd.ofResult (resultProto cfg.engineId fromClient.asInput.frameId returned)]
        computed := s.computed ++
          [{ inputFrame := fromClient.asInput.inputFrame, clientInfo := clientInfo, returned := returned }] }
    | _ => none
  | .handleRaised =>
    match s.engine with
    | .handling _ _ => some { s with engine := .dead }
    | _ => none

/-- The local server and its engine. -/
def machine (cd : Codec β) (cfg : Config) : Machine (State β) Action := { init := {}, step := step cd cfg }

end LocalEngine

end Gabriel
