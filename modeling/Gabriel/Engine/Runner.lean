import Gabriel.Local.Engine

/-!
# An engine on the network

`EngineRunner.engine_loop` registers its engine on a stream to the server and then runs three tasks: a reader that puts
the inputs of the stream into a queue, a worker that takes them out one at a time, lets `handle` run in a thread and
writes the result, and a watcher of `stop_event`.  The first task that ends wakes the loop, which cancels the others.

`_build_result_proto` converts what `handle` returned.  If the engine made a mistake, it raises an exception that
carries an error result; the worker writes this result and ends.

The history `calls` has the calls of `handle` that the worker has seen the end of, `written` the messages that were
given to `call.write`.
-/

namespace Gabriel.EngineRunner

open LocalEngine (Handled Outcome)

/-! ### The worker -/

/-- The exceptions of `_build_result_proto` other than those of `handle`. -/
inductive BuildError
  /-- An `_EngineHandlerError`. -/
  | engineHandler (message : String) (resultProto : Result)
  /-- `StatusCode.Name` of a number without a name. -/
  | unknownStatus
  deriving DecidableEq, Repr

/-- `_build_result_proto` from the return of `handle` on. -/
def buildResultProto (engineId : String) (handled : Handled) : Except BuildError Result :=
  let resultProto : Result := { targetEngineId := engineId }
  let error (resultProto : Result) (message : String) : Except BuildError Result :=
    .error (.engineHandler message { resultProto with status := { code := .engineError, message := message } })
  match handled with
  | .other type =>
    error resultProto
      ("Incorrect type returned by engine. Expected a value of type cognitive_engine.Result, found " ++ type)
  | .result (.other type) _ =>
    error resultProto
      ("Return status not populated correctly by engine. Expected a value of type gabriel_pb2.Status, found " ++ type)
  | .result (.status status) payload =>
    let resultProto := { resultProto with status := status }
    match status.code with
    | .success =>
      match payload with
      | .none => error resultProto "Engine did not specify result payload"
      | .str payload => .ok { resultProto with payload := .stringResult payload }
      | .bytes payload => .ok { resultProto with payload := .bytesResult payload }
      | .any payload => .ok { resultProto with payload := .anyResult payload }
      | .other type => error resultProto ("Engine produced unsupported result payload type: " ++ type)
    -- the log message of an error has the name of its code
    | .unrecognized _ _ => .error .unknownStatus
    | _ => .ok resultProto

/-- The results that the loop of `worker` writes for a sequence of inputs, each with what `handle` does on it. -/
def worker (engineId : String) : List (ToEngine × Outcome) → List Result
  | [] => []
  | (_, .raised) :: _ => []
  | (_, .returned value) :: rest =>
    match buildResultProto engineId value with
    | .ok resultProto => resultProto :: worker engineId rest
    | .error (.engineHandler _ resultProto) => [resultProto]
    | .error .unknownStatus => []

/-! ### The tasks of the loop -/

/-- How a task has ended. -/
inductive TaskEnd
  | returned | raised | cancelled
  deriving DecidableEq, Repr

/-- Where the worker is suspended. -/
inductive WorkerPc
  /-- At `frame_queue.get()`. -/
  | getting
  /-- `handle` runs in a thread. -/
  | handling (msg : ToEngine)
  /-- Awaiting the write of a result. -/
  | writing
  /-- Awaiting the write of the result of an `_EngineHandlerError`, after which the worker raises an exception. -/
  | writingError
  | ended (how : TaskEnd)
  deriving DecidableEq, Repr

/-- Where `engine_loop` itself is suspended. -/
inductive LoopPc
  /-- Awaiting the write of the `Register` message. -/
  | registering
  /-- Waiting for the end of a task. -/
  | waiting
  | finished
  deriving DecidableEq, Repr

structure Config where
  engineId : String
  allResponsesRequired : Bool

structure State where
  loop : LoopPc := .registering
  reader : Option TaskEnd := none
  stopWatcher : Option TaskEnd := none
  worker : WorkerPc := .getting
  frameQueue : List ToEngine := []
  calls : List (ToEngine × Outcome) := []
  written : List FromEngine

inductive Action
  /-- The write of the `Register` message returns, or raises. -/
  | registered (ok : Bool)
  /-- The reader gets an input. -/
  | read (msg : ToEngine)
  /-- The server has closed the stream, or the read raises. -/
  | readEnd (how : TaskEnd)
  /-- The watcher sees the event. -/
  | stop
  /-- The worker takes an input out of the queue. -/
  | get
  | handled (value : Handled)
  | handleRaised
  /-- The write of a result returns, or raises. -/
  | wrote (ok : Bool)
  /-- `engine_loop` is woken and cancels the tasks that are left. -/
  | wake

namespace State

/-- `call.write`, up to its suspension. -/
def write (s : State) (result : Result) (pc : WorkerPc) : State :=
  { s with
    worker := pc
    written := s.written ++ [.result result] }

/-- The worker from the end of `handle` to its next suspension. -/
def handled (cfg : Config) (s : State) (msg : ToEngine) (outcome : Outcome) : State :=
  let s := { s with calls := s.calls ++ [(msg, outcome)] }
  match outcome with
  | .raised => { s with worker := .ended .raised }
  | .returned value =>
    match buildResultProto cfg.engineId value with
    | .ok resultProto => s.write resultProto .writing
    | .error (.engineHandler _ resultProto) => s.write resultProto .writingError
    | .error .unknownStatus => { s with worker := .ended .raised }

/-- A task has ended. -/
def awake (s : State) : Bool :=
  s.reader.isSome || s.stopWatcher.isSome ||
    match s.worker with
    | .ended _ => true
    | _ => false

/-- `engine_loop` cancels the tasks that have not ended. -/
def finish (s : State) : State :=
  { s with
    loop := .finished
    reader := s.reader.or (some .cancelled)
    stopWatcher := s.stopWatcher.or (some .cancelled)
    worker := match s.worker with
      | .ended how => .ended how
      | _ => .ended .cancelled }

/-- A step of a task, or of the loop that waits for them. -/
def stepTask (cfg : Config) (s : State) : Action → Option State
  | .registered _ => none
  | .read msg => if s.reader = none then some { s with frameQueue := s.frameQueue ++ [msg] } else none
  | .readEnd how => if s.reader = none then some { s with reader := some how } else none
  | .stop => if s.stopWatcher = none then some { s with stopWatcher := some .returned } else none
  | .get =>
    match s.worker, s.frameQueue with
    | .getting, msg :: rest =>
      some { s with
        worker := .handling msg
        frameQueue := rest }
    | _, _ => none
  | .handled value =>
    match s.worker with
    | .handling msg => some (s.handled cfg msg (.returned value))
    | _ => none
  | .handleRaised =>
    match s.worker with
    | .handling msg => some (s.handled cfg msg .raised)
    | _ => none
  | .wrote ok =>
    match s.worker with
    | .writing => some { s with worker := if ok then .getting else .ended .raised }
    | .writingError => some { s with worker := .ended .raised }
    | _ => none
  | .wake => if s.awake then some s.finish else none

def step (cfg : Config) (s : State) (a : Action) : Option State :=
  match s.loop with
  | .registering =>
    match a with
    | .registered ok => some { s with loop := if ok then .waiting else .finished }
    | _ => none
  | .waiting => s.stepTask cfg a
  | .finished => none

end State

/-- `engine_loop` on a new stream. -/
def machine (cfg : Config) : Machine State Action where
  init := { written := [.register cfg.engineId cfg.allResponsesRequired] }
  step := State.step cfg

end Gabriel.EngineRunner
