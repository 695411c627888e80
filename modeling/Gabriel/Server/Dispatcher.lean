import Mathlib.Data.List.Rotate
import Gabriel.Server.State

/-!
# The dispatcher

The methods of `_ProducerInfo` and `_EngineWorker`, and the parts of the `_Server` handlers that work on them.  A
method that suspends is cut at its `await` of a stream write, of `send_result` or of the result sinks: the
definitions here are the parts between two such points, which no other handler interrupts.  Awaiting a coroutine
that does not itself suspend (`add_producer`, `add_input_to_queue`, `get_input_from_queue`) is a call.
-/

namespace Gabriel

/-- What a lookup in `_engine_workers` is given: the dict is keyed by contexts. -/
inductive ObjectRef
  | context (c : Context)
  | worker (c : Context)
  deriving DecidableEq, Repr

/-- `repr` of a string without quotes, backslashes and control characters. -/
def pyRepr (t : String) : String := "'" ++ t ++ "'"

/-- `repr` of a list of such strings. -/
def pyReprList (ts : List String) : String := "[" ++ ", ".intercalate (ts.map pyRepr) ++ "]"

/-- The result that `_remove_engine_worker` makes up for the frame an engine was working on. -/
def disconnectResult (engineId : String) (frameId : Int) : Result :=
  { status := { code := .engineError, message := "Engine " ++ engineId ++ " disconnected" }
    targetEngineId := engineId
    frameId := frameId }

/-! ### `_EngineWorker` -/

namespace EngineWorker

/-- `add_producer`. -/
def addProducer (w : EngineWorker) (p : String) : EngineWorker :=
  if p ∈ w.producers then w else { w with producers := w.producers ++ [p] }

/-- `clear_current_input_metadata`. -/
def clearCurrentInputMetadata (w : EngineWorker) : EngineWorker := { w with currentInputMetadata := none }

/-- The assignments of `send_payload`. -/
def takePayload (w : EngineWorker) (mp : MetadataPayload) : EngineWorker :=
  { w with
    currentInputMetadata := some mp.metadata
    latestInputProcessed := Function.update w.latestInputProcessed mp.producerId (some mp.metadata) }

/-- `self._producers.rotate(-k)`. -/
def rotateProducers (w : EngineWorker) (k : Nat) : EngineWorker := { w with producers := w.producers.rotate k }

section Fields

variable (w : EngineWorker) (p q : String) (mp : MetadataPayload) (k : Nat)

@[simp] theorem addProducer_engineId : (w.addProducer p).engineId = w.engineId := by
  unfold addProducer; split <;> rfl
@[simp] theorem addProducer_allResponsesRequired :
    (w.addProducer p).allResponsesRequired = w.allResponsesRequired := by
  unfold addProducer; split <;> rfl
@[simp] theorem addProducer_currentInputMetadata :
    (w.addProducer p).currentInputMetadata = w.currentInputMetadata := by
  unfold addProducer; split <;> rfl
@[simp] theorem addProducer_latestInputProcessed :
    (w.addProducer p).latestInputProcessed = w.latestInputProcessed := by
  unfold addProducer; split <;> rfl
@[simp] theorem mem_addProducer_producers : q ∈ (w.addProducer p).producers ↔ q ∈ w.producers ∨ q = p := by
  unfold addProducer
  split
  · rename_i h
    constructor
    · exact Or.inl
    · rintro (hq | rfl)
      · exact hq
      · exact h
  · simp

@[simp] theorem clear_engineId : w.clearCurrentInputMetadata.engineId = w.engineId := rfl
@[simp] theorem clear_allResponsesRequired :
    w.clearCurrentInputMetadata.allResponsesRequired = w.allResponsesRequired := rfl
@[simp] theorem clear_currentInputMetadata : w.clearCurrentInputMetadata.currentInputMetadata = none := rfl
@[simp] theorem clear_producers : w.clearCurrentInputMetadata.producers = w.producers := rfl
@[simp] theorem clear_latestInputProcessed :
    w.clearCurrentInputMetadata.latestInputProcessed = w.latestInputProcessed := rfl

@[simp] theorem takePayload_engineId : (w.takePayload mp).engineId = w.engineId := rfl
@[simp] theorem takePayload_allResponsesRequired :
    (w.takePayload mp).allResponsesRequired = w.allResponsesRequired := rfl
@[simp] theorem takePayload_currentInputMetadata :
    (w.takePayload mp).currentInputMetadata = some mp.metadata := rfl
@[simp] theorem takePayload_producers : (w.takePayload mp).producers = w.producers := rfl
@[simp] theorem takePayload_latestInputProcessed : (w.takePayload mp).latestInputProcessed =
    Function.update w.latestInputProcessed mp.producerId (some mp.metadata) := rfl

@[simp] theorem rotate_engineId : (w.rotateProducers k).engineId = w.engineId := rfl
@[simp] theorem rotate_allResponsesRequired :
    (w.rotateProducers k).allResponsesRequired = w.allResponsesRequired := rfl
@[simp] theorem rotate_currentInputMetadata :
    (w.rotateProducers k).currentInputMetadata = w.currentInputMetadata := rfl
@[simp] theorem rotate_producers : (w.rotateProducers k).producers = w.producers.rotate k := rfl
@[simp] theorem rotate_latestInputProcessed :
    (w.rotateProducers k).latestInputProcessed = w.latestInputProcessed := rfl

end Fields

end EngineWorker

namespace Dispatcher

/-- `self._engine_workers.get(key)`. -/
def engineWorkersGet (d : Dispatcher) : ObjectRef → Option Context
  | .context c => if c ∈ d.engineWorkers then some c else none
  | .worker _ => none

/-- `add_producer` of the worker `c`. -/
def addProducer (d : Dispatcher) (c : Context) (p : String) : Dispatcher := d.modifyWorker c (·.addProducer p)

/-- `send_payload` up to the `await` of `context.write`.  `delivered` tells whether the frame gets onto the stream:
a write that raises may or may not have sent it. -/
def sendPayload (d : Dispatcher) (c : Context) (mp : MetadataPayload) (delivered : Bool) : Dispatcher :=
  let d := d.modifyWorker c (·.takePayload mp)
  if delivered then d.emit (.wrote c mp.toEngine mp) else d

/-- The head `mp` of the queue of `p` becomes the in-flight input. -/
def dequeue (d : Dispatcher) (p : String) (mp : MetadataPayload) (rest : List MetadataPayload) : Dispatcher :=
  (d.setProducer p
    { d.producer p with
      latestInputSentToEngine := some mp
      pendingTokenReturn := true
      inputQueue := rest }).emit (.dequeued p mp)

/-- `get_input_from_queue` of the producer `p`. -/
def getInputFromQueue (d : Dispatcher) (p : String) : Dispatcher × Option MetadataPayload :=
  match (d.producer p).inputQueue with
  | [] => (d, none)
  | mp :: rest => (d.dequeue p mp rest, some mp)

/-- The last test of the loop body of `send_next_input`: the latest frame of `p`, if it is newer than the last frame
of `p` that the worker was sent. -/
def pickUp (d : Dispatcher) (c : Context) (p : String) : Option MetadataPayload :=
  match (d.producer p).latestInputSentToEngine with
  | none => none
  | some mp =>
    match (d.workers c).latestInputProcessed p with
    | none => none
    | some m => if m.frameId < mp.metadata.frameId then some mp else none

/-- The loop of `send_next_input`: the input it finds in at most `n` rounds, before `send_payload`. -/
def nextInput (d : Dispatcher) (c : Context) : Nat → Dispatcher × Option MetadataPayload
  | 0 => (d, none)
  | n + 1 =>
    let d := d.modifyWorker c (·.rotateProducers 1)
    match (d.workers c).producers with
    | [] => (d, none)
    | p :: _ =>
      match if (d.producer p).pendingTokenReturn then (d, none) else d.getInputFromQueue p with
      | (d, some mp) => (d, some mp)
      | (d, none) =>
        match d.pickUp c p with
        | some mp => (d, some mp)
        | none => nextInput d c n

/-- `send_next_input` up to the `await` of its write; the flag tells whether it gets there. -/
def sendNextInput (d : Dispatcher) (c : Context) (delivered : Bool) : Dispatcher × Bool :=
  match d.nextInput c (d.workers c).producers.length with
  | (d, some mp) => (d.sendPayload c mp delivered, true)
  | (d, none) => (d.modifyWorker c (·.clearCurrentInputMetadata), false)

/-! ### `process_input_from_client` -/

/-- The connected workers whose engine id is among `ids`. -/
def targetEngines (d : Dispatcher) (ids : List String) : List Context :=
  d.engineWorkers.filter fun c => (d.workers c).engineId ∈ ids

/-- The loop over `removed_targets`.  It looks worker objects up in a dict keyed by contexts, and if it found one
it would call the coroutine function `remove_producer` without awaiting it, which runs nothing. -/
def removeTargets (d : Dispatcher) (removed : List Context) : Dispatcher :=
  removed.foldl (fun d engine =>
    match d.engineWorkersGet (.worker engine) with
    | some _ => d
    | none => d) d

/-- The update of `target_engines`, a set kept as a list. -/
def retarget (d : Dispatcher) (p : String) (targets : List Context) : Dispatcher :=
  let old := (d.producer p).targetEngines.getD []
  if (d.producer p).targetEngines.isSome ∧ old ⊆ targets ∧ targets ⊆ old then d
  else
    let d := d.removeTargets (old.filter fun c => c ∉ targets)
    d.setProducer p { d.producer p with targetEngines := some targets }

/-- `mp` goes to the end of the queue of its producer. -/
def enqueue (d : Dispatcher) (mp : MetadataPayload) : Dispatcher :=
  (d.setProducer mp.producerId
    { d.producer mp.producerId with inputQueue := (d.producer mp.producerId).inputQueue ++ [mp] }).emit
      (.enqueued mp.producerId mp)

/-- `add_input_to_queue`: `none` if the queue is full. -/
def addInputToQueue (cfg : Config) (d : Dispatcher) (mp : MetadataPayload) : Option Dispatcher :=
  if (d.producer mp.producerId).inputQueue.length = cfg.sizeForQueues then none else some (d.enqueue mp)

/-- `latest_input_sent_to_engine = metadata_payload; pending_token_return = True`. -/
def setInFlight (d : Dispatcher) (mp : MetadataPayload) : Dispatcher :=
  d.setProducer mp.producerId
    { d.producer mp.producerId with latestInputSentToEngine := some mp, pendingTokenReturn := true }

/-- The `_MetadataPayload` of an input. -/
def metadataPayload (d : Dispatcher) (input : Input) (address : Address) (info : AnyProto) : MetadataPayload :=
  { metadata :=
      { frameId := input.frameId
        producerId := input.producerId
        clientAddress := address
        targetEngineIds := input.targetEngineIds
        clientInfo := info }
    payload := input.inputFrame
    serial := d.nextSerial }

/-- `_send_to_engine` and `process_input_from_client` up to the dispatch loop, for an input that has the target
engines `targets`. -/
def beginInput (d : Dispatcher) (p : String) (targets : List Context) : Dispatcher :=
  -- `_send_to_engine` makes the producer info of a new producer
  let d := if (d.producerInfos p).isNone then d.setProducer p {} else d
  let d := { d with nextSerial := d.nextSerial + 1 }
  if targets = [] then d else d.retarget p targets

/-- The text of the error for an input without target engines. -/
def noEngineMessage (d : Dispatcher) (ids : List String) : String :=
  "No target engines found. Specified target: " ++ pyReprList ids ++ ". Available engines: " ++
    pyReprList (d.engineWorkers.map fun c => (d.workers c).engineId)

/-- The body of the dispatch loop for one target engine, up to the `await` of the write; the flag tells whether the
engine was idle and is being sent the input. -/
def dispatchOne (d : Dispatcher) (mp : MetadataPayload) (c : Context) (delivered : Bool) : Dispatcher × Bool :=
  let d := d.addProducer c mp.producerId
  if (d.workers c).currentInputMetadata = none then (d.sendPayload c mp delivered, true) else (d, false)

/-- The dispatch loop up to its next write: the targets left after that write, or `none` if the loop ended without
one. -/
def dispatchLoop (d : Dispatcher) (mp : MetadataPayload) (delivered : Bool) :
    List Context → Dispatcher × Option (List Context)
  | [] => (d, none)
  | c :: rest =>
    match d.dispatchOne mp c delivered with
    | (d, true) => (d, some rest)
    | (d, false) => dispatchLoop d mp delivered rest

/-- `process_input_from_client` after the dispatch loop. -/
def concludeInput (cfg : Config) (d : Dispatcher) (mp : MetadataPayload) (allEnginesBusy : Bool) :
    Dispatcher × StatusCode × String :=
  if allEnginesBusy then
    match d.addInputToQueue cfg mp with
    | some d => (d.emit (.accepted mp), .success, "")
    | none => (d, .serverDroppedFrame, "Input queue for " ++ mp.producerId ++ " is full, dropping input")
  else ((d.setInFlight mp).emit (.accepted mp), .success, "")

/-! ### Results -/

/-- The number of results read so far from the stream of `c`. -/
def resultsRead (d : Dispatcher) (c : Context) : Nat :=
  d.log.countP fun e => match e with
    | .gotResult c' _ => c' = c
    | _ => false

/-- `result`, with the frame id of the input the worker is on. -/
def stampResult (d : Dispatcher) (c : Context) (msg : FromEngine) : Result :=
  match (d.workers c).currentInputMetadata with
  | some m => { msg.asResult with frameId := m.frameId }
  | none => msg.asResult

/-- How `_handle_from_engine` goes on after the sinks. -/
inductive Answer
  /-- It returns. -/
  | stop
  /-- It calls `send_result`, and then `send_next_input`. -/
  | send (address : Address) (wrapper : ResultWrapper)
  /-- It calls `send_next_input`. -/
  | next

/-- The call of `send_result` for a result of `c`. -/
def forwardResult (d : Dispatcher) (c : Context) (k : Nat) (m : Metadata) (result : Result) (returnToken : Bool)
    (latest : Option MetadataPayload) : Dispatcher × Answer :=
  let wrapper : ResultWrapper := { producerId := m.producerId, returnToken := returnToken, result := result }
  (d.emit (.sendResult (.result c k) m.clientAddress wrapper latest), .send m.clientAddress wrapper)

/-- `_handle_from_engine` from the return of the result sinks to the call of `send_result`; `m` is the metadata the
worker had when the `k`-th result was read. -/
def answerResult (d : Dispatcher) (c : Context) (k : Nat) (m : Option Metadata) (result : Result) :
    Dispatcher × Answer :=
  match m with
  | none => (d, .stop)
  | some m =>
    match d.producerInfos m.producerId with
    | none => (d, .stop)
    | some info =>
      let latest := info.latestInputSentToEngine
      if info.pendingTokenReturn ∧ latest.map (·.metadata) = some m then
        (d.setProducer m.producerId { info with pendingTokenReturn := false }).forwardResult c k m result true latest
      else if (d.workers c).allResponsesRequired then d.forwardResult c k m result false latest
      else (d, .next)

/-! ### Engines coming and going -/

/-- `_remove_engine_worker` up to the call of `send_result`, if it makes one. -/
def beginRemoval (d : Dispatcher) (c : Context) : Dispatcher × Option (Address × ResultWrapper) :=
  let worker := d.workers c
  match worker.currentInputMetadata with
  | none => (d, none)
  | some m =>
    match d.producerInfos m.producerId with
    | none => (d, none)
    | some info =>
      match info.latestInputSentToEngine with
      | none => (d, none)
      | some latest =>
        if m = latest.metadata ∧ (info.pendingTokenReturn ∨ worker.allResponsesRequired) then
          let wrapper : ResultWrapper :=
            { producerId := m.producerId
              returnToken := info.pendingTokenReturn
              result := disconnectResult worker.engineId m.frameId }
          ((d.setProducer m.producerId { info with pendingTokenReturn := false }).emit
            (.sendResult (.disconnect c) m.clientAddress wrapper (some latest)), some (m.clientAddress, wrapper))
        else (d, none)

/-- `_engine_ids.remove(engine_id); del _engine_workers[context]`; the flag tells whether a `KeyError` is raised. -/
def finishRemoval (d : Dispatcher) (c : Context) : Dispatcher × Bool :=
  let id := (d.workers c).engineId
  if id ∉ d.engineIds then (d, true)
  else
    let d := { d with engineIds := d.engineIds.erase id }
    if c ∉ d.engineWorkers then (d, true)
    else ({ d with engineWorkers := d.engineWorkers.erase c }, false)

/-- The context of a new `EngineSession`. -/
def openContext (d : Dispatcher) : Dispatcher := { d with nextContext := d.nextContext + 1 }

/-- The worker that `_add_engine_worker` removes first, if the id is in use. -/
def predecessor (d : Dispatcher) (engineId : String) : Option Context :=
  if engineId ∈ d.engineIds then d.engineWorkers.find? fun c => (d.workers c).engineId = engineId else none

/-- The insertion of a new worker by `_add_engine_worker`. -/
def insertWorker (d : Dispatcher) (c : Context) (engineId : String) (allResponsesRequired : Bool) : Dispatcher :=
  { d with
    workers := Function.update d.workers c
      { engineId := engineId, allResponsesRequired := allResponsesRequired }
    engineWorkers := if c ∈ d.engineWorkers then d.engineWorkers else d.engineWorkers ++ [c]
    engineIds := insert engineId d.engineIds }

/-- The message of `_engines_updated_cb`. -/
def enginesUpdate (d : Dispatcher) : ToClient := .engineIdsUpdate d.engineIds

end Dispatcher

end Gabriel
