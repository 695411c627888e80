import Mathlib.Logic.Function.Basic
import Mathlib.Data.Finset.Basic
import Gabriel.Lib.Dict
import Gabriel.Protocol

/-!
# The state of the server

The server has two parts: the dispatcher (`server_runner._Server` with its engine workers and producers) and the
frontend (`GabrielServer`, the client entries).  Python objects that outlive their table entry because a suspended
coroutine still refers to them live on a heap: a worker object is named by the RPC context it was made for (each
context registers at most once), a client entry by a number.  Each input given to `process_input_from_client` gets a
`serial`, the identity of its `_MetadataPayload` object.

Each part has a `log`, the history of what its handlers did, oldest first; no handler reads it.
-/

namespace Gabriel

/-- The identifier of a client: a session id, a ZeroMQ identity or a WebSocket peer address. -/
abbrev Address := String

/-- An `EngineSession` RPC context. -/
abbrev Context := Nat

/-- A `_Client` entry. -/
abbrev ClientRef := Nat

inductive Transport
  | zeromq | websocket | grpc
  deriving DecidableEq, Repr

/-- The arguments of `_Server.__init__` that the handlers read. -/
structure Config where
  clientTransport : Transport := .grpc
  numTokensPerProducer : Nat
  sizeForQueues : Nat

/-- `_Metadata`; compared field by field, as a Python `namedtuple` is. -/
structure Metadata where
  frameId : Int
  producerId : String
  clientAddress : Address
  targetEngineIds : List String
  clientInfo : AnyProto
  deriving DecidableEq, Repr

/-- `_MetadataPayload`. -/
structure MetadataPayload where
  metadata : Metadata
  payload : InputFrame
  serial : Nat
  deriving DecidableEq, Repr

/-- The producer an input belongs to. -/
abbrev MetadataPayload.producerId (mp : MetadataPayload) : String := mp.metadata.producerId

/-- The message that `send_payload` writes for an input. -/
def MetadataPayload.toEngine (mp : MetadataPayload) : ToEngine :=
  { inputFrame := mp.payload, clientInfo := mp.metadata.clientInfo }

/-- `_EngineWorker`.  The deque `_producers` holds producer objects, here their ids: a producer info is never
replaced. -/
structure EngineWorker where
  engineId : String := ""
  allResponsesRequired : Bool := false
  currentInputMetadata : Option Metadata := none
  producers : List String := []
  latestInputProcessed : String → Option Metadata := fun _ => none

/-- `_ProducerInfo`.  `pending_token_return` is only tested for truth, so its initial `None` is `false`. -/
structure ProducerInfo where
  inputQueue : List MetadataPayload := []
  latestInputSentToEngine : Option MetadataPayload := none
  targetEngines : Option (List Context) := none
  pendingTokenReturn : Bool := false

/-- `_Client`; `client_info[0]` is `None` before registration. -/
structure Client where
  tokensForProducer : String → Option Int := fun _ => none
  clientInfo : Option AnyProto := none

/-! ### The dispatcher -/

/-- What made the dispatcher call `send_result`: the `k`-th result read from an engine, or its disconnection. -/
inductive Origin
  | result (c : Context) (k : Nat)
  | disconnect (c : Context)
  deriving DecidableEq, Repr

/-- What the handlers do with the dispatcher. -/
inductive DispatchEvent
  /-- `process_input_from_client` returns `SUCCESS`. -/
  | accepted (mp : MetadataPayload)
  | enqueued (p : String) (mp : MetadataPayload)
  | dequeued (p : String) (mp : MetadataPayload)
  /-- A frame is written to the stream of an engine worker. -/
  | wrote (c : Context) (msg : ToEngine) (mp : MetadataPayload)
  /-- A result is read from the stream of an engine. -/
  | gotResult (c : Context) (result : Result)
  /-- `send_result` is called; `latestInput` is the in-flight input of the producer at the call. -/
  | sendResult (origin : Origin) (address : Address) (wrapper : ResultWrapper)
      (latestInput : Option MetadataPayload)
  deriving DecidableEq, Repr

/-- The state of `_Server`. -/
structure Dispatcher where
  /-- The keys of `_engine_workers`. -/
  engineWorkers : List Context := []
  workers : Context → EngineWorker := fun _ => {}
  engineIds : Finset String := ∅
  producerInfos : String → Option ProducerInfo := fun _ => none
  nextContext : Context := 0
  nextSerial : Nat := 0
  log : List DispatchEvent := []

namespace Dispatcher

/-- The producer info of `p`; a fresh one if `p` has none yet. -/
def producer (d : Dispatcher) (p : String) : ProducerInfo := (d.producerInfos p).getD {}

/-- Record an event. -/
def emit (d : Dispatcher) (e : DispatchEvent) : Dispatcher := { d with log := d.log ++ [e] }

def modifyWorker (d : Dispatcher) (c : Context) (f : EngineWorker → EngineWorker) : Dispatcher :=
  { d with workers := Function.update d.workers c (f (d.workers c)) }

def setProducer (d : Dispatcher) (p : String) (info : ProducerInfo) : Dispatcher :=
  { d with producerInfos := Function.update d.producerInfos p (some info) }

section Fields

variable (d : Dispatcher) (e : DispatchEvent) (c : Context) (f : EngineWorker → EngineWorker) (p : String)
  (info : ProducerInfo)

@[simp] theorem emit_engineWorkers : (d.emit e).engineWorkers = d.engineWorkers := rfl
@[simp] theorem emit_workers : (d.emit e).workers = d.workers := rfl
@[simp] theorem emit_engineIds : (d.emit e).engineIds = d.engineIds := rfl
@[simp] theorem emit_producerInfos : (d.emit e).producerInfos = d.producerInfos := rfl
@[simp] theorem emit_producer : (d.emit e).producer = d.producer := rfl
@[simp] theorem emit_nextContext : (d.emit e).nextContext = d.nextContext := rfl
@[simp] theorem emit_nextSerial : (d.emit e).nextSerial = d.nextSerial := rfl
@[simp] theorem emit_log : (d.emit e).log = d.log ++ [e] := rfl

@[simp] theorem modifyWorker_engineWorkers : (d.modifyWorker c f).engineWorkers = d.engineWorkers := rfl
@[simp] theorem modifyWorker_workers :
    (d.modifyWorker c f).workers = Function.update d.workers c (f (d.workers c)) := rfl
@[simp] theorem modifyWorker_engineIds : (d.modifyWorker c f).engineIds = d.engineIds := rfl
@[simp] theorem modifyWorker_producerInfos : (d.modifyWorker c f).producerInfos = d.producerInfos := rfl
@[simp] theorem modifyWorker_producer : (d.modifyWorker c f).producer = d.producer := rfl
@[simp] theorem modifyWorker_nextContext : (d.modifyWorker c f).nextContext = d.nextContext := rfl
@[simp] theorem modifyWorker_nextSerial : (d.modifyWorker c f).nextSerial = d.nextSerial := rfl
@[simp] theorem modifyWorker_log : (d.modifyWorker c f).log = d.log := rfl

@[simp] theorem setProducer_engineWorkers : (d.setProducer p info).engineWorkers = d.engineWorkers := rfl
@[simp] theorem setProducer_workers : (d.setProducer p info).workers = d.workers := rfl
@[simp] theorem setProducer_engineIds : (d.setProducer p info).engineIds = d.engineIds := rfl
@[simp] theorem setProducer_producerInfos :
    (d.setProducer p info).producerInfos = Function.update d.producerInfos p (some info) := rfl
@[simp] theorem setProducer_producer :
    (d.setProducer p info).producer = Function.update d.producer p info := by
  funext q
  by_cases h : q = p
  · subst h; simp [producer]
  · simp [producer, h]
@[simp] theorem setProducer_nextContext : (d.setProducer p info).nextContext = d.nextContext := rfl
@[simp] theorem setProducer_nextSerial : (d.setProducer p info).nextSerial = d.nextSerial := rfl
@[simp] theorem setProducer_log : (d.setProducer p info).log = d.log := rfl

end Fields

end Dispatcher

/-! ### The frontend -/

/-- What the handlers do with the client entries. -/
inductive ClientEvent
  /-- A message of a client is taken up by its consumer. -/
  | received (ref : ClientRef) (address : Address) (msg : FromClient)
  /-- An input is given to the dispatcher. -/
  | submitted (ref : ClientRef) (mp : MetadataPayload)
  /-- The token of an accepted input is deducted. -/
  | deducted (ref : ClientRef) (mp : MetadataPayload)
  /-- `_make_error_response` builds a reply. -/
  | errorReply (ref : ClientRef) (address : Address) (wrapper : ResultWrapper)
  /-- `send_result` finds the client entry of its address. -/
  | resultFor (ref : ClientRef) (address : Address) (wrapper : ResultWrapper)
  /-- A message goes out on the connection of a client. -/
  | toClient (ref : ClientRef) (address : Address) (msg : ToClient)
  deriving DecidableEq

/-- The state of `GabrielServer`. -/
structure Frontend where
  clients : Dict Address ClientRef := Dict.empty
  clientObjs : ClientRef → Client := fun _ => {}
  nextClient : ClientRef := 0
  log : List ClientEvent := []

namespace Frontend

/-- Record an event. -/
def emit (f : Frontend) (e : ClientEvent) : Frontend := { f with log := f.log ++ [e] }

def modifyClient (f : Frontend) (ref : ClientRef) (g : Client → Client) : Frontend :=
  { f with clientObjs := Function.update f.clientObjs ref (g (f.clientObjs ref)) }

section Fields

variable (f : Frontend) (e : ClientEvent) (ref : ClientRef) (g : Client → Client)

@[simp] theorem emit_clients : (f.emit e).clients = f.clients := rfl
@[simp] theorem emit_clientObjs : (f.emit e).clientObjs = f.clientObjs := rfl
@[simp] theorem emit_nextClient : (f.emit e).nextClient = f.nextClient := rfl
@[simp] theorem emit_log : (f.emit e).log = f.log ++ [e] := rfl

@[simp] theorem modifyClient_clients : (f.modifyClient ref g).clients = f.clients := rfl
@[simp] theorem modifyClient_clientObjs :
    (f.modifyClient ref g).clientObjs = Function.update f.clientObjs ref (g (f.clientObjs ref)) := rfl
@[simp] theorem modifyClient_nextClient : (f.modifyClient ref g).nextClient = f.nextClient := rfl
@[simp] theorem modifyClient_log : (f.modifyClient ref g).log = f.log := rfl

end Fields

end Frontend

/-- The shared state of all handlers. -/
structure Server where
  dispatcher : Dispatcher := {}
  frontend : Frontend := {}

end Gabriel
