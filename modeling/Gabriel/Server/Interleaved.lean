import Gabriel.Lib.Machine
import Gabriel.Server.Handlers

/-!
# The server with interleaving handlers

Handlers are coroutines that run one at a time and give way to others only where they suspend.  The program counter
of a suspended handler names the `await` it is at and holds the locals it still needs.  A step starts a handler,
gives it its next message or resumes it, and runs it to its next suspension; which handler comes next is not
determined.

An `await` ends normally or raises: `raises` stands for a failed write as well as for the cancellation of the
handler.  A frame may reach the engine before the handler that wrote it is resumed, and a message may reach the
client before its sender is resumed, so both are recorded when the write starts.
-/

namespace Gabriel

/-- The exceptions that matter here. -/
inductive PyError
  | keyError
  /-- A dict changed its size while it was being iterated. -/
  | runtimeError
  /-- A write failed or the handler was cancelled. -/
  | raised
  deriving DecidableEq, Repr

namespace Interleaved

/-! ### `_engines_updated_cb` -/

/-- `_engines_updated_cb` suspended in a send: the engine ids of its message, the size of `_clients` when the iteration
began, and the keys not yet visited. -/
structure Broadcast where
  engineIds : Finset String
  size : Nat
  todo : List Address
  deriving DecidableEq

inductive BroadcastOutcome
  | suspended (b : Broadcast)
  | done
  | runtimeError

/-- Go on with the keys `todo`; a key that is gone is not yielded. -/
def broadcastFrom (f : Frontend) (ids : Finset String) (size : Nat) : List Address → Frontend × BroadcastOutcome
  | [] => (f, .done)
  | a :: rest =>
    match f.sendViaTransport a (.engineIdsUpdate ids) with
    | (f, true) => (f, .suspended ⟨ids, size, rest⟩)
    | (f, false) => broadcastFrom f ids size rest

def startBroadcast (s : Server) : Server × BroadcastOutcome :=
  let r := broadcastFrom s.frontend s.dispatcher.engineIds s.frontend.clients.size s.frontend.clients.keys
  ({ s with frontend := r.1 }, r.2)

/-- The iterator checks the size of the dict before each key. -/
def resumeBroadcast (s : Server) (b : Broadcast) : Server × BroadcastOutcome :=
  if s.frontend.clients.size = b.size then
    let r := broadcastFrom s.frontend b.engineIds b.size b.todo
    ({ s with frontend := r.1 }, r.2)
  else (s, .runtimeError)

/-! ### `_remove_engine_worker` -/

inductive RemovalPc
  /-- Awaiting `send_result`. -/
  | sending
  | broadcasting (b : Broadcast)
  deriving DecidableEq

inductive RemovalOutcome
  | suspended (pc : RemovalPc)
  | done
  | failed (e : PyError)

def RemovalOutcome.ofBroadcast : BroadcastOutcome → RemovalOutcome
  | .suspended b => .suspended (.broadcasting b)
  | .done => .done
  | .runtimeError => .failed .runtimeError

/-- From the return of `send_result` on. -/
def afterSending (s : Server) (victim : Context) : Server × RemovalOutcome :=
  match s.dispatcher.finishRemoval victim with
  | (d, true) => ({ s with dispatcher := d }, .failed .keyError)
  | (d, false) =>
    let r := startBroadcast { s with dispatcher := d }
    (r.1, .ofBroadcast r.2)

def startRemoval (s : Server) (victim : Context) : Server × RemovalOutcome :=
  match s.beginRemoval victim with
  | (s, true) => (s, .suspended .sending)
  | (s, false) => afterSending s victim

def resumeRemoval (s : Server) (victim : Context) : RemovalPc → Server × RemovalOutcome
  | .sending => afterSending s victim
  | .broadcasting b =>
    let r := resumeBroadcast s b
    (r.1, .ofBroadcast r.2)

/-! ### `EngineSession` -/

/-- Where an `EngineSession` is suspended. -/
inductive SessionPc
  /-- Waiting for the first message. -/
  | connected
  /-- In `_add_engine_worker`, removing the worker `victim` that has the same id. -/
  | takeover (engineId : String) (allResponsesRequired : Bool) (victim : Context) (pc : RemovalPc)
  /-- In the broadcast of `_add_engine_worker`. -/
  | announcing (b : Broadcast)
  /-- Waiting for the next message. -/
  | idle
  /-- In `_handle_from_engine`, awaiting the result sinks with the `k`-th result. -/
  | sinking (k : Nat) (m : Option Metadata) (result : Result)
  /-- In `_handle_from_engine`, awaiting `send_result`. -/
  | answering
  /-- In `send_next_input`, awaiting the write. -/
  | feeding
  /-- In the `finally` clause, removing the session's own worker; `err` is the exception that led there. -/
  | closing (err : Option PyError) (pc : RemovalPc)
  | finished (err : Option PyError)
  deriving DecidableEq

def SessionPc.ofBroadcast : BroadcastOutcome → SessionPc
  | .suspended b => .announcing b
  | .done => .idle
  | .runtimeError => .finished (some .runtimeError)

/-- The end of `_add_engine_worker`: insert the worker and tell the clients. -/
def register (s : Server) (c : Context) (engineId : String) (allResponsesRequired : Bool) : Server × SessionPc :=
  let r := startBroadcast { s with dispatcher := s.dispatcher.insertWorker c engineId allResponsesRequired }
  (r.1, .ofBroadcast r.2)

/-- `_add_engine_worker` from a state of the removal of `victim` on. -/
def takeoverFrom (c : Context) (engineId : String) (allResponsesRequired : Bool) (victim : Context) :
    Server × RemovalOutcome → Server × SessionPc
  | (s, .suspended pc) => (s, .takeover engineId allResponsesRequired victim pc)
  | (s, .done) => register s c engineId allResponsesRequired
  | (s, .failed e) => (s, .finished (some e))

/-- The `finally` clause from a state of the removal on. -/
def closingFrom (err : Option PyError) : Server × RemovalOutcome → Server × SessionPc
  | (s, .suspended pc) => (s, .closing err pc)
  | (s, .done) => (s, .finished err)
  | (s, .failed e) => (s, .finished (some e))

/-- The `finally` clause. -/
def leaveLoop (s : Server) (c : Context) (err : Option PyError) : Server × SessionPc :=
  if c ∈ s.dispatcher.engineWorkers then closingFrom err (startRemoval s c) else (s, .finished err)

/-- `send_next_input` as the last part of `_handle_from_engine`. -/
def feed (s : Server) (c : Context) (delivered : Bool) : Server × SessionPc :=
  match s.dispatcher.sendNextInput c delivered with
  | (d, true) => ({ s with dispatcher := d }, .feeding)
  | (d, false) => ({ s with dispatcher := d }, .idle)

/-- `_handle_from_engine` from the return of the sinks on. -/
def answer (s : Server) (c : Context) (k : Nat) (m : Option Metadata) (result : Result) (delivered : Bool) :
    Server × SessionPc :=
  match s.answerResult c k m result with
  | (s, .stop) => (s, .idle)
  | (s, .awaitSend) => (s, .answering)
  | (s, .next) => feed s c delivered

/-- The first message of a session. -/
def firstMessage (s : Server) (c : Context) : FromEngine → Server × SessionPc
  | .register engineId allResponsesRequired =>
    match s.dispatcher.predecessor engineId with
    | some victim => takeoverFrom c engineId allResponsesRequired victim (startRemoval s victim)
    | none => register s c engineId allResponsesRequired
  | _ => (s, .finished none)

/-- A later message of a session: `_handle_from_engine` up to the sinks. -/
def nextMessage (s : Server) (c : Context) (msg : FromEngine) : Server × SessionPc :=
  match msg with
  | .register _ _ => (s, .idle)
  | _ =>
    let d := s.dispatcher
    let t : Server := { s with dispatcher := d.emit (.gotResult c msg.asResult) }
    if c ∈ d.engineWorkers then
      (t, .sinking (d.resultsRead c) (d.workers c).currentInputMetadata (d.stampResult c msg))
    else (t, .idle)

/-- Resume a suspended session. -/
def resumeSession (s : Server) (c : Context) (raises delivered : Bool) : SessionPc → Option (Server × SessionPc)
  | .connected | .idle | .finished _ => none
  | .takeover engineId allResponsesRequired victim pc =>
    -- not inside the `try` of `EngineSession`
    if raises then some (s, .finished (some .raised))
    else some (takeoverFrom c engineId allResponsesRequired victim (resumeRemoval s victim pc))
  | .announcing b =>
    if raises then some (s, .finished (some .raised))
    else
      let r := resumeBroadcast s b
      some (r.1, .ofBroadcast r.2)
  | .sinking k m result =>
    if raises then some (leaveLoop s c (some .raised)) else some (answer s c k m result delivered)
  | .answering => if raises then some (leaveLoop s c (some .raised)) else some (feed s c delivered)
  | .feeding => if raises then some (leaveLoop s c (some .raised)) else some (s, .idle)
  | .closing err pc =>
    if raises then some (s, .finished (some .raised)) else some (closingFrom err (resumeRemoval s c pc))

/-- The end of the messages of a session, or its cancellation while it waits for one. -/
def closeSession (s : Server) (c : Context) : SessionPc → Option (Server × SessionPc)
  | .connected => some (s, .finished none)
  | .idle => some (leaveLoop s c none)
  | _ => none

/-! ### The streams of the clients -/

/-- Where the consumer of a stream is suspended. -/
inductive StreamPc
  /-- Waiting for the next message. -/
  | idle
  /-- In the dispatch loop, awaiting a write; `rest` are the targets after it. -/
  | dispatching (ref : ClientRef) (mp : MetadataPayload) (rest : List Context)
  /-- Awaiting the write of a reply. -/
  | replying
  | finished (err : Option PyError)
  deriving DecidableEq

/-- A stream of client messages, consumed one after the other.  `owner` is the client entry the stream was opened
with; a gRPC producer stream has none and looks the entry up for each message. -/
structure Stream where
  address : Address
  owner : Option ClientRef
  pc : StreamPc

/-- The end of a stream's handler; the flag tells whether its client entry is deleted. -/
def endStream (s : Server) (stream : Stream) (deletes : Bool) (err : Option PyError) : Server × StreamPc :=
  if stream.owner.isSome ∧ deletes then
    match s.frontend.removeClient stream.address with
    | (f, true) => ({ s with frontend := f }, .finished (some .keyError))
    | (f, false) => ({ s with frontend := f }, .finished err)
  else (s, .finished err)

/-- An exception in the handler of a stream: gRPC and WebSocket delete the client entry in a `finally` clause. -/
def failStream (cfg : Config) (s : Server) (stream : Stream) (err : PyError) : Server × StreamPc :=
  endStream s stream (cfg.clientTransport ≠ .zeromq) (some err)

def afterReply (cfg : Config) (s : Server) (stream : Stream) : Frontend × Frontend.Sent → Server × StreamPc
  | (f, .sent) => ({ s with frontend := f }, .replying)
  | (f, .dropped) => ({ s with frontend := f }, .idle)
  | (f, .keyError) => failStream cfg { s with frontend := f } stream .keyError

/-- The dispatch loop of an input up to its first write, and what follows if it makes none. -/
def startDispatch (cfg : Config) (s : Server) (stream : Stream) (ref : ClientRef) (msg : FromClient)
    (mp : MetadataPayload) (order : List Context) (delivered : Bool) : Server × StreamPc :=
  match s.dispatcher.dispatchLoop mp delivered order with
  | (d, some rest) => ({ s with dispatcher := d }, .dispatching ref mp rest)
  | (d, none) =>
    match d.concludeInput cfg mp true with
    | (d, .success, _) => ({ dispatcher := d, frontend := s.frontend.deductToken ref mp }, .idle)
    | (d, code, message) =>
      afterReply cfg { s with dispatcher := d } stream
        (s.frontend.replyError cfg ref stream.address msg code message)

/-- The dispatch loop after a write.  At least one engine has been sent the input. -/
def resumeDispatch (cfg : Config) (s : Server) (ref : ClientRef) (mp : MetadataPayload) (rest : List Context)
    (delivered : Bool) : Server × StreamPc :=
  match s.dispatcher.dispatchLoop mp delivered rest with
  | (d, some rest) => ({ s with dispatcher := d }, .dispatching ref mp rest)
  | (d, none) =>
    ({ dispatcher := (d.concludeInput cfg mp false).1, frontend := s.frontend.deductToken ref mp }, .idle)

/-- A message on a stream that serves the client entry `ref`. -/
def consume (cfg : Config) (s : Server) (stream : Stream) (ref : ClientRef) (msg : FromClient)
    (order : List Context) (delivered : Bool) : Option (Server × StreamPc) :=
  match s.consumerHelper cfg ref stream.address msg with
  | (s, .registered) =>
    some (afterReply cfg s stream (s.frontend.reply cfg ref stream.address (s.makeRegistered cfg)))
  | (s, .refused code message) =>
    some (afterReply cfg s stream (s.frontend.replyError cfg ref stream.address msg code message))
  | (s, .dispatch mp targets) =>
    if order.Perm targets then some (startDispatch cfg s stream ref msg mp order delivered) else none

/-- The client entry that the next message of a stream is for. -/
def Stream.client (s : Server) (stream : Stream) : Option ClientRef :=
  match stream.owner with
  | some ref => some ref
  | none => s.frontend.clients.get? stream.address

/-- A stream takes up its next message. -/
def streamMessage (cfg : Config) (s : Server) (stream : Stream) (msg : FromClient) (order : List Context)
    (delivered : Bool) : Option (Server × StreamPc) :=
  match stream.pc with
  | .idle =>
    match stream.client s with
    | none => some (s, .finished none)
    | some ref => consume cfg s stream ref msg order delivered
  | _ => none

/-- Resume a suspended stream. -/
def resumeStream (cfg : Config) (s : Server) (stream : Stream) (raises delivered : Bool) :
    Option (Server × StreamPc) :=
  match stream.pc with
  | .idle | .finished _ => none
  | .dispatching ref mp rest =>
    if raises then some (failStream cfg s stream .raised)
    else some (resumeDispatch cfg s ref mp rest delivered)
  | .replying => if raises then some (failStream cfg s stream .raised) else some (s, .idle)

/-- The end of the messages of a stream; for ZeroMQ, the timeout of the consumer. -/
def closeStream (s : Server) (stream : Stream) : Option (Server × StreamPc) :=
  match stream.pc with
  | .idle => some (endStream s stream true none)
  | _ => none

/-! ### The system -/

/-- The shared state and the suspended handlers. -/
structure Sys where
  server : Server := {}
  sessions : Context → Option SessionPc := fun _ => none
  streams : List Stream := []

inductive Action
  /-- A control stream or WebSocket connection opens, or ZeroMQ has a first message of an unknown peer. -/
  | openClient (address : Address)
  /-- A gRPC producer stream opens. -/
  | openProducer (address : Address)
  | message (i : Nat) (msg : FromClient) (order : List Context) (delivered : Bool)
  | resumeStream (i : Nat) (raises delivered : Bool)
  | closeStream (i : Nat)
  | openSession
  | engineMessage (c : Context) (msg : FromEngine)
  | resumeSession (c : Context) (raises delivered : Bool)
  | closeSession (c : Context)

namespace Sys

/-- The stream `i` goes on to `pc` with the shared state `s`. -/
def setStream (sys : Sys) (i : Nat) (stream : Stream) (r : Server × StreamPc) : Sys :=
  { sys with server := r.1, streams := sys.streams.set i { stream with pc := r.2 } }

def setSession (sys : Sys) (c : Context) (r : Server × SessionPc) : Sys :=
  { sys with server := r.1, sessions := Function.update sys.sessions c (some r.2) }

end Sys

def step (cfg : Config) (sys : Sys) : Action → Option Sys
  | .openClient address =>
    let f := sys.server.frontend
    if cfg.clientTransport = .zeromq ∧ (f.clients.get? address).isSome then none
    else some { sys with
      server := { sys.server with frontend := f.addClient address }
      streams := sys.streams ++ [{ address := address, owner := some f.nextClient, pc := .idle }] }
  | .openProducer address =>
    if cfg.clientTransport = .grpc then
      some { sys with streams := sys.streams ++ [{ address := address, owner := none, pc := .idle }] }
    else none
  | .message i msg order delivered => do
    let stream ← sys.streams[i]?
    let r ← streamMessage cfg sys.server stream msg order delivered
    return sys.setStream i stream r
  | .resumeStream i raises delivered => do
    let stream ← sys.streams[i]?
    let r ← resumeStream cfg sys.server stream raises delivered
    return sys.setStream i stream r
  | .closeStream i => do
    let stream ← sys.streams[i]?
    let r ← closeStream sys.server stream
    return sys.setStream i stream r
  | .openSession =>
    some { sys with
      server := { sys.server with dispatcher := sys.server.dispatcher.openContext }
      sessions := Function.update sys.sessions sys.server.dispatcher.nextContext (some .connected) }
  | .engineMessage c msg =>
    match sys.sessions c with
    | some .connected => some (sys.setSession c (firstMessage sys.server c msg))
    | some .idle => some (sys.setSession c (nextMessage sys.server c msg))
    | _ => none
  | .resumeSession c raises delivered => do
    let pc ← sys.sessions c
    let r ← resumeSession sys.server c raises delivered pc
    return sys.setSession c r
  | .closeSession c => do
    let pc ← sys.sessions c
    let r ← closeSession sys.server c pc
    return sys.setSession c r

/-- The server with interleaving handlers. -/
def machine (cfg : Config) : Machine Sys Action := { init := {}, step := step cfg }

end Interleaved

end Gabriel
