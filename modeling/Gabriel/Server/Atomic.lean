import Gabriel.Lib.Machine
import Gabriel.Server.Handlers

/-!
# The server with atomic handlers

Every handler runs from its message to its end without another one in between.  A stream write completes or raises:
`raising` are the engines whose writes raise while an input is dispatched, `raises` tells whether the write of
`send_next_input` does.  An exception in a client's handler ends that handler without a reply; one in an engine's
handler ends the engine's session, whose `finally` clause removes the worker.

What the handlers do to the dispatcher does not depend on the frontend, so the dispatcher is a machine of its own
(`Dispatcher.machine`), of which the server (`Atomic.machine`) takes one step or none at each of its steps
(`Atomic.step_dispatcher`).
-/

namespace Gabriel

/-! ### The dispatcher -/

namespace Dispatcher

/-- The dispatch loop over the targets in the order of the iteration: whether all of them are busy, or `none` if a
write raised. -/
def dispatchAll (d : Dispatcher) (mp : MetadataPayload) (raising : List Context) :
    List Context → Bool → Dispatcher × Option Bool
  | [], allEnginesBusy => (d, some allEnginesBusy)
  | c :: rest, allEnginesBusy =>
    match d.dispatchOne mp c (c ∉ raising) with
    | (d, true) => if c ∈ raising then (d, none) else dispatchAll d mp raising rest false
    | (d, false) => dispatchAll d mp raising rest allEnginesBusy

/-- `process_input_from_client`: the status it returns, or `none` if it raises. -/
def processInputFromClient (cfg : Config) (d : Dispatcher) (input : Input) (address : Address) (info : AnyProto)
    (order raising : List Context) : Dispatcher × Option (StatusCode × String) :=
  let targets := d.targetEngines input.targetEngineIds
  let mp := d.metadataPayload input address info
  let d' := d.beginInput input.producerId targets
  if targets = [] then (d', some (.noEngineForInput, d.noEngineMessage input.targetEngineIds))
  else
    match d'.dispatchAll mp raising order true with
    | (d', none) => (d', none)
    | (d', some allEnginesBusy) =>
      let r := d'.concludeInput cfg mp allEnginesBusy
      (r.1, some r.2)

/-- `_remove_engine_worker`. -/
def removeEngineWorker (d : Dispatcher) (c : Context) : Dispatcher := ((d.beginRemoval c).1.finishRemoval c).1

/-- `_add_engine_worker`. -/
def addEngineWorker (d : Dispatcher) (c : Context) (engineId : String) (allResponsesRequired : Bool) : Dispatcher :=
  let d := match d.predecessor engineId with
    | some existing => d.removeEngineWorker existing
    | none => d
  d.insertWorker c engineId allResponsesRequired

/-- `send_next_input`, and the `finally` clause of `EngineSession` if its write raises. -/
def feedEngine (d : Dispatcher) (c : Context) (raises : Bool) : Dispatcher :=
  match d.sendNextInput c !raises with
  | (d, true) => if raises then d.removeEngineWorker c else d
  | (d, false) => d

/-- `_handle_from_engine` for a result of a connected engine. -/
def handleResult (d : Dispatcher) (c : Context) (msg : FromEngine) (raises : Bool) : Dispatcher :=
  match (d.emit (.gotResult c msg.asResult)).answerResult c (d.resultsRead c)
      (d.workers c).currentInputMetadata (d.stampResult c msg) with
  | (d, .stop) => d
  | (d, _) => d.feedEngine c raises

/-- `_handle_from_engine`. -/
def handleFromEngine (d : Dispatcher) (c : Context) (msg : FromEngine) (raises : Bool) : Dispatcher :=
  match msg with
  | .register _ _ => d
  | _ => if c ∈ d.engineWorkers then d.handleResult c msg raises else d.emit (.gotResult c msg.asResult)

/-- The steps of the dispatcher.  `order` is the order in which the set of target engines is iterated. -/
inductive Action
  | input (input : Input) (address : Address) (info : AnyProto) (order raising : List Context)
  | register (engineId : String) (allResponsesRequired : Bool)
  | fromEngine (c : Context) (msg : FromEngine) (raises : Bool)
  | remove (c : Context)

def step (cfg : Config) (d : Dispatcher) : Action → Option Dispatcher
  | .input input address info order raising =>
    if order.Perm (d.targetEngines input.targetEngineIds) then
      some (d.processInputFromClient cfg input address info order raising).1
    else none
  | .register engineId allResponsesRequired =>
    some (d.openContext.addEngineWorker d.nextContext engineId allResponsesRequired)
  | .fromEngine c msg raises => if c < d.nextContext then some (d.handleFromEngine c msg raises) else none
  | .remove c => if c ∈ d.engineWorkers then some (d.removeEngineWorker c) else none

/-- The dispatcher with atomic handlers. -/
def machine (cfg : Config) : Machine Dispatcher Action := { init := {}, step := step cfg }

/-- No write raises in the step. -/
def Action.writesSucceed : Action → Prop
  | .input _ _ _ _ raising => raising = []
  | .fromEngine _ _ raises => raises = false
  | _ => True

end Dispatcher

/-! ### The server -/

namespace Frontend

/-- `_engines_updated_cb`. -/
def enginesUpdatedCb (f : Frontend) (msg : ToClient) : Frontend :=
  f.clients.keys.foldl (fun f address => (f.sendViaTransport address msg).1) f

end Frontend

namespace Server

/-- `_engines_updated_cb`. -/
def enginesUpdatedCb (s : Server) : Server :=
  { s with frontend := s.frontend.enginesUpdatedCb s.dispatcher.enginesUpdate }

/-- `_remove_engine_worker`. -/
def removeEngineWorker (s : Server) (c : Context) : Server :=
  let t := (s.beginRemoval c).1
  match t.dispatcher.finishRemoval c with
  | (d, true) => { t with dispatcher := d }
  | (d, false) => { t with dispatcher := d }.enginesUpdatedCb

/-- `_add_engine_worker`. -/
def addEngineWorker (s : Server) (c : Context) (engineId : String) (allResponsesRequired : Bool) : Server :=
  let s := match s.dispatcher.predecessor engineId with
    | some existing => s.removeEngineWorker existing
    | none => s
  { s with dispatcher := s.dispatcher.insertWorker c engineId allResponsesRequired }.enginesUpdatedCb

/-- `send_next_input`, and the `finally` clause of `EngineSession` if its write raises. -/
def feedEngine (s : Server) (c : Context) (raises : Bool) : Server :=
  match s.dispatcher.sendNextInput c !raises with
  | (d, true) => if raises then { s with dispatcher := d }.removeEngineWorker c else { s with dispatcher := d }
  | (d, false) => { s with dispatcher := d }

/-- `_handle_from_engine`. -/
def handleFromEngine (s : Server) (c : Context) (msg : FromEngine) (raises : Bool) : Server :=
  let d := s.dispatcher
  let t : Server := { s with dispatcher := d.emit (.gotResult c msg.asResult) }
  match msg with
  | .register _ _ => s
  | _ =>
    if c ∈ d.engineWorkers then
      match t.answerResult c (d.resultsRead c) (d.workers c).currentInputMetadata (d.stampResult c msg) with
      | (t, .stop) => t
      | (t, _) => t.feedEngine c raises
    else t

/-- A consumer's handling of one message. -/
def handleFromClient (cfg : Config) (s : Server) (ref : ClientRef) (address : Address) (msg : FromClient)
    (order raising : List Context) : Option Server :=
  match s.frontend.consumerHelper cfg ref address msg with
  | (f, .registered) =>
    some { s with frontend := (f.reply cfg ref address (s.makeRegistered cfg)).1 }
  | (f, .refused code message) =>
    some { s with frontend := (f.replyError cfg ref address msg code message).1 }
  | (f, .forward info) =>
    let mp := s.dispatcher.metadataPayload msg.asInput address info
    let f := f.emit (.submitted ref mp)
    if order.Perm (s.dispatcher.targetEngines msg.asInput.targetEngineIds) then
      match s.dispatcher.processInputFromClient cfg msg.asInput address info order raising with
      | (d, none) => some { dispatcher := d, frontend := f }
      | (d, some (.success, _)) => some { dispatcher := d, frontend := f.deductToken ref mp }
      | (d, some (code, message)) =>
        some { dispatcher := d, frontend := (f.replyError cfg ref address msg code message).1 }
    else none

end Server

namespace Atomic

/-- The steps of the server with atomic handlers. -/
inductive Action
  | connect (address : Address)
  | disconnect (address : Address)
  | fromClient (address : Address) (msg : FromClient) (order raising : List Context)
  | registerEngine (engineId : String) (allResponsesRequired : Bool)
  | fromEngine (c : Context) (msg : FromEngine) (raises : Bool)
  | disconnectEngine (c : Context)

def step (cfg : Config) (s : Server) : Action → Option Server
  | .connect address => some { s with frontend := s.frontend.addClient address }
  | .disconnect address => some { s with frontend := (s.frontend.removeClient address).1 }
  | .fromClient address msg order raising =>
    match s.frontend.clients.get? address with
    | none => none
    | some ref => s.handleFromClient cfg ref address msg order raising
  | .registerEngine engineId allResponsesRequired =>
    some ({ s with dispatcher := s.dispatcher.openContext }.addEngineWorker s.dispatcher.nextContext engineId
      allResponsesRequired)
  | .fromEngine c msg raises =>
    if c < s.dispatcher.nextContext then some (s.handleFromEngine c msg raises) else none
  | .disconnectEngine c => if c ∈ s.dispatcher.engineWorkers then some (s.removeEngineWorker c) else none

/-- The server with atomic handlers. -/
def machine (cfg : Config) : Machine Server Action := { init := {}, step := step cfg }

/-- No write raises in the step. -/
def Action.writesSucceed : Action → Prop
  | .fromClient _ _ _ raising => raising = []
  | .fromEngine _ _ raises => raises = false
  | _ => True

instance : DecidablePred Action.writesSucceed
  | .fromClient _ _ _ raising => inferInstanceAs (Decidable (raising = []))
  | .fromEngine _ _ raises => inferInstanceAs (Decidable (raises = false))
  | .connect _ | .disconnect _ | .registerEngine _ _ | .disconnectEngine _ => inferInstanceAs (Decidable True)

end Atomic

end Gabriel
