import Gabriel.Server.Dispatcher
import Gabriel.Server.Frontend

/-!
# The handlers between two suspension points

The parts of the handlers that work on both the dispatcher and the frontend.
-/

namespace Gabriel

namespace Server

/-- `_make_registered`. -/
def makeRegistered (cfg : Config) (s : Server) : ToClient :=
  .registered cfg.numTokensPerProducer s.dispatcher.engineIds

/-- How the handling of a client's message goes on after `_consumer_helper` has returned or has reached the dispatch
loop. -/
inductive Verdict
  | registered
  | refused (code : StatusCode) (message : String)
  | dispatch (mp : MetadataPayload) (targets : List Context)

/-- `_consumer_helper` up to the dispatch loop. -/
def consumerHelper (cfg : Config) (s : Server) (ref : ClientRef) (address : Address) (msg : FromClient) :
    Server × Verdict :=
  match s.frontend.consumerHelper cfg ref address msg with
  | (f, .registered) => ({ s with frontend := f }, .registered)
  | (f, .refused code message) => ({ s with frontend := f }, .refused code message)
  | (f, .forward info) =>
    let input := msg.asInput
    let targets := s.dispatcher.targetEngines input.targetEngineIds
    let mp := s.dispatcher.metadataPayload input address info
    let s' : Server :=
      { dispatcher := s.dispatcher.beginInput input.producerId targets
        frontend := f.emit (.submitted ref mp) }
    if targets = [] then (s', .refused .noEngineForInput (s.dispatcher.noEngineMessage input.targetEngineIds))
    else (s', .dispatch mp targets)

/-- A call of `send_result` by the dispatcher, up to the `await` of the transport. -/
def sendResult (s : Server) (address : Address) (wrapper : ResultWrapper) : Server × Bool :=
  let r := s.frontend.sendResult address wrapper
  ({ s with frontend := r.1 }, r.2)

/-- How `_handle_from_engine` goes on after its answer. -/
inductive Reaction
  /-- It returns. -/
  | stop
  /-- It awaits `send_result`, and then calls `send_next_input`. -/
  | awaitSend
  /-- It calls `send_next_input`. -/
  | next
  deriving DecidableEq, Repr

/-- `_handle_from_engine` from the return of the result sinks to its next `await`. -/
def answerResult (s : Server) (c : Context) (k : Nat) (m : Option Metadata) (result : Result) :
    Server × Reaction :=
  match s.dispatcher.answerResult c k m result with
  | (d, .stop) => ({ s with dispatcher := d }, .stop)
  | (d, .next) => ({ s with dispatcher := d }, .next)
  | (d, .send address wrapper) =>
    let r := { s with dispatcher := d }.sendResult address wrapper
    (r.1, if r.2 then .awaitSend else .next)

/-- `_remove_engine_worker` up to the `await` of `send_result`; the flag tells whether it gets there. -/
def beginRemoval (s : Server) (c : Context) : Server × Bool :=
  match s.dispatcher.beginRemoval c with
  | (d, none) => ({ s with dispatcher := d }, false)
  | (d, some (address, wrapper)) => { s with dispatcher := d }.sendResult address wrapper

end Server

end Gabriel
