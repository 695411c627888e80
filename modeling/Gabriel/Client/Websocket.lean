import Gabriel.Client.Grpc

/-!
# The WebSocket client

`WebsocketClient` has the attributes and the tasks of a session of `GrpcClient`, with one connection for all of them and
no reconnection.  What its consumer and its registration handler do is what those of `GrpcClient` do.  A
`_producer_handler` differs: it looks neither at `input_producers` nor at the running flag of its producer, and it sends
empty frames.  `launch_async` ends the client when the first task returns or raises.
-/

namespace Gabriel.WebsocketClient

open GrpcClient

/-- `_producer_handler` from the registration on. -/
def start (s : Session) (p : String) (producer : Producer) : Option Session :=
  if s.running then
    s.registered.map fun n => (s.setPool p (.new n)).setProducer p { producer with pc := .looping }
  else some (s.setProducer p { producer with pc := .finished })

/-- `_producer_handler` from the return of `produce` to its next `await`. -/
def produce (s : Session) (p : String) (producer : Producer) : Produced → Session × Output
  | .raises => (s.fail .callback, .nothing)
  | .nothing => (s.skip p producer, .nothing)
  | .frame frame checked targets =>
    if ∀ id ∈ checked, id ∈ s.engineIds then
      (s.setProducer p { pc := .writing, frameId := producer.frameId + 1 },
        .write (.producer p) (.input
          { frameId := producer.frameId, producerId := p, targetEngineIds := targets, inputFrame := frame }))
    else (s.fail .targetsNotConnected, .nothing)

/-- A task has returned. -/
def someFinished (s : Session) : Prop :=
  s.reading = false ∨ (s.running = false ∧ s.registering = false) ∨
    ∃ p ∈ s.producerIds, (s.producers p).map Producer.pc = some .finished

instance (s : Session) : Decidable (someFinished s) := inferInstanceAs (Decidable (_ ∨ _ ∨ _))

/-- A step of a client that has not ended. -/
def stepRunning (s : Session) : Event → Option (Session × Output)
  | .openStream p => do
    let producer ← s.producers p
    if producer.pc = .starting then (start s p producer).map (·, .nothing) else none
  | .loop p _ => do
    let producer ← s.producers p
    if producer.pc = .looping then
      some (s.setProducer p { producer with pc := if s.running then .acquiring else .finished }, .nothing)
    else none
  | .produce p out => do
    let producer ← s.producers p
    if producer.pc = .producing then some (produce s p producer out) else none
  | .finish => if someFinished s then some ({ s with status := .ended none }, .nothing) else none
  -- `disconnect` is a `ConnectionClosed` in a task, which then returns
  | ev => s.stepRunning ev

def step (s : Session) (ev : Event) : Option (Session × Output) :=
  if s.status = .running then stepRunning s ev else none

end Gabriel.WebsocketClient
