import Gabriel.Local.Engine
import Gabriel.Server.Frontend

/-!
# The local server and its clients

`_LocalServer` puts a WebSocket or a ZeroMQ server before the engine: `_send_to_engine` is its `_engine_cb`, and
`_engine_comm` calls its `send_result`.  `_send_to_engine` does not suspend, so a consumer takes up a message and deducts
the token of an input in one step, and `send_result` returns the token before it suspends in its write.
-/

namespace Gabriel.LocalServer

structure Config where
  useZeromq : Bool
  numTokens : Nat
  engine : LocalEngine.Config

/-- The arguments of the WebSocket or ZeroMQ server; the size of the queues is one of the network engine's server. -/
def Config.server (cfg : Config) : Gabriel.Config where
  clientTransport := if cfg.useZeromq then .zeromq else .websocket
  numTokensPerProducer := cfg.numTokens
  sizeForQueues := 0

/-- A `_consumer` with the `client` that it was started for. -/
structure Consumer where
  address : Address
  client : ClientRef
  deriving DecidableEq, Repr

structure State (β : Type) where
  frontend : Frontend := {}
  /-- The consumers that have not ended. -/
  consumers : List Consumer := []
  engine : LocalEngine.State β := {}

inductive Action
  /-- A client connects: its consumer starts with a new entry. -/
  | connect (address : Address)
  /-- The connection of a consumer is closed, or its wait for a message times out. -/
  | disconnect (consumer : Consumer)
  /-- A consumer takes up a message. -/
  | message (consumer : Consumer) (msg : FromClient)
  /-- A step of `_engine_comm`, of the event loop or of the engine process. -/
  | engine (act : LocalEngine.Action)

variable {β : Type}

/-- A consumer ends and deletes the entry of its address. -/
def State.endConsumer (s : State β) (consumer : Consumer) : State β :=
  { s with
    frontend := (s.frontend.removeClient consumer.address).1
    consumers := s.consumers.erase consumer }

def State.afterReply (s : State β) (consumer : Consumer) : Frontend × Frontend.Sent → State β
  | (f, .keyError) => { s with frontend := f }.endConsumer consumer
  | (f, _) => { s with frontend := f }

/-- A consumer's handling of one message. -/
def handle (cfg : Config) (s : State β) (consumer : Consumer) (msg : FromClient) : State β :=
  match s.frontend.consumerHelper cfg.server consumer.client consumer.address msg with
  | (f, .registered) =>
    s.afterReply consumer
      (f.reply cfg.server consumer.client consumer.address (.registered cfg.numTokens {cfg.engine.engineId}))
  | (f, .refused code message) =>
    s.afterReply consumer (f.replyError cfg.server consumer.client consumer.address msg code message)
  | (f, .forward info) =>
    match LocalEngine.sendToEngine cfg.engine s.engine ⟨msg, consumer.address, info⟩ with
    | (engine, .success, _) =>
      { s with frontend := f.addTokens consumer.client msg.asInput.producerId (-1), engine := engine }
    | (engine, code, message) =>
      { s with engine := engine }.afterReply consumer
        (f.replyError cfg.server consumer.client consumer.address msg code message)

/-- A call of `send_result` by `_engine_comm`. -/
def deliver (f : Frontend) (call : LocalEngine.SendResult) : Frontend :=
  (f.sendResult call.address
    { producerId := call.producerId, returnToken := call.returnToken, result := call.result }).1

def step (cd : Codec β) (cfg : Config) (s : State β) : Action → Option (State β)
  | .connect address =>
    -- ZeroMQ makes an entry for an unknown peer only
    if cfg.useZeromq ∧ (s.frontend.clients.get? address).isSome then none
    else some { s with
      frontend := s.frontend.addClient address
      consumers := ⟨address, s.frontend.nextClient⟩ :: s.consumers }
  | .disconnect consumer => if consumer ∈ s.consumers then some (s.endConsumer consumer) else none
  | .message consumer msg => if consumer ∈ s.consumers then some (handle cfg s consumer msg) else none
  | .engine (.sendToEngine _) => none
  | .engine act =>
    (LocalEngine.step cd cfg.engine s.engine act).map fun engine =>
      { s with frontend := (engine.sent.drop s.engine.sent.length).foldl deliver s.frontend, engine := engine }

/-- The local server with its clients. -/
def machine (cd : Codec β) (cfg : Config) : Machine (State β) Action := { init := {}, step := step cd cfg }

end Gabriel.LocalServer
