import Gabriel.Server.State

/-!
# The frontend

The methods of `GabrielServer` on the client entries, and the replies of the three transports, cut where they
suspend.
-/

namespace Gabriel

/-- `_make_error_response`. -/
def makeErrorResponse (msg : FromClient) (code : StatusCode) (message : String) : ResultWrapper :=
  { producerId := msg.asInput.producerId
    returnToken := true
    result := { status := { code := code, message := message }, frameId := msg.asInput.frameId } }

namespace Frontend

/-! ### Sending to clients -/

/-- `_send_via_transport` up to its `await`; the flag tells whether it gets there, that is whether the address still
has a client entry (and with it a write lock). -/
def sendViaTransport (f : Frontend) (address : Address) (msg : ToClient) : Frontend × Bool :=
  match f.clients.get? address with
  | none => (f, false)
  | some ref => (f.emit (.toClient ref address msg), true)

/-- `client.tokens_for_producer[p] += n`, if `p` is a key. -/
def addTokens (f : Frontend) (ref : ClientRef) (p : String) (n : Int) : Frontend :=
  f.modifyClient ref fun client =>
    { client with
      tokensForProducer := Function.update client.tokensForProducer p ((client.tokensForProducer p).map (· + n)) }

/-- `send_result` up to the `await` of the transport; the flag tells whether it gets there. -/
def sendResult (f : Frontend) (address : Address) (wrapper : ResultWrapper) : Frontend × Bool :=
  match f.clients.get? address with
  | none => (f, false)
  | some ref =>
    let f := f.emit (.resultFor ref address wrapper)
    let f := if wrapper.returnToken then f.addTokens ref wrapper.producerId 1 else f
    f.sendViaTransport address (.resultWrapper wrapper)

/-! ### Messages from clients -/

/-- The count of tokens for a producer of a client. -/
def tokens (f : Frontend) (ref : ClientRef) (p : String) : Int := ((f.clientObjs ref).tokensForProducer p).getD 0

/-- `tokens_for_producer[p] = num_tokens_per_producer`, if `p` is not a key yet. -/
def initTokens (cfg : Config) (f : Frontend) (ref : ClientRef) (p : String) : Frontend :=
  match (f.clientObjs ref).tokensForProducer p with
  | some _ => f
  | none => f.modifyClient ref fun client =>
    { client with
      tokensForProducer := Function.update client.tokensForProducer p (some cfg.numTokensPerProducer) }

/-- What `_consumer_helper` does with a message before the call of `_engine_cb`. -/
inductive Admission
  | registered
  | refused (code : StatusCode) (message : String)
  /-- The input goes to the dispatcher together with the client's `client_info`. -/
  | forward (info : AnyProto)

/-- `_consumer_helper` up to the call of `_engine_cb`. -/
def consumerHelper (cfg : Config) (f : Frontend) (ref : ClientRef) (address : Address) (msg : FromClient) :
    Frontend × Admission :=
  let f := f.emit (.received ref address msg)
  match msg with
  | .registration info => (f.modifyClient ref fun client => { client with clientInfo := some info }, .registered)
  | _ =>
    match (f.clientObjs ref).clientInfo with
    | none => (f, .refused .unspecifiedError "Client must register before sending input")
    | some info =>
      let f := f.initTokens cfg ref msg.asInput.producerId
      if f.tokens ref msg.asInput.producerId < 1 then (f, .refused .noTokens "No tokens for producer")
      else (f, .forward info)

/-- The consumer deducts the token of an accepted input. -/
def deductToken (f : Frontend) (ref : ClientRef) (mp : MetadataPayload) : Frontend :=
  (f.addTokens ref mp.producerId (-1)).emit (.deducted ref mp)

/-- How the consumer's own reply gets out. -/
inductive Sent
  | sent | dropped | keyError
  deriving DecidableEq, Repr

/-- The consumer's reply to a message, up to the `await` of the write.  gRPC drops it if the write lock of the
session is gone, the WebSocket server looks the lock up without a default, ZeroMQ has no lock. -/
def reply (cfg : Config) (f : Frontend) (ref : ClientRef) (address : Address) (msg : ToClient) : Frontend × Sent :=
  match cfg.clientTransport, f.clients.get? address with
  | .zeromq, _ => (f.emit (.toClient ref address msg), .sent)
  | .grpc, none => (f, .dropped)
  | .websocket, none => (f, .keyError)
  | _, some _ => (f.emit (.toClient ref address msg), .sent)

/-- The consumer's error reply. -/
def replyError (cfg : Config) (f : Frontend) (ref : ClientRef) (address : Address) (msg : FromClient)
    (code : StatusCode) (message : String) : Frontend × Sent :=
  let wrapper := makeErrorResponse msg code message
  (f.emit (.errorReply ref address wrapper)).reply cfg ref address (.resultWrapper wrapper)

/-! ### Clients coming and going -/

/-- A new client entry for `address`. -/
def addClient (f : Frontend) (address : Address) : Frontend :=
  { f with
    clients := f.clients.set address f.nextClient
    clientObjs := Function.update f.clientObjs f.nextClient {}
    nextClient := f.nextClient + 1 }

/-- `del self._clients[address]`; the flag tells whether a `KeyError` is raised. -/
def removeClient (f : Frontend) (address : Address) : Frontend × Bool :=
  match f.clients.get? address with
  | none => (f, true)
  | some _ => ({ f with clients := f.clients.erase address }, false)

end Frontend

end Gabriel
