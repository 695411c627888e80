import Gabriel.Client.Composed
import Gabriel.Client.Websocket

/-!
# WebSocket clients and the server

The server together with any number of `WebsocketClient`s at addresses that nobody else uses.  A client has one
connection, on which its registrations and the inputs of all its producers go in order.  The other way the messages of a
client are those that the server sent to its address, in order; a message may be lost, since its sender may be
cancelled while it waits for the write lock.
-/

namespace Gabriel.Websocket

open GrpcClient (Session Output Event)

/-- `WebsocketServer` as the transport of the clients. -/
def transport (cfg : Config) : Config := { cfg with clientTransport := .websocket }

/-- A client and its connection. -/
structure Connection where
  session : Session
  /-- The handler that the server has started for the connection, as an index into its streams. -/
  handler : Option Nat := none
  /-- The messages of the client that the handler has not taken up. -/
  waiting : List FromClient := []
  /-- The number of messages sent to the client that it has read or that were lost. -/
  received : Nat := 0

structure World where
  sys : Interleaved.Sys := {}
  /-- The clients by their addresses. -/
  connections : Address → Option Connection := fun _ => none

inductive Action
  /-- An engine, another client, or a handler that is suspended or ends. -/
  | server (act : Interleaved.Action)
  /-- A client connects from a fresh address. -/
  | connect (a : Address) (clientInfo : Option AnyProto) (producers : List String)
  | client (a : Address) (ev : Event)
  /-- The server starts the handler of a connection. -/
  | accept (a : Address)
  /-- The handler takes up the next message of a client. -/
  | takeUp (a : Address) (order : List Context) (delivered : Bool)
  /-- The next message to a client is lost. -/
  | lose (a : Address)

namespace Connection

/-- Put what a step of the client sends on its connection. -/
def send (conn : Connection) : Output → Connection
  | .write _ msg => { conn with waiting := conn.waiting ++ [msg] }
  | _ => conn

/-- The client reads the next of the messages `sent` to it. -/
def receive (conn : Connection) (sent : List ToClient) : Event → Option Connection
  | .read msg _ => if sent[conn.received]? = some msg then some { conn with received := conn.received + 1 } else none
  | _ => some conn

end Connection

namespace World

def setConnection (w : World) (a : Address) (conn : Connection) : World :=
  { w with connections := Function.update w.connections a (some conn) }

/-- The messages that the server sent to `a`. -/
def sentTo (w : World) (a : Address) : List ToClient := ClientLog.sentTo w.sys.server.frontend.log a

/-- The action does not speak for a client of this world. -/
def foreign (w : World) : Interleaved.Action → Bool
  | .openClient a => (w.connections a).isNone
  | .message i _ _ _ => (w.sys.streams[i]?).all fun stream => (w.connections stream.address).isNone
  | _ => true

end World

def step (cfg : Config) (w : World) : Action → Option World
  | .server act =>
    if w.foreign act then (Interleaved.step (transport cfg) w.sys act).map fun sys => { w with sys := sys } else none
  | .connect a clientInfo producers =>
    if w.connections a = none ∧ a ∉ w.sys.addresses then
      some (w.setConnection a { session := .start clientInfo producers })
    else none
  | .client a ev => do
    let conn ← w.connections a
    let (session, out) ← WebsocketClient.step conn.session ev
    let conn ← conn.receive (w.sentTo a) ev
    return w.setConnection a ({ conn with session := session }.send out)
  | .accept a => do
    let conn ← w.connections a
    if conn.handler = none then
      let sys ← Interleaved.step (transport cfg) w.sys (.openClient a)
      return { w with sys := sys }.setConnection a { conn with handler := some w.sys.streams.length }
    else none
  | .takeUp a order delivered => do
    let conn ← w.connections a
    match conn.handler, conn.waiting with
    | some i, msg :: rest =>
      let sys ← Interleaved.step (transport cfg) w.sys (.message i msg order delivered)
      return { w with sys := sys }.setConnection a { conn with waiting := rest }
    | _, _ => none
  | .lose a => do
    let conn ← w.connections a
    if conn.received < (w.sentTo a).length then
      return w.setConnection a { conn with received := conn.received + 1 }
    else none

/-- The server with its WebSocket clients. -/
def machine (cfg : Config) : Machine World Action := { init := {}, step := step cfg }

end Gabriel.Websocket
