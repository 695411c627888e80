import Gabriel.Client.Grpc
import Gabriel.Server.ClientHistory

/-!
# gRPC clients and the server

The server together with any number of `GrpcClient` sessions, under session ids that nobody else uses.  Each stream of
a session is a FIFO channel to the server.  The other way the messages of a session are those that the server sent to
its address, in order; a message may be lost, since its sender may be cancelled while it waits for the write lock.
All other clients and all engines are free to do what they like (`Action.server`).
-/

namespace Gabriel

/-- The message that an event sends to `a`. -/
@[simp] def ClientEvent.messageTo (a : Address) : ClientEvent → Option ToClient
  | .toClient _ b msg => if b = a then some msg else none
  | _ => none

/-- The messages sent to `a`. -/
def ClientLog.sentTo (l : List ClientEvent) (a : Address) : List ToClient := l.filterMap (ClientEvent.messageTo a)

namespace Composed

open GrpcClient

/-- A stream from a session to the server: the handler that the server has started for it, as an index into its
streams, and the messages that the handler has not taken up. -/
structure Uplink where
  handler : Option Nat := none
  waiting : List FromClient := []

/-- A session and its streams. -/
structure Connection where
  session : Session
  uplinks : ClientStream → Option Uplink
  /-- The number of messages sent to the session that it has read or that were lost. -/
  received : Nat := 0

structure World where
  sys : Interleaved.Sys := {}
  /-- The sessions by their ids. -/
  connections : Address → Option Connection := fun _ => none

inductive Action
  /-- An engine, another client, or the handler of a stream that is suspended or ends. -/
  | server (act : Interleaved.Action)
  /-- A session starts under a fresh id. -/
  | connect (a : Address) (clientInfo : Option AnyProto) (producers : List String)
  | client (a : Address) (ev : Event)
  /-- The server starts the handler of a stream. -/
  | accept (a : Address) (stream : ClientStream)
  /-- The handler of a stream takes up the next message. -/
  | takeUp (a : Address) (stream : ClientStream) (order : List Context) (delivered : Bool)
  /-- The next message to a session is lost. -/
  | lose (a : Address)

namespace Connection

/-- The connection of a session that starts: its control stream is open. -/
def start (clientInfo : Option AnyProto) (producers : List String) : Connection :=
  { session := .start clientInfo producers
    uplinks := fun stream => if stream = .control then some {} else none }

def setUplink (conn : Connection) (stream : ClientStream) (uplink : Uplink) : Connection :=
  { conn with uplinks := Function.update conn.uplinks stream (some uplink) }

/-- Put what a step of the session sends on its streams. -/
def send (conn : Connection) : Output → Connection
  | .nothing => conn
  | .openStream p => conn.setUplink (.producer p) {}
  | .write stream msg =>
    match conn.uplinks stream with
    | none => conn
    | some uplink => conn.setUplink stream { uplink with waiting := uplink.waiting ++ [msg] }

/-- The session reads the next of the messages `sent` to it. -/
def receive (conn : Connection) (sent : List ToClient) : Event → Option Connection
  | .read msg _ => if sent[conn.received]? = some msg then some { conn with received := conn.received + 1 } else none
  | _ => some conn

end Connection

namespace World

def setConnection (w : World) (a : Address) (conn : Connection) : World :=
  { w with connections := Function.update w.connections a (some conn) }

/-- The messages that the server sent to `a`. -/
def sentTo (w : World) (a : Address) : List ToClient := ClientLog.sentTo w.sys.server.frontend.log a

/-- The action does not speak for a session of this world. -/
def foreign (w : World) : Interleaved.Action → Bool
  | .openClient a | .openProducer a => (w.connections a).isNone
  | .message i _ _ _ => (w.sys.streams[i]?).all fun stream => (w.connections stream.address).isNone
  | _ => true

end World

/-- The action by which the server starts the handler of a stream. -/
def acceptAction (a : Address) : ClientStream → Interleaved.Action
  | .control => .openClient a
  | .producer _ => .openProducer a

def step (cfg : Config) (w : World) : Action → Option World
  | .server act =>
    if w.foreign act then (Interleaved.step cfg w.sys act).map fun sys => { w with sys := sys } else none
  | .connect a clientInfo producers =>
    if w.connections a = none ∧ a ∉ w.sys.addresses then
      some (w.setConnection a (.start clientInfo producers))
    else none
  | .client a ev => do
    let conn ← w.connections a
    let (session, out) ← conn.session.step ev
    let conn ← conn.receive (w.sentTo a) ev
    return w.setConnection a ({ conn with session := session }.send out)
  | .accept a stream => do
    let conn ← w.connections a
    let uplink ← conn.uplinks stream
    if uplink.handler = none then
      let sys ← Interleaved.step cfg w.sys (acceptAction a stream)
      return { w with sys := sys }.setConnection a
        (conn.setUplink stream { uplink with handler := some w.sys.streams.length })
    else none
  | .takeUp a stream order delivered => do
    let conn ← w.connections a
    let uplink ← conn.uplinks stream
    match uplink.handler, uplink.waiting with
    | some i, msg :: rest =>
      let sys ← Interleaved.step cfg w.sys (.message i msg order delivered)
      return { w with sys := sys }.setConnection a (conn.setUplink stream { uplink with waiting := rest })
    | _, _ => none
  | .lose a => do
    let conn ← w.connections a
    if conn.received < (w.sentTo a).length then
      return w.setConnection a { conn with received := conn.received + 1 }
    else none

/-- The server with the sessions of gRPC clients. -/
def machine (cfg : Config) : Machine World Action := { init := {}, step := step cfg }

end Composed

end Gabriel
