import Gabriel.Client.Composed
import Gabriel.Client.ZeroMQ

/-!
# The ZeroMQ client and its server

The interleaving server together with one `ZeroMQClient`.  The server knows the client's socket by an identity; it
makes a client entry for it when it has a message of an unknown identity, and deletes the entry when it has heard
nothing from the client for a while.  It may also restart, with no client entries and no engines, and then knows the
socket by the same or by another identity.  Messages are delivered in order; those that are queued at an entry that is
deleted, or in flight when the server restarts, may be lost.
-/

namespace Gabriel.ZeroMQ

open ZeroMQClient

/-- `ZeroMQServer` as the transport of the clients. -/
def transport (cfg : Config) : Config := { cfg with clientTransport := .zeromq }

structure World where
  sys : Interleaved.Sys := {}
  client : State
  /-- The identity of the client's socket. -/
  identity : Address
  /-- The messages of the client that its entry's consumer has not taken up. -/
  up : List Uplink := [.hello]
  /-- The messages to the client that it has not received. -/
  down : List Downlink := []

inductive Action
  /-- An engine, another client, or a handler that is suspended. -/
  | server (act : Interleaved.Action)
  /-- A step of the client; `identity` is that of the new socket, if there is one. -/
  | client (ev : Event) (identity : Address)
  /-- The server makes an entry for the client. -/
  | accept
  /-- The handler `i` takes up the next message of the client. -/
  | takeUp (i : Nat) (order : List Context) (delivered : Bool)
  /-- The handler `i` has heard nothing and deletes the client's entry; of the messages on the way `up` are left. -/
  | forget (i : Nat) (up : List Uplink)
  /-- The server restarts, and knows the client's socket by `identity`; of the messages on the way `up` and `down` are
  left. -/
  | restart (identity : Address) (up : List Uplink) (down : List Downlink)

namespace World

/-- The action does not speak for the client. -/
def foreign (w : World) : Interleaved.Action → Bool
  | .openClient a => a ≠ w.identity
  | .message i _ _ _ | .closeStream i => (w.sys.streams[i]?).all fun stream => stream.address ≠ w.identity
  | _ => true

/-- The messages that the server has sent to the client on the way to the state `sys`. -/
def sent (w : World) (sys : Interleaved.Sys) : List ToClient :=
  ClientLog.sentTo (sys.server.frontend.log.drop w.sys.server.frontend.log.length) w.identity

def isIdle : Interleaved.StreamPc → Bool
  | .idle => true
  | _ => false

/-- The server goes on to the state `sys`. -/
def serve (w : World) (sys : Interleaved.Sys) : World :=
  { w with sys := sys, down := w.down ++ (w.sent sys).map .message }

/-- The client receives the next message on the way to it. -/
def receive (w : World) : Event → Option World
  | .receive msg _ =>
    match w.down with
    | next :: rest => if next = msg then some { w with down := rest } else none
    | [] => none
  | _ => some w

/-- The client puts messages on its socket, possibly a new one. -/
def send (w : World) (identity : Address) (out : Output) : Option World :=
  if out.reconnects then
    if identity ∈ w.sys.addresses ∨ identity = w.identity then none
    else some { w with identity := identity, up := out.sent, down := [] }
  else some { w with up := w.up ++ out.sent }

/-- The consumer of the client's entry takes up a message. -/
def takeUp (cfg : Config) (w : World) (i : Nat) (order : List Context) (delivered : Bool) : Uplink → Option World
  | .hello => some w
  | .heartbeat => some { w with down := w.down ++ [.heartbeat] }
  | .message msg => (Interleaved.step (transport cfg) w.sys (.message i msg order delivered)).map w.serve

/-- The handler `i` is a consumer for the client's identity and waits for a message. -/
def consumes (w : World) (i : Nat) : Bool :=
  (w.sys.streams[i]?).any fun stream => stream.address = w.identity ∧ isIdle stream.pc

end World

def step (cfg : Config) (w : World) : Action → Option World
  | .server act =>
    if w.foreign act then (Interleaved.step (transport cfg) w.sys act).map w.serve else none
  | .client ev identity => do
    let (client, out) ← w.client.step ev
    let w ← w.receive ev
    { w with client := client }.send identity out
  | .accept =>
    if w.up = [] then none
    else (Interleaved.step (transport cfg) w.sys (.openClient w.identity)).map w.serve
  | .takeUp i order delivered =>
    match w.up with
    | msg :: rest => if w.consumes i then { w with up := rest }.takeUp cfg i order delivered msg else none
    | [] => none
  | .forget i up => do
    if w.consumes i ∧ up.Sublist w.up then
      let sys ← Interleaved.step (transport cfg) w.sys (.closeStream i)
      return { w with sys := sys, up := up }
    else none
  | .restart identity up down =>
    if up.Sublist w.up ∧ down.Sublist w.down then
      some { w with sys := {}, identity := identity, up := up, down := down }
    else none

/-- The server with a client that has the producers `ps`. -/
def machine (cfg : Config) (clientInfo : Option AnyProto) (ps : List String) (identity : Address) :
    Machine World Action :=
  { init := { client := .launch clientInfo ps, identity := identity }, step := step cfg }

end Gabriel.ZeroMQ
