import Gabriel.Client.Ledger
import Gabriel.Client.WebsocketComposed

/-!
# WebSocket clients and the server agree on the tokens

The tokens of a producer are in its pool, held by its task, or on the connection with an input; `Sys.Backs` accounts for
them at the server.  What is different from `GrpcClient` is that all messages of a client share one connection: an
input is told from a registration when the server takes it up, and an input waits there only once the client knows of
its registration.
-/

namespace Gabriel

open ClientLog

namespace WebsocketClient

open GrpcClient

variable {N : Nat} {s s' : Session} {ev : Event} {out : Output} {p : String} {producer : Producer}

/-- What a step puts on the connection. -/
inductive Sends (s : Session) : Output → Prop
  | nothing : Sends s .nothing
  | register (info : AnyProto) : Sends s (.write .control (.registration info))
  | input {p : String} {input : Input} (hp : input.producerId = p) (hpool : s.tokens p ≠ none) :
      Sends s (.write (.producer p) (.input input))

/-- A step of a sound session: it stays sound, and creates no tokens. -/
structure Moves (N : Nat) (s : Session) (ev : Event) (s' : Session) (out : Output) : Prop where
  sound : s'.Sound N
  tokens : ∀ p, s'.stock N p + s'.held p + out.inputs p ≤ s.stock N p + s.held p + ev.tokens p
  sends : Sends s out
  told : s'.registered = s.registered ∨ ∃ n ids raises, ev = .read (.registered n ids) raises

/-- A step that is the same as that of a gRPC session. -/
theorem moves_of_grpc (h : s.Moves N ev s' out) (hout : ∀ p, out ≠ .openStream p) : Moves N s ev s' out := by
  refine ⟨h.sound, h.tokens, ?_, h.told⟩
  cases h.output with
  | nothing => exact .nothing
  | @openStream p => exact absurd rfl (hout p)
  | register info => exact .register info
  | input hp hpool => exact .input hp hpool

/-- A step without output that is the same as that of a gRPC session, but for a stream that is opened. -/
theorem moves_of_opening (h : s.Moves N ev s' out) (hinputs : ∀ p, out.inputs p = 0) : Moves N s ev s' .nothing := by
  refine ⟨h.sound, fun p => ?_, .nothing, h.told⟩
  have htokens := h.tokens p
  rw [hinputs p] at htokens
  exact htokens

/-- `_producer_handler` after its wait for the registration. -/
theorem moves_start (h : s.Sound N) (hp : s.producers p = some producer) (hpc : producer.pc = .starting)
    (hstep : start s p producer = some s') : Moves N s (.openStream p) s' .nothing := by
  have hmoves : ∀ out, s.openStream p producer = some (s', out) → s.Moves N (.openStream p) s' out :=
    fun _ => h.moves_openStream hp hpc
  unfold start at hstep
  unfold Session.openStream at hmoves
  by_cases hrunning : s.running
  · rw [if_pos hrunning] at hstep
    obtain ⟨n, hn, rfl⟩ := Option.map_eq_some_iff.1 hstep
    refine moves_of_opening (hmoves (.openStream p) ?_) fun _ => rfl
    rw [if_pos hrunning, hn]
    rfl
  · rw [if_neg hrunning] at hstep
    obtain rfl := Option.some.inj hstep
    refine moves_of_opening (hmoves .nothing ?_) fun _ => rfl
    rw [if_neg hrunning]

/-- The return of `produce`: unlike `GrpcClient`, an empty frame is sent. -/
theorem moves_produce (h : s.Sound N) (hp : s.producers p = some producer) (hpc : producer.pc = .producing)
    (hroom : s.stock N p + s.held p ≤ N) (produced : Produced) :
    Moves N s ev (produce s p producer produced).1 (produce s p producer produced).2 := by
  have hheld : s.held p = 1 := by rw [Session.held_of_pc hp, hpc]; rfl
  have hsome : s.tokens p ≠ none := h.active p producer hp (by simp [hpc]) (by simp [hpc])
  cases produced with
  | raises => exact moves_of_grpc (h.moves_fail (by decide) (by decide)) (by simp [produce])
  | nothing => exact moves_of_grpc (h.moves_skip hp hpc hroom) (by simp [produce])
  | frame frame checked targets =>
    simp only [produce]
    split
    · -- the token goes out with the input
      refine ⟨h.setProducer (by simp) fun _ => hsome, fun q => ?_, .input rfl hsome, .inl rfl⟩
      rw [Session.held_setProducer]
      by_cases hq : q = p
      · subst hq
        simp [Output.inputs, hheld]
      · simp [Output.inputs, hq, Ne.symm hq]
    · exact moves_of_grpc (h.moves_fail (by decide) (by decide)) (by simp)

/-- Every step of a sound session whose pools have room for the token that the event brings. -/
theorem moves (h : s.Sound N) (hroom : ∀ p, s.stock N p + s.held p + ev.tokens p ≤ N)
    (hcount : ∀ n ids raises, ev = .read (.registered n ids) raises → n = N)
    (hstep : step s ev = some (s', out)) : Moves N s ev s' out := by
  have hroom' : ∀ p, s.stock N p + s.held p ≤ N := fun p => Nat.le_trans (Nat.le_add_right _ _) (hroom p)
  obtain ⟨hrunning, hstep⟩ := Option.ite_none_right_eq_some.1 hstep
  -- the events that are handled as by a gRPC session
  have hgrpc : s.stepRunning ev = some (s', out) → (∀ p, out ≠ .openStream p) → Moves N s ev s' out := by
    intro hsame hout
    exact moves_of_grpc (h.moves hroom hcount (by simpa [Session.step, hrunning] using hsame)) hout
  cases ev with
  | openStream p =>
    obtain ⟨producer, hp, hstep⟩ := Option.bind_eq_some_iff.1 hstep
    obtain ⟨hpc, hstep⟩ := Option.ite_none_right_eq_some.1 hstep
    obtain ⟨s'', hstart, he⟩ := Option.map_eq_some_iff.1 hstep
    cases he
    exact moves_start h hp hpc hstart
  | loop p wanted =>
    obtain ⟨producer, hp, hstep⟩ := Option.bind_eq_some_iff.1 hstep
    obtain ⟨hpc, hstep⟩ := Option.ite_none_right_eq_some.1 hstep
    cases hstep
    refine moves_of_grpc (h.moves_task hp (by simp [hpc]) (by simp [hpc]) ?_ ?_) (by simp)
    · simp only
      split <;> simp
    · simp only
      split <;> simp
  | produce p produced =>
    obtain ⟨producer, hp, hstep⟩ := Option.bind_eq_some_iff.1 hstep
    obtain ⟨hpc, hstep⟩ := Option.ite_none_right_eq_some.1 hstep
    have hmoves : Moves N s (.produce p produced) (produce s p producer produced).1 (produce s p producer produced).2 :=
      moves_produce h hp hpc (hroom' p) produced
    rwa [Option.some.inj hstep] at hmoves
  | finish =>
    obtain ⟨-, hstep⟩ := Option.ite_none_right_eq_some.1 hstep
    cases hstep
    exact moves_of_grpc (h.moves_of_eq rfl rfl rfl ⟨by simp, by simp⟩) (by simp)
  | stop => exact hgrpc hstep (by cases hstep; simp)
  | register =>
    obtain ⟨-, he⟩ := Option.ite_none_right_eq_some.1 hstep
    exact hgrpc hstep (by cases he; simp)
  | acknowledged =>
    obtain ⟨-, he⟩ := Option.ite_none_right_eq_some.1 hstep
    exact hgrpc hstep (by cases he; simp)
  | read msg raises =>
    obtain ⟨-, he⟩ := Option.ite_none_right_eq_some.1 hstep
    exact hgrpc hstep (by cases he; simp)
  | getToken p =>
    refine hgrpc hstep ?_
    obtain ⟨producer, -, hstep⟩ := Option.bind_eq_some_iff.1 hstep
    obtain ⟨-, hstep⟩ := Option.ite_none_right_eq_some.1 hstep
    obtain ⟨pool, -, hstep⟩ := Option.bind_eq_some_iff.1 hstep
    obtain ⟨pool', -, hstep⟩ := Option.bind_eq_some_iff.1 hstep
    cases hstep
    simp
  | written p =>
    refine hgrpc hstep ?_
    obtain ⟨producer, -, hstep⟩ := Option.bind_eq_some_iff.1 hstep
    obtain ⟨-, hstep⟩ := Option.ite_none_right_eq_some.1 hstep
    cases hstep
    simp
  | disconnect => exact hgrpc hstep (by cases hstep; simp)
  | cancel => exact hgrpc hstep (by cases hstep; simp)

end WebsocketClient

namespace Websocket

open GrpcClient
open Composed (Reached)
open WebsocketClient (Sends)

variable {cfg : Config} {w w' : World} {act : Action} {a : Address} {conn : Connection}

/-! ### The steps -/

/-- What a step can do. -/
inductive Step (cfg : Config) (w : World) : Action → World → Prop
  | server {act : Interleaved.Action} {sys : Interleaved.Sys} (hforeign : w.foreign act = true)
      (h : Interleaved.step (transport cfg) w.sys act = some sys) : Step cfg w (.server act) { w with sys := sys }
  | connect {a : Address} {info : Option AnyProto} {ps : List String} (hnew : w.connections a = none)
      (hfresh : a ∉ w.sys.addresses) :
      Step cfg w (.connect a info ps) (w.setConnection a { session := .start info ps })
  | client {a : Address} {ev : Event} {conn conn' : Connection} {session : Session} {out : Output}
      (hconn : w.connections a = some conn) (hstep : WebsocketClient.step conn.session ev = some (session, out))
      (hreceive : conn.receive (w.sentTo a) ev = some conn') :
      Step cfg w (.client a ev) (w.setConnection a ({ conn' with session := session }.send out))
  | accept {a : Address} {conn : Connection} {sys : Interleaved.Sys} (hconn : w.connections a = some conn)
      (hnone : conn.handler = none) (h : Interleaved.step (transport cfg) w.sys (.openClient a) = some sys) :
      Step cfg w (.accept a)
        ({ w with sys := sys }.setConnection a { conn with handler := some w.sys.streams.length })
  | takeUp {a : Address} {order : List Context} {b : Bool} {conn : Connection} {i : Nat} {msg : FromClient}
      {rest : List FromClient} {sys : Interleaved.Sys} (hconn : w.connections a = some conn)
      (hhandler : conn.handler = some i) (hwaiting : conn.waiting = msg :: rest)
      (h : Interleaved.step (transport cfg) w.sys (.message i msg order b) = some sys) :
      Step cfg w (.takeUp a order b) ({ w with sys := sys }.setConnection a { conn with waiting := rest })
  | lose {a : Address} {conn : Connection} (hconn : w.connections a = some conn)
      (hlt : conn.received < (w.sentTo a).length) :
      Step cfg w (.lose a) (w.setConnection a { conn with received := conn.received + 1 })

theorem step_cases (h : step cfg w act = some w') : Step cfg w act w' := by
  cases act with
  | server act =>
    obtain ⟨hforeign, h⟩ := Option.ite_none_right_eq_some.1 h
    obtain ⟨sys, hsys, rfl⟩ := Option.map_eq_some_iff.1 h
    exact .server hforeign hsys
  | connect a info ps =>
    obtain ⟨⟨hnew, hfresh⟩, h⟩ := Option.ite_none_right_eq_some.1 h
    cases h
    exact .connect hnew hfresh
  | client a ev =>
    obtain ⟨conn, hconn, h⟩ := Option.bind_eq_some_iff.1 h
    obtain ⟨⟨session, out⟩, hstep, h⟩ := Option.bind_eq_some_iff.1 h
    obtain ⟨conn', hreceive, h⟩ := Option.bind_eq_some_iff.1 h
    cases h
    exact .client hconn hstep hreceive
  | accept a =>
    obtain ⟨conn, hconn, h⟩ := Option.bind_eq_some_iff.1 h
    obtain ⟨hnone, h⟩ := Option.ite_none_right_eq_some.1 h
    obtain ⟨sys, hsys, h⟩ := Option.bind_eq_some_iff.1 h
    cases h
    exact .accept hconn hnone hsys
  | takeUp a order b =>
    obtain ⟨conn, hconn, h⟩ := Option.bind_eq_some_iff.1 h
    split at h
    · rename_i i msg rest hhandler hwaiting
      obtain ⟨sys, hsys, h⟩ := Option.bind_eq_some_iff.1 h
      cases h
      exact .takeUp hconn hhandler hwaiting hsys
    · cases h
  | lose a =>
    obtain ⟨conn, hconn, h⟩ := Option.bind_eq_some_iff.1 h
    obtain ⟨hlt, h⟩ := Option.ite_none_right_eq_some.1 h
    cases h
    exact .lose hconn hlt

/-- The action of the server in a step. -/
def Action.onServer (w : World) : Action → Option Interleaved.Action
  | .server act => some act
  | .accept a => some (.openClient a)
  | .takeUp a order b => do
    let conn ← w.connections a
    let i ← conn.handler
    let msg ← conn.waiting.head?
    return .message i msg order b
  | _ => none

/-- The server runs as it does on its own. -/
theorem run_sys {as : List Action} (h : (machine cfg).Run as w) :
    ∃ bs, (Interleaved.machine (transport cfg)).Run bs w.sys := by
  refine h.simulate World.sys (fun w act => act.onServer w) rfl fun w act w' _ hstep => ?_
  cases step_cases hstep with
  | server _ hsys => exact ⟨trivial, hsys⟩
  | connect => rfl
  | client => rfl
  | accept _ _ hsys => exact ⟨trivial, hsys⟩
  | takeUp hconn hhandler hwaiting hsys =>
    simp only [Action.onServer, hconn, hhandler, hwaiting, List.head?_cons, Option.pure_def, Option.bind_eq_bind,
      Option.bind_some]
    exact ⟨trivial, hsys⟩
  | lose => rfl

/-! ### The invariant -/

/-- The message is an input of the producer `p`. -/
def isInputOf (p : String) (msg : FromClient) : Bool :=
  decide (msg.isRegistration = false ∧ msg.asInput.producerId = p)

/-- The tokens for `p` that the client has, or has sent with an input that the server has not taken up. -/
def Connection.tokens (N : Nat) (conn : Connection) (p : String) : Nat :=
  conn.session.stock N p + conn.session.held p + conn.waiting.countP (isInputOf p)

theorem Connection.countP_send {s : Session} {out : Output} (h : Sends s out) (p : String) :
    (conn.send out).waiting.countP (isInputOf p) = conn.waiting.countP (isInputOf p) + out.inputs p := by
  cases h with
  | nothing => rfl
  | register info => simp [Connection.send, isInputOf, FromClient.isRegistration, Output.inputs]
  | input hp => simp [Connection.send, isInputOf, FromClient.isRegistration, FromClient.asInput, Output.inputs, hp,
      List.countP_append, List.countP_cons]

/-- The client at the address `a` and the server agree. -/
structure Agrees (cfg : Config) (sys : Interleaved.Sys) (a : Address) (conn : Connection) : Prop where
  session : conn.session.Sound cfg.numTokensPerProducer
  handler : ∀ i, conn.handler = some i → sys.addresses[i]? = some a
  registered : ∀ msg ∈ conn.waiting, msg.isRegistration = false → conn.session.registered ≠ none
  backed : sys.Backs (transport cfg) a conn.handler.isSome conn.received (conn.session.registered ≠ none)
    (conn.tokens cfg.numTokensPerProducer)

section Agreement

variable {sys sys' : Interleaved.Sys}

theorem addresses_of_step {act : Interleaved.Action} (hstep : Interleaved.step (transport cfg) sys act = some sys')
    {i : Nat} (hi : sys.addresses[i]? = some a) : sys'.addresses[i]? = some a := by
  rw [Interleaved.addresses_step hstep, List.getElem?_append_left (List.getElem?_eq_some_iff.1 hi).1]
  exact hi

/-- A step of the server for somebody else. -/
theorem Agrees.elsewhere (h : Agrees cfg sys a conn) (hk : Reached (transport cfg) sys) {act : Interleaved.Action}
    (hstep : Interleaved.step (transport cfg) sys act = some sys') (hopens : a ∉ act.opens)
    (hmsg : ∀ {i msg order b stream}, act = .message i msg order b → sys.streams[i]? = some stream →
      stream.address ≠ a) : Agrees cfg sys' a conn :=
  ⟨h.session, fun i hi => addresses_of_step hstep (h.handler i hi), h.registered,
    h.backed.elsewhere hk hstep hopens hmsg⟩

/-- The inputs on the connection of a client that takes a step. -/
private theorem registered_send {session session' : Session} {out : Output} (hs : Sends session out)
    (hsound : session.Sound cfg.numTokensPerProducer)
    (hwaiting : ∀ msg ∈ conn.waiting, msg.isRegistration = false → session.registered ≠ none)
    (hkeeps : session.registered ≠ none → session'.registered ≠ none) :
    ∀ msg ∈ (conn.send out).waiting, msg.isRegistration = false → session'.registered ≠ none := by
  intro msg hmsg hreg
  cases hs with
  | nothing => exact hkeeps (hwaiting msg hmsg hreg)
  | register info =>
    rcases List.mem_append.1 hmsg with hmsg | hmsg
    · exact hkeeps (hwaiting msg hmsg hreg)
    · rw [List.mem_singleton.1 hmsg] at hreg
      cases hreg
  | @input p input hp hpool => exact hkeeps (hsound.registered p hpool)

/-- The client takes a step. -/
theorem Agrees.client (h : Agrees cfg sys a conn) (hk : Reached (transport cfg) sys) {ev : Event} {session : Session}
    {out : Output} {conn' : Connection} (hstep : WebsocketClient.step conn.session ev = some (session, out))
    (hreceive : conn.receive (sentTo sys.server.frontend.log a) ev = some conn') :
    Agrees cfg sys a ({ conn' with session := session }.send out) := by
  have htokens : ∀ p, conn.session.stock cfg.numTokensPerProducer p + conn.session.held p ≤
      conn.tokens cfg.numTokensPerProducer p := fun p => Nat.le_add_right _ _
  -- the token that the event brings finds room, and the acknowledgement of a registration has the server's number
  have hevent : (∀ p, conn.session.stock cfg.numTokensPerProducer p + conn.session.held p + ev.tokens p ≤
        cfg.numTokensPerProducer) ∧
      ∀ m ids raises, ev = .read (.registered m ids) raises → m = cfg.numTokensPerProducer := by
    cases ev with
    | read msg raises =>
      obtain ⟨hmsg, -⟩ := Option.ite_none_right_eq_some.1 hreceive
      constructor
      · intro p
        have hroom := h.backed.room hk.rooted hmsg p
        have hp := htokens p
        have hN : (transport cfg).numTokensPerProducer = cfg.numTokensPerProducer := rfl
        simp only [Event.tokens]
        omega
      · rintro m ids raises' ⟨⟩
        obtain ⟨ref, hev⟩ := mem_sentTo.1 (List.mem_of_getElem? hmsg)
        exact (hk.welcomed ref a m ids hev).1
    | _ =>
      refine ⟨fun p => ?_, by simp⟩
      exact Nat.le_trans (htokens p) (h.backed.le p)
  have hmoves := WebsocketClient.moves h.session hevent.1 hevent.2 hstep
  have hkeeps : conn.session.registered ≠ none → session.registered ≠ none := by
    intro hr
    rcases hmoves.told with htold | ⟨m, ids, raises, rfl⟩
    · rwa [htold]
    · obtain ⟨-, hstep⟩ := Option.ite_none_right_eq_some.1 hstep
      obtain ⟨-, hstep⟩ := Option.ite_none_right_eq_some.1 hstep
      cases hstep
      simp [Session.read, Session.processMessage, Session.processRegistered]
  have hsend : ∀ c : Connection, (c.send out).session = c.session ∧ (c.send out).handler = c.handler ∧
      (c.send out).received = c.received := by
    intro c
    cases out <;> exact ⟨rfl, rfl, rfl⟩
  have hcount : ∀ p, ({ conn' with session := session }.send out).waiting.countP (isInputOf p) =
      conn'.waiting.countP (isInputOf p) + out.inputs p := fun p => Connection.countP_send hmoves.sends p
  cases ev with
  | read msg raises =>
    obtain ⟨hmsg, he⟩ := Option.ite_none_right_eq_some.1 hreceive
    cases he
    obtain ⟨hsession, hhandler, hreceived⟩ := hsend { conn with received := conn.received + 1, session := session }
    constructor
    · rw [hsession]
      exact hmoves.sound
    · rw [hhandler]
      exact h.handler
    · rw [hsession]
      exact registered_send hmoves.sends h.session h.registered hkeeps
    · rw [hsession, hhandler, hreceived]
      refine h.backed.receive hk.rooted hmsg ?_ fun p => ?_
      · intro hr
        rcases hmoves.told with htold | ⟨m, ids, raises', he⟩
        · exact Or.inl (htold ▸ hr)
        · cases he
          exact Or.inr ⟨m, ids, rfl⟩
      · have hp := hmoves.tokens p
        have hc := hcount p
        simp only [Event.tokens] at hp
        simp only [Connection.tokens, hsession]
        simp only at hc
        omega
  | _ =>
    cases hreceive
    obtain ⟨hsession, hhandler, hreceived⟩ := hsend { conn with session := session }
    constructor
    · rw [hsession]
      exact hmoves.sound
    · rw [hhandler]
      exact h.handler
    · rw [hsession]
      exact registered_send hmoves.sends h.session h.registered hkeeps
    · rw [hsession, hhandler, hreceived]
      refine h.backed.client_step ?_ fun p => ?_
      · intro hr
        rcases hmoves.told with htold | ⟨m, ids, raises', he⟩
        · exact htold ▸ hr
        · cases he
      · have hp := hmoves.tokens p
        have hc := hcount p
        simp only [Event.tokens] at hp
        simp only [Connection.tokens, hsession]
        omega

/-- The server starts the handler of the connection. -/
theorem Agrees.accept (h : Agrees cfg sys a conn) (hk : Reached (transport cfg) sys) (hnone : conn.handler = none)
    (hstep : Interleaved.step (transport cfg) sys (.openClient a) = some sys') :
    Agrees cfg sys' a { conn with handler := some sys.streams.length } := by
  have hbacked := h.backed
  rw [hnone] at hbacked
  refine ⟨h.session, fun i hi => ?_, h.registered, hbacked.accept hk hstep⟩
  cases hi
  rw [Interleaved.addresses_step hstep]
  simp [Interleaved.Sys.addresses, Interleaved.Action.opens]

/-- A message of the client is taken up. -/
theorem Agrees.takeUp (h : Agrees cfg sys a conn) (hk : Reached (transport cfg) sys) {i : Nat} {msg : FromClient}
    {rest : List FromClient} {order : List Context} {b : Bool} (hhandler : conn.handler = some i)
    (hwaiting : conn.waiting = msg :: rest)
    (hstep : Interleaved.step (transport cfg) sys (.message i msg order b) = some sys') :
    Agrees cfg sys' a { conn with waiting := rest } := by
  have hrest : ∀ m ∈ rest, m ∈ conn.waiting := fun m hm => hwaiting ▸ List.mem_cons_of_mem _ hm
  refine ⟨h.session, fun j hj => addresses_of_step hstep (h.handler j hj),
    fun m hm => h.registered m (hrest m hm), ?_⟩
  refine h.backed.message hk (h.handler i hhandler) hstep
    (h.registered msg (hwaiting ▸ List.mem_cons_self)) fun p => ?_
  simp only [Connection.tokens, hwaiting, List.countP_cons, isInputOf, decide_eq_true_eq]
  omega

/-- A message to the client is lost. -/
theorem Agrees.lose (h : Agrees cfg sys a conn) (hk : Reached (transport cfg) sys)
    (hlt : conn.received < (sentTo sys.server.frontend.log a).length) :
    Agrees cfg sys a { conn with received := conn.received + 1 } :=
  ⟨h.session, h.handler, h.registered,
    h.backed.receive hk.rooted (List.getElem?_eq_getElem hlt) Or.inl fun _ => Nat.le_add_right _ _⟩

/-- A client connects from a fresh address. -/
theorem agrees_start (hk : Reached (transport cfg) sys) (ha : a ∉ sys.addresses) (info : Option AnyProto)
    (ps : List String) : Agrees cfg sys a { session := .start info ps } := by
  refine ⟨Session.sound_start _ info ps, by simp, by simp, ?_⟩
  refine (Interleaved.Sys.Backs.start hk.rooted ha fun p => ?_).client_step (fun hr => absurd rfl hr)
    fun p => Nat.le_refl _
  have hheld : (Session.start info ps).held p = 0 := by
    by_cases hp : p ∈ ps <;> simp [Session.held, Session.start, hp]
  have hstock : (Session.start info ps).stock cfg.numTokensPerProducer p = cfg.numTokensPerProducer := rfl
  simp [Connection.tokens, hheld, hstock, transport]

end Agreement

/-- Every client agrees with the server. -/
def World.Agree (cfg : Config) (w : World) : Prop :=
  ∀ a conn, w.connections a = some conn → Agrees cfg w.sys a conn

/-- A step that concerns the client at `b` only. -/
private theorem World.Agree.setConnection {sys : Interleaved.Sys} {b : Address} {conn' : Connection}
    (hb : Agrees cfg sys b conn') (hother : ∀ a conn, a ≠ b → w.connections a = some conn → Agrees cfg sys a conn) :
    World.Agree cfg ({ w with sys := sys }.setConnection b conn') := by
  intro a conn hconn
  by_cases ha : a = b
  · subst ha
    simp only [World.setConnection, Function.update_self, Option.some.injEq] at hconn
    exact hconn ▸ hb
  · simp only [World.setConnection, ne_eq, ha, not_false_eq_true, Function.update_of_ne] at hconn
    exact hother a conn ha hconn

theorem agree_step (hstep : step cfg w act = some w') (hk : Reached (transport cfg) w.sys) (h : w.Agree cfg) :
    w'.Agree cfg := by
  cases step_cases hstep with
  | @server act sys hforeign hsys =>
    intro a conn hconn
    refine (h a conn hconn).elsewhere hk hsys ?_ fun {_ _ _ _ stream} hact hi ha => ?_
    · intro ha
      cases act with
      | openClient b =>
        obtain rfl := List.mem_singleton.1 ha
        simp only at hconn
        simp [World.foreign, hconn] at hforeign
      | openProducer b => cases hsys
      | _ => cases ha
    · subst hact ha
      simp only at hconn
      simp [World.foreign, hi, hconn] at hforeign
  | connect hnew hfresh =>
    exact World.Agree.setConnection (agrees_start hk hfresh _ _) fun a conn _ hconn => h a conn hconn
  | client hconn hsession hreceive =>
    exact World.Agree.setConnection ((h _ _ hconn).client hk hsession hreceive) fun a conn _ hconn => h a conn hconn
  | @accept b conn sys hconn hnone hsys =>
    refine World.Agree.setConnection ((h _ _ hconn).accept hk hnone hsys) fun a conn' ha hconn' => ?_
    refine (h a conn' hconn').elsewhere hk hsys ?_ fun hact => by cases hact
    exact fun hmem => ha (List.mem_singleton.1 hmem)
  | @takeUp b order d conn i msg rest sys hconn hhandler hwaiting hsys =>
    refine World.Agree.setConnection ((h _ _ hconn).takeUp hk hhandler hwaiting hsys) fun a conn' ha hconn' => ?_
    refine (h a conn' hconn').elsewhere hk hsys (by simp [Interleaved.Action.opens])
      fun {_ _ _ _ st} hact hi hst => ?_
    cases hact
    have haddress := (h _ _ hconn).handler i hhandler
    rw [Interleaved.Sys.addresses, List.getElem?_map, hi] at haddress
    exact ha (hst.symm.trans (Option.some.inj haddress))
  | lose hconn hlt => exact World.Agree.setConnection ((h _ _ hconn).lose hk hlt) fun a conn _ hconn => h a conn hconn

theorem run_agree {as : List Action} (h : (machine cfg).Run as w) : w.Agree cfg := by
  refine h.invariant_of (I := World.Agree cfg) (J := fun w => Reached (transport cfg) w.sys) ?_ ?_ ?_
  · intro as w hrun
    obtain ⟨bs, hbs⟩ := run_sys hrun.run
    exact Interleaved.run_reached hbs
  · intro a conn hconn
    cases hconn
  · intro w act w' hk hagree _ hstep
    exact agree_step hstep hk hagree

/-- In every run, for every WebSocket client: the server never answers an input with `NO_TOKENS`, nor for lack of a
registration; the client neither releases a semaphore above its bound nor looks for a token pool that is not there; and
for every producer the tokens in its pool, the one its task holds, those with inputs on the connection and those in
messages on their way back are no more than the number of tokens. -/
theorem websocket_never_refused {as : List Action} (h : (machine cfg).Run as w) (hconn : w.connections a = some conn) :
    (∀ ref wrapper, .errorReply ref a wrapper ∈ w.sys.server.frontend.log →
      wrapper.result.status.code ≠ .noTokens ∧
      wrapper.result.status ≠ ⟨.unspecifiedError, "Client must register before sending input"⟩) ∧
    conn.session.status ≠ .ended (some .tooManyTokens) ∧ conn.session.status ≠ .ended (some .noTokenPool) ∧
    ∀ p, conn.tokens cfg.numTokensPerProducer p + w.sys.undelivered a conn.received p ≤ cfg.numTokensPerProducer := by
  have hagrees := run_agree h a conn hconn
  obtain ⟨bs, hbs⟩ := run_sys h
  have hroot := Interleaved.run_rooted hbs
  refine ⟨fun ref wrapper hev => not_or.1 (hagrees.backed.unrefused ref wrapper hev), hagrees.session.healthy.1,
    hagrees.session.healthy.2, fun p => ?_⟩
  exact hagrees.backed.undelivered_le hroot p

/-- Two producers share the connection; one of them gets its token back with a result and sends another frame. -/
theorem websocket_never_refused_of_two_producers :
    ∃ as w conn, (machine { numTokensPerProducer := 1, sizeForQueues := 1 }).Run as w ∧
      w.connections "c" = some conn ∧ conn.waiting.length = 2 ∧
      (conn.session.producers "P").map Producer.frameId = some 3 ∧
      (∀ ref wrapper, .errorReply ref "c" wrapper ∈ w.sys.server.frontend.log →
        wrapper.result.status.code ≠ .noTokens ∧
        wrapper.result.status ≠ ⟨.unspecifiedError, "Client must register before sending input"⟩) ∧
      conn.session.status ≠ .ended (some .tooManyTokens) ∧ conn.session.status ≠ .ended (some .noTokenPool) ∧
      ∀ p, conn.tokens 1 p + w.sys.undelivered "c" conn.received p ≤ 1 := by
  obtain ⟨w, hrun, hP⟩ := Machine.exists_run (M := machine { numTokensPerProducer := 1, sizeForQueues := 1 })
    (fun w => ((w.connections "c").map fun conn => decide (conn.waiting.length = 2 ∧
      (conn.session.producers "P").map Producer.frameId = some 3)) = some true)
    [.server .openSession, .server (.engineMessage 0 (.register "A" false)), .connect "c" none ["P", "Q"],
      .client "c" .register, .accept "c", .takeUp "c" [] false,
      .client "c" (.read (.registered 1 {"A"}) false), .client "c" (.openStream "P"), .client "c" (.openStream "Q"),
      .client "c" (.loop "P" true), .client "c" (.getToken "P"),
      .client "c" (.produce "P" (.frame {} ["A"] ["A"])),
      .client "c" (.loop "Q" true), .client "c" (.getToken "Q"),
      .client "c" (.produce "Q" (.frame {} ["A"] ["A"])),
      .server (.resumeStream 0 false true), .takeUp "c" [0] true, .server (.resumeStream 0 false true),
      .server (.engineMessage 0 (.result { status := { code := .success }, frameId := 1 })),
      .server (.resumeSession 0 false true),
      .client "c" (.read (.resultWrapper
        ⟨"P", true, { status := { code := .success }, frameId := 1 }⟩) false),
      .client "c" (.written "P"), .client "c" (.loop "P" true), .client "c" (.getToken "P"),
      .client "c" (.produce "P" (.frame {} ["A"] ["A"]))] (by decide)
  obtain ⟨conn, hconn, hP⟩ := Option.map_eq_some_iff.1 hP
  have hP := of_decide_eq_true hP
  exact ⟨_, w, conn, hrun, hconn, hP.1, hP.2, websocket_never_refused hrun hconn⟩

end Websocket

end Gabriel
