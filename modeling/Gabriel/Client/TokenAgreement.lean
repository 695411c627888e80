import Gabriel.Client.Coverage
import Gabriel.Client.GrpcLemmas

/-!
# Client and server agree on the tokens

The tokens of a producer of a session are in its pool, held by its task, on the way to the server with an input, being
dispatched, or on the way back with a message.  Together they are at most the credit that the server gives to the
session's client entry, and that is at most the number of tokens.  So an input always finds credit, and a token that
comes back always finds room in its pool.
-/

namespace Gabriel

open Frontend ClientLog

namespace Composed

open GrpcClient

variable {cfg : Config} {w w' : World} {act : Action} {a : Address} {conn : Connection}

/-! ### The steps -/

/-- What a step can do. -/
inductive Step (cfg : Config) (w : World) : Action → World → Prop
  | server {act : Interleaved.Action} {sys : Interleaved.Sys} (hforeign : w.foreign act = true)
      (h : Interleaved.step cfg w.sys act = some sys) : Step cfg w (.server act) { w with sys := sys }
  | connect {a : Address} {info : Option AnyProto} {ps : List String} (hnew : w.connections a = none)
      (hfresh : a ∉ w.sys.addresses) : Step cfg w (.connect a info ps) (w.setConnection a (.start info ps))
  | client {a : Address} {ev : Event} {conn conn' : Connection} {session : Session} {out : Output}
      (hconn : w.connections a = some conn) (hstep : conn.session.step ev = some (session, out))
      (hreceive : conn.receive (w.sentTo a) ev = some conn') :
      Step cfg w (.client a ev) (w.setConnection a ({ conn' with session := session }.send out))
  | accept {a : Address} {stream : ClientStream} {conn : Connection} {uplink : Uplink} {sys : Interleaved.Sys}
      (hconn : w.connections a = some conn) (hup : conn.uplinks stream = some uplink) (hnone : uplink.handler = none)
      (h : Interleaved.step cfg w.sys (acceptAction a stream) = some sys) :
      Step cfg w (.accept a stream) ({ w with sys := sys }.setConnection a
        (conn.setUplink stream { uplink with handler := some w.sys.streams.length }))
  | takeUp {a : Address} {stream : ClientStream} {order : List Context} {b : Bool} {conn : Connection}
      {uplink : Uplink} {i : Nat} {msg : FromClient} {rest : List FromClient} {sys : Interleaved.Sys}
      (hconn : w.connections a = some conn) (hup : conn.uplinks stream = some uplink)
      (hhandler : uplink.handler = some i) (hwaiting : uplink.waiting = msg :: rest)
      (h : Interleaved.step cfg w.sys (.message i msg order b) = some sys) :
      Step cfg w (.takeUp a stream order b) ({ w with sys := sys }.setConnection a
        (conn.setUplink stream { uplink with waiting := rest }))
  | lose {a : Address} {conn : Connection} (hconn : w.connections a = some conn)
      (hlt : conn.received < (w.sentTo a).length) :
      Step cfg w (.lose a) (w.setConnection a { conn with received := conn.received + 1 })

theorem step_cases (h : step cfg w act = some w') : Step cfg w act w' := by
  cases act with
  | server act =>
    simp only [step] at h
    split at h
    · obtain ⟨sys, hsys, rfl⟩ := Option.map_eq_some_iff.1 h
      exact .server ‹_› hsys
    · cases h
  | connect a info ps =>
    simp only [step] at h
    split at h
    · rename_i hnew
      cases h
      exact .connect hnew.1 hnew.2
    · cases h
  | client a ev =>
    obtain ⟨conn, hconn, h⟩ := Option.bind_eq_some_iff.1 h
    obtain ⟨⟨session, out⟩, hstep, h⟩ := Option.bind_eq_some_iff.1 h
    obtain ⟨conn', hreceive, h⟩ := Option.bind_eq_some_iff.1 h
    cases h
    exact .client hconn hstep hreceive
  | accept a stream =>
    obtain ⟨conn, hconn, h⟩ := Option.bind_eq_some_iff.1 h
    obtain ⟨uplink, hup, h⟩ := Option.bind_eq_some_iff.1 h
    split at h
    · obtain ⟨sys, hsys, h⟩ := Option.bind_eq_some_iff.1 h
      cases h
      exact .accept hconn hup ‹_› hsys
    · cases h
  | takeUp a stream order b =>
    obtain ⟨conn, hconn, h⟩ := Option.bind_eq_some_iff.1 h
    obtain ⟨uplink, hup, h⟩ := Option.bind_eq_some_iff.1 h
    split at h
    · rename_i i msg rest hhandler hwaiting
      obtain ⟨sys, hsys, h⟩ := Option.bind_eq_some_iff.1 h
      cases h
      exact .takeUp hconn hup hhandler hwaiting hsys
    · cases h
  | lose a =>
    obtain ⟨conn, hconn, h⟩ := Option.bind_eq_some_iff.1 h
    split at h
    · cases h
      exact .lose hconn ‹_›
    · cases h

/-- The action of the server in a step. -/
def Action.onServer (w : World) : Action → Option Interleaved.Action
  | .server act => some act
  | .accept a stream => some (acceptAction a stream)
  | .takeUp a stream order b => do
    let conn ← w.connections a
    let uplink ← conn.uplinks stream
    let i ← uplink.handler
    let msg ← uplink.waiting.head?
    return .message i msg order b
  | _ => none

/-- The server runs as it does on its own. -/
theorem run_sys {as : List Action} (h : (machine cfg).Run as w) :
    ∃ bs, (Interleaved.machine cfg).Run bs w.sys := by
  refine h.simulate World.sys (fun w act => act.onServer w) rfl fun w act w' _ hstep => ?_
  cases step_cases hstep with
  | server _ h => exact ⟨trivial, h⟩
  | connect => rfl
  | client => rfl
  | accept _ _ _ h => exact ⟨trivial, h⟩
  | takeUp hconn hup hhandler hwaiting h =>
    simp only [Action.onServer, hconn, hup, hhandler, hwaiting, List.head?_cons, Option.pure_def,
      Option.bind_eq_bind, Option.bind_some]
    exact ⟨trivial, h⟩
  | lose => rfl

/-! ### The invariant -/

namespace Connection

/-- The inputs for `p` on the way to the server. -/
def waiting (conn : Connection) (p : String) : Nat :=
  (conn.uplinks (.producer p)).elim 0 fun uplink => uplink.waiting.length

/-- The tokens for `p` that the client has, or has sent with an input that the server has not taken up. -/
def tokens (N : Nat) (conn : Connection) (p : String) : Nat :=
  conn.session.stock N p + conn.session.held p + conn.waiting p

/-- The server has started the handler of the control stream. -/
def accepted (conn : Connection) : Bool := (conn.uplinks .control).any fun uplink => uplink.handler.isSome

/-- The streams carry what the session has put there. -/
structure Tidy (N : Nat) (conn : Connection) : Prop where
  session : conn.session.Sound N
  control : ∃ uplink, conn.uplinks .control = some uplink ∧ ∀ msg ∈ uplink.waiting, msg.isRegistration = true
  inputs : ∀ p uplink, conn.uplinks (.producer p) = some uplink →
    ∀ msg ∈ uplink.waiting, ∃ input : Input, msg = .input input ∧ input.producerId = p
  opened : ∀ p, conn.uplinks (.producer p) = none ↔ conn.session.tokens p = none

/-- A session without a pool for `p` has all its tokens in the pool that is still to be made. -/
theorem Tidy.tokens_of_none {N : Nat} (h : conn.Tidy N) {p : String} (hp : conn.session.tokens p = none) :
    conn.tokens N p = N := by
  have hheld : conn.session.held p = 0 := by
    cases hprod : conn.session.producers p with
    | none => simp [Session.held, hprod]
    | some producer =>
      rw [Session.held_of_pc hprod, if_neg]
      intro hpc
      exact h.session.active p producer hprod (by simp [hpc]) (by simp [hpc]) hp
  simp [tokens, waiting, (h.opened p).2 hp, Session.stock, hp, hheld]

/-- The handlers of the streams other than one that is changed. -/
theorem setUplink_uplinks {stream stream' : ClientStream} {uplink uplink' : Uplink}
    (h : (conn.setUplink stream uplink).uplinks stream' = some uplink') :
    (stream' = stream ∧ uplink' = uplink) ∨ (stream' ≠ stream ∧ conn.uplinks stream' = some uplink') := by
  by_cases hs : stream' = stream
  · subst hs
    simp only [setUplink, Function.update_self, Option.some.injEq] at h
    exact Or.inl ⟨rfl, h.symm⟩
  · simp only [setUplink, ne_eq, hs, not_false_eq_true, Function.update_of_ne] at h
    exact Or.inr ⟨hs, h⟩

/-- A change of a stream that is open. -/
theorem Tidy.setUplink {N : Nat} (h : conn.Tidy N) {stream : ClientStream} {uplink uplink' : Uplink}
    (hup : conn.uplinks stream = some uplink)
    (hwaiting : ∀ msg ∈ uplink'.waiting, msg ∈ uplink.waiting) : (conn.setUplink stream uplink').Tidy N := by
  refine ⟨h.session, ?_, fun p up hp msg hmsg => ?_, fun p => ?_⟩
  · obtain ⟨control, hcontrol, hreg⟩ := h.control
    by_cases hs : stream = .control
    · subst hs
      rw [hup] at hcontrol
      cases hcontrol
      exact ⟨uplink', by simp [Connection.setUplink], fun msg hmsg => hreg msg (hwaiting msg hmsg)⟩
    · exact ⟨control, by simp [Connection.setUplink, Ne.symm hs, hcontrol], hreg⟩
  · rcases setUplink_uplinks hp with ⟨rfl, rfl⟩ | ⟨-, hp⟩
    · exact h.inputs p uplink hup msg (hwaiting msg hmsg)
    · exact h.inputs p up hp msg hmsg
  · refine Iff.trans ?_ (h.opened p)
    by_cases hs : ClientStream.producer p = stream
    · subst hs
      simp [Connection.setUplink, hup]
    · simp [Connection.setUplink, hs]

/-- What the session sends goes on its streams. -/
theorem Tidy.send {N : Nat} (h : conn.Tidy N) {session : Session} {out : Output} (hs : session.Sound N)
    (hout : out.From conn.session session) :
    ({ conn with session := session }.send out).Tidy N ∧
      ∀ p, ({ conn with session := session }.send out).waiting p = conn.waiting p + out.inputs p := by
  cases hout with
  | nothing hnone => exact ⟨⟨hs, h.control, h.inputs, fun p => (h.opened p).trans (hnone p).symm⟩, fun p => rfl⟩
  | @openStream p hp hnone =>
    have hup : conn.uplinks (.producer p) = none := (h.opened p).2 hp
    refine ⟨⟨hs, ?_, fun q up hq msg hmsg => ?_, fun q => ?_⟩, fun q => ?_⟩
    · simpa [Connection.send, Connection.setUplink] using h.control
    · rcases setUplink_uplinks hq with ⟨-, rfl⟩ | ⟨-, hq⟩
      · cases hmsg
      · exact h.inputs q up hq msg hmsg
    · refine Iff.trans ?_ (hnone q).symm
      rw [← h.opened q]
      by_cases hq : q = p
      · subst hq; simp [Connection.send, Connection.setUplink]
      · simp [Connection.send, Connection.setUplink, hq]
    · by_cases hq : q = p
      · subst hq; simp [waiting, Connection.send, Connection.setUplink, Output.inputs, hup]
      · simp [waiting, Connection.send, Connection.setUplink, Output.inputs, hq]
  | register info htokens =>
    obtain ⟨control, hcontrol, hreg⟩ := h.control
    simp only [Connection.send, hcontrol]
    refine ⟨⟨hs, ⟨{ control with waiting := control.waiting ++ [.registration info] }, by simp [Connection.setUplink],
      fun msg hmsg => ?_⟩, fun q up hq => ?_, fun q => ?_⟩, fun q => ?_⟩
    · rcases List.mem_append.1 hmsg with hmsg | hmsg
      · exact hreg msg hmsg
      · rw [List.mem_singleton.1 hmsg]; rfl
    · simp only [Connection.setUplink, ne_eq, reduceCtorEq, not_false_eq_true, Function.update_of_ne] at hq
      exact h.inputs q up hq
    · simpa [Connection.setUplink, htokens] using h.opened q
    · simp [waiting, Connection.setUplink, Output.inputs]
  | @input p input hp hpool htokens =>
    obtain ⟨up, hup⟩ := Option.ne_none_iff_exists'.1 (mt (h.opened p).1 hpool)
    simp only [Connection.send, hup]
    refine ⟨⟨hs, ?_, fun q up' hq msg hmsg => ?_, fun q => ?_⟩, fun q => ?_⟩
    · simpa [Connection.setUplink] using h.control
    · rcases setUplink_uplinks hq with ⟨he, rfl⟩ | ⟨-, hq⟩
      · cases he
        rcases List.mem_append.1 hmsg with hmsg | hmsg
        · exact h.inputs p up hup msg hmsg
        · exact ⟨input, List.mem_singleton.1 hmsg, hp⟩
      · exact h.inputs q up' hq msg hmsg
    · refine Iff.trans ?_ (by rw [htokens] : conn.session.tokens q = none ↔ session.tokens q = none)
      rw [← h.opened q]
      by_cases hq : q = p
      · subst hq; simp [Connection.setUplink, hup]
      · simp [Connection.setUplink, hq]
    · by_cases hq : q = p
      · subst hq; simp [waiting, Connection.setUplink, Output.inputs, hup]
      · simp [waiting, Connection.setUplink, Output.inputs, hq, Ne.symm hq]

/-- The handlers stay where they are when the session sends something. -/
theorem send_handler {out : Output} {stream : ClientStream} {uplink : Uplink}
    (h : (conn.send out).uplinks stream = some uplink) :
    uplink.handler = none ∨ ∃ uplink', conn.uplinks stream = some uplink' ∧ uplink'.handler = uplink.handler := by
  cases out with
  | nothing => exact Or.inr ⟨uplink, h, rfl⟩
  | openStream p =>
    rcases setUplink_uplinks h with ⟨-, rfl⟩ | ⟨-, h⟩
    · exact Or.inl rfl
    · exact Or.inr ⟨uplink, h, rfl⟩
  | write stream' msg =>
    simp only [send] at h
    split at h
    · exact Or.inr ⟨uplink, h, rfl⟩
    · rename_i up hup
      rcases setUplink_uplinks h with ⟨rfl, rfl⟩ | ⟨-, h⟩
      · exact Or.inr ⟨up, hup, rfl⟩
      · exact Or.inr ⟨uplink, h, rfl⟩

theorem accepted_send {out : Output} : (conn.send out).accepted = conn.accepted := by
  cases out with
  | nothing => rfl
  | openStream p => simp [accepted, send, setUplink]
  | write stream msg =>
    simp only [send]
    split
    · rfl
    · rename_i up hup
      by_cases hs : stream = .control
      · subst hs; simp [accepted, setUplink, hup]
      · simp [accepted, setUplink, Ne.symm hs]

end Connection

/-- The session with the id `a` and the server agree. -/
structure Agrees (cfg : Config) (sys : Interleaved.Sys) (a : Address) (conn : Connection) : Prop where
  tidy : conn.Tidy cfg.numTokensPerProducer
  handlers : ∀ stream uplink i, conn.uplinks stream = some uplink → uplink.handler = some i →
    sys.addresses[i]? = some a
  received : conn.received ≤ (sentTo sys.server.frontend.log a).length
  greeted : conn.session.registered ≠ none → ∃ n ids, .registered n ids ∈ sentTo sys.server.frontend.log a
  unrefused : sys.Unrefused a
  balance : (conn.accepted = false ∧ a ∉ sys.addresses) ∨ (conn.accepted = true ∧
    ∃ e, sys.Covers cfg a e conn.received (conn.tokens cfg.numTokensPerProducer))

/-- What holds of the server in every run. -/
structure Reached (cfg : Config) (sys : Interleaved.Sys) : Prop where
  tracked : sys.ClientsTracked
  counted : sys.Counted
  solvent : ∀ a p, sys.server.dispatcher.Solvent a p
  rooted : sys.Rooted
  welcomed : sys.Welcomed cfg
  traced : sys.Traced

theorem run_reached {as : List Action} (h : (machine cfg).Run as w) : Reached cfg w.sys := by
  obtain ⟨bs, hbs⟩ := run_sys h
  exact ⟨Interleaved.run_clientsTracked hbs, Interleaved.run_counted hbs, fun a p => (Interleaved.run_ledger hbs a p).1,
    Interleaved.run_rooted hbs, Interleaved.run_welcomed hbs, Interleaved.run_traced hbs⟩

section Agreement

variable {sys sys' : Interleaved.Sys}

/-- Nothing was sent to an id that the server does not know. -/
theorem sentTo_eq_nil (hroot : sys.Rooted) (ha : a ∉ sys.addresses) : sentTo sys.server.frontend.log a = [] := by
  rw [List.eq_nil_iff_forall_not_mem]
  intro msg hmsg
  obtain ⟨ref, hev⟩ := mem_sentTo.1 hmsg
  exact ha (hroot.log _ hev)

/-- A session that the server does not know has made no pools. -/
theorem Agrees.tokens_eq_none (h : Agrees cfg sys a conn) (hroot : sys.Rooted) (ha : a ∉ sys.addresses) (p : String) :
    conn.session.tokens p = none := by
  by_contra hp
  obtain ⟨n, ids, hmem⟩ := h.greeted (h.tidy.session.registered p hp)
  rw [sentTo_eq_nil hroot ha] at hmem
  cases hmem

/-- Handlers and messages stay. -/
private theorem Agrees.monotone (h : Agrees cfg sys a conn) {act : Interleaved.Action}
    (hstep : Interleaved.step cfg sys act = some sys') :
    (∀ stream uplink i, conn.uplinks stream = some uplink → uplink.handler = some i → sys'.addresses[i]? = some a) ∧
    conn.received ≤ (sentTo sys'.server.frontend.log a).length ∧
    (conn.session.registered ≠ none → ∃ n ids, .registered n ids ∈ sentTo sys'.server.frontend.log a) := by
  obtain ⟨es, hes⟩ := (Interleaved.history_step hstep).log_grows
  rw [← hes, sentTo_append, Interleaved.addresses_step hstep]
  refine ⟨fun stream uplink i hup hi => ?_, ?_, fun hr => ?_⟩
  · have haddress := h.handlers stream uplink i hup hi
    rwa [List.getElem?_append_left (List.getElem?_eq_some_iff.1 haddress).1]
  · rw [List.length_append]
    exact Nat.le_trans h.received (Nat.le_add_right _ _)
  · obtain ⟨n, ids, hmem⟩ := h.greeted hr
    exact ⟨n, ids, List.mem_append_left _ hmem⟩

/-- A step of the server for somebody else. -/
theorem Agrees.elsewhere (h : Agrees cfg sys a conn) (hk : Reached cfg sys) {act : Interleaved.Action}
    (hstep : Interleaved.step cfg sys act = some sys') (hopens : a ∉ act.opens)
    (hmsg : ∀ {i msg order b stream}, act = .message i msg order b → sys.streams[i]? = some stream →
      stream.address ≠ a) : Agrees cfg sys' a conn := by
  obtain ⟨hhandlers, hreceived, hgreeted⟩ := h.monotone hstep
  refine ⟨h.tidy, hhandlers, hreceived, hgreeted, ?_, ?_⟩
  · exact h.unrefused.step hstep fun hact hi ha => absurd ha (hmsg hact hi)
  · rcases h.balance with ⟨hacc, ha⟩ | ⟨hacc, e, hcovers⟩
    · refine Or.inl ⟨hacc, ?_⟩
      rw [Interleaved.addresses_step hstep, List.mem_append]
      exact not_or.2 ⟨ha, hopens⟩
    · refine Or.inr ⟨hacc, e, hcovers.step hstep hk.counted ?_ h.received (fun _ => 0) (fun p hsends => ?_)
        fun _ => Nat.le_refl _⟩
      · rintro rfl
        exact hopens (List.mem_singleton.2 rfl)
      · cases act with
        | message i msg order b =>
          obtain ⟨⟨stream, hi, -, ha, -⟩, -⟩ := hsends
          exact absurd ha (hmsg rfl hi)
        | _ => exact hsends.elim

/-- A session reads a message, or does something else. -/
private theorem receive_cases {sent : List ToClient} {ev : Event} {conn' : Connection}
    (h : conn.receive sent ev = some conn') :
    (conn' = conn ∧ ∀ msg raises, ev ≠ .read msg raises) ∨
      ∃ msg raises, ev = .read msg raises ∧ sent[conn.received]? = some msg ∧
        conn' = { conn with received := conn.received + 1 } := by
  cases ev with
  | read msg raises =>
    simp only [Connection.receive] at h
    split at h
    · cases h
      exact Or.inr ⟨msg, raises, rfl, ‹_›, rfl⟩
    · cases h
  | _ =>
    cases h
    exact Or.inl ⟨rfl, fun _ _ he => by cases he⟩

private theorem undelivered_succ {n : Nat} {msg : ToClient} (p : String)
    (h : (sentTo sys.server.frontend.log a)[n]? = some msg) :
    sys.undelivered a n p = sys.undelivered a (n + 1) p + if msg.carriesToken p then 1 else 0 := by
  obtain ⟨hlt, hmsg⟩ := List.getElem?_eq_some_iff.1 h
  rw [Interleaved.Sys.undelivered, List.drop_eq_getElem_cons hlt, List.countP_cons, hmsg, Interleaved.Sys.undelivered]

theorem Agrees.client (h : Agrees cfg sys a conn) (hk : Reached cfg sys) {ev : Event} {session : Session} {out : Output}
    {conn' : Connection} (hstep : conn.session.step ev = some (session, out))
    (hreceive : conn.receive (sentTo sys.server.frontend.log a) ev = some conn') :
    Agrees cfg sys a ({ conn' with session := session }.send out) := by
  -- the messages that are left, and the token that the session reads
  have hread : conn'.session = conn.session ∧ conn'.uplinks = conn.uplinks ∧
      conn'.received ≤ (sentTo sys.server.frontend.log a).length ∧
      (∀ p, sys.undelivered a conn.received p = sys.undelivered a conn'.received p + ev.tokens p) ∧
      ∀ n ids raises, ev = .read (.registered n ids) raises →
        .registered n ids ∈ sentTo sys.server.frontend.log a := by
    rcases receive_cases hreceive with ⟨rfl, hev⟩ | ⟨msg, raises, rfl, hmsg, rfl⟩
    · refine ⟨rfl, rfl, h.received, fun p => ?_, fun n ids raises he => absurd he (hev _ _)⟩
      cases ev with
      | read msg raises => exact absurd rfl (hev msg raises)
      | _ => rfl
    · refine ⟨rfl, rfl, (List.getElem?_eq_some_iff.1 hmsg).1, fun p => undelivered_succ p hmsg, ?_⟩
      rintro n ids raises ⟨⟩
      exact List.mem_of_getElem? hmsg
  obtain ⟨hsession, huplinks, hreceived, hund, hregistered⟩ := hread
  have hroom : ∀ p, conn.session.stock cfg.numTokensPerProducer p + conn.session.held p + ev.tokens p ≤
      cfg.numTokensPerProducer := by
    intro p
    have hundp := hund p
    rcases h.balance with ⟨-, ha⟩ | ⟨-, e, hcovers⟩
    · have htokens := h.tidy.tokens_of_none (h.tokens_eq_none hk.rooted ha p)
      have hzero : sys.undelivered a conn.received p = 0 := by
        rw [Interleaved.Sys.undelivered, sentTo_eq_nil hk.rooted ha]
        simp
      rw [Connection.tokens] at htokens
      omega
    · have hle := hcovers.le p
      rw [Connection.tokens] at hle
      omega
  have hcount : ∀ n ids raises, ev = .read (.registered n ids) raises → n = cfg.numTokensPerProducer := by
    intro n ids raises he
    obtain ⟨ref, hev⟩ := mem_sentTo.1 (hregistered n ids raises he)
    exact (hk.welcomed ref a n ids hev).1
  have hmoves := h.tidy.session.moves hroom hcount hstep
  have hconn : { conn' with session := session } =
      { { conn with received := conn'.received } with session := session } := by
    rw [← huplinks]
  have htidy : Connection.Tidy cfg.numTokensPerProducer { conn with received := conn'.received } :=
    ⟨h.tidy.session, h.tidy.control, h.tidy.inputs, h.tidy.opened⟩
  obtain ⟨hsend, hwaiting⟩ := htidy.send hmoves.sound hmoves.output
  rw [hconn]
  have hsess : ({ { conn with received := conn'.received } with session := session }.send out).session = session := by
    cases out <;> simp only [Connection.send, Connection.setUplink]
    split <;> rfl
  have hrec : ({ { conn with received := conn'.received } with session := session }.send out).received =
      conn'.received := by
    cases out <;> simp only [Connection.send, Connection.setUplink]
    split <;> rfl
  refine ⟨hsend, fun stream uplink i hup hi => ?_, by rw [hrec]; exact hreceived, fun hr => ?_, h.unrefused, ?_⟩
  · rcases Connection.send_handler hup with hnone | ⟨uplink', hup', he⟩
    · rw [hnone] at hi
      cases hi
    · exact h.handlers stream uplink' i hup' (he.trans hi)
  · rw [hsess] at hr
    rcases hmoves.told with htold | ⟨n, ids, raises, he⟩
    · exact h.greeted (htold ▸ hr)
    · exact ⟨n, ids, hregistered n ids raises he⟩
  · rw [Connection.accepted_send, hrec]
    refine h.balance.imp id ?_
    rintro ⟨hacc, e, hcovers⟩
    refine ⟨hacc, e, hcovers.flow, hcovers.entry, fun p => ?_⟩
    have hcredit := hcovers.credit p
    have htokens := hmoves.tokens p
    have hw := hwaiting p
    have hw' : ({ conn with received := conn'.received } : Connection).waiting p = conn.waiting p := rfl
    have hundp := hund p
    rw [hw'] at hw
    rw [Connection.tokens] at hcredit
    rw [Connection.tokens, hsess, hw]
    omega

/-- The server starts the handler of a stream. -/
theorem Agrees.accept (h : Agrees cfg sys a conn) (hk : Reached cfg sys) {stream : ClientStream} {uplink : Uplink}
    (hup : conn.uplinks stream = some uplink) (hnone : uplink.handler = none)
    (hstep : Interleaved.step cfg sys (acceptAction a stream) = some sys') :
    Agrees cfg sys' a (conn.setUplink stream { uplink with handler := some sys.streams.length }) := by
  obtain ⟨hhandlers, hreceived, hgreeted⟩ := h.monotone hstep
  have hopens : (acceptAction a stream).opens = [a] := by cases stream <;> rfl
  have hunrefused : sys'.Unrefused a := h.unrefused.step hstep fun hact => by cases stream <;> cases hact
  have hhandlers' : ∀ stream' uplink' i,
      (conn.setUplink stream { uplink with handler := some sys.streams.length }).uplinks stream' = some uplink' →
      uplink'.handler = some i → sys'.addresses[i]? = some a := by
    intro stream' uplink' i hup' hi
    rcases Connection.setUplink_uplinks hup' with ⟨-, rfl⟩ | ⟨-, hup'⟩
    · cases hi
      rw [Interleaved.addresses_step hstep, hopens]
      simp [Interleaved.Sys.addresses]
    · exact hhandlers stream' uplink' i hup' hi
  have htidy : (conn.setUplink stream { uplink with handler := some sys.streams.length }).Tidy
      cfg.numTokensPerProducer := h.tidy.setUplink hup fun _ => id
  have htokens : ∀ p, (conn.setUplink stream { uplink with handler := some sys.streams.length }).tokens
      cfg.numTokensPerProducer p = conn.tokens cfg.numTokensPerProducer p := by
    intro p
    by_cases hs : ClientStream.producer p = stream
    · subst hs; simp [Connection.tokens, Connection.waiting, Connection.setUplink, hup]
    · simp [Connection.tokens, Connection.waiting, Connection.setUplink, hs]
  refine ⟨htidy, hhandlers', hreceived, hgreeted, hunrefused, Or.inr ?_⟩
  cases stream with
  | control =>
    -- the client entry is made, and nothing is left of an earlier one
    have hacc : conn.accepted = false := by simp [Connection.accepted, hup, hnone]
    rcases h.balance with ⟨-, ha⟩ | ⟨hacc', -⟩
    · simp only [acceptAction, Interleaved.step] at hstep
      split at hstep
      · cases hstep
      cases hstep
      refine ⟨by simp [Connection.accepted, Connection.setUplink], sys.server.frontend.nextClient,
        (hk.rooted.cleared hk.traced ha).flow hk.tracked hk.solvent, fun ref msg hev => absurd (hk.rooted.log _ hev) ha,
        fun p => ?_⟩
      have hzero : sys.undelivered a conn.received p = 0 := by
        rw [Interleaved.Sys.undelivered, sentTo_eq_nil hk.rooted ha]
        simp
      rw [htokens p, h.tidy.tokens_of_none (h.tokens_eq_none hk.rooted ha p),
        hk.tracked.dispatchingFor_openClient, Interleaved.credit_addClient]
      have hzero' : Interleaved.Sys.undelivered { sys with
          server := { sys.server with frontend := sys.server.frontend.addClient a }
          streams := sys.streams ++ [{ address := a, owner := some sys.server.frontend.nextClient, pc := .idle }] } a
            conn.received p = 0 := hzero
      have hreceived' : (conn.setUplink .control { uplink with handler := some sys.streams.length }).received =
          conn.received := rfl
      rw [hreceived', hzero']
      omega
    · rw [hacc] at hacc'
      cases hacc'
  | producer p =>
    rcases h.balance with ⟨-, ha⟩ | ⟨hacc, e, hcovers⟩
    · -- producer streams are opened after the registration
      rw [(h.tidy.opened p).2 (h.tokens_eq_none hk.rooted ha p)] at hup
      cases hup
    · refine ⟨by simpa [Connection.accepted, Connection.setUplink] using hacc, e, ?_⟩
      refine hcovers.step hstep hk.counted (by simp [acceptAction]) h.received (fun _ => 0)
        (fun _ hsends => hsends.elim) fun q => ?_
      rw [htokens q]
      exact Nat.le_refl _

/-- A message that the session has sent is taken up. -/
theorem Agrees.takeUp (h : Agrees cfg sys a conn) (hk : Reached cfg sys) {stream : ClientStream} {uplink : Uplink}
    {i : Nat} {msg : FromClient} {rest : List FromClient} {order : List Context} {b : Bool}
    (hup : conn.uplinks stream = some uplink) (hhandler : uplink.handler = some i)
    (hwaiting : uplink.waiting = msg :: rest)
    (hstep : Interleaved.step cfg sys (.message i msg order b) = some sys') :
    Agrees cfg sys' a (conn.setUplink stream { uplink with waiting := rest }) := by
  obtain ⟨hhandlers, hreceived, hgreeted⟩ := h.monotone hstep
  have haddress := h.handlers stream uplink i hup hhandler
  have hmem : ∀ m ∈ rest, m ∈ uplink.waiting := fun m hm => hwaiting ▸ List.mem_cons_of_mem _ hm
  have hmsg : msg ∈ uplink.waiting := hwaiting ▸ List.mem_cons_self
  rcases h.balance with ⟨-, ha⟩ | ⟨hacc, e, hcovers⟩
  · exact absurd (List.mem_of_getElem? haddress) ha
  -- an input of the session takes a token from those on the way
  have hused : ∀ p, (conn.setUplink stream { uplink with waiting := rest }).tokens cfg.numTokensPerProducer p +
      (if stream = .producer p then 1 else 0) ≤ conn.tokens cfg.numTokensPerProducer p := by
    intro p
    by_cases hs : ClientStream.producer p = stream
    · subst hs
      simp [Connection.tokens, Connection.waiting, Connection.setUplink, hup, hwaiting, Nat.add_assoc]
    · simp [Connection.tokens, Connection.waiting, Connection.setUplink, hs, Ne.symm hs]
  have hinput : msg.isRegistration = false → ∃ p, stream = .producer p ∧ msg.asInput.producerId = p := by
    intro hreg
    cases stream with
    | control =>
      obtain ⟨control, hcontrol, hall⟩ := h.tidy.control
      rw [hup] at hcontrol
      cases hcontrol
      rw [hall msg hmsg] at hreg
      cases hreg
    | producer p =>
      obtain ⟨input, rfl, hp⟩ := h.tidy.inputs p uplink hup msg hmsg
      exact ⟨p, rfl, hp⟩
  refine ⟨h.tidy.setUplink hup hmem, fun stream' uplink' j hup' hj => ?_, hreceived, hgreeted, ?_, Or.inr ⟨?_, e, ?_⟩⟩
  · rcases Connection.setUplink_uplinks hup' with ⟨-, rfl⟩ | ⟨-, hup'⟩
    · exact hhandlers stream uplink j hup hj
    · exact hhandlers stream' uplink' j hup' hj
  · refine h.unrefused.step hstep fun {_ _ _ _ st ref} hact hi ha hidle hclient hreg => ?_
    cases hact
    obtain ⟨p, rfl, hp⟩ := hinput hreg
    have hrun : st.pc.running := by rw [hidle]; trivial
    obtain rfl := (hcovers.flow.client (List.mem_of_getElem? hi) hrun hclient).1 ha
    constructor
    · have hcredit := hcovers.credit p
      have hp' := hused p
      simp only [↓reduceIte] at hp'
      rw [hp]
      omega
    · -- the session has a pool for `p`, so it was told that it is registered
      have hpool : conn.session.tokens p ≠ none := by
        intro hnone
        rw [(h.tidy.opened p).2 hnone] at hup
        cases hup
      obtain ⟨n, ids, hreg⟩ := h.greeted (h.tidy.session.registered p hpool)
      obtain ⟨ref', hev⟩ := mem_sentTo.1 hreg
      obtain rfl := hcovers.entry ref' _ hev
      exact (hk.welcomed _ _ _ _ hev).2
  · by_cases hs : stream = .control
    · subst hs
      simp [Connection.accepted, Connection.setUplink, hhandler]
    · simpa [Connection.accepted, Connection.setUplink, Ne.symm hs] using hacc
  · refine hcovers.step hstep hk.counted (by simp) h.received (fun p => if stream = .producer p then 1 else 0)
      (fun p hsends => ?_) hused
    obtain ⟨-, hreg, hp⟩ := hsends
    obtain ⟨q, rfl, hq⟩ := hinput hreg
    rw [if_pos (by rw [← hp, hq])]

/-- A message to the session is lost. -/
theorem Agrees.lose (h : Agrees cfg sys a conn) (hlt : conn.received < (sentTo sys.server.frontend.log a).length) :
    Agrees cfg sys a { conn with received := conn.received + 1 } := by
  refine ⟨⟨h.tidy.session, h.tidy.control, h.tidy.inputs, h.tidy.opened⟩, h.handlers, hlt, h.greeted, h.unrefused,
    h.balance.imp id fun ⟨hacc, e, hcovers⟩ => ⟨hacc, e, hcovers.flow, hcovers.entry, fun p => ?_⟩⟩
  have hcredit := hcovers.credit p
  have hund := undelivered_succ p (List.getElem?_eq_getElem hlt)
  have htokens : ({ conn with received := conn.received + 1 } : Connection).tokens cfg.numTokensPerProducer p =
      conn.tokens cfg.numTokensPerProducer p := rfl
  rw [htokens]
  simp only
  omega

/-- A session starts under a fresh id. -/
theorem agrees_start (hk : Reached cfg sys) (ha : a ∉ sys.addresses) (info : Option AnyProto) (ps : List String) :
    Agrees cfg sys a (.start info ps) := by
  refine ⟨⟨Session.sound_start _ info ps, ⟨{}, rfl, by simp⟩, fun p uplink hp => ?_, fun p => ?_⟩,
    fun stream uplink i hup hi => ?_, Nat.zero_le _, fun hr => absurd rfl hr,
    fun ref w hev => absurd (hk.rooted.log _ hev) ha, Or.inl ⟨rfl, ha⟩⟩
  · simp [Connection.start] at hp
  · simp [Connection.start, Session.start]
  · simp only [Connection.start] at hup
    split at hup
    · cases hup
      cases hi
    · cases hup

end Agreement

/-- Every session agrees with the server. -/
def World.Agree (cfg : Config) (w : World) : Prop :=
  ∀ a conn, w.connections a = some conn → Agrees cfg w.sys a conn

/-- A step that concerns the session `b` only. -/
private theorem World.Agree.setConnection {sys : Interleaved.Sys} {b : Address} {conn' : Connection}
    (hb : Agrees cfg sys b conn') (hother : ∀ a conn, a ≠ b → w.connections a = some conn → Agrees cfg sys a conn) :
    World.Agree cfg ({ w with sys := sys }.setConnection b conn') := by
  intro a conn hconn
  by_cases ha : a = b
  · subst ha
    simp only [World.setConnection, Function.update_self, Option.some.injEq] at hconn
    exact hconn ▸ hb
  · simp only [World.setConnection, ne_eq, ha, not_false_eq_true, Function.update_of_ne] at hconn
    exact hother a conn ha hconn

theorem agree_step (hstep : step cfg w act = some w') (hk : Reached cfg w.sys) (h : w.Agree cfg) : w'.Agree cfg := by
  cases step_cases hstep with
  | @server act sys hforeign hsys =>
    intro a conn hconn
    refine (h a conn hconn).elsewhere hk hsys ?_ fun {_ _ _ _ stream} hact hi ha => ?_
    · intro ha
      cases act with
      | openClient b =>
        obtain rfl := List.mem_singleton.1 ha
        simp only at hconn
        simp [World.foreign, hconn] at hforeign
      | openProducer b =>
        obtain rfl := List.mem_singleton.1 ha
        simp only at hconn
        simp [World.foreign, hconn] at hforeign
      | _ => cases ha
    · subst hact ha
      simp only at hconn
      simp [World.foreign, hi, hconn] at hforeign
  | connect hnew hfresh =>
    exact World.Agree.setConnection (agrees_start hk hfresh _ _) fun a conn _ hconn => h a conn hconn
  | client hconn hsession hreceive =>
    exact World.Agree.setConnection ((h _ _ hconn).client hk hsession hreceive) fun a conn _ hconn => h a conn hconn
  | @accept b stream conn uplink sys hconn hup hnone hsys =>
    refine World.Agree.setConnection ((h _ _ hconn).accept hk hup hnone hsys) fun a conn' ha hconn' => ?_
    refine (h a conn' hconn').elsewhere hk hsys ?_ fun hact => ?_
    · cases stream <;> exact fun hmem => ha (List.mem_singleton.1 hmem)
    · cases stream <;> cases hact
  | @takeUp b stream order d conn uplink i msg rest sys hconn hup hhandler hwaiting hsys =>
    refine World.Agree.setConnection ((h _ _ hconn).takeUp hk hup hhandler hwaiting hsys) fun a conn' ha hconn' => ?_
    refine (h a conn' hconn').elsewhere hk hsys (by simp [Interleaved.Action.opens])
      fun {_ _ _ _ st} hact hi hst => ?_
    cases hact
    have haddress := (h _ _ hconn).handlers stream uplink i hup hhandler
    rw [Interleaved.Sys.addresses, List.getElem?_map, hi] at haddress
    exact ha (hst.symm.trans (Option.some.inj haddress))
  | lose hconn hlt => exact World.Agree.setConnection ((h _ _ hconn).lose hlt) fun a conn _ hconn => h a conn hconn

theorem run_agree {as : List Action} (h : (machine cfg).Run as w) : w.Agree cfg := by
  have hinit : World.Agree cfg {} := fun _ _ hconn => (nomatch hconn)
  exact h.invariant_of (I := World.Agree cfg) (J := fun w => Reached cfg w.sys) (fun h => run_reached h.run) hinit
    (fun _ _ _ hk h _ hstep => agree_step hstep hk h)

/-- In every run, for every session: the server never answers an input with `NO_TOKENS`, nor for lack of a
registration; and the client neither releases a semaphore above its bound nor looks for a token pool that is not
there. -/
theorem session_never_refused {as : List Action} (h : (machine cfg).Run as w) (hconn : w.connections a = some conn) :
    (∀ ref wrapper, .errorReply ref a wrapper ∈ w.sys.server.frontend.log →
      wrapper.result.status.code ≠ .noTokens ∧
      wrapper.result.status ≠ ⟨.unspecifiedError, "Client must register before sending input"⟩) ∧
    conn.session.status ≠ .ended (some .tooManyTokens) ∧ conn.session.status ≠ .ended (some .noTokenPool) := by
  have hagrees := run_agree h a conn hconn
  refine ⟨fun ref wrapper hev => ?_, hagrees.tidy.session.healthy⟩
  exact not_or.1 (hagrees.unrefused ref wrapper hev)

/-- A session with one token sends a frame, gets its token back with the result, and sends another. -/
theorem session_never_refused_of_two_frames :
    ∃ as w conn, (machine { numTokensPerProducer := 1, sizeForQueues := 1 }).Run as w ∧
      w.connections "s" = some conn ∧ conn.waiting "P" = 1 ∧
      (conn.session.producers "P").map Producer.frameId = some 3 ∧
      (∀ ref wrapper, .errorReply ref "s" wrapper ∈ w.sys.server.frontend.log →
        wrapper.result.status.code ≠ .noTokens ∧
        wrapper.result.status ≠ ⟨.unspecifiedError, "Client must register before sending input"⟩) ∧
      conn.session.status ≠ .ended (some .tooManyTokens) ∧ conn.session.status ≠ .ended (some .noTokenPool) := by
  obtain ⟨w, hrun, hP⟩ := Machine.exists_run (M := machine { numTokensPerProducer := 1, sizeForQueues := 1 })
    (fun w => ((w.connections "s").map fun conn => decide (conn.waiting "P" = 1 ∧
      (conn.session.producers "P").map Producer.frameId = some 3)) = some true)
    [.server .openSession, .server (.engineMessage 0 (.register "A" false)), .connect "s" none ["P"],
      .client "s" .register, .accept "s" .control, .takeUp "s" .control [] false,
      .client "s" (.read (.registered 1 {"A"}) false), .client "s" (.openStream "P"),
      .client "s" (.loop "P" true), .client "s" (.getToken "P"),
      .client "s" (.produce "P" (.frame { payloadType := .text } ["A"] ["A"])), .accept "s" (.producer "P"),
      .takeUp "s" (.producer "P") [0] true, .server (.resumeStream 1 false true),
      .server (.engineMessage 0 (.result { status := { code := .success }, frameId := 1 })),
      .server (.resumeSession 0 false true),
      .client "s" (.read (.resultWrapper
        ⟨"P", true, { status := { code := .success }, frameId := 1 }⟩) false),
      .client "s" (.written "P"), .client "s" (.loop "P" true), .client "s" (.getToken "P"),
      .client "s" (.produce "P" (.frame { payloadType := .text } ["A"] ["A"]))] (by decide)
  obtain ⟨conn, hconn, hP⟩ := Option.map_eq_some_iff.1 hP
  have hP := of_decide_eq_true hP
  exact ⟨_, w, conn, hrun, hconn, hP.1, hP.2, session_never_refused hrun hconn⟩

end Composed

end Gabriel
