import Gabriel.Client.ZeroMQComposed
import Gabriel.Client.ZeroMQLemmas
import Gabriel.Server.EngineIds

/-!
# A client that the server has forgotten

A `ZeroMQClient` registers again when it hears from the server after a disconnection, that is after its own timeout.
The response to an input that the server rejects, because it has no registration of the client, does not make it do so.
If the server forgets a client only while the client counts itself as disconnected, or when it had no registration of
it, a client that is connected is registered or about to be (`World.Remembered`).
-/

namespace Gabriel

namespace Interleaved

open Frontend

variable {cfg : Config} {sys sys' : Sys} {act : Action} {a : Address} {ref : ClientRef}

/-! ### Entries of the ZeroMQ server -/

/-- The ZeroMQ server makes entries only for identities that have none. -/
theorem addressFree_of_zeromq (hcfg : cfg.clientTransport = .zeromq) (hstep : step cfg sys act = some sys') :
    act.addressFree sys := by
  cases act with
  | openClient b =>
    simp only [step] at hstep
    split at hstep
    · cases hstep
    · rename_i hne
      have hfree : sys.server.frontend.clients.get? b = none := by simpa [hcfg] using hne
      exact hfree
  | _ => trivial

/-- An exception in a consumer of the ZeroMQ server leaves the entry. -/
theorem failStream_of_zeromq {s : Server} {stream : Stream} {err : PyError} (hcfg : cfg.clientTransport = .zeromq) :
    failStream cfg s stream err = (s, .finished (some err)) := by
  simp [failStream, endStream, hcfg]

/-- The ZeroMQ server deletes an entry only when its consumer has heard nothing. -/
theorem entry_step (hcfg : cfg.clientTransport = .zeromq) (hatt : sys.Attached cfg)
    (hstep : step cfg sys act = some sys')
    (hclose : ∀ i stream, act = .closeStream i → sys.streams[i]? = some stream → stream.address ≠ a)
    (href : sys.server.frontend.clients.get? a = some ref) : sys'.server.frontend.clients.get? a = some ref := by
  cases act with
  | openClient b =>
    have hfree := addressFree_of_zeromq hcfg hstep
    cases step_cases hstep with
    | openClient =>
      have hne : a ≠ b := by
        rintro rfl
        rw [show sys.server.frontend.clients.get? a = none from hfree] at href
        cases href
      simpa [addClient, Dict.get?_set_ne _ _ hne] using href
    | session _ _ _ hc => cases hc
  | openProducer b =>
    cases step_cases hstep with
    | openProducer => exact href
    | session _ _ _ hc => cases hc
  | message i msg order b =>
    obtain ⟨stream, hi, hstep⟩ := Option.bind_eq_some_iff.1 hstep
    obtain ⟨⟨s, pc⟩, hr, hstep⟩ := Option.bind_eq_some_iff.1 hstep
    cases hstep
    unfold streamMessage at hr
    split at hr
    · rename_i hpc
      split at hr
      · cases hr
        exact href
      · rename_i ref' hclient
        have hentry := (hatt.attached hi (by rw [hpc]; trivial)).client hclient
        simpa [Sys.setStream, (informs_consume hentry hr).2] using href
    · cases hr
  | resumeStream i raises b =>
    obtain ⟨stream, hi, hstep⟩ := Option.bind_eq_some_iff.1 hstep
    obtain ⟨⟨s, pc⟩, hr, hstep⟩ := Option.bind_eq_some_iff.1 hstep
    cases hstep
    cases raises with
    | false =>
      obtain ⟨-, hclients⟩ : Informs ∅ sys.server.frontend s.frontend ∧ _ := informs_resumeStream hr
      simpa [Sys.setStream, hclients (by simp)] using href
    | true =>
      simp only [resumeStream, failStream_of_zeromq hcfg] at hr
      split at hr <;> cases hr <;> exact href
  | closeStream i =>
    obtain ⟨stream, hi, hstep⟩ := Option.bind_eq_some_iff.1 hstep
    obtain ⟨⟨s, pc⟩, hr, hstep⟩ := Option.bind_eq_some_iff.1 hstep
    cases hstep
    have hne := hclose i stream rfl hi
    have hkeep : (endStream sys.server stream true none).1.frontend.clients.get? a = some ref := by
      unfold endStream
      split
      · unfold removeClient
        cases sys.server.frontend.clients.get? stream.address with
        | none => exact href
        | some _ => simpa [Dict.get?_erase, hne.symm] using href
      · exact href
    unfold closeStream at hr
    split at hr
    · rwa [Option.some.inj hr] at hkeep
    · cases hr
  | openSession => cases hstep; exact href
  | engineMessage c msg =>
    cases step_cases hstep with
    | session _ _ hs => simpa [Sys.setSession, hs.effects.clients] using href
  | resumeSession c raises b =>
    cases step_cases hstep with
    | session _ _ hs => simpa [Sys.setSession, hs.effects.clients] using href
  | closeSession c =>
    cases step_cases hstep with
    | session _ _ hs => simpa [Sys.setSession, hs.effects.clients] using href

/-- A client whose `Registration` is taken up is registered. -/
theorem registered_of_message {i : Nat} {stream : Stream} {info : AnyProto} {order : List Context} {b : Bool}
    (hcfg : cfg.clientTransport = .zeromq) (hatt : sys.Attached cfg) (hi : sys.streams[i]? = some stream)
    (hcl : stream.client sys.server = some ref)
    (hstep : step cfg sys (.message i (.registration info) order b) = some sys') :
    sys'.server.frontend.clients.get? stream.address = some ref ∧
      (sys'.server.frontend.clientObjs ref).clientInfo ≠ none := by
  have hstep' := hstep
  cases step_cases hstep with
  | unknownClient hi' _ hclient =>
    rw [hi] at hi'
    cases hi'
    rw [hcl] at hclient
    cases hclient
  | message hi' hidle hclient hm =>
    rw [hi] at hi'
    cases hi'
    rw [hcl] at hclient
    cases hclient
    have hentry := (hatt.attached hi (by rw [hidle]; trivial)).client hcl
    refine ⟨entry_step hcfg hatt hstep' (fun _ _ he => by cases he) hentry, ?_⟩
    cases hm with
    | registered _ hf => simp [Sys.setStream, hf.clientObjs]
    | unregistered hmsg => cases hmsg
    | noTokens hmsg => cases hmsg
    | noEngine hmsg => cases hmsg
    | suspended hmsg => cases hmsg
    | enqueued hmsg => cases hmsg
    | dropped hmsg => cases hmsg
  | session _ _ _ hc => cases hc

/-- Acknowledgements are sent only for a `Registration` at the address. -/
theorem registered_of_recorded {n : Nat} {ids : Finset String}
    (h : Recorded cfg sys act sys' (.toClient ref a (.registered n ids))) :
    ∃ i info order b stream, act = .message i (.registration info) order b ∧ sys.streams[i]? = some stream ∧
      stream.address = a := by
  cases h with
  | pushed h => cases h
  | handled hact hi _ _ h =>
    cases h with
    | registered _ hmsg =>
      subst hmsg
      exact ⟨_, _, _, _, _, hact, hi, rfl⟩
    | pushed h => cases h

end Interleaved

/-! ### The connection of the client -/

namespace ZeroMQClient

def Uplink.isRegistration : Uplink → Bool
  | .message (.registration _) => true
  | _ => false

def Downlink.isRegistered : Downlink → Bool
  | .message (.registered _ _) => true
  | _ => false

namespace State

variable {s s' : State} {p : String}

/-- What the client knows of its connection and its registration stays the same. -/
structure SameConnection (s s' : State) : Prop where
  connected : s'.connected = s.connected
  registeredEvent : s'.registeredEvent = s.registeredEvent
  reregistrationNeeded : s'.reregistrationNeeded = s.reregistrationNeeded

theorem sameConnection_returnToken (s : State) (p : String) : SameConnection s (s.returnToken p) := by
  have hr := returnToken_cases s p
  generalize s.returnToken p = s' at hr
  cases hr <;> exact ⟨rfl, rfl, rfl⟩

theorem ProducerStep.sameConnection {producer : Producer} {out : Output} (h : ProducerStep s p producer s' out) :
    SameConnection s s' := by
  have hback := sameConnection_returnToken s p
  cases h with
  | noTargets => exact ⟨hback.connected, hback.registeredEvent, hback.reregistrationNeeded⟩
  | skipped => exact ⟨hback.connected, hback.registeredEvent, hback.reregistrationNeeded⟩
  | _ => exact ⟨rfl, rfl, rfl⟩

theorem sameConnection_processResponse (s : State) (w : ResultWrapper) (raises : Bool) :
    SameConnection s (s.processResponse w raises) := by
  have hcases := processResponse_cases s w raises
  generalize s.processResponse w raises = s₁ at hcases ⊢
  cases hcases with
  | failed err => exact ⟨rfl, rfl, rfl⟩
  | returned _ => exact sameConnection_returnToken ..
  | kept _ => exact ⟨rfl, rfl, rfl⟩

/-- The receipt of a message connects the client, and acknowledges a registration or leaves it as it is. -/
theorem receive_connection (s : State) (msg : Downlink) (raises : Bool) :
    (s.receive msg raises).connected = true ∧
    (s.receive msg raises).reregistrationNeeded = (s.reregistrationNeeded || !s.connected) ∧
    (msg.isRegistered = false → (s.receive msg raises).registeredEvent = s.registeredEvent) := by
  have hnote : s.noteConnection.connected = true ∧
      s.noteConnection.reregistrationNeeded = (s.reregistrationNeeded || !s.connected) ∧
      s.noteConnection.registeredEvent = s.registeredEvent := by
    unfold noteConnection
    split
    · rename_i hconn
      exact ⟨hconn, by simp [hconn], rfl⟩
    · rename_i hconn
      exact ⟨rfl, by simp [hconn], rfl⟩
  rcases msg with _ | _ | ⟨n, ids⟩ | w | ids
  · exact ⟨hnote.1, hnote.2.1, fun _ => hnote.2.2⟩
  · exact ⟨hnote.1, hnote.2.1, fun _ => hnote.2.2⟩
  · exact ⟨hnote.1, hnote.2.1, fun h => (nomatch h)⟩
  · have hsame := sameConnection_processResponse s.noteConnection w raises
    exact ⟨hsame.connected.trans hnote.1, hsame.reregistrationNeeded.trans hnote.2.1,
      fun _ => hsame.registeredEvent.trans hnote.2.2⟩
  · exact ⟨hnote.1, hnote.2.1, fun _ => hnote.2.2⟩

end State

end ZeroMQClient

namespace ZeroMQ

open Interleaved (Recorded Sys history_step)
open ZeroMQClient

variable {cfg : Config} {w w' : World} {sys : Sys} {act : Interleaved.Action}

namespace World

/-- The server has the client registered. -/
def registered (w : World) : Bool :=
  (w.sys.server.frontend.clients.get? w.identity).any fun ref =>
    (w.sys.server.frontend.clientObjs ref).clientInfo.isSome

/-- A `Registration` is on the way to the server. -/
def inFlight (w : World) : Bool := w.up.any Uplink.isRegistration

/-- The client is registered, or a `Registration` is on the way, or the registration handler is going to send one. -/
def Reregisters (w : World) : Prop :=
  w.inFlight = true ∨ w.client.reregistrationNeeded = true ∨ w.client.registeredEvent = false ∨ w.registered = true

instance (w : World) : Decidable w.Reregisters := inferInstanceAs (Decidable (_ ∨ _))

/-- The same without regard to the acknowledgement. -/
def Registers (w : World) : Prop :=
  w.inFlight = true ∨ w.client.reregistrationNeeded = true ∨ w.registered = true

/-- The server forgets the client only while the client counts itself as disconnected, or when the server does not have
it registered and no `Registration` is lost. -/
def remembers (w : World) : Action → Prop
  | .forget _ up | .restart _ up _ => w.client.connected = true →
      w.registered = false ∧ (w.inFlight = true → up.any Uplink.isRegistration = true)
  | _ => True

instance (w : World) : DecidablePred w.remembers
  | .forget _ _ | .restart _ _ _ => inferInstanceAs (Decidable (_ → _ ∧ (_ → _)))
  | .server _ | .client _ _ | .accept | .takeUp _ _ _ => inferInstanceAs (Decidable True)

/-- A client that is connected has no acknowledgement or registers, also when an acknowledgement is on the way. -/
structure Remembered (cfg : Config) (w : World) : Prop where
  reachable : ∃ acts, (Interleaved.machine (transport cfg)).RunWhere (fun sys act => act.addressFree sys) acts w.sys
  registers : w.client.connected = true → w.client.registeredEvent = false ∨ w.Registers
  acknowledged : w.client.connected = true → w.down.any Downlink.isRegistered = true → w.Registers

theorem Remembered.attached (h : w.Remembered cfg) : w.sys.Attached (transport cfg) := by
  obtain ⟨acts, hrun⟩ := h.reachable
  exact Interleaved.run_attached (fun _ _ => id) hrun

theorem Remembered.tracked (h : w.Remembered cfg) : w.sys.ClientsTracked := by
  obtain ⟨acts, hrun⟩ := h.reachable
  exact Interleaved.run_clientsTracked hrun.run

theorem Remembered.reachable_step (h : w.Remembered cfg)
    (hstep : Interleaved.step (transport cfg) w.sys act = some sys) :
    ∃ acts, (Interleaved.machine (transport cfg)).RunWhere (fun sys act => act.addressFree sys) acts sys := by
  obtain ⟨acts, hrun⟩ := h.reachable
  exact ⟨_, hrun.step (Interleaved.addressFree_of_zeromq rfl hstep) hstep⟩

/-- A step that keeps what the client knows and what is under way for it. -/
theorem Remembered.keep (h : w.Remembered cfg)
    (hreach : ∃ acts, (Interleaved.machine (transport cfg)).RunWhere (fun sys act => act.addressFree sys) acts w'.sys)
    (hclient : State.SameConnection w.client w'.client) (hmono : w.Registers → w'.Registers)
    (hdown : w'.down.any Downlink.isRegistered = true → w.down.any Downlink.isRegistered = true ∨ w'.Registers) :
    w'.Remembered cfg := by
  refine ⟨hreach, fun hconn => ?_, fun hconn hack => ?_⟩
  · rw [hclient.connected] at hconn
    rw [hclient.registeredEvent]
    exact (h.registers hconn).imp_right hmono
  · rw [hclient.connected] at hconn
    rcases hdown hack with hold | hnew
    · exact hmono (h.acknowledged hconn hold)
    · exact hnew

theorem registered_iff : w.registered = true ↔ ∃ ref, w.sys.server.frontend.clients.get? w.identity = some ref ∧
    (w.sys.server.frontend.clientObjs ref).clientInfo ≠ none := by
  unfold registered
  cases w.sys.server.frontend.clients.get? w.identity with
  | none => simp
  | some ref => simp [Option.isSome_iff_ne_none]

/-- The server keeps the registration of the client unless it deletes its entry. -/
theorem Remembered.registered_serve (h : w.Remembered cfg)
    (hstep : Interleaved.step (transport cfg) w.sys act = some sys)
    (hclose : ∀ i stream, act = .closeStream i → w.sys.streams[i]? = some stream → stream.address ≠ w.identity)
    (hreg : w.registered = true) : (w.serve sys).registered = true := by
  obtain ⟨ref, href, hinfo⟩ := registered_iff.1 hreg
  exact registered_iff.2 ⟨ref, Interleaved.entry_step rfl h.attached hstep hclose href,
    Interleaved.clientInfo_step hstep h.tracked hinfo⟩

/-- The server acknowledges only a `Registration` of the client. -/
theorem sent_registered (hstep : Interleaved.step (transport cfg) w.sys act = some sys)
    (hack : ((w.sent sys).map Downlink.message).any Downlink.isRegistered = true) :
    ∃ i info order b stream, act = .message i (.registration info) order b ∧ w.sys.streams[i]? = some stream ∧
      stream.address = w.identity := by
  obtain ⟨es, hes, hP⟩ := history_step hstep
  obtain ⟨_, hmem, hreg⟩ := List.any_eq_true.1 hack
  obtain ⟨msg, hmsg, rfl⟩ := List.mem_map.1 hmem
  obtain ⟨ev, hev, hto⟩ := List.mem_filterMap.1 hmsg
  rw [hes, List.drop_left] at hev
  cases msg with
  | registered n ids =>
    cases ev with
    | toClient ref a msg' =>
      obtain ⟨rfl, rfl⟩ : a = w.identity ∧ msg' = .registered n ids := by simpa using hto
      exact Interleaved.registered_of_recorded (hP _ hev)
    | _ => cases hto
  | _ => cases hreg

/-- The server takes a step that does not concern the client's messages. -/
theorem Remembered.serve (h : w.Remembered cfg) (hstep : Interleaved.step (transport cfg) w.sys act = some sys)
    (hclose : ∀ i stream, act = .closeStream i → w.sys.streams[i]? = some stream → stream.address ≠ w.identity)
    (hreg : ∀ i info order b stream, act = .message i (.registration info) order b →
      w.sys.streams[i]? = some stream → stream.address ≠ w.identity) : (w.serve sys).Remembered cfg := by
  refine h.keep (h.reachable_step hstep) ⟨rfl, rfl, rfl⟩ (fun hw => ?_) fun hack => ?_
  · rcases hw with hflight | hneeded | hreg
    · exact Or.inl hflight
    · exact Or.inr (Or.inl hneeded)
    · exact Or.inr (Or.inr (h.registered_serve hstep hclose hreg))
  · rw [World.serve, List.any_append, Bool.or_eq_true] at hack
    rcases hack with hold | hnew
    · exact Or.inl hold
    · obtain ⟨i, info, order, b, stream, hact, hi, ha⟩ := sent_registered hstep hnew
      exact absurd ha (hreg i info order b stream hact hi)

theorem exists_stream_of_consumes {i : Nat} (h : w.consumes i = true) :
    ∃ stream, w.sys.streams[i]? = some stream ∧ stream.address = w.identity ∧ stream.pc = .idle := by
  unfold consumes at h
  cases hstream : w.sys.streams[i]? with
  | none => rw [hstream] at h; cases h
  | some stream =>
    rw [hstream, Option.any_some, decide_eq_true_eq] at h
    refine ⟨stream, rfl, h.1, ?_⟩
    cases hpc : stream.pc with
    | idle => rfl
    | _ => rw [hpc] at h; cases h.2

/-- The consumer of the client's entry takes up a message. -/
theorem Remembered.takeUp {i : Nat} {order : List Context} {b : Bool} {msg : Uplink} {rest : List Uplink}
    (h : w.Remembered cfg) (hup : w.up = msg :: rest) (hi : w.consumes i = true)
    (hstep : World.takeUp cfg { w with up := rest } i order b msg = some w') : w'.Remembered cfg := by
  -- a message that is no registration leaves those that are on the way
  have hrest : msg.isRegistration = false → w.Registers → World.Registers { w with up := rest } := by
    intro hmsg hw
    refine hw.imp_left fun hflight => ?_
    simpa only [inFlight, hup, List.any_cons, hmsg, Bool.false_or] using hflight
  have hkeep : msg.isRegistration = false → World.Remembered cfg { w with up := rest } := fun hmsg =>
    h.keep h.reachable ⟨rfl, rfl, rfl⟩ (hrest hmsg) Or.inl
  cases msg with
  | hello =>
    cases hstep
    exact hkeep rfl
  | heartbeat =>
    cases hstep
    refine (hkeep rfl).keep h.reachable ⟨rfl, rfl, rfl⟩ id fun hack => Or.inl ?_
    simpa [Downlink.isRegistered] using hack
  | message msg =>
    obtain ⟨sys, hsys, heq⟩ := Option.map_eq_some_iff.1 hstep
    cases heq
    obtain ⟨stream, hstream, haddr, hidle⟩ := exists_stream_of_consumes hi
    cases hmsg : Uplink.isRegistration (.message msg) with
    | false =>
      refine (hkeep hmsg).serve hsys (fun _ _ he => by cases he) fun _ _ _ _ _ he => ?_
      cases he
      cases hmsg
    | true =>
      cases msg with
      | registration info =>
        have hatt := h.attached.attached hstream (by rw [hidle]; trivial)
        cases howner : stream.owner with
        | none =>
          simp only [Interleaved.Stream.Attached, howner] at hatt
          cases hatt
        | some ref =>
          have hclient : stream.client w.sys.server = some ref := by simp [Interleaved.Stream.client, howner]
          have hreg : World.registered (World.serve { w with up := rest } sys) = true :=
            registered_iff.2 ⟨ref, haddr ▸ Interleaved.registered_of_message rfl h.attached hstream hclient hsys⟩
          exact ⟨h.reachable_step hsys, fun _ => Or.inr (Or.inr (Or.inr hreg)), fun _ _ => Or.inr (Or.inr hreg)⟩
      | _ => cases hmsg

/-- The server forgets the client. -/
theorem Remembered.forget {identity : Address} {up : List Uplink} {down : List Downlink} (h : w.Remembered cfg)
    (hreach : ∃ acts, (Interleaved.machine (transport cfg)).RunWhere (fun sys act => act.addressFree sys) acts sys)
    (hact : w.client.connected = true →
      w.registered = false ∧ (w.inFlight = true → up.any Uplink.isRegistration = true))
    (hdown : down.Sublist w.down) :
    World.Remembered cfg { w with sys := sys, identity := identity, up := up, down := down } := by
  have hmono : w.client.connected = true → w.Registers →
      World.Registers { w with sys := sys, identity := identity, up := up, down := down } := by
    intro hconn hw
    obtain ⟨hunreg, hup⟩ := hact hconn
    rcases hw with hflight | hneeded | hreg
    · exact Or.inl (hup hflight)
    · exact Or.inr (Or.inl hneeded)
    · rw [hunreg] at hreg
      cases hreg
  refine ⟨hreach, fun hconn => (h.registers hconn).imp_right (hmono hconn), fun hconn hack => ?_⟩
  obtain ⟨msg, hmem, hmsg⟩ := List.any_eq_true.1 hack
  exact hmono hconn (h.acknowledged hconn (List.any_eq_true.2 ⟨msg, hdown.subset hmem, hmsg⟩))

/-- A step of the client. -/
theorem Remembered.client {ev : Event} {identity : Address} (h : w.Remembered cfg)
    (hstep : step cfg w (.client ev identity) = some w') : w'.Remembered cfg := by
  obtain ⟨⟨client, out⟩, hclient, hstep⟩ := Option.bind_eq_some_iff.1 hstep
  obtain ⟨w₁, hreceive, hsend⟩ := Option.bind_eq_some_iff.1 hstep
  -- a step that leaves the connection as it is, and may send messages
  have hsame : out.reconnects = false → (∀ msg raises, ev ≠ .receive msg raises) →
      State.SameConnection w.client client → w'.Remembered cfg := by
    intro hout hev hconn
    have hw₁ : w₁ = w := by
      cases ev with
      | receive msg raises => exact absurd rfl (hev msg raises)
      | _ => exact (Option.some.inj hreceive).symm
    subst hw₁
    simp only [send, hout, Bool.false_eq_true, ↓reduceIte, Option.some.injEq] at hsend
    subst hsend
    refine h.keep h.reachable hconn (fun hw => ?_) Or.inl
    rcases hw with hflight | hneeded | hreg
    · left
      simp only [inFlight, List.any_append, Bool.or_eq_true]
      exact Or.inl hflight
    · right; left
      rw [← hneeded]
      exact hconn.reregistrationNeeded
    · exact Or.inr (Or.inr hreg)
  cases State.step_cases hclient with
  | producer hev _ hp =>
    refine hsame hp.reconnects (fun msg raises he => ?_) hp.sameConnection
    rw [he] at hev
    cases hev
  | task _ ht =>
    cases ht with
    | plain hev hs => exact hsame rfl hev ⟨hs.connected, hs.registeredEvent, hs.reregistrationNeeded⟩
    | disconnected =>
      cases hreceive
      simp only [send, State.pollTimeout, ↓reduceIte] at hsend
      split at hsend
      · cases hsend
      · cases hsend
        exact ⟨h.reachable, fun hconn => (nomatch hconn), fun hconn => (nomatch hconn)⟩
    | received msg raises =>
      obtain ⟨hconn, hneeded, hevent⟩ := State.receive_connection w.client msg raises
      cases hdown : w.down with
      | nil => simp only [World.receive, hdown] at hreceive; cases hreceive
      | cons next rest =>
        simp only [World.receive, hdown] at hreceive
        obtain ⟨rfl, hw₁⟩ := Option.ite_none_right_eq_some.1 hreceive
        cases hw₁
        cases hsend
        -- what was under way still is, and a client that was disconnected is going to register
        have hmono : w.client.connected = false ∨ w.Registers → World.Registers
            { w with client := w.client.receive next raises, up := w.up ++ [], down := rest } := by
          rintro (hdis | hflight | hold | hreg)
          · exact Or.inr (Or.inl (by simp [hneeded, hdis]))
          · exact Or.inl (by simpa [inFlight] using hflight)
          · exact Or.inr (Or.inl (by simp [hneeded, hold]))
          · exact Or.inr (Or.inr hreg)
        refine ⟨h.reachable, fun _ => ?_, fun _ hack => hmono ?_⟩
        · cases hwas : w.client.connected with
          | false => exact Or.inr (hmono (Or.inl hwas))
          | true =>
            cases hmsg : next.isRegistered with
            | true => exact Or.inr (hmono (Or.inr (h.acknowledged hwas (by simp [hdown, hmsg]))))
            | false =>
              refine (h.registers hwas).imp (fun hnone => ?_) fun hw => hmono (Or.inr hw)
              exact (hevent hmsg).trans hnone
        · cases hwas : w.client.connected with
          | false => exact Or.inl rfl
          | true =>
            refine Or.inr (h.acknowledged hwas ?_)
            rw [hdown, List.any_cons, Bool.or_eq_true]
            exact Or.inr hack
    | reregistered =>
      cases hreceive
      cases hsend
      refine ⟨h.reachable, fun _ => Or.inl rfl, fun _ _ => Or.inl ?_⟩
      simp [inFlight, State.registrationMessage, Uplink.isRegistration]

theorem remembered_step {act : Action} (hstep : step cfg w act = some w') (hact : w.remembers act)
    (h : w.Remembered cfg) : w'.Remembered cfg := by
  cases act with
  | server act =>
    obtain ⟨hforeign, hstep⟩ := Option.ite_none_right_eq_some.1 hstep
    obtain ⟨sys, hsys, rfl⟩ := Option.map_eq_some_iff.1 hstep
    refine h.serve hsys ?_ ?_
    · rintro i stream rfl hi
      simpa [foreign, hi] using hforeign
    · rintro i info order b stream rfl hi
      simpa [foreign, hi] using hforeign
  | client ev identity => exact h.client hstep
  | accept =>
    simp only [step] at hstep
    split at hstep
    · cases hstep
    obtain ⟨sys, hsys, rfl⟩ := Option.map_eq_some_iff.1 hstep
    exact h.serve hsys (fun _ _ he => by cases he) (fun _ _ _ _ _ he => by cases he)
  | takeUp i order b =>
    simp only [step] at hstep
    split at hstep
    · rename_i msg rest hup
      obtain ⟨hi, hstep⟩ := Option.ite_none_right_eq_some.1 hstep
      exact h.takeUp hup hi hstep
    · cases hstep
  | forget i up =>
    obtain ⟨-, hstep⟩ := Option.ite_none_right_eq_some.1 hstep
    obtain ⟨sys, hsys, heq⟩ := Option.bind_eq_some_iff.1 hstep
    cases heq
    exact h.forget (h.reachable_step hsys) hact (List.Sublist.refl _)
  | restart identity up down =>
    obtain ⟨⟨-, hdown⟩, hstep⟩ := Option.ite_none_right_eq_some.1 hstep
    cases hstep
    exact h.forget ⟨[], .init⟩ hact hdown

end World

/-- In every run in which the server forgets the client only while the client counts itself as disconnected, or when it
does not have the client registered and no `Registration` is lost: when the client has processed a message of the
server, in particular a response by which the server has rejected an input because the client is not registered, a
`Registration` is on the way, or the registration handler is going to send one, or the client is registered. -/
theorem rejected_client_reregisters {clientInfo : Option AnyProto} {ps : List String} {a identity : Address}
    {acts : List Action} {msg : Downlink} {raises : Bool}
    (h : (machine cfg clientInfo ps a).RunWhere World.remembers acts w)
    (hstep : step cfg w (.client (.receive msg raises) identity) = some w') : w'.Reregisters := by
  have hinit : World.Remembered cfg (machine cfg clientInfo ps a).init :=
    ⟨⟨[], .init⟩, fun _ => Or.inl rfl, fun _ hack => (nomatch hack)⟩
  have hact : w.remembers (.client (.receive msg raises) identity) := trivial
  have hw' := (h.step hact hstep).invariant hinit (fun _ _ _ h hact hstep => World.remembered_step hstep hact h)
  have hconn : w'.client.connected = true := by
    obtain ⟨⟨client, out⟩, hclient, hstep⟩ := Option.bind_eq_some_iff.1 hstep
    obtain ⟨w₁, -, hsend⟩ := Option.bind_eq_some_iff.1 hstep
    cases State.step_cases hclient with
    | producer hev => cases hev
    | task _ ht =>
      cases ht with
      | plain hev => exact absurd rfl (hev msg raises)
      | received => cases hsend; exact (State.receive_connection w.client msg raises).1
  rcases hw'.registers hconn with hevent | hflight | hneeded | hreg
  · exact Or.inr (Or.inr (Or.inl hevent))
  · exact Or.inl hflight
  · exact Or.inr (Or.inl hneeded)
  · exact Or.inr (Or.inr (Or.inr hreg))

/-- The response by which the server rejects the first input of the producer `p` of a client that is not registered. -/
def rejection (p : String) : Downlink :=
  .message (.resultWrapper
    { producerId := p
      returnToken := true
      result :=
        { status := { code := .unspecifiedError, message := "Client must register before sending input" }
          frameId := 1 } })

/-- The server restarts while the client is disconnected.  The producer loop sends its input on the new socket before
the client has registered again. -/
theorem rejected_client_reregisters_of_restart :
    ∃ acts w w', (machine { numTokensPerProducer := 1, sizeForQueues := 1 } none ["P"] "socket 1").RunWhere
        World.remembers acts w ∧
      step { numTokensPerProducer := 1, sizeForQueues := 1 } w (.client (.receive (rejection "P") false) "") = some w' ∧
      w'.Reregisters := by
  obtain ⟨w, hrun, h⟩ := Machine.exists_runWhere
    (M := machine { numTokensPerProducer := 1, sizeForQueues := 1 } none ["P"] "socket 1") (G := World.remembers)
    (g := fun w act => decide (w.remembers act)) (fun _ _ h => of_decide_eq_true h)
    (fun w => (step { numTokensPerProducer := 1, sizeForQueues := 1 } w
      (.client (.receive (rejection "P") false) "")).isSome)
    [.server .openSession, .server (.engineMessage 0 (.register "E" false)), .accept, .takeUp 0 [] false,
      .client .register "", .takeUp 0 [] false, .client .registrationSent "", .server (.resumeStream 0 false false),
      .client (.receive (.message (.registered 1 {"E"})) false) "", .client (.start "P") "",
      .client (.loop "P" true false) "", .client (.getToken "P") "", .client (.gotToken "P" ["E"]) "",
      .client .pollTimeout "socket 2", .restart "socket 2" [.heartbeat] [],
      .client (.produce "P" (.frame { payload := .stringPayload "frame" } ["E"] ["E"])) "", .accept,
      .takeUp 0 [] false, .takeUp 0 [] false, .client (.receive .heartbeat false) ""] (by decide)
  obtain ⟨w', hstep⟩ := Option.isSome_iff_exists.1 h
  exact ⟨_, w, w', hrun, hstep, rejected_client_reregisters hrun hstep⟩

/-- The server hears nothing of a registered client and deletes its entry; the client is connected.  The next input is
rejected, and the client, which has its acknowledgement, does not register again. -/
theorem rejected_client_not_reregistered :
    ∃ acts w w', (machine { numTokensPerProducer := 1, sizeForQueues := 1 } none ["P"] "socket 1").Run acts w ∧
      step { numTokensPerProducer := 1, sizeForQueues := 1 } w (.client (.receive (rejection "P") false) "") = some w' ∧
      ¬ w'.Reregisters := by
  obtain ⟨w, hrun, h⟩ := Machine.exists_run
    (M := machine { numTokensPerProducer := 1, sizeForQueues := 1 } none ["P"] "socket 1")
    (fun w => (step { numTokensPerProducer := 1, sizeForQueues := 1 } w
      (.client (.receive (rejection "P") false) "")).any fun w' => ¬ w'.Reregisters)
    [.server .openSession, .server (.engineMessage 0 (.register "E" false)), .accept, .takeUp 0 [] false,
      .client .register "", .takeUp 0 [] false, .client .registrationSent "", .server (.resumeStream 0 false false),
      .client (.receive (.message (.registered 1 {"E"})) false) "", .client .acknowledged "", .forget 0 [],
      .client (.start "P") "", .client (.loop "P" true false) "", .client (.getToken "P") "",
      .client (.gotToken "P" ["E"]) "",
      .client (.produce "P" (.frame { payload := .stringPayload "frame" } ["E"] ["E"])) "", .accept,
      .takeUp 1 [] false] (by decide)
  obtain ⟨w', hstep, hw'⟩ := (Option.any_eq_true ..).1 h
  exact ⟨_, w, w', hrun, hstep, by simpa using hw'⟩

end ZeroMQ

end Gabriel
