import Gabriel.Server.Credit

/-!
# The history of the clients

`history_step` says which events a step records for the clients, and why.  Two consequences for every run: whatever
the history says of an address, a stream was opened there; and a client that was told that it is registered is.
-/

namespace Gabriel

/-- The address of the client an event is about. -/
@[simp] def ClientEvent.address : ClientEvent → Address
  | .received _ a _ | .errorReply _ a _ | .resultFor _ a _ | .toClient _ a _ => a
  | .submitted _ mp | .deducted _ mp => mp.metadata.clientAddress

namespace Frontend

variable {P : ClientEvent → Prop} {f f' f'' : Frontend} {ref : ClientRef} {a : Address}

/-- The history grows by events that satisfy `P`. -/
def Records (P : ClientEvent → Prop) (f f' : Frontend) : Prop := ∃ es, f'.log = f.log ++ es ∧ ∀ ev ∈ es, P ev

theorem Records.of_eq (h : f'.log = f.log) : Records P f f' := ⟨[], by simp [h], by simp⟩

theorem Records.trans (h : Records P f f') (h' : Records P f' f'') : Records P f f'' := by
  obtain ⟨es, hes, hP⟩ := h
  obtain ⟨es', hes', hP'⟩ := h'
  refine ⟨es ++ es', by rw [hes', hes, List.append_assoc], fun ev hev => ?_⟩
  exact (List.mem_append.1 hev).elim (hP ev) (hP' ev)

theorem Records.emit {ev : ClientEvent} (h : Records P f f') (hev : P ev) : Records P f (f'.emit ev) :=
  h.trans ⟨[ev], rfl, by simpa using hev⟩

theorem Records.log_grows (h : Records P f f') : f.log <+: f'.log := by
  obtain ⟨es, hes, -⟩ := h
  exact ⟨es, hes.symm⟩

theorem Records.mem (h : Records P f f') {ev : ClientEvent} (hev : ev ∈ f'.log) : ev ∈ f.log ∨ P ev := by
  obtain ⟨es, hes, hP⟩ := h
  rw [hes, List.mem_append] at hev
  exact hev.imp_right (hP ev)

theorem Quiet.records (h : Quiet f f')
    (hP : ∀ {ref a ids}, f.clients.get? a = some ref → P (.toClient ref a (.engineIdsUpdate ids))) :
    Records P f f' := by
  obtain ⟨es, hes, hq⟩ := h.log
  refine ⟨es, hes, fun ev hev => ?_⟩
  obtain ⟨ref, b, ids, rfl, hr⟩ := hq ev hev
  exact hP hr

theorem Replied.records {msg : ToClient} (h : Replied ref a msg f f') (hmsg : P (.toClient ref a msg))
    (hP : ∀ {ref a ids}, f.clients.get? a = some ref → P (.toClient ref a (.engineIdsUpdate ids))) :
    Records P f f' := by
  obtain ⟨f₁, rfl | rfl, hq⟩ := h
  · exact hq.records hP
  · exact ((Records.of_eq rfl).emit hmsg).trans (hq.records hP)

theorem ResultSent.records {w : ResultWrapper} {r : Frontend × Bool} (h : ResultSent f a w r)
    (hresult : ∀ {ref}, f.clients.get? a = some ref → P (.resultFor ref a w))
    (hsent : ∀ {ref}, f.clients.get? a = some ref → P (.toClient ref a (.resultWrapper w))) : Records P f r.1 := by
  cases h with
  | noClient => exact .of_eq rfl
  | sent href =>
    refine Records.emit ?_ (hsent href)
    split
    · exact (Records.of_eq rfl).emit (hresult href)
    · exact (Records.of_eq rfl).emit (hresult href)

end Frontend

namespace Interleaved

open Frontend ClientLog

variable {cfg : Config} {s s' : Server} {sys sys' : Sys} {act : Action} {a : Address} {ref : ClientRef}
  {msg : FromClient} {pc : StreamPc} {c : Context}

/-! ### What a step records -/

/-- A message that an engine's session sends to the client entry at an address. -/
inductive Pushed (f : Frontend) : ClientEvent → Prop
  | engineIds {ref : ClientRef} {a : Address} {ids : Finset String} (h : f.clients.get? a = some ref) :
      Pushed f (.toClient ref a (.engineIdsUpdate ids))
  | resultFor {ref : ClientRef} {a : Address} {w : ResultWrapper} (h : f.clients.get? a = some ref) :
      Pushed f (.resultFor ref a w)
  | result {ref : ClientRef} {a : Address} {w : ResultWrapper} (h : f.clients.get? a = some ref) :
      Pushed f (.toClient ref a (.resultWrapper w))

/-- Why a message of the entry `ref` is answered with an error, and with which. -/
inductive Refusal (cfg : Config) (f : Frontend) (ref : ClientRef) (msg : FromClient) : Status → Prop
  | unregistered (h : (f.clientObjs ref).clientInfo = none) :
      Refusal cfg f ref msg ⟨.unspecifiedError, "Client must register before sending input"⟩
  | noTokens (h : f.credit cfg ref msg.asInput.producerId < 1) :
      Refusal cfg f ref msg ⟨.noTokens, "No tokens for producer"⟩
  | noEngine (text : String) : Refusal cfg f ref msg ⟨.noEngineForInput, text⟩
  | dropped (text : String) : Refusal cfg f ref msg ⟨.serverDroppedFrame, text⟩

/-- An event of the consumer that takes up `msg` for the entry `ref`. -/
inductive Handled (cfg : Config) (s : Server) (a : Address) (ref : ClientRef) (msg : FromClient) (s' : Server) :
    ClientEvent → Prop
  | received : Handled cfg s a ref msg s' (.received ref a msg)
  | registered (ids : Finset String) {info : AnyProto} (hmsg : msg = .registration info)
      (hinfo : (s'.frontend.clientObjs ref).clientInfo = some info) :
      Handled cfg s a ref msg s' (.toClient ref a (.registered cfg.numTokensPerProducer ids))
  | submitted (info : AnyProto) :
      Handled cfg s a ref msg s' (.submitted ref (s.dispatcher.metadataPayload msg.asInput a info))
  | deducted (info : AnyProto) :
      Handled cfg s a ref msg s' (.deducted ref (s.dispatcher.metadataPayload msg.asInput a info))
  | refused {w : ResultWrapper} (hmsg : msg.isRegistration = false)
      (hw : Refusal cfg s.frontend ref msg w.result.status) : Handled cfg s a ref msg s' (.errorReply ref a w)
  | replied (w : ResultWrapper) : Handled cfg s a ref msg s' (.toClient ref a (.resultWrapper w))
  | pushed {ev : ClientEvent} (h : Pushed s.frontend ev) : Handled cfg s a ref msg s' ev

theorem Effects.records (h : Effects c s s') : Records (Pushed s.frontend) s.frontend s'.frontend := by
  refine (h.frontend (P := fun f => f.clients = s.frontend.clients ∧ Records (Pushed s.frontend) s.frontend f)
    ?_ ?_ ⟨rfl, .of_eq rfl⟩).2
  · rintro f f' hq ⟨hclients, hrecords⟩
    exact ⟨hq.table.trans hclients, hrecords.trans (hq.toQuiet.records fun hr => .engineIds (hclients ▸ hr))⟩
  · rintro f a w r hf ⟨hclients, hrecords⟩
    exact ⟨hf.clients.trans hclients, hrecords.trans
      (hf.records (fun hr => .resultFor (hclients ▸ hr)) fun hr => .result (hclients ▸ hr))⟩

theorem MessageStep.records (h : MessageStep cfg s a ref msg s' pc) :
    Records (Handled cfg s a ref msg s') s.frontend s'.frontend := by
  have htaken : ∀ {s'}, Records (Handled cfg s a ref msg s') s.frontend (s.frontend.emit (.received ref a msg)) :=
    (Records.of_eq rfl).emit .received
  have htested : ∀ {s'}, Records (Handled cfg s a ref msg s') s.frontend
      ((s.frontend.emit (.received ref a msg)).initTokens cfg ref msg.asInput.producerId) :=
    htaken.trans (.of_eq (by simp))
  have hsubmitted : ∀ {s'} info, Records (Handled cfg s a ref msg s') s.frontend
      (((s.frontend.emit (.received ref a msg)).initTokens cfg ref msg.asInput.producerId).emit
        (.submitted ref (s.dispatcher.metadataPayload msg.asInput a info))) :=
    fun info => htested.emit (.submitted info)
  -- the error reply to a message that is refused after the operations up to `f`
  have hrefused : ∀ {s' f f' code text}, f.clients = s.frontend.clients → msg.isRegistration = false →
      Refusal cfg s.frontend ref msg ⟨code, text⟩ → ErrorReplied ref a (makeErrorResponse msg code text) f f' →
      Records (Handled cfg s a ref msg s') f f' := by
    intro s' f f' code text hclients hmsg hw hf
    have herr : Records (Handled cfg s a ref msg s') f (f.emit (.errorReply ref a (makeErrorResponse msg code text))) :=
      (Records.of_eq rfl).emit (.refused hmsg hw)
    refine herr.trans (Replied.records hf (.replied _) fun hr => ?_)
    exact .pushed (.engineIds (hclients ▸ hr))
  cases h with
  | registered hmsg hf =>
    refine htaken.trans ((Records.of_eq (by rfl)).trans (hf.records ?_ fun hr => .pushed (.engineIds hr)))
    exact .registered _ hmsg (by simp [hf.clientObjs])
  | unregistered hmsg hinfo hf => exact htaken.trans (hrefused rfl hmsg (.unregistered hinfo) hf)
  | noTokens hmsg htokens hf =>
    rw [tokens_initTokens, credit_emit] at htokens
    exact htested.trans (hrefused (by simp) hmsg (.noTokens htokens) hf)
  | noEngine hmsg hf => exact (hsubmitted _).trans (hrefused (by simp) hmsg (.noEngine _) hf)
  | suspended => exact hsubmitted _
  | enqueued => exact ((hsubmitted _).trans (.of_eq (by rfl))).emit (.deducted _)
  | dropped hmsg _ _ _ hf => exact (hsubmitted _).trans (hrefused (by simp) hmsg (.dropped _) hf)

/-- An event that the step `act` from `sys` to `sys'` records. -/
inductive Recorded (cfg : Config) (sys : Sys) (act : Action) (sys' : Sys) : ClientEvent → Prop
  | pushed {ev : ClientEvent} (h : Pushed sys.server.frontend ev) : Recorded cfg sys act sys' ev
  | handled {i : Nat} {msg : FromClient} {order : List Context} {b : Bool} {stream : Stream} {ref : ClientRef}
      {ev : ClientEvent} (hact : act = .message i msg order b) (hi : sys.streams[i]? = some stream)
      (hidle : stream.pc = .idle) (hclient : stream.client sys.server = some ref)
      (h : Handled cfg sys.server stream.address ref msg sys'.server ev) : Recorded cfg sys act sys' ev
  | deducted {stream : Stream} {ref : ClientRef} {mp : MetadataPayload} (hmem : stream ∈ sys.streams)
      (h : stream.pc.input = some (ref, mp)) : Recorded cfg sys act sys' (.deducted ref mp)

theorem history_step (hstep : step cfg sys act = some sys') :
    Records (Recorded cfg sys act sys') sys.server.frontend sys'.server.frontend := by
  have hresume : ∀ {stream s pc}, stream ∈ sys.streams → ResumeStep cfg sys.server stream s pc →
      Records (Recorded cfg sys act sys') sys.server.frontend s.frontend := by
    intro stream s pc hmem h
    cases h with
    | settled hf => exact hf.records fun hr => .pushed (.engineIds hr)
    | suspended => exact .of_eq rfl
    | concluded hpc => exact (Records.of_eq (by rfl)).emit (.deducted hmem (by rw [hpc]; rfl))
  cases step_cases hstep with
  | openClient => exact .of_eq rfl
  | openProducer => exact .of_eq rfl
  | unknownClient => exact .of_eq rfl
  | message hi hidle hclient h =>
    obtain ⟨es, hes, hP⟩ := h.records
    exact ⟨es, hes, fun ev hev => .handled rfl hi hidle hclient (hP ev hev)⟩
  | resumed hi h => exact hresume (List.mem_of_getElem? hi) h
  | closed hi _ h => exact hresume (List.mem_of_getElem? hi) h
  | openSession => exact .of_eq rfl
  | session _ _ h =>
    obtain ⟨es, hes, hP⟩ := h.effects.records
    exact ⟨es, hes, fun ev hev => .pushed (hP ev hev)⟩

/-! ### Addresses -/

/-- The addresses of the streams that were ever opened. -/
def Sys.addresses (sys : Sys) : List Address := sys.streams.map Stream.address

theorem Sys.addresses_setStream {i : Nat} {stream : Stream} (hi : sys.streams[i]? = some stream)
    (r : Server × StreamPc) : (sys.setStream i stream r).addresses = sys.addresses := by
  obtain ⟨hlt, rfl⟩ := List.getElem?_eq_some_iff.1 hi
  have hlt' : i < (sys.streams.map Stream.address).length := by simpa using hlt
  have haddress : sys.streams[i].address = (sys.streams.map Stream.address)[i] := by simp
  simp only [Sys.addresses, Sys.setStream, List.map_set]
  rw [haddress]
  exact List.set_getElem_self hlt'

/-- The address at which an action opens a stream. -/
def Action.opens : Action → List Address
  | .openClient a | .openProducer a => [a]
  | _ => []

theorem addresses_step (hstep : step cfg sys act = some sys') : sys'.addresses = sys.addresses ++ act.opens := by
  have hset : ∀ {i stream} {r : Server × StreamPc}, sys.streams[i]? = some stream →
      (sys.setStream i stream r).addresses = sys.addresses ++ [] := by
    intro i stream r hi
    rw [Sys.addresses_setStream hi, List.append_nil]
  cases step_cases hstep with
  | openClient => simp [Sys.addresses, Action.opens]
  | openProducer => simp [Sys.addresses, Action.opens]
  | unknownClient hi => exact hset hi
  | message hi => exact hset hi
  | resumed hi => exact hset hi
  | closed hi => exact hset hi
  | openSession => simp [Sys.addresses, Action.opens]
  | session _ _ _ hact =>
    have hopens : act.opens = [] := by cases act <;> first | rfl | cases hact
    simp [Sys.addresses, Sys.setSession, hopens]

/-- What the server knows of an address comes from a stream that was opened there. -/
structure Sys.Rooted (sys : Sys) : Prop where
  table : ∀ a ref, sys.server.frontend.clients.get? a = some ref → a ∈ sys.addresses
  log : ∀ ev ∈ sys.server.frontend.log, ev.address ∈ sys.addresses
  input : ∀ stream ∈ sys.streams, ∀ ref mp, stream.pc.input = some (ref, mp) →
    mp.metadata.clientAddress = stream.address

theorem Pushed.rooted {ev : ClientEvent} (h : Pushed sys.server.frontend ev) (hroot : sys.Rooted) :
    ev.address ∈ sys.addresses := by
  cases h with
  | engineIds hr => exact hroot.table _ _ hr
  | resultFor hr => exact hroot.table _ _ hr
  | result hr => exact hroot.table _ _ hr

theorem Recorded.rooted {ev : ClientEvent} (h : Recorded cfg sys act sys' ev) (hroot : sys.Rooted) :
    ev.address ∈ sys.addresses := by
  cases h with
  | pushed h => exact h.rooted hroot
  | handled _ hi _ _ h =>
    have haddress := List.mem_map_of_mem (f := Stream.address) (List.mem_of_getElem? hi)
    cases h with
    | pushed h => exact h.rooted hroot
    | _ => exact haddress
  | deducted hmem h =>
    have haddress := List.mem_map_of_mem (f := Stream.address) hmem
    rw [← hroot.input _ hmem _ _ h] at haddress
    exact haddress

private theorem input_setStream {i : Nat} {stream : Stream} {r : Server × StreamPc} (hroot : sys.Rooted)
    (hinput : ∀ ref mp, r.2.input = some (ref, mp) → mp.metadata.clientAddress = stream.address) :
    ∀ st ∈ (sys.setStream i stream r).streams, ∀ ref mp, st.pc.input = some (ref, mp) →
      mp.metadata.clientAddress = st.address := by
  intro st hst
  rcases List.mem_or_eq_of_mem_set hst with hst | rfl
  · exact hroot.input st hst
  · exact hinput

theorem rooted_step (hstep : step cfg sys act = some sys') (h : sys.Rooted) : sys'.Rooted := by
  have haddresses : ∀ {b}, b ∈ sys.addresses → b ∈ sys'.addresses := by
    intro b hb
    rw [addresses_step hstep]
    exact List.mem_append_left _ hb
  refine ⟨fun b ref hr => ?_, fun ev hev => ?_, ?_⟩
  · by_cases hopen : act = .openClient b
    · rw [addresses_step hstep, hopen]
      exact List.mem_append_right _ (List.mem_singleton.2 rfl)
    · exact haddresses (h.table b ref (clients_step hstep hopen hr))
  · rcases (history_step hstep).mem hev with hev | hev
    · exact haddresses (h.log ev hev)
    · exact haddresses (hev.rooted h)
  · cases step_cases hstep with
    | openClient =>
      intro st hst
      rcases List.mem_append.1 hst with hst | hst
      · exact h.input st hst
      · obtain rfl := List.mem_singleton.1 hst
        rintro _ _ ⟨⟩
    | openProducer =>
      intro st hst
      rcases List.mem_append.1 hst with hst | hst
      · exact h.input st hst
      · obtain rfl := List.mem_singleton.1 hst
        rintro _ _ ⟨⟩
    | unknownClient => exact input_setStream h (by rintro _ _ ⟨⟩)
    | message _ _ _ hm => exact input_setStream h fun ref mp hi => (hm.input hi).2
    | resumed hi hr =>
      exact input_setStream h fun ref mp hp => h.input _ (List.mem_of_getElem? hi) ref mp (hr.input hp)
    | closed hi _ hr =>
      exact input_setStream h fun ref mp hp => h.input _ (List.mem_of_getElem? hi) ref mp (hr.input hp)
    | openSession => exact h.input
    | session => exact h.input

theorem run_rooted {as : List Action} (h : (machine cfg).Run as sys) : sys.Rooted := by
  have hinit : Sys.Rooted {} := ⟨fun _ _ hr => (nomatch hr), fun _ hev => (nomatch hev), fun _ hst => (nomatch hst)⟩
  exact h.invariant (I := Sys.Rooted) hinit (fun _ _ _ h _ hstep => rooted_step hstep h)

/-! ### Registrations -/

/-- A client that was told that it is registered has a client info, and was told the number of tokens. -/
def Sys.Welcomed (cfg : Config) (sys : Sys) : Prop :=
  ∀ ref a n ids, .toClient ref a (.registered n ids) ∈ sys.server.frontend.log →
    n = cfg.numTokensPerProducer ∧ (sys.server.frontend.clientObjs ref).clientInfo ≠ none

/-- The client info of an entry is never withdrawn. -/
theorem clientInfo_step (hstep : step cfg sys act = some sys') (ht : sys.ClientsTracked)
    (hinfo : (sys.server.frontend.clientObjs ref).clientInfo ≠ none) :
    (sys'.server.frontend.clientObjs ref).clientInfo ≠ none := by
  obtain ⟨es, hes⟩ := (history_step hstep).log_grows
  rw [ht.frontend.info] at hinfo
  rw [(clientsTracked_step hstep ht).frontend.info, ← hes, registrations_append, List.getLast?_append]
  cases hlast : (registrations es ref).getLast? with
  | none => simpa using hinfo
  | some info => simp

theorem welcomed_step (hstep : step cfg sys act = some sys') (ht : sys.ClientsTracked) (h : sys.Welcomed cfg) :
    sys'.Welcomed cfg := by
  intro ref a n ids hev
  rcases (history_step hstep).mem hev with hev | hev
  · obtain ⟨hn, hinfo⟩ := h ref a n ids hev
    exact ⟨hn, clientInfo_step hstep ht hinfo⟩
  · cases hev with
    | pushed h => cases h
    | handled _ _ _ _ h =>
      cases h with
      | registered _ _ hinfo => exact ⟨rfl, by rw [hinfo]; simp⟩
      | pushed h => cases h

theorem run_welcomed {as : List Action} (h : (machine cfg).Run as sys) : sys.Welcomed cfg := by
  have hinit : Sys.Welcomed cfg {} := fun _ _ _ _ hev => (nomatch hev)
  exact h.invariant_of (I := Sys.Welcomed cfg) (J := Sys.ClientsTracked) (fun h => run_clientsTracked h.run) hinit
    (fun _ _ _ ht h _ hstep => welcomed_step hstep ht h)

end Interleaved

end Gabriel
