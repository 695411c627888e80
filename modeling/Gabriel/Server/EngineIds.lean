import Gabriel.Server.ClientHistory
import Gabriel.Server.Connections
import Gabriel.Client.Grpc

/-!
# The engine ids that the clients hold

A client takes the engine ids of the last `Registered` or `EngineIdsUpdate` that it has processed, so that the history
of the server tells which ids a client has once all messages to it are delivered (`Frontend.heldIds`).  The handlers of
the clients' streams send engine ids only with the acknowledgement of a registration, and then those of the server
(`Informs`).
-/

namespace Gabriel

/-- The engine ids that a client takes from a message. -/
def ToClient.engineIds? : ToClient → Option (Finset String)
  | .registered _ ids | .engineIdsUpdate ids => some ids
  | .resultWrapper _ => none

namespace GrpcClient.Session

theorem processMessage_engineIds {s s' : Session} {raises : Bool} {msg : ToClient}
    (h : s.processMessage raises msg = .ok s') : s'.engineIds = msg.engineIds?.getD s.engineIds := by
  have hreturn : ∀ {s' : Session} {p : String}, s.returnToken p = .ok s' → s'.engineIds = s.engineIds := by
    intro s' p h
    unfold returnToken at h
    split at h
    · cases h
    · split at h
      · cases h
      · cases h; rfl
  have hgive : ∀ {s' : Session} {w : ResultWrapper},
      (if w.returnToken then s.returnToken w.producerId else .ok s) = .ok s' → s'.engineIds = s.engineIds := by
    intro s' w h
    split at h
    · exact hreturn h
    · cases h; rfl
  cases msg with
  | registered n ids => cases h; rfl
  | engineIdsUpdate ids => cases h; rfl
  | resultWrapper w =>
    simp only [processMessage, processResponse] at h
    split at h
    · split at h
      · cases h
      · exact hgive h
    · cases h
    · cases h
    · exact hgive h

/-- A client that has processed the messages `msgs` has the last engine ids among them. -/
theorem engineIds_of_processed {s s' : Session} {msgs : List ToClient}
    (h : msgs.foldlM (fun s msg => s.processMessage false msg) s = .ok s') :
    s'.engineIds = (msgs.filterMap ToClient.engineIds?).getLast?.getD s.engineIds := by
  induction msgs generalizing s with
  | nil => cases h; rfl
  | cons msg msgs ih =>
    simp only [List.foldlM_cons] at h
    cases hmsg : s.processMessage false msg with
    | error err => rw [hmsg] at h; cases h
    | ok s₁ =>
      rw [hmsg] at h
      rw [ih h, processMessage_engineIds hmsg, List.filterMap_cons]
      cases msg.engineIds? with
      | none => rfl
      | some ids => rw [List.getLast?_cons]; simp

end GrpcClient.Session

/-- The message that an event sends to the client `ref`. -/
def ClientEvent.messageFor (ref : ClientRef) : ClientEvent → Option ToClient
  | .toClient ref' _ msg => if ref' = ref then some msg else none
  | _ => none

namespace Frontend

variable {cfg : Config} {f f' f'' : Frontend} {ref : ClientRef} {a : Address} {ids : Finset String}

/-- The engine ids of a client that has processed all messages sent to it. -/
def heldIds (f : Frontend) (ref : ClientRef) : Option (Finset String) :=
  ((f.log.filterMap (ClientEvent.messageFor ref)).filterMap ToClient.engineIds?).getLast?

/-- What the client has when it has processed the messages. -/
theorem engineIds_of_delivered {s s' : GrpcClient.Session} (hids : f.heldIds ref = some ids)
    (h : (f.log.filterMap (ClientEvent.messageFor ref)).foldlM (fun s msg => s.processMessage false msg) s = .ok s') :
    s'.engineIds = ids := by
  rw [GrpcClient.Session.engineIds_of_processed h]
  unfold heldIds at hids
  rw [hids, Option.getD_some]

theorem heldIds_of_log (h : f'.log = f.log) (ref : ClientRef) : f'.heldIds ref = f.heldIds ref := by
  unfold heldIds
  rw [h]

theorem heldIds_emit (f : Frontend) (ev : ClientEvent) (ref : ClientRef) :
    (f.emit ev).heldIds ref = ((ev.messageFor ref).bind ToClient.engineIds?).or (f.heldIds ref) := by
  unfold heldIds
  rw [emit_log, List.filterMap_append, List.filterMap_append, List.getLast?_append]
  cases hmsg : ev.messageFor ref with
  | none => simp [hmsg]
  | some msg => cases hids : msg.engineIds? <;> simp [hmsg, hids]

theorem heldIds_emit_none {ev : ClientEvent} (h : ∀ ref, (ev.messageFor ref).bind ToClient.engineIds? = none)
    (ref : ClientRef) : (f.emit ev).heldIds ref = f.heldIds ref := by
  rw [heldIds_emit, h ref, Option.none_or]

/-- Ids that a client has are only replaced. -/
theorem heldIds_ne_none (h : f.log <+: f'.log) (hids : f.heldIds ref ≠ none) : f'.heldIds ref ≠ none := by
  obtain ⟨es, hes⟩ := h
  unfold heldIds at *
  rw [← hes, List.filterMap_append, List.filterMap_append, List.getLast?_append]
  cases hlast : (List.filterMap ToClient.engineIds? (es.filterMap (ClientEvent.messageFor ref))).getLast? with
  | none => rwa [Option.none_or]
  | some ids => simp

/-- Every client that has registered has been sent engine ids. -/
def Greeted (f : Frontend) : Prop := ∀ ref, (f.clientObjs ref).clientInfo ≠ none → f.heldIds ref ≠ none

theorem Greeted.of_log (h : f.Greeted) (hlog : f.log <+: f'.log)
    (hinfo : ∀ ref, (f'.clientObjs ref).clientInfo = (f.clientObjs ref).clientInfo) : f'.Greeted := by
  intro ref href
  rw [hinfo] at href
  exact heldIds_ne_none hlog (h ref href)

theorem messageFor_resultWrapper (ref : ClientRef) (a : Address) (w : ResultWrapper) (ref' : ClientRef) :
    (ClientEvent.messageFor ref' (.toClient ref a (.resultWrapper w))).bind ToClient.engineIds? = none := by
  by_cases hr : ref = ref' <;> simp [ClientEvent.messageFor, hr, ToClient.engineIds?]

theorem ResultSent.heldIds {w : ResultWrapper} {r : Frontend × Bool} (h : ResultSent f a w r) (ref : ClientRef) :
    r.1.heldIds ref = f.heldIds ref := by
  have hemit : ∀ {f : Frontend} {ref' : ClientRef}, (f.emit (.resultFor ref' a w)).heldIds ref = f.heldIds ref :=
    heldIds_emit_none (fun _ => rfl) ref
  cases h with
  | noClient => rfl
  | sent =>
    rw [heldIds_emit_none (messageFor_resultWrapper _ _ _)]
    split
    · exact hemit
    · exact hemit

theorem ResultSent.clientInfo {w : ResultWrapper} {r : Frontend × Bool} (h : ResultSent f a w r) (ref : ClientRef) :
    (r.1.clientObjs ref).clientInfo = (f.clientObjs ref).clientInfo := by
  cases h with
  | noClient => rfl
  | @sent ref' =>
    split
    · by_cases hr : ref = ref' <;> simp [addTokens, hr]
    · rfl

/-- What the handlers of the clients' streams do: they tell a client at most the ids `ids`. -/
structure Informs (ids : Finset String) (f f' : Frontend) : Prop where
  held : ∀ ref, f'.heldIds ref = f.heldIds ref ∨ f'.heldIds ref = some ids
  greeted : f.Greeted → f'.Greeted

theorem Informs.of_same (hheld : ∀ ref, f'.heldIds ref = f.heldIds ref)
    (hinfo : ∀ ref, (f'.clientObjs ref).clientInfo = (f.clientObjs ref).clientInfo) : Informs ids f f' := by
  refine ⟨fun ref => Or.inl (hheld ref), fun h ref href => ?_⟩
  rw [hinfo] at href
  rw [hheld]
  exact h ref href

theorem Informs.trans (h : Informs ids f f') (h' : Informs ids f' f'') : Informs ids f f'' := by
  refine ⟨fun ref => ?_, fun hg => h'.greeted (h.greeted hg)⟩
  rcases h'.held ref with heq | heq
  · rw [heq]
    exact h.held ref
  · exact Or.inr heq

/-- An event that tells no client engine ids. -/
theorem Informs.emit {ev : ClientEvent} (h : Informs ids f f')
    (hev : ∀ ref, (ev.messageFor ref).bind ToClient.engineIds? = none) : Informs ids f (f'.emit ev) :=
  h.trans (.of_same (heldIds_emit_none hev) fun _ => rfl)

/-- The registration of a client and its acknowledgement. -/
theorem informs_registered (f : Frontend) (ref : ClientRef) (a : Address) (info : AnyProto) (n : Nat) :
    Informs ids f (((f.emit (.received ref a (.registration info))).modifyClient ref fun client =>
      { client with clientInfo := some info }).emit (.toClient ref a (.registered n ids))) := by
  have hheld : ∀ r, Frontend.heldIds (((f.emit (.received ref a (.registration info))).modifyClient ref fun client =>
      { client with clientInfo := some info }).emit (.toClient ref a (.registered n ids))) r =
        if ref = r then some ids else f.heldIds r := by
    intro r
    have hrec : Frontend.heldIds ((f.emit (.received ref a (.registration info))).modifyClient ref fun client =>
        { client with clientInfo := some info }) r = f.heldIds r :=
      (heldIds_of_log (modifyClient_log ..) r).trans (heldIds_emit_none (fun _ => rfl) r)
    rw [heldIds_emit, hrec]
    by_cases hr : ref = r <;> simp [ClientEvent.messageFor, hr, ToClient.engineIds?]
  refine ⟨fun r => ?_, fun hg r hinfo => ?_⟩
  · rw [hheld]
    split
    · exact Or.inr rfl
    · exact Or.inl rfl
  · rw [hheld]
    split
    · simp
    · rename_i hne
      refine hg r ?_
      simpa [Function.update_of_ne (Ne.symm hne)] using hinfo

end Frontend

namespace Interleaved

open Dispatcher Frontend

variable {cfg : Config} {s s' : Server} {sys sys' : Sys} {stream : Stream} {act : Action} {ref : ClientRef}
  {ids : Finset String}

/-! ### The handlers of the streams -/

/-- An error reply. -/
theorem informs_replyError {f : Frontend} {msg : FromClient} {code : StatusCode} {text : String}
    (h : Informs ids s.frontend f) (hf : f.clients = s.frontend.clients)
    (hentry : s.frontend.clients.get? stream.address = some ref) (s₁ : Server) :
    Informs ids s.frontend
      (afterReply cfg s₁ stream (f.replyError cfg ref stream.address msg code text)).1.frontend ∧
    (afterReply cfg s₁ stream (f.replyError cfg ref stream.address msg code text)).1.frontend.clients =
      s.frontend.clients := by
  unfold replyError
  rw [reply_of_entry (by rw [emit_clients, hf]; exact hentry)]
  exact ⟨(h.emit fun _ => rfl).emit (messageFor_resultWrapper ref _ _), hf⟩

/-- `_consumer_helper` on a message that is not a registration. -/
theorem informs_consumerHelper {a : Address} {msg : FromClient} {verdict : Server.Verdict}
    (hr : s.consumerHelper cfg ref a msg = (s', verdict)) (hv : verdict ≠ .registered) :
    Informs ids s.frontend s'.frontend := by
  have hrec : Informs ids s.frontend (s.frontend.emit (.received ref a msg)) :=
    .of_same (heldIds_emit_none fun _ => rfl) fun _ => rfl
  have hinit : Informs ids s.frontend
      ((s.frontend.emit (.received ref a msg)).initTokens cfg ref msg.asInput.producerId) := by
    refine hrec.trans (.of_same (heldIds_of_log (initTokens_log _)) fun r => ?_)
    unfold initTokens
    split
    · rfl
    · by_cases hr : r = ref <;> simp [hr]
  unfold Server.consumerHelper at hr
  rcases hf : s.frontend.consumerHelper cfg ref a msg with ⟨f, adm⟩
  rw [hf] at hr
  cases consumerHelper_cases hf with
  | registered => cases hr; exact absurd rfl hv
  | unregistered => cases hr; exact hrec
  | noTokens => cases hr; exact hinit
  | forward =>
    simp only at hr
    split at hr
    · cases hr; exact hinit.emit fun _ => rfl
    · cases hr; exact hinit.emit fun _ => rfl

theorem consumerHelper_registered {a : Address} {msg : FromClient}
    (hr : s.consumerHelper cfg ref a msg = (s', .registered)) : ∃ info, s' = { s with
      frontend := (s.frontend.emit (.received ref a (.registration info))).modifyClient ref fun client =>
        { client with clientInfo := some info } } := by
  unfold Server.consumerHelper at hr
  rcases hf : s.frontend.consumerHelper cfg ref a msg with ⟨f, adm⟩
  rw [hf] at hr
  cases consumerHelper_cases hf with
  | registered info => cases hr; exact ⟨info, rfl⟩
  | unregistered => cases hr
  | noTokens => cases hr
  | forward =>
    simp only at hr
    split at hr <;> cases hr

theorem informs_deductToken (f : Frontend) (ref : ClientRef) (mp : MetadataPayload) :
    Informs ids f (f.deductToken ref mp) := by
  have htokens : Informs ids f (f.addTokens ref mp.producerId (-1)) := by
    refine .of_same (heldIds_of_log rfl) fun r => ?_
    by_cases hr : r = ref <;> simp [addTokens, hr]
  exact htokens.emit fun _ => rfl

/-- A message on the stream of a client whose entry is in the table. -/
theorem informs_consume {msg : FromClient} {order : List Context} {b : Bool} {pc : StreamPc}
    (hentry : s.frontend.clients.get? stream.address = some ref)
    (hr : consume cfg s stream ref msg order b = some (s', pc)) :
    Informs s.dispatcher.engineIds s.frontend s'.frontend ∧ s'.frontend.clients = s.frontend.clients := by
  have hclients := @consumerHelper_clients cfg s ref stream.address msg
  unfold consume at hr
  split at hr <;> rename_i heq <;> rw [heq] at hclients
  · obtain ⟨info, rfl⟩ := consumerHelper_registered heq
    simp only at hr
    rw [reply_of_entry (by simpa using hentry)] at hr
    cases hr
    exact ⟨informs_registered s.frontend ref stream.address info _, hclients⟩
  · obtain ⟨rfl, rfl⟩ := Prod.ext_iff.1 (Option.some.inj hr)
    exact informs_replyError (informs_consumerHelper heq (by simp)) hclients hentry _
  · have hinf := @informs_consumerHelper cfg s _ ref s.dispatcher.engineIds _ _ _ heq (by simp)
    split at hr
    · obtain ⟨rfl, rfl⟩ := Prod.ext_iff.1 (Option.some.inj hr)
      unfold startDispatch
      split
      · exact ⟨hinf, hclients⟩
      · split
        · exact ⟨hinf.trans (informs_deductToken ..), hclients⟩
        · exact informs_replyError hinf hclients hentry _
    · cases hr

/-- The end of a stream's handler. -/
theorem informs_endStream (deletes : Bool) (err : Option PyError) :
    Informs ids s.frontend (endStream s stream deletes err).1.frontend ∧
      (stream.owner = none → (endStream s stream deletes err).1.frontend.clients = s.frontend.clients) := by
  have hremove : Informs ids s.frontend (s.frontend.removeClient stream.address).1 := by
    unfold removeClient
    split
    · exact .of_same (fun _ => rfl) fun _ => rfl
    · exact .of_same (heldIds_of_log rfl) fun _ => rfl
  unfold endStream
  split
  · rename_i howner
    refine ⟨?_, fun hnone => by simp [hnone] at howner⟩
    split <;> rename_i heq <;> rw [heq] at hremove <;> exact hremove
  · exact ⟨.of_same (fun _ => rfl) fun _ => rfl, fun _ => rfl⟩

/-- A stream's handler goes on after a write, or fails in it. -/
theorem informs_resumeStream {raises b : Bool} {pc : StreamPc}
    (hr : resumeStream cfg s stream raises b = some (s', pc)) :
    Informs ids s.frontend s'.frontend ∧
      ((raises = true → stream.owner = none) → s'.frontend.clients = s.frontend.clients) := by
  have hfail : raises = true → some (failStream cfg s stream .raised) = some (s', pc) →
      Informs ids s.frontend s'.frontend ∧
        ((raises = true → stream.owner = none) → s'.frontend.clients = s.frontend.clients) := by
    intro hraises heq
    obtain ⟨rfl, rfl⟩ := Prod.ext_iff.1 (Option.some.inj heq)
    obtain ⟨hinf, hclients⟩ := @informs_endStream s stream ids (cfg.clientTransport ≠ .zeromq) (some .raised)
    exact ⟨hinf, fun hnone => hclients (hnone hraises)⟩
  unfold resumeStream at hr
  split at hr
  · cases hr
  · cases hr
  · split at hr
    · exact hfail ‹_› hr
    · unfold resumeDispatch at hr
      split at hr
      · cases hr
        exact ⟨.of_same (fun _ => rfl) fun _ => rfl, fun _ => rfl⟩
      · cases hr
        exact ⟨informs_deductToken .., fun _ => rfl⟩
  · split at hr
    · exact hfail ‹_› hr
    · cases hr
      exact ⟨.of_same (fun _ => rfl) fun _ => rfl, fun _ => rfl⟩

/-! ### Recipients -/

theorem nextClient_step (hstep : step cfg sys act = some sys') (ht : sys.ClientsTracked) :
    sys.server.frontend.nextClient ≤ sys'.server.frontend.nextClient := by
  cases step_cases hstep with
  | openClient => exact Nat.le_succ _
  | openProducer => exact Nat.le_refl _
  | unknownClient => exact Nat.le_refl _
  | message hi _ hclient hm => exact (hm.tracked ht.frontend (ht.client (List.mem_of_getElem? hi) hclient)).2.ge
  | resumed hi hr => exact (hr.tracked ht.frontend (ht.input _ (List.mem_of_getElem? hi))).2.ge
  | closed hi _ hr => exact (hr.tracked ht.frontend (ht.input _ (List.mem_of_getElem? hi))).2.ge
  | openSession => exact Nat.le_refl _
  | session _ _ hs => exact hs.effects.nextClient.ge

/-- Messages are only sent to clients that have connected. -/
def Sys.Recipients (sys : Sys) : Prop :=
  ∀ ref a msg, .toClient ref a msg ∈ sys.server.frontend.log → ref < sys.server.frontend.nextClient

theorem recipients_step (hstep : step cfg sys act = some sys') (ht : sys.ClientsTracked) (h : sys.Recipients) :
    sys'.Recipients := by
  intro ref a msg hev
  refine Nat.lt_of_lt_of_le ?_ (nextClient_step hstep ht)
  have hpushed : Pushed sys.server.frontend (.toClient ref a msg) → ref < sys.server.frontend.nextClient := by
    intro h
    cases h with
    | engineIds href => exact ht.frontend.table _ _ href
    | result href => exact ht.frontend.table _ _ href
  rcases (history_step hstep).mem hev with hev | hev
  · exact h ref a msg hev
  · cases hev with
    | pushed h => exact hpushed h
    | handled _ hi _ hclient h =>
      have href := ht.client (List.mem_of_getElem? hi) hclient
      cases h with
      | registered => exact href
      | replied => exact href
      | pushed h => exact hpushed h

theorem run_recipients {as : List Action} (h : (machine cfg).Run as sys) : sys.Recipients := by
  have hinit : Sys.Recipients {} := fun _ _ _ hev => (nomatch hev)
  exact h.invariant_of (I := Sys.Recipients) (J := Sys.ClientsTracked) (fun h => run_clientsTracked h.run) hinit
    (fun _ _ _ ht h _ hstep => recipients_step hstep ht h)

/-- A new entry has been sent nothing. -/
theorem Sys.Recipients.heldIds_nextClient (h : sys.Recipients) :
    sys.server.frontend.heldIds sys.server.frontend.nextClient = none := by
  have hnone : sys.server.frontend.log.filterMap (ClientEvent.messageFor sys.server.frontend.nextClient) = [] := by
    rw [List.filterMap_eq_nil_iff]
    intro ev hev
    cases ev with
    | toClient ref a msg =>
      have hlt := h ref a msg hev
      simp [ClientEvent.messageFor, Nat.ne_of_lt hlt]
    | _ => rfl
  simp [heldIds, hnone]

end Interleaved

end Gabriel
