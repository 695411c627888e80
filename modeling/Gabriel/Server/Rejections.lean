import Gabriel.Server.Connections
import Gabriel.Server.Credit
import Gabriel.Server.History

/-!
# Rejected inputs

An input is rejected if its client is not registered or has no token for the producer, if none of its targets is
connected, or if all of them are busy and the queue of the producer is full.  By then the dispatcher may have made a
producer info, replaced its target engines and added the producer to deques, but nothing that decides about other
inputs has changed.  The client gets one reply, with the token, and its stream goes on.
-/

namespace Gabriel

/-! ### What a rejection leaves alone -/

/-- The queues, in-flight inputs and tokens of the producers, what the engines work on and have been sent, and the
record of the dispatcher's events are the same. -/
structure Dispatcher.Untouched (d d' : Dispatcher) : Prop where
  inputQueue : ∀ p, (d'.producer p).inputQueue = (d.producer p).inputQueue
  latestInputSentToEngine : ∀ p,
    (d'.producer p).latestInputSentToEngine = (d.producer p).latestInputSentToEngine
  pendingTokenReturn : ∀ p, (d'.producer p).pendingTokenReturn = (d.producer p).pendingTokenReturn
  currentInputMetadata : ∀ c, (d'.workers c).currentInputMetadata = (d.workers c).currentInputMetadata
  latestInputProcessed : ∀ c, (d'.workers c).latestInputProcessed = (d.workers c).latestInputProcessed
  log : d'.log = d.log

theorem Dispatcher.Untouched.refl (d : Dispatcher) : d.Untouched d :=
  ⟨fun _ => rfl, fun _ => rfl, fun _ => rfl, fun _ => rfl, fun _ => rfl, rfl⟩

/-- The token counters that exist are the same. -/
def Frontend.KeepsCounters (f f' : Frontend) : Prop :=
  ∀ ref p n, (f.clientObjs ref).tokensForProducer p = some n → (f'.clientObjs ref).tokensForProducer p = some n

theorem Frontend.keepsCounters_initTokens (cfg : Config) (f : Frontend) (ref : ClientRef) (p : String) :
    f.KeepsCounters (f.initTokens cfg ref p) := by
  intro ref' q n h
  unfold initTokens
  split
  · exact h
  · rename_i hnone
    by_cases href : ref' = ref
    · subst href
      have hq : q ≠ p := by
        rintro rfl
        rw [hnone] at h
        cases h
      simpa [hq] using h
    · simpa [href] using h

namespace ClientLog

/-- The error replies that were built. -/
def repliesBuilt (log : List ClientEvent) : List (ClientRef × Address × ResultWrapper) :=
  log.filterMap fun
    | .errorReply ref a w => some (ref, a, w)
    | _ => none

/-- The results and error replies that went out to clients. -/
def resultsSent (log : List ClientEvent) : List (ClientRef × Address × ResultWrapper) :=
  log.filterMap fun
    | .toClient ref a (.resultWrapper w) => some (ref, a, w)
    | _ => none

@[simp] theorem repliesBuilt_append (l l' : List ClientEvent) :
    repliesBuilt (l ++ l') = repliesBuilt l ++ repliesBuilt l' := List.filterMap_append

@[simp] theorem resultsSent_append (l l' : List ClientEvent) :
    resultsSent (l ++ l') = resultsSent l ++ resultsSent l' := List.filterMap_append

end ClientLog

/-! ### Rejections -/

/-- The status of the error reply to an input for the client entry `ref`, if the input is rejected. -/
def Server.rejection (cfg : Config) (s : Server) (ref : ClientRef) (input : Input) : Option StatusCode :=
  let targets := s.dispatcher.targetEngines input.targetEngineIds
  if (s.frontend.clientObjs ref).clientInfo = none then some .unspecifiedError
  else if s.frontend.credit cfg ref input.producerId < 1 then some .noTokens
  else if targets = [] then some .noEngineForInput
  else if (∀ c ∈ targets, (s.dispatcher.workers c).currentInputMetadata ≠ none) ∧
      (s.dispatcher.producer input.producerId).inputQueue.length = cfg.sizeForQueues then some .serverDroppedFrame
  else none

namespace Interleaved

open Frontend ClientLog

variable {cfg : Config} {s s' : Server} {sys sys' : Sys} {stream : Stream} {ref : ClientRef} {msg : FromClient}
  {order : List Context} {b : Bool} {code : StatusCode}

/-- The server `s₁` after the operations of a consumer on `s` that come before its error reply. -/
structure BeforeReply (s s₁ : Server) : Prop where
  dispatcher : s.dispatcher.Untouched s₁.dispatcher
  counters : s.frontend.KeepsCounters s₁.frontend
  clients : s₁.frontend.clients = s.frontend.clients
  repliesBuilt : repliesBuilt s₁.frontend.log = repliesBuilt s.frontend.log
  resultsSent : resultsSent s₁.frontend.log = resultsSent s.frontend.log

theorem BeforeReply.received (s : Server) (ref : ClientRef) (a : Address) (msg : FromClient) :
    BeforeReply s { s with frontend := s.frontend.emit (.received ref a msg) } :=
  ⟨.refl _, fun _ _ _ h => h, rfl, List.filterMap_append.trans (List.append_nil _),
    List.filterMap_append.trans (List.append_nil _)⟩

theorem BeforeReply.initTokens (h : BeforeReply s s') (cfg : Config) (ref : ClientRef) (p : String) :
    BeforeReply s { s' with frontend := s'.frontend.initTokens cfg ref p } :=
  ⟨h.dispatcher, fun ref' q n hn => keepsCounters_initTokens cfg s'.frontend ref p ref' q n (h.counters ref' q n hn),
    by simpa using h.clients, by simpa using h.repliesBuilt, by simpa using h.resultsSent⟩

/-- The input is given to the dispatcher. -/
theorem BeforeReply.submitted {d : Dispatcher} (h : BeforeReply s s') (hd : s.dispatcher.Untouched d)
    (ref : ClientRef) (mp : MetadataPayload) :
    BeforeReply s { dispatcher := d, frontend := s'.frontend.emit (.submitted ref mp) } :=
  ⟨hd, h.counters, h.clients, (List.filterMap_append.trans (List.append_nil _)).trans h.repliesBuilt,
    (List.filterMap_append.trans (List.append_nil _)).trans h.resultsSent⟩

private theorem untouched_beginInput (d : Dispatcher) (p : String) (targets order : List Context) :
    d.Untouched ((d.beginInput p targets).addProducers order p) := by
  constructor <;> simp

/-- `_consumer_helper` with an input. -/
theorem consumerHelper_of_input {f : Frontend} {a : Address} (hmsg : msg.isRegistration = false) :
    f.consumerHelper cfg ref a msg =
      match (f.clientObjs ref).clientInfo with
      | none =>
        (f.emit (.received ref a msg), .refused .unspecifiedError "Client must register before sending input")
      | some info =>
        ((f.emit (.received ref a msg)).initTokens cfg ref msg.asInput.producerId,
          if f.credit cfg ref msg.asInput.producerId < 1 then .refused .noTokens "No tokens for producer"
          else .forward info) := by
  cases msg with
  | registration => cases hmsg
  | _ =>
    simp only [consumerHelper, tokens_initTokens, credit_emit, emit_clientObjs]
    cases (f.clientObjs ref).clientInfo with
    | none => rfl
    | some info => simp only; split <;> rfl

/-- The dispatch of an input whose targets are all busy and whose producer's queue is full. -/
private theorem startDispatch_of_full {mp : MetadataPayload} (b : Bool)
    (hbusy : ∀ c ∈ order, (s.dispatcher.workers c).currentInputMetadata ≠ none)
    (hfull : (s.dispatcher.producer mp.producerId).inputQueue.length = cfg.sizeForQueues) :
    startDispatch cfg s stream ref msg mp order b =
      afterReply cfg { s with dispatcher := s.dispatcher.addProducers order mp.producerId } stream
        (s.frontend.replyError cfg ref stream.address msg .serverDroppedFrame
          ("Input queue for " ++ mp.producerId ++ " is full, dropping input")) := by
  generalize hr : s.dispatcher.dispatchLoop mp b order = r
  cases Dispatcher.dispatchLoop_cases hr with
  | busy => simp [startDispatch, hr, Dispatcher.concludeInput, Dispatcher.addInputToQueue, hfull]
  | @wrote c busy rest _ hidle => exact absurd hidle (hbusy c (by simp))

/-- A rejected input changes nothing before its error reply is built. -/
theorem consume_of_rejection (hmsg : msg.isRegistration = false)
    (hreject : s.rejection cfg ref msg.asInput = some code)
    (hperm : order.Perm (s.dispatcher.targetEngines msg.asInput.targetEngineIds)) :
    ∃ s₁ text, BeforeReply s s₁ ∧ consume cfg s stream ref msg order b =
      some (afterReply cfg s₁ stream (s₁.frontend.replyError cfg ref stream.address msg code text)) := by
  have hreceived := BeforeReply.received s ref stream.address msg
  have hinit := hreceived.initTokens cfg ref msg.asInput.producerId
  unfold consume Server.consumerHelper
  rw [consumerHelper_of_input hmsg]
  simp only [Server.rejection] at hreject
  cases hinfo : (s.frontend.clientObjs ref).clientInfo with
  | none =>
    simp only [hinfo, ↓reduceIte, Option.some.injEq] at hreject
    subst hreject
    exact ⟨_, _, hreceived, rfl⟩
  | some info =>
    simp only [hinfo, reduceCtorEq, ↓reduceIte] at hreject
    by_cases htokens : s.frontend.credit cfg ref msg.asInput.producerId < 1
    · simp only [htokens, ↓reduceIte, Option.some.injEq] at hreject ⊢
      subst hreject
      exact ⟨_, _, hinit, rfl⟩
    · by_cases hnone : s.dispatcher.targetEngines msg.asInput.targetEngineIds = []
      · simp only [htokens, hnone, ↓reduceIte, Option.some.injEq] at hreject ⊢
        subst hreject
        exact ⟨_, _, hinit.submitted (untouched_beginInput s.dispatcher msg.asInput.producerId [] []) ref
          (s.dispatcher.metadataPayload msg.asInput stream.address info), rfl⟩
      · simp only [htokens, hnone, hperm, ↓reduceIte, Option.ite_none_right_eq_some, Option.some.injEq]
          at hreject ⊢
        obtain ⟨⟨hbusy, hfull⟩, rfl⟩ := hreject
        refine ⟨_, _, hinit.submitted (untouched_beginInput s.dispatcher msg.asInput.producerId
          (s.dispatcher.targetEngines msg.asInput.targetEngineIds) order) ref
          (s.dispatcher.metadataPayload msg.asInput stream.address info), startDispatch_of_full b ?_ ?_⟩
        · simpa using fun c hc => hbusy c (hperm.mem_iff.1 hc)
        · simpa using hfull

/-- The reply `w` to a rejected input: it returns the token and names the producer and the frame. -/
structure Rejects (w : ResultWrapper) (input : Input) (code : StatusCode) : Prop where
  returnToken : w.returnToken = true
  producerId : w.producerId = input.producerId
  frameId : w.result.frameId = input.frameId
  code : w.result.status.code = code

/-- One rejected input: nothing is touched, one reply is built and sent, and the stream goes on. -/
theorem message_of_rejection {i : Nat} (hi : sys.streams[i]? = some stream) (hidle : stream.pc = .idle)
    (hclient : stream.client sys.server = some ref)
    (hentry : sys.server.frontend.clients.get? stream.address = some ref) (hmsg : msg.isRegistration = false)
    (hreject : sys.server.rejection cfg ref msg.asInput = some code)
    (hperm : order.Perm (sys.server.dispatcher.targetEngines msg.asInput.targetEngineIds)) :
    ∃ sys' w, step cfg sys (.message i msg order b) = some sys' ∧
      sys.server.dispatcher.Untouched sys'.server.dispatcher ∧
      sys.server.frontend.KeepsCounters sys'.server.frontend ∧ Rejects w msg.asInput code ∧
      repliesBuilt sys'.server.frontend.log = repliesBuilt sys.server.frontend.log ++ [(ref, stream.address, w)] ∧
      resultsSent sys'.server.frontend.log = resultsSent sys.server.frontend.log ++ [(ref, stream.address, w)] ∧
      sys'.server.frontend.clients = sys.server.frontend.clients ∧
      sys'.streams[i]? = some { stream with pc := .replying } := by
  obtain ⟨s₁, text, hbefore, hconsume⟩ := consume_of_rejection hmsg hreject hperm
  let w := makeErrorResponse msg code text
  let f := (s₁.frontend.emit (.errorReply ref stream.address w)).emit (.toClient ref stream.address (.resultWrapper w))
  have hentry₁ : (s₁.frontend.emit (.errorReply ref stream.address w)).clients.get? stream.address = some ref := by
    rw [emit_clients, hbefore.clients]
    exact hentry
  rw [replyError, reply_of_entry hentry₁] at hconsume
  have hlt := (List.getElem?_eq_some_iff.1 hi).1
  have herrors : repliesBuilt f.log = repliesBuilt s₁.frontend.log ++ [(ref, stream.address, w)] := by
    simp [f, repliesBuilt]
  have hresults : resultsSent f.log = resultsSent s₁.frontend.log ++ [(ref, stream.address, w)] := by
    simp [f, resultsSent]
  refine ⟨sys.setStream i stream ({ s₁ with frontend := f }, .replying), w, ?_, hbefore.dispatcher, hbefore.counters,
    ⟨rfl, rfl, rfl, rfl⟩, hbefore.repliesBuilt ▸ herrors, hbefore.resultsSent ▸ hresults, hbefore.clients, ?_⟩
  · simp only [step, hi, streamMessage, hidle, hclient, Option.bind_eq_bind, Option.bind_some]
    rw [hconsume]
    rfl
  · simp [Sys.setStream, hlt]

/-- If clients connect only at addresses that are free, then in every state a rejected input leaves queues, in-flight
inputs, tokens and engines as they are, no frame is written, and one reply is built and sent: it returns the token and
names the producer and the frame of the input. -/
theorem rejected_input_answered_once {as : List Action}
    (h : (machine cfg).RunWhere (fun sys a => a.addressFree sys) as sys) {i : Nat}
    (hi : sys.streams[i]? = some stream) (hidle : stream.pc = .idle) (hclient : stream.client sys.server = some ref)
    (hmsg : msg.isRegistration = false) (hreject : sys.server.rejection cfg ref msg.asInput = some code)
    (hperm : order.Perm (sys.server.dispatcher.targetEngines msg.asInput.targetEngineIds)) :
    ∃ sys' w, step cfg sys (.message i msg order b) = some sys' ∧
      sys.server.dispatcher.Untouched sys'.server.dispatcher ∧
      sys.server.frontend.KeepsCounters sys'.server.frontend ∧ Rejects w msg.asInput code ∧
      repliesBuilt sys'.server.frontend.log = repliesBuilt sys.server.frontend.log ++ [(ref, stream.address, w)] ∧
      resultsSent sys'.server.frontend.log = resultsSent sys.server.frontend.log ++ [(ref, stream.address, w)] := by
  have hattached : stream.Attached cfg sys.server.frontend :=
    (run_attached (fun _ _ h => h) h).attached hi (by rw [hidle]; trivial)
  obtain ⟨sys', w, hstep, hd, hcounters, hw, herrors, hresults, -⟩ :=
    message_of_rejection hi hidle hclient (hattached.client hclient) hmsg hreject hperm
  exact ⟨sys', w, hstep, hd, hcounters, hw, herrors, hresults⟩

private def rejectionConfig : Config := { numTokensPerProducer := 1, sizeForQueues := 1 }

private def noInput : Input := { frameId := 3, producerId := "P", targetEngineIds := ["A"] }

/-- A registered client sends an input while no engine is connected. -/
theorem rejected_input_answered_once_of_no_engine : ∃ as sys stream sys' w,
    (machine rejectionConfig).RunWhere (fun sys a => a.addressFree sys) as sys ∧ sys.streams[0]? = some stream ∧
    sys.server.rejection rejectionConfig 0 noInput = some .noEngineForInput ∧
    step rejectionConfig sys (.message 0 (.input noInput) [] true) = some sys' ∧
    Rejects w noInput .noEngineForInput ∧
    resultsSent sys'.server.frontend.log = resultsSent sys.server.frontend.log ++ [(0, stream.address, w)] := by
  obtain ⟨sys, hrun, hreject, htargets, hstream⟩ := Machine.exists_runWhere (M := machine rejectionConfig)
    (G := fun sys a => a.addressFree sys) (g := fun sys a => decide (a.addressFree sys))
    (fun _ _ h => of_decide_eq_true h)
    (fun sys => sys.server.rejection rejectionConfig 0 noInput = some .noEngineForInput ∧
      sys.server.dispatcher.targetEngines noInput.targetEngineIds = [] ∧
      sys.streams[0]?.map (fun stream => (stream.pc, stream.owner)) = some (.idle, some 0))
    [.openClient "session", .message 0 (.registration {}) [] true, .resumeStream 0 false true] (by decide)
  obtain ⟨stream, hi, hst⟩ := Option.map_eq_some_iff.1 hstream
  obtain ⟨hidle, howner⟩ := Prod.mk.inj hst
  have hclient : stream.client sys.server = some 0 := by simp [Stream.client, howner]
  have hperm : ([] : List Context).Perm (sys.server.dispatcher.targetEngines noInput.targetEngineIds) := by
    rw [htargets]
  have hmsg : (FromClient.input noInput).isRegistration = false := rfl
  obtain ⟨sys', w, hstep, -, -, hw, -, hsent⟩ :=
    rejected_input_answered_once hrun hi hidle hclient hmsg hreject hperm
  exact ⟨_, sys, stream, sys', w, hrun, hi, hreject, hstep, hw, hsent⟩

/-- Two connections share a session id.  The first ends and deletes the write lock of the second, whose input is then
rejected without a reply, although its stream is still there. -/
theorem rejection_not_sent : ∃ as sys sys', (machine rejectionConfig).Run as sys ∧
    sys.server.rejection rejectionConfig 1 noInput = some .unspecifiedError ∧
    step rejectionConfig sys (.message 1 (.input noInput) [] true) = some sys' ∧
    (repliesBuilt sys'.server.frontend.log).length = 1 ∧ resultsSent sys'.server.frontend.log = [] ∧
    (step rejectionConfig sys' (.message 1 (.input noInput) [] true)).isSome = true := by
  obtain ⟨sys, hrun, hreject, h⟩ := Machine.exists_run (M := machine rejectionConfig)
    (fun sys => sys.server.rejection rejectionConfig 1 noInput = some .unspecifiedError ∧
      (step rejectionConfig sys (.message 1 (.input noInput) [] true)).any (fun sys' =>
        (repliesBuilt sys'.server.frontend.log).length = 1 ∧ resultsSent sys'.server.frontend.log = [] ∧
          (step rejectionConfig sys' (.message 1 (.input noInput) [] true)).isSome = true) = true)
    [.openClient "session", .openClient "session", .closeStream 0] (by decide)
  obtain ⟨sys', hstep, he⟩ := (Option.any_eq_true _ _).1 h
  exact ⟨_, sys, sys', hrun, hreject, hstep, of_decide_eq_true he⟩

end Interleaved

end Gabriel
