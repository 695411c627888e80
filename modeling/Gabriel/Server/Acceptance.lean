import Gabriel.Server.Flow
import Gabriel.Server.Rejections

/-!
# Accepted inputs

A write to an engine that raises takes the consumer out of the dispatch loop: the engines it has already written to
work on an input that is not in flight and whose token was not deducted, the client gets no reply, and its stream is
gone.  As long as the writes of the dispatch loops succeed, an input is refused, queued or sent to an engine; in the
last case the loop comes to its end whatever other handlers do, and then the input is in flight and its token deducted
(`inputs_all_or_nothing`).
-/

namespace Gabriel.Interleaved

open Frontend ClientLog

variable {cfg : Config} {s : Server} {sys sys' : Sys} {act : Action} {stream : Stream} {i : Nat} {ref : ClientRef}
  {msg : FromClient} {mp : MetadataPayload} {order : List Context}

/-! ### What becomes of an input -/

/-- The client is told that its input is refused, and no engine is given it. -/
structure Refuses (sys sys' : Sys) (i : Nat) (stream : Stream) (ref : ClientRef) (input : Input) : Prop where
  reply : ∃ w code, Rejects w input code ∧
    repliesBuilt sys'.server.frontend.log = repliesBuilt sys.server.frontend.log ++ [(ref, stream.address, w)] ∧
    resultsSent sys'.server.frontend.log = resultsSent sys.server.frontend.log ++ [(ref, stream.address, w)]
  engines : sys.server.dispatcher.Untouched sys'.server.dispatcher
  stream : sys'.streams[i]? = some { stream with pc := .replying }

/-- The targets are all busy, and the input waits in the queue of its producer. -/
structure Queues (cfg : Config) (sys sys' : Sys) (i : Nat) (stream : Stream) (ref : ClientRef) (mp : MetadataPayload) :
    Prop where
  busy : ∀ c ∈ sys.server.dispatcher.targetEngines mp.metadata.targetEngineIds,
    (sys.server.dispatcher.workers c).currentInputMetadata ≠ none
  inputQueue : (sys'.server.dispatcher.producer mp.producerId).inputQueue =
    (sys.server.dispatcher.producer mp.producerId).inputQueue ++ [mp]
  deducted : sys'.server.frontend.credit cfg ref mp.producerId =
    sys.server.frontend.credit cfg ref mp.producerId - 1
  noReply : repliesBuilt sys'.server.frontend.log = repliesBuilt sys.server.frontend.log
  stream : sys'.streams[i]? = some { stream with pc := .idle }

/-- An engine was sent the input, and the targets `rest` are still to come. -/
structure Dispatches (cfg : Config) (sys sys' : Sys) (i : Nat) (stream : Stream) (ref : ClientRef)
    (mp : MetadataPayload) (rest : List Context) : Prop where
  sent : ∃ c, .wrote c mp.toEngine mp ∈ sys'.server.dispatcher.log
  credit : sys'.server.frontend.credit cfg ref mp.producerId = sys.server.frontend.credit cfg ref mp.producerId
  noReply : repliesBuilt sys'.server.frontend.log = repliesBuilt sys.server.frontend.log
  stream : sys'.streams[i]? = some { stream with pc := .dispatching ref mp rest }

/-- An engine was sent the input, the input is in flight, and its token is deducted. -/
structure Accepts (cfg : Config) (sys sys' : Sys) (i : Nat) (stream : Stream) (ref : ClientRef) (mp : MetadataPayload) :
    Prop where
  sent : ∃ c, .wrote c mp.toEngine mp ∈ sys'.server.dispatcher.log
  inFlight : (sys'.server.dispatcher.producer mp.producerId).latestInputSentToEngine = some mp
  pending : (sys'.server.dispatcher.producer mp.producerId).pendingTokenReturn = true
  deducted : sys'.server.frontend.credit cfg ref mp.producerId =
    sys.server.frontend.credit cfg ref mp.producerId - 1
  noReply : repliesBuilt sys'.server.frontend.log = repliesBuilt sys.server.frontend.log
  stream : sys'.streams[i]? = some { stream with pc := .idle }

/-! ### The input is taken up -/

theorem rejection_eq_none {input : Input} (h : s.rejection cfg ref input = none) :
    (∃ info, (s.frontend.clientObjs ref).clientInfo = some info) ∧ ¬ s.frontend.credit cfg ref input.producerId < 1 ∧
      s.dispatcher.targetEngines input.targetEngineIds ≠ [] ∧
      ((∀ c ∈ s.dispatcher.targetEngines input.targetEngineIds,
        (s.dispatcher.workers c).currentInputMetadata ≠ none) →
          (s.dispatcher.producer input.producerId).inputQueue.length ≠ cfg.sizeForQueues) := by
  simp only [Server.rejection] at h
  split at h
  · cases h
  · rename_i hinfo
    split at h
    · cases h
    · rename_i hcredit
      split at h
      · cases h
      · rename_i hnone
        split at h
        · cases h
        · rename_i hroom
          exact ⟨Option.ne_none_iff_exists'.1 hinfo, hcredit, hnone, fun hbusy hfull => hroom ⟨hbusy, hfull⟩⟩

/-- The server `s₁` when the input `mp` has come from `s` to the dispatch loop. -/
private structure Submitted (cfg : Config) (s s₁ : Server) (ref : ClientRef) (mp : MetadataPayload) : Prop where
  hasCounter : s₁.frontend.HasCounter ref mp.producerId
  credit : s₁.frontend.credit cfg = s.frontend.credit cfg
  repliesBuilt : repliesBuilt s₁.frontend.log = repliesBuilt s.frontend.log
  workers : s₁.dispatcher.workers = s.dispatcher.workers
  inputQueue : ∀ p, (s₁.dispatcher.producer p).inputQueue = (s.dispatcher.producer p).inputQueue

/-- An input that is not rejected comes to the dispatch loop. -/
private theorem consume_of_admission (stream : Stream) (hmsg : msg.isRegistration = false)
    (hadmitted : s.rejection cfg ref msg.asInput = none)
    (hperm : order.Perm (s.dispatcher.targetEngines msg.asInput.targetEngineIds)) (b : Bool) :
    ∃ info mp s₁, mp = s.dispatcher.metadataPayload msg.asInput stream.address info ∧ Submitted cfg s s₁ ref mp ∧
      consume cfg s stream ref msg order b = some (startDispatch cfg s₁ stream ref msg mp order b) := by
  obtain ⟨⟨info, hinfo⟩, hcredit, hnone, -⟩ := rejection_eq_none hadmitted
  have hconsume : consume cfg s stream ref msg order b = some (startDispatch cfg
      { dispatcher := s.dispatcher.beginInput msg.asInput.producerId
          (s.dispatcher.targetEngines msg.asInput.targetEngineIds)
        frontend := ((s.frontend.emit (.received ref stream.address msg)).initTokens cfg ref
          msg.asInput.producerId).emit
            (.submitted ref (s.dispatcher.metadataPayload msg.asInput stream.address info)) }
      stream ref msg (s.dispatcher.metadataPayload msg.asInput stream.address info) order b) := by
    unfold consume Server.consumerHelper
    rw [consumerHelper_of_input hmsg]
    simp only [hinfo, hcredit, hnone, hperm, ↓reduceIte]
  exact ⟨info, _, _, rfl, ⟨hasCounter_initTokens, by simp, by simp [ClientLog.repliesBuilt], by simp, by simp⟩,
    hconsume⟩

/-- The dispatch loop of a new input up to its first write; if there is none and the queue has room, the input is
queued. -/
private theorem startDispatch_of_room (b : Bool)
    (hroom : (∀ c ∈ order, (s.dispatcher.workers c).currentInputMetadata ≠ none) →
      (s.dispatcher.producer mp.producerId).inputQueue.length ≠ cfg.sizeForQueues) :
    ((∀ c ∈ order, (s.dispatcher.workers c).currentInputMetadata ≠ none) ∧
      startDispatch cfg s stream ref msg mp order b =
        ({ dispatcher := ((s.dispatcher.addProducers order mp.producerId).enqueue mp).emit (.accepted mp)
           frontend := s.frontend.deductToken ref mp }, .idle)) ∨
    ∃ c reached rest, startDispatch cfg s stream ref msg mp order b =
      ({ s with dispatcher := (s.dispatcher.addProducers reached mp.producerId).sendPayload c mp b },
        .dispatching ref mp rest) := by
  generalize hloop : s.dispatcher.dispatchLoop mp b order = r
  cases Dispatcher.dispatchLoop_cases hloop with
  | busy hbusy =>
    refine Or.inl ⟨hbusy, ?_⟩
    simp [startDispatch, hloop, Dispatcher.concludeInput, Dispatcher.addInputToQueue, hroom hbusy]
  | @wrote c busy rest _ hidle => exact Or.inr ⟨c, busy ++ [c], rest, by simp [startDispatch, hloop]⟩

theorem Sys.getElem?_setStream_self (hi : sys.streams[i]? = some stream) (r : Server × StreamPc) :
    (sys.setStream i stream r).streams[i]? = some { stream with pc := r.2 } := by
  simp [Sys.setStream, (List.getElem?_eq_some_iff.1 hi).1]

/-- An input that is not rejected is queued, or sent to a first engine. -/
theorem message_of_admission (hi : sys.streams[i]? = some stream) (hidle : stream.pc = .idle)
    (hclient : stream.client sys.server = some ref) (hmsg : msg.isRegistration = false)
    (hadmitted : sys.server.rejection cfg ref msg.asInput = none)
    (hperm : order.Perm (sys.server.dispatcher.targetEngines msg.asInput.targetEngineIds)) :
    ∃ info mp sys', mp = sys.server.dispatcher.metadataPayload msg.asInput stream.address info ∧
      step cfg sys (.message i msg order true) = some sys' ∧
      (Queues cfg sys sys' i stream ref mp ∨ ∃ rest, Dispatches cfg sys sys' i stream ref mp rest) := by
  obtain ⟨info, mp, s₁, hmp, hs₁, hconsume⟩ := consume_of_admission stream hmsg hadmitted hperm true
  obtain ⟨-, -, -, hroom⟩ := rejection_eq_none hadmitted
  have hproducer : mp.producerId = msg.asInput.producerId := by rw [hmp]; rfl
  have htargets : mp.metadata.targetEngineIds = msg.asInput.targetEngineIds := by rw [hmp]; rfl
  have hbusy : (∀ c ∈ order, (s₁.dispatcher.workers c).currentInputMetadata ≠ none) →
      ∀ c ∈ sys.server.dispatcher.targetEngines msg.asInput.targetEngineIds,
        (sys.server.dispatcher.workers c).currentInputMetadata ≠ none := by
    intro h c hc
    rw [← hs₁.workers]
    exact h c (hperm.mem_iff.2 hc)
  have hstep : step cfg sys (.message i msg order true) =
      some (sys.setStream i stream (startDispatch cfg s₁ stream ref msg mp order true)) := by
    simp only [step, hi, streamMessage, hidle, hclient, hconsume, Option.bind_eq_bind, Option.bind_some,
      Option.pure_def]
  rcases startDispatch_of_room true fun h => by rw [hs₁.inputQueue, hproducer]; exact hroom (hbusy h) with
    ⟨hall, hr⟩ | ⟨c, reached, rest, hr⟩
  · rw [hr] at hstep
    refine ⟨info, mp, _, hmp, hstep, Or.inl ⟨htargets ▸ hbusy hall, ?_, ?_, ?_, Sys.getElem?_setStream_self hi _⟩⟩
    · simp [Sys.setStream, hs₁.inputQueue]
    · change (s₁.frontend.deductToken ref mp).credit cfg ref mp.producerId = _
      rw [credit_deductToken hs₁.hasCounter, hs₁.credit]
      simp
    · change repliesBuilt (s₁.frontend.deductToken ref mp).log = _
      simp [← hs₁.repliesBuilt]
      rfl
  · rw [hr] at hstep
    refine ⟨info, mp, _, hmp, hstep, Or.inr ⟨rest, ⟨c, ?_⟩, ?_, hs₁.repliesBuilt, Sys.getElem?_setStream_self hi _⟩⟩
    · simp [Sys.setStream]
    · exact congrFun (congrFun hs₁.credit ref) _

/-! ### The dispatch loop goes on -/

/-- Every input that is being dispatched was sent to an engine. -/
def Sys.DispatchesSent (sys : Sys) : Prop :=
  ∀ stream ∈ sys.streams, ∀ ref mp, stream.pc.input = some (ref, mp) →
    ∃ c, .wrote c mp.toEngine mp ∈ sys.server.dispatcher.log

/-- Clients connect at addresses that are free, and no write of a dispatch loop fails. -/
def Action.dispatchWritesSucceed (sys : Sys) : Action → Prop
  | .openClient a => sys.server.frontend.clients.get? a = none
  | .message _ _ _ delivered => delivered = true
  | .resumeStream i raises delivered => ∀ stream ∈ sys.streams[i]?, stream.pc.input ≠ none →
      raises = false ∧ delivered = true
  | _ => True

instance (sys : Sys) : DecidablePred (Action.dispatchWritesSucceed sys)
  | .openClient _ => inferInstanceAs (Decidable (_ = _))
  | .message _ _ _ _ => inferInstanceAs (Decidable (_ = _))
  | .resumeStream i _ _ => inferInstanceAs (Decidable (∀ stream ∈ sys.streams[i]?, _ → _))
  | .openProducer _ | .closeStream _ | .openSession | .engineMessage _ _ | .resumeSession _ _ _ | .closeSession _ =>
    inferInstanceAs (Decidable True)

theorem Action.dispatchWritesSucceed.addressFree (h : act.dispatchWritesSucceed sys) : act.addressFree sys := by
  cases act with
  | openClient => exact h
  | _ => trivial

/-- An input that comes to be dispatched has been sent to an engine. -/
private theorem consume_sent {s' : Server} {pc : StreamPc} {ref' : ClientRef}
    (h : consume cfg s stream ref msg order true = some (s', pc)) (hpc : pc.input = some (ref', mp)) :
    ∃ c, .wrote c mp.toEngine mp ∈ s'.dispatcher.log := by
  have hsettled : ¬ pc.settled := fun hpc' => by
    rw [StreamPc.input_of_settled hpc'] at hpc
    cases hpc
  rcases consume_started h with ⟨hpc', -⟩ | ⟨-, info, targets, hstarted⟩
  · exact absurd hpc' hsettled
  · generalize s'.dispatcher = d' at hstarted
    cases hstarted with
    | enqueued => exact absurd trivial hsettled
    | dropped _ _ hpc' => exact absurd hpc' hsettled
    | suspended hloop =>
      cases hpc
      cases Dispatcher.dispatchLoop_cases hloop with
      | @wrote c => exact ⟨c, by simp⟩

/-- The stream that takes up a message has sent the input that it comes to dispatch. -/
private theorem streamMessage_sent {s' : Server} {pc : StreamPc} {ref' : ClientRef}
    (h : streamMessage cfg s stream msg order true = some (s', pc)) (hpc : pc.input = some (ref', mp)) :
    ∃ c, .wrote c mp.toEngine mp ∈ s'.dispatcher.log := by
  unfold streamMessage at h
  split at h
  · split at h
    · cases h
      cases hpc
    · exact consume_sent h hpc
  · cases h

theorem dispatchesSent_step (hstep : step cfg sys act = some sys') (hact : act.dispatchWritesSucceed sys)
    (h : sys.DispatchesSent) : sys'.DispatchesSent := by
  have hgrows := (dispatcher_log_grows hstep).subset
  have hold : ∀ stream ∈ sys.streams, ∀ ref mp, stream.pc.input = some (ref, mp) →
      ∃ c, .wrote c mp.toEngine mp ∈ sys'.server.dispatcher.log := fun stream hst ref mp hin =>
    (h stream hst ref mp hin).imp fun c hc => hgrows hc
  intro st hst ref mp hin
  by_cases hmsg : ∃ i msg order b, act = .message i msg order b
  · obtain ⟨i, msg, order, b, rfl⟩ := hmsg
    obtain rfl : b = true := hact
    obtain ⟨stream, hi, hstep⟩ := Option.bind_eq_some_iff.1 hstep
    obtain ⟨⟨s, pc⟩, hr, hstep⟩ := Option.bind_eq_some_iff.1 hstep
    cases hstep
    rcases List.mem_or_eq_of_mem_set hst with hst | rfl
    · exact hold st hst ref mp hin
    · exact streamMessage_sent hr hin
  · cases step_cases hstep with
    | openClient =>
      rcases List.mem_append.1 hst with hst | hst
      · exact hold st hst ref mp hin
      · obtain rfl := List.mem_singleton.1 hst
        cases hin
    | openProducer =>
      rcases List.mem_append.1 hst with hst | hst
      · exact hold st hst ref mp hin
      · obtain rfl := List.mem_singleton.1 hst
        cases hin
    | unknownClient => exact absurd ⟨_, _, _, _, rfl⟩ hmsg
    | message => exact absurd ⟨_, _, _, _, rfl⟩ hmsg
    | resumed hi hr =>
      rcases List.mem_or_eq_of_mem_set hst with hst | rfl
      · exact hold st hst ref mp hin
      · exact hold _ (List.mem_of_getElem? hi) ref mp (hr.input hin)
    | closed hi _ hr =>
      rcases List.mem_or_eq_of_mem_set hst with hst | rfl
      · exact hold st hst ref mp hin
      · exact hold _ (List.mem_of_getElem? hi) ref mp (hr.input hin)
    | openSession => exact hold st hst ref mp hin
    | session => exact hold st hst ref mp hin

theorem run_dispatchesSent {as : List Action}
    (h : (machine cfg).RunWhere (fun sys a => a.dispatchWritesSucceed sys) as sys) : sys.DispatchesSent :=
  h.invariant (I := Sys.DispatchesSent) (fun _ hst => by cases hst)
    (fun _ _ _ h hact hstep => dispatchesSent_step hstep hact h)

/-- The dispatch loop sends the input to a further engine, or comes to its end. -/
theorem resume_of_dispatching {rest : List Context} (hi : sys.streams[i]? = some stream)
    (hpc : stream.pc = .dispatching ref mp rest) (hcounted : sys.Counted)
    (hsent : ∃ c, .wrote c mp.toEngine mp ∈ sys.server.dispatcher.log) :
    ∃ sys', step cfg sys (.resumeStream i false true) = some sys' ∧
      (Accepts cfg sys sys' i stream ref mp ∨
        ∃ rest', rest'.length < rest.length ∧ Dispatches cfg sys sys' i stream ref mp rest') := by
  obtain ⟨c₀, hsent⟩ := hsent
  have hcounter := hcounted stream (List.mem_of_getElem? hi) ref mp (by rw [hpc]; rfl)
  have hstep : step cfg sys (.resumeStream i false true) =
      some (sys.setStream i stream (resumeDispatch cfg sys.server ref mp rest true)) := by
    simp [step, hi, resumeStream, hpc]
  generalize hloop : sys.server.dispatcher.dispatchLoop mp true rest = r
  cases Dispatcher.dispatchLoop_cases hloop with
  | busy =>
    simp only [resumeDispatch, hloop, Dispatcher.concludeInput, Bool.false_eq_true, ↓reduceIte] at hstep
    refine ⟨_, hstep, Or.inl ⟨⟨c₀, ?_⟩, ?_, ?_, ?_, ?_, Sys.getElem?_setStream_self hi _⟩⟩
    · simpa [Sys.setStream] using hsent
    · simp [Sys.setStream]
    · simp [Sys.setStream]
    · change (sys.server.frontend.deductToken ref mp).credit cfg ref mp.producerId = _
      rw [credit_deductToken hcounter]
      simp
    · exact List.filterMap_append.trans (List.append_nil _)
  | @wrote c busy rest' =>
    simp only [resumeDispatch, hloop] at hstep
    refine ⟨_, hstep, Or.inr ⟨rest', by simp; omega, ⟨c, ?_⟩, rfl, rfl, Sys.getElem?_setStream_self hi _⟩⟩
    simp [Sys.setStream]

/-- If the writes of the dispatch loops succeed and clients connect only at addresses that are free, then a stream
takes up every input of its client and refuses it with one reply that returns the token, queues it, or sends it to an
engine; in the last case the dispatch loop gets to its end, whatever other handlers do in between, and then the input
is in flight and its token deducted.  Each time the stream goes on. -/
theorem inputs_all_or_nothing {as : List Action}
    (h : (machine cfg).RunWhere (fun sys a => a.dispatchWritesSucceed sys) as sys)
    (hi : sys.streams[i]? = some stream) :
    (∀ ref msg order, stream.pc = .idle → stream.client sys.server = some ref → msg.isRegistration = false →
      order.Perm (sys.server.dispatcher.targetEngines msg.asInput.targetEngineIds) →
      ∃ info mp sys', mp = sys.server.dispatcher.metadataPayload msg.asInput stream.address info ∧
        step cfg sys (.message i msg order true) = some sys' ∧
        (Refuses sys sys' i stream ref msg.asInput ∨ Queues cfg sys sys' i stream ref mp ∨
          ∃ rest, Dispatches cfg sys sys' i stream ref mp rest)) ∧
    ∀ ref mp rest, stream.pc = .dispatching ref mp rest →
      ∃ sys', step cfg sys (.resumeStream i false true) = some sys' ∧
        (Accepts cfg sys sys' i stream ref mp ∨
          ∃ rest', rest'.length < rest.length ∧ Dispatches cfg sys sys' i stream ref mp rest') := by
  refine ⟨fun ref msg order hidle hclient hmsg hperm => ?_, fun ref mp rest hpc => ?_⟩
  · cases hreject : sys.server.rejection cfg ref msg.asInput with
    | none =>
      obtain ⟨info, mp, sys', hmp, hstep, htaken⟩ := message_of_admission hi hidle hclient hmsg hreject hperm
      exact ⟨info, mp, sys', hmp, hstep, Or.inr htaken⟩
    | some code =>
      have hattached := (run_attached (fun _ _ => Action.dispatchWritesSucceed.addressFree) h).attached hi
        (by rw [hidle]; trivial)
      obtain ⟨sys', w, hstep, hd, -, hw, herrors, hresults, -, hstream⟩ :=
        message_of_rejection hi hidle hclient (hattached.client hclient) hmsg hreject hperm
      exact ⟨{}, _, sys', rfl, hstep, Or.inl ⟨⟨w, code, hw, herrors, hresults⟩, hd, hstream⟩⟩
  · have hsent := run_dispatchesSent h stream (List.mem_of_getElem? hi) ref mp (by rw [hpc]; rfl)
    exact resume_of_dispatching hi hpc (run_counted h.run) hsent

private def websocketConfig : Config := { clientTransport := .websocket, numTokensPerProducer := 2, sizeForQueues := 1 }

/-- Two engines, and a client with an input for both that is sent to the second engine first. -/
private def twoTargets : List Action :=
  [.openSession, .engineMessage 0 (.register "A" false), .openSession, .engineMessage 1 (.register "B" false),
    .openClient "client", .message 0 (.registration {}) [] true, .resumeStream 0 false false,
    .message 0 (.input { frameId := 3, producerId := "P", targetEngineIds := ["A", "B"] }) [1, 0] true,
    .resumeStream 0 false true]

/-- The writes to both engines succeed. -/
theorem inputs_all_or_nothing_of_two_targets : ∃ sys stream ref mp sys',
    (machine websocketConfig).RunWhere (fun sys a => a.dispatchWritesSucceed sys) twoTargets sys ∧
    sys.streams[0]? = some stream ∧ stream.pc = .dispatching ref mp [] ∧
    step websocketConfig sys (.resumeStream 0 false true) = some sys' ∧
    Accepts websocketConfig sys sys' 0 stream ref mp := by
  obtain ⟨sys, hrun, h⟩ := Machine.exists_runWhere (M := machine websocketConfig)
    (G := fun sys a => a.dispatchWritesSucceed sys) (g := fun sys a => decide (a.dispatchWritesSucceed sys))
    (fun _ _ h => of_decide_eq_true h)
    (fun sys => sys.streams[0]?.any (fun stream => stream.pc.input.isSome && stream.pc.targets.isEmpty) = true)
    twoTargets (by decide)
  obtain ⟨stream, hi, hst⟩ := (Option.any_eq_true _ _).1 h
  cases hpc : stream.pc with
  | dispatching ref mp rest =>
    obtain rfl : rest = [] := by simpa [hpc] using hst
    obtain ⟨sys', hstep, haccepts | ⟨rest', hlt, -⟩⟩ := (inputs_all_or_nothing hrun hi).2 ref mp [] hpc
    · exact ⟨sys, stream, ref, mp, sys', hrun, hi, hpc, hstep, haccepts⟩
    · exact absurd hlt (Nat.not_lt_zero _)
  | _ => simp [hpc, StreamPc.input] at hst

/-- The write to the second of two engines raises.  The first engine works on the input, but the input is not in
flight and its token is not deducted, the client gets no reply, and its stream is gone. -/
theorem input_half_dispatched : ∃ sys, (machine websocketConfig).Run (twoTargets ++ [.resumeStream 0 true false]) sys ∧
    sys.server.dispatcher.engineWorkers = [0, 1] ∧
    ((sys.server.dispatcher.workers 1).currentInputMetadata.map (·.frameId)) = some 3 ∧
    (sys.server.dispatcher.producer "P").latestInputSentToEngine = none ∧
    sys.server.frontend.credit websocketConfig 0 "P" = 2 ∧ repliesBuilt sys.server.frontend.log = [] ∧
    (sys.streams.map (·.pc)) = [.finished (some .raised)] :=
  Machine.exists_run (M := machine websocketConfig) _ _ (by decide)

end Gabriel.Interleaved
