import Gabriel.Server.Attribution
import Gabriel.Server.Calls
import Gabriel.Server.InputTokens

/-!
# Which results are forwarded

The results of an engine that requires all responses are passed to `send_result` once each; those of other engines
only with a token, and at most one message with a token is sent for each input.  The former needs that the await of
the result sinks returns: a set of sinks that changes under the iteration, or a cancellation, loses the result
(`response_lost_at_sinks`).
-/

namespace Gabriel

open DispatchLog ClientLog

/-! ### Frames of messages -/

/-- The client, the producer and the frame id that a result is sent to a client with. -/
def ResultWrapper.frame (w : ResultWrapper) (a : Address) : Address × String × Int :=
  (a, w.producerId, w.result.frameId)

@[simp] def DispatchEvent.tokenFrame : DispatchEvent → Option (Address × String × Int)
  | sendResult _ a w _ => if w.returnToken then some (w.frame a) else none
  | _ => none

namespace DispatchLog

/-- The frames of the messages with a token. -/
def tokenFrames (l : List DispatchEvent) : List (Address × String × Int) := l.filterMap DispatchEvent.tokenFrame

theorem tokenFrames_eq (l : List DispatchEvent) :
    tokenFrames l = (resultMessages l).filterMap fun x => x.event.tokenFrame :=
  (filterMap_resultMessages l fun e he => by cases e <;> simp_all).symm

end DispatchLog

namespace Dispatcher

variable {d d' : Dispatcher} {c : Context} {mp : MetadataPayload} {q : String}

/-! ### What the operations leave alone -/

private theorem known_release {origin : Origin} {token : Bool} {result : Result} (h : (d.producerInfos q).isSome) :
    ((d.release origin mp token result).producerInfos q).isSome := by
  by_cases hq : q = mp.producerId <;> simp [release, hq, h]

theorem Answered.known {k : Nat} {m : Option Metadata} {result : Result} {ans : Answer}
    (h : Answered d c k result m (d', ans)) (hq : (d.producerInfos q).isSome) : (d'.producerInfos q).isSome := by
  cases h with
  | token => exact known_release hq
  | _ => exact hq

theorem RemovalBegun.known {r : Option (Address × ResultWrapper)} (h : RemovalBegun d c (d', r))
    (hq : (d.producerInfos q).isSome) : (d'.producerInfos q).isSome := by
  cases h with
  | silent => exact hq
  | released => exact known_release hq

theorem NextSent.known {b : Bool} {r : Dispatcher × Bool} (h : NextSent d c b r) (hq : (d.producerInfos q).isSome) :
    (r.1.producerInfos q).isSome := by
  cases h with
  | none => simpa using hq
  | @dequeued _ p => by_cases hp : q = p <;> simp [hp, hq]
  | pickedUp => simpa using hq

theorem NextSent.allResponsesRequired {b : Bool} {r : Dispatcher × Bool} (h : NextSent d c b r) :
    (r.1.workers c).allResponsesRequired = (d.workers c).allResponsesRequired := by
  cases h <;> simp [EngineWorker.rotateProducers]

end Dispatcher

namespace Interleaved

variable {cfg : Config} {s s' : Server} {sys sys' : Sys} {act : Action} {c : Context} {pc pc' : SessionPc} {k : Nat}
  {m : Option Metadata} {result : Result}

/-! ### Engines keep their flag -/

theorem SessionStep.allResponsesRequired (h : SessionStep act c pc s s' pc') (hpc : ¬ pc.registering) :
    (s'.dispatcher.workers c).allResponsesRequired = (s.dispatcher.workers c).allResponsesRequired := by
  cases h with
  | read => rfl
  | unread => rfl
  | forwarded _ h => rw [h.workers]
  | stopped _ h => rw [h.workers]
  | unsent _ h hnext => rw [hnext.allResponsesRequired, h.workers]
  | fed _ hnext => exact hnext.allResponsesRequired
  | inserted _ _ hreg => exact absurd hreg hpc
  | takeover hreg => exact absurd hreg hpc
  | managed h => rw [h.workers]

theorem StreamEffect.allResponsesRequired {d d' : Dispatcher} (h : StreamEffect d d') :
    (d'.workers c).allResponsesRequired = (d.workers c).allResponsesRequired := by
  cases h with
  | added c' p =>
    by_cases hc : c = c'
    · subst hc
      simp only [Dispatcher.addProducer_workers, Function.update_self, EngineWorker.addProducer]
      split <;> rfl
    · simp [hc]
  | sent c' => by_cases hc : c = c' <;> simp [hc]
  | _ => simp

/-- Only its own session sets the flag of an engine, when it registers. -/
theorem allResponsesRequired_step (hstep : step cfg sys act = some sys')
    (hreg : act.session = some c → sys.Registered c) :
    (sys'.server.dispatcher.workers c).allResponsesRequired =
      (sys.server.dispatcher.workers c).allResponsesRequired := by
  cases step_outline hstep with
  | stream _ _ h =>
    exact h.invariant (P := fun d => (d.workers c).allResponsesRequired =
      (sys.server.dispatcher.workers c).allResponsesRequired) (fun h hd => h.allResponsesRequired.trans hd) rfl
  | opened _ h => rw [h]; rfl
  | @session c' pc pc' hact hc' hs =>
    by_cases he : c = c'
    · subst he
      obtain ⟨pc₁, hc, hpc⟩ := hreg hact
      obtain rfl : pc₁ = pc := Option.some.inj (hc.symm.trans hc')
      exact hs.allResponsesRequired hpc
    · exact congrArg _ (hs.effects.workers_of_ne he)

/-! ### The producers of the inputs are known -/

/-- The dispatcher has a producer info for every input that was submitted. -/
def ProducersKnown (s : Server) : Prop :=
  ∀ mp ∈ submittedInputs s.frontend.log, (s.dispatcher.producerInfos mp.producerId).isSome

theorem ProducersKnown.of_same (h : ProducersKnown s)
    (hsame : submittedInputs s'.frontend.log = submittedInputs s.frontend.log)
    (hknown : ∀ {q}, (s.dispatcher.producerInfos q).isSome → (s'.dispatcher.producerInfos q).isSome) :
    ProducersKnown s' := fun mp hmp => hknown (h mp (hsame ▸ hmp))

theorem Effects.known (h : Effects c s s') {q : String} (hq : (s.dispatcher.producerInfos q).isSome) :
    (s'.dispatcher.producerInfos q).isSome :=
  h.dispatcher (P := fun d => (d.producerInfos q).isSome) (fun h hd => h.known hd) (fun _ hd => by simpa using hd)
    (fun _ hd => hd) (fun h hd => h.known hd) (fun h hd => h.known hd) (fun _ _ hd => hd) hq

theorem StreamEffect.known {d d' : Dispatcher} (h : StreamEffect d d') {q : String}
    (hq : (d.producerInfos q).isSome) : (d'.producerInfos q).isSome := by
  cases h with
  | begun p targets => exact (Dispatcher.beginInput_known ..).2 (Or.inr hq)
  | added => exact hq
  | sent => simpa using hq
  | queued mp => by_cases hp : q = mp.producerId <;> simp [Dispatcher.enqueue, hp, hq]
  | inFlight mp => by_cases hp : q = mp.producerId <;> simp [hp, hq]

theorem StreamEffects.known {d d' : Dispatcher} (h : StreamEffects d d') {q : String}
    (hq : (d.producerInfos q).isSome) : (d'.producerInfos q).isSome :=
  h.invariant (P := fun d => (d.producerInfos q).isSome) (fun h hd => h.known hd) hq

theorem MessageStep.producersKnown {a : Address} {ref : ClientRef} {msg : FromClient} {pc : StreamPc}
    (h : MessageStep cfg s a ref msg s' pc) (hs : ProducersKnown s) : ProducersKnown s' := by
  -- the producer of the input of the message becomes known
  have hbegun : ∀ (info) {d : Dispatcher} {f : Frontend}, submittedInputs f.log =
      submittedInputs s.frontend.log ++ [s.dispatcher.metadataPayload msg.asInput a info] →
      (∀ {q}, q = msg.asInput.producerId ∨ (s.dispatcher.producerInfos q).isSome → (d.producerInfos q).isSome) →
      ProducersKnown ⟨d, f⟩ := by
    intro info d f hf hd mp hmp
    rw [hf, List.mem_append, List.mem_singleton] at hmp
    rcases hmp with hmp | rfl
    · exact hd (Or.inr (hs mp hmp))
    · exact hd (Or.inl rfl)
  have hloop : ∀ {ts mp b order d r q}, (s.dispatcher.beginInput msg.asInput.producerId ts).dispatchLoop mp b order =
      (d, r) → q = msg.asInput.producerId ∨ (s.dispatcher.producerInfos q).isSome → (d.producerInfos q).isSome := by
    intro ts mp b order d r q hr hq
    exact (streamEffects_dispatchLoop hr).known ((Dispatcher.beginInput_known ..).2 hq)
  cases h with
  | registered _ hf => exact hs.of_same (by rw [hf.sameInputs.submitted]; simp) id
  | unregistered _ _ hf => exact hs.of_same (by rw [hf.sameInputs.submitted]; simp) id
  | noTokens _ _ hf => exact hs.of_same (by rw [hf.sameInputs.submitted]; simp) id
  | @noEngine info _ _ _ hf =>
    exact hbegun info (by rw [hf.sameInputs.submitted]; simp) (Dispatcher.beginInput_known ..).2
  | @suspended info _ _ _ _ _ _ _ _ hr => exact hbegun info (by simp) (hloop hr)
  | @enqueued info _ _ _ _ _ _ _ hr =>
    exact hbegun info (by simp) fun hq => (StreamEffect.queued _).known (hloop hr hq)
  | @dropped info _ _ _ _ _ _ _ _ _ hr hf => exact hbegun info (by rw [hf.sameInputs.submitted]; simp) (hloop hr)

theorem producersKnown_step (hstep : step cfg sys act = some sys') (h : ProducersKnown sys.server) :
    ProducersKnown sys'.server := by
  cases step_cases hstep with
  | openClient => exact h
  | openProducer => exact h
  | unknownClient => exact h
  | message _ _ _ hm => exact hm.producersKnown h
  | resumed _ hr => exact h.of_same hr.sameInputs.submitted hr.effects.known
  | closed _ _ hr => exact h.of_same hr.sameInputs.submitted hr.effects.known
  | openSession => exact h
  | session _ _ hs => exact h.of_same hs.effects.sameInputs.submitted hs.effects.known

theorem run_producersKnown {as : List Action} (h : (machine cfg).Run as sys) : ProducersKnown sys.server := by
  have hinit : ProducersKnown {} := fun _ hmp => by cases hmp
  exact h.invariant (I := fun sys => ProducersKnown sys.server) hinit fun _ _ _ h _ hstep => producersKnown_step hstep h

/-! ### The results of registered engines -/

/-- The number of the result that the step reads from the registered engine `c`, if it does. -/
def resultRead (c : Context) (sys : Sys) : Action → Option Nat
  | .engineMessage _ (.register _ _) => none
  | .engineMessage c' _ =>
    if c' = c ∧ c ∈ sys.server.dispatcher.engineWorkers then some (sys.server.dispatcher.resultsRead c) else none
  | _ => none

/-- The numbers of the results that were read from the engine `c` while it was registered. -/
def registeredResults (cfg : Config) (c : Context) (as : List Action) : List Nat :=
  (machine cfg).trace (resultRead c) (machine cfg).init as

theorem resultRead_cases (h : resultRead c sys act = some k) : ∃ msg, act = .engineMessage c msg ∧
    (∀ id ar, msg ≠ .register id ar) ∧ c ∈ sys.server.dispatcher.engineWorkers ∧
    k = sys.server.dispatcher.resultsRead c := by
  unfold resultRead at h
  split at h
  · cases h
  · rename_i c' msg hmsg
    split at h
    · rename_i hc
      obtain ⟨rfl, hmem⟩ := hc
      exact ⟨msg, rfl, hmsg, hmem, (Option.some.inj h).symm⟩
    · cases h
  · cases h

private theorem nextMessage_of_result {msg : FromEngine} (hmsg : ∀ id ar, msg ≠ .register id ar)
    (hmem : c ∈ s.dispatcher.engineWorkers) : (nextMessage s c msg).2 = .sinking (s.dispatcher.resultsRead c)
      (s.dispatcher.workers c).currentInputMetadata (s.dispatcher.stampResult c msg) := by
  cases msg with
  | register id ar => exact absurd rfl (hmsg id ar)
  | unset => simp only [nextMessage, hmem, ↓reduceIte]
  | result r => simp only [nextMessage, hmem, ↓reduceIte]

/-- The session is dealing with a result that was read. -/
theorem step_of_resultRead (hused : sys.ContextsUsed) (hread : resultRead c sys act = some k)
    (hstep : step cfg sys act = some sys') : act.session = some c ∧ sys.Registered c ∧
      ∃ m result, sys'.sessions c = some (.sinking k m result) := by
  obtain ⟨msg, rfl, hmsg, hmem, rfl⟩ := resultRead_cases hread
  obtain ⟨pc, hc, hreg⟩ := hused.uses c (Or.inl hmem)
  refine ⟨rfl, ⟨pc, hc, hreg⟩, ?_⟩
  cases pc with
  | idle =>
    simp only [step, hc, Option.some.injEq] at hstep
    subst hstep
    have hnext := congrArg some (nextMessage_of_result hmsg hmem)
    exact ⟨_, _, (Function.update_self ..).trans hnext⟩
  | connected => exact absurd trivial hreg
  | _ => simp [step, hc] at hstep

/-! ### Every result is passed on -/

/-- The session awaits the result sinks. -/
def SessionPc.atSinks : SessionPc → Bool
  | .sinking _ _ _ => true
  | _ => false

/-- The await of the result sinks returns for the engines that require all responses. -/
def Action.sinksReturn (sys : Sys) : Action → Prop
  | .resumeSession c raises _ => (sys.sessions c).any SessionPc.atSinks = true →
      (sys.server.dispatcher.workers c).allResponsesRequired = true → raises = false
  | _ => True

instance (sys : Sys) : DecidablePred (Action.sinksReturn sys)
  | .resumeSession _ _ _ => inferInstanceAs (Decidable (_ → _ → _))
  | .openClient _ | .openProducer _ | .message _ _ _ _ | .resumeStream _ _ _ | .closeStream _ | .openSession
  | .engineMessage _ _ | .closeSession _ => inferInstanceAs (Decidable True)

private theorem forwarded_feed (s : Server) (c : Context) (b : Bool) :
    forwarded (feed s c b).1.dispatcher.log = forwarded s.dispatcher.log := by
  obtain ⟨r, hnext, hs, -⟩ := feed_cases s c b
  rw [hs, forwarded_eq, forwarded_eq, hnext.resultMessages]

private theorem forwarded_answer (s : Server) (b : Bool) :
    forwarded (answer s c k m result b).1.dispatcher.log =
      forwarded (s.dispatcher.answerResult c k m result).1.log := by
  rw [← answerResult_dispatcher]
  unfold answer
  split <;> rename_i heq
  · rw [heq]
  · rw [heq]
  · rw [forwarded_feed, heq]

/-- A session that requires all responses passes on the result it is dealing with. -/
theorem forwarded_of_required {m : Metadata} (hstep : step cfg sys act = some sys') (hact : act.session = some c)
    (hc : sys.sessions c = some (.sinking k (some m) result)) (hsinks : act.sinksReturn sys)
    (hknown : (sys.server.dispatcher.producerInfos m.producerId).isSome)
    (hall : (sys.server.dispatcher.workers c).allResponsesRequired = true) :
    forwarded sys'.server.dispatcher.log ≠ forwarded sys.server.dispatcher.log := by
  cases act with
  | resumeSession c' raises b =>
    obtain rfl : c' = c := Option.some.inj hact
    obtain rfl : raises = false := hsinks (by simp [hc, SessionPc.atSinks]) hall
    simp only [step, hc, resumeSession, Bool.false_eq_true, ↓reduceIte, Option.bind_eq_bind, Option.bind_some,
      Option.pure_def, Option.some.injEq] at hstep
    subst hstep
    simp only [Sys.setSession, forwarded_answer]
    exact Dispatcher.answerResult_passes hknown hall
  | engineMessage c' msg =>
    obtain rfl : c' = c := Option.some.inj hact
    simp [step, hc] at hstep
  | closeSession c' =>
    obtain rfl : c' = c := Option.some.inj hact
    simp [step, hc, closeSession] at hstep
  | _ => cases hact

/-- The numbers of the results of `c` that were passed on. -/
def passedOn (l : List DispatchEvent) (c : Context) : List Nat :=
  (forwarded l).filterMap fun x => if x.1 = c then some x.2.1 else none

/-- The results of `c` are passed on in order; `ks` are those that were read while it was registered. -/
structure Sys.PassesOn (sys : Sys) (c : Context) (ks : List Nat) : Prop where
  read : ∀ k ∈ ks, k < (results sys.server.dispatcher.log c).length
  lt : ∀ k ∈ passedOn sys.server.dispatcher.log c, k < (results sys.server.dispatcher.log c).length
  lt_of_sinking : ∀ k m result, sys.sessions c = some (.sinking k m result) →
    ∀ j ∈ passedOn sys.server.dispatcher.log c, j < k
  sorted : (passedOn sys.server.dispatcher.log c).Pairwise (· < ·)
  passed : (sys.server.dispatcher.workers c).allResponsesRequired = true → ∀ k ∈ ks,
    (∃ m result, sys.sessions c = some (.sinking k m result)) ∨ k ∈ passedOn sys.server.dispatcher.log c

/-- What a step passes on for `c`: nothing, or the result that its session is dealing with. -/
theorem passedOn_step (hstep : step cfg sys act = some sys') :
    passedOn sys'.server.dispatcher.log c = passedOn sys.server.dispatcher.log c ∨
      ∃ k m result, act.session = some c ∧ sys.sessions c = some (.sinking k (some m) result) ∧
        passedOn sys'.server.dispatcher.log c = passedOn sys.server.dispatcher.log c ++ [k] := by
  unfold passedOn
  rcases forwarded_step hstep with h | ⟨c₀, k, m, result, x, hact, hc₀, -, h⟩
  · exact Or.inl (by rw [h])
  · by_cases he : c₀ = c
    · subst he
      exact Or.inr ⟨k, m, result, hact, hc₀, by simp [h]⟩
    · exact Or.inl (by simp [h, he])

/-- The session of an engine that requires all responses leaves the sinks with the result passed on. -/
theorem passedOn_of_required {mp : MetadataPayload} (hstep : step cfg sys act = some sys')
    (hact : act.session = some c) (hc : sys.sessions c = some (.sinking k (some mp.metadata) result))
    (hsinks : act.sinksReturn sys) (hknown : ProducersKnown sys.server)
    (hmp : mp ∈ submittedInputs sys.server.frontend.log)
    (hall : (sys.server.dispatcher.workers c).allResponsesRequired = true) :
    k ∈ passedOn sys'.server.dispatcher.log c := by
  have hne := forwarded_of_required hstep hact hc hsinks (hknown mp hmp) hall
  rcases forwarded_step hstep with h | ⟨c₀, k₀, m, r, x, hact₀, hc₀, -, h⟩
  · exact absurd h hne
  · obtain rfl : c₀ = c := Option.some.inj (hact₀.symm.trans hact)
    obtain ⟨rfl, -, -⟩ := SessionPc.sinking.inj (Option.some.inj (hc₀.symm.trans hc))
    simp [passedOn, h]

/-- What the exchange tells about a session at the sinks. -/
private theorem exchange_of_sinking (hex : Exchange.Invariant MetadataPayload.metadata (sys.exchange c))
    (hc : sys.sessions c = some (.sinking k m result)) : (results sys.server.dispatcher.log c).length = k + 1 ∧
      ∃ mp ∈ writtenTo sys.server.dispatcher.log c, m = some mp.metadata := by
  have hphase := hex.phase
  simp only [Sys.exchange, hc] at hphase
  obtain ⟨hlen, -, -, mp, hmp, hm⟩ := hphase
  exact ⟨hlen, mp, List.mem_of_getElem? hmp, hm⟩

private theorem registered_of_lt_results (hex : Exchange.Invariant MetadataPayload.metadata (sys.exchange c))
    (hk : k < (results sys.server.dispatcher.log c).length) : sys.Registered c := by
  have hphase := hex.phase
  have hclosed : SessionPc.phase (sys.sessions c) ≠ .closed := by
    intro he
    simp only [Sys.exchange, Dispatcher.exchange, he] at hphase
    obtain ⟨-, hnil⟩ := hphase
    simp only at hnil
    rw [hnil] at hk
    cases hk
  cases hc : sys.sessions c with
  | none => simp [hc, SessionPc.phase] at hclosed
  | some pc =>
    refine ⟨pc, hc, fun hreg => hclosed ?_⟩
    rw [hc, SessionPc.phase_of_registering hreg]

theorem passesOn_step {ks : List Nat} (hstep : step cfg sys act = some sys') (hused : sys.ContextsUsed)
    (hex : Exchange.Invariant MetadataPayload.metadata (sys.exchange c))
    (hex' : Exchange.Invariant MetadataPayload.metadata (sys'.exchange c)) (htraced : sys.Traced)
    (hknown : ProducersKnown sys.server) (hanswers : act.answersInOrder sys) (hsinks : act.sinksReturn sys)
    (h : sys.PassesOn c ks) : sys'.PassesOn c (ks ++ (resultRead c sys act).toList) := by
  have hlen : (results sys.server.dispatcher.log c).length ≤ (results sys'.server.dispatcher.log c).length :=
    (Exchange.grows_of_steps (step_exchange hstep hused hanswers c)).2.length_le
  have hnew : ∀ {k}, k ∈ (resultRead c sys act).toList → ∃ m result, sys'.sessions c = some (.sinking k m result) :=
    fun hk => (step_of_resultRead hused (Option.mem_toList.1 hk) hstep).2.2
  have hsub : passedOn sys.server.dispatcher.log c ⊆ passedOn sys'.server.dispatcher.log c := by
    rcases passedOn_step (c := c) hstep with he | ⟨k, m, result, -, -, he⟩ <;> simp [he]
  refine ⟨fun k hk => ?_, fun j hj => ?_, fun k m result hc' j hj => ?_, ?_, fun hall k hk => ?_⟩
  · rcases List.mem_append.1 hk with hk | hk
    · exact Nat.lt_of_lt_of_le (h.read k hk) hlen
    · obtain ⟨m, result, hc'⟩ := hnew hk
      have hone := (exchange_of_sinking hex' hc').1
      omega
  · rcases passedOn_step (c := c) hstep with he | ⟨k, m, result, -, hc, he⟩ <;> rw [he] at hj
    · exact Nat.lt_of_lt_of_le (h.lt j hj) hlen
    · have hone := (exchange_of_sinking hex hc).1
      rcases List.mem_append.1 hj with hj | hj
      · exact Nat.lt_of_lt_of_le (h.lt j hj) hlen
      · obtain rfl := List.mem_singleton.1 hj
        omega
  · -- no result is passed on in the step that reads one
    have hsame : passedOn sys'.server.dispatcher.log c = passedOn sys.server.dispatcher.log c := by
      rcases passedOn_step (c := c) hstep with he | ⟨k₁, m₁, result₁, hact, hc, -⟩
      · exact he
      · rcases sinking_step hstep hc' with ⟨hother, -⟩ | ⟨-, hidle, -⟩
        · exact absurd hact hother
        · rw [hidle] at hc
          cases hc
    rw [hsame] at hj
    rcases sinking_step hstep hc' with ⟨-, hc⟩ | ⟨-, -, hreads⟩
    · exact h.lt_of_sinking k m result hc j hj
    · exact hreads.number ▸ h.lt j hj
  · rcases passedOn_step (c := c) hstep with he | ⟨k, m, result, -, hc, he⟩ <;> rw [he]
    · exact h.sorted
    · refine List.pairwise_append.2 ⟨h.sorted, List.pairwise_singleton _ _, fun j hj k' hk' => ?_⟩
      exact List.mem_singleton.1 hk' ▸ h.lt_of_sinking k _ result hc j hj
  · rcases List.mem_append.1 hk with hk | hk
    · have hreg := registered_of_lt_results hex (h.read k hk)
      rw [allResponsesRequired_step hstep fun _ => hreg] at hall
      rcases h.passed hall k hk with ⟨m, result, hc⟩ | hpassed
      · by_cases hact : act.session = some c
        · obtain ⟨-, mp, hmp, rfl⟩ := exchange_of_sinking hex hc
          obtain ⟨msg, hwrote⟩ := mem_writtenTo.1 hmp
          have hsubmitted := htraced.submitted (Or.inr (Or.inr ⟨c, msg, hwrote⟩))
          exact Or.inr (passedOn_of_required hstep hact hc hsinks hknown hsubmitted hall)
        · exact Or.inl ⟨m, result, sessions_of_other hstep hused.fresh hact hc⟩
      · exact Or.inr (hsub hpassed)
    · exact Or.inl (hnew hk)

theorem run_passesOn {as : List Action}
    (h : (machine cfg).RunWhere (fun sys a => a.answersInOrder sys ∧ a.newFrame sys ∧ a.sinksReturn sys) as sys)
    (c : Context) : sys.PassesOn c (registeredResults cfg c as) := by
  induction h with
  | init =>
    exact ⟨by simp [registeredResults, Machine.trace], by rintro _ ⟨⟩, by rintro _ _ _ ⟨⟩, .nil,
      by simp [registeredResults, Machine.trace]⟩
  | step hrun hact hstep ih =>
    have hin := hrun.mono fun _ _ ha => ha.1
    rw [registeredResults, Machine.trace_concat hrun.exec]
    exact passesOn_step hstep (run_contextsUsed hrun.run) (run_exchange hin c).invariant
      (run_exchange (hin.step hact.1 hstep) c).invariant (run_traced hrun.run) (run_producersKnown hrun.run) hact.1
      hact.2.2 ih

/-! ### Tokens -/

/-- Messages with a token name the input whose token it is; messages without are from engines that require all
responses. -/
structure Sys.MessagesSound (sys : Sys) : Prop where
  token : ∀ x ∈ resultMessages sys.server.dispatcher.log, x.wrapper.returnToken = true →
    ∃ mp, x.latestInput = some mp ∧ x.About mp
  required : ∀ c k a w, (c, k, a, w) ∈ forwarded sys.server.dispatcher.log → sys.Registered c ∧
    (w.returnToken = false → (sys.server.dispatcher.workers c).allResponsesRequired = true)

theorem messagesSound_step (hstep : step cfg sys act = some sys') (hused : sys.ContextsUsed)
    (hforwards : sys.Forwards) (h : sys.MessagesSound) : sys'.MessagesSound := by
  constructor
  · intro x hx
    rcases messages_step hstep with he | ⟨c, pc, -, hc, hm⟩
    · exact h.token x (he ▸ hx)
    · cases hm with
      | notices hxs he =>
        rw [he, List.mem_append] at hx
        exact hx.elim (h.token x) fun hx => (hxs x hx).token
      | @passed k m result y hpc hy he =>
        rw [he, List.mem_append, List.mem_singleton] at hx
        rcases hx with hx | rfl
        · exact h.token x hx
        · intro htoken
          obtain ⟨mp, hlatest, rfl⟩ := hy.token htoken
          obtain ⟨r, -, hresult⟩ := hforwards.stamped c k _ result (hpc ▸ hc)
          exact ⟨mp, hlatest, hy.address, hy.producerId, by rw [hy.result, hresult]⟩
  · intro c k a w hmem
    have hold : (c, k, a, w) ∈ forwarded sys.server.dispatcher.log → sys'.Registered c ∧
        (w.returnToken = false → (sys'.server.dispatcher.workers c).allResponsesRequired = true) := by
      intro hmem
      obtain ⟨hreg, hflag⟩ := h.required c k a w hmem
      exact ⟨registered_step hstep hused.fresh hreg, allResponsesRequired_step hstep (fun _ => hreg) ▸ hflag⟩
    rcases forwarded_step hstep with he | ⟨c₀, k₀, m, result, x, -, hc₀, hx, he⟩
    · exact hold (he ▸ hmem)
    · rw [he, List.mem_append, List.mem_singleton] at hmem
      rcases hmem with hmem | hnew
      · exact hold hmem
      · cases hnew
        have hreg : sys.Registered c := ⟨_, hc₀, id⟩
        exact ⟨registered_step hstep hused.fresh hreg, allResponsesRequired_step hstep (fun _ => hreg) ▸ hx.required⟩

theorem run_messagesSound {as : List Action}
    (h : (machine cfg).RunWhere (fun sys a => a.answersInOrder sys) as sys) : sys.MessagesSound := by
  have hinit : Sys.MessagesSound {} := ⟨by rintro _ ⟨⟩, by rintro _ _ _ _ ⟨⟩⟩
  exact h.invariant_of (I := Sys.MessagesSound) (J := fun sys => sys.ContextsUsed ∧ sys.Forwards)
    (fun h => ⟨run_contextsUsed h.run, run_forwards h⟩) hinit
    fun _ _ _ hJ h _ hstep => messagesSound_step hstep hJ.1 hJ.2 h

/-- The frames of the messages with a token are those of the inputs whose tokens are returned. -/
theorem Sys.MessagesSound.tokenFrames_eq (h : sys.MessagesSound) : tokenFrames sys.server.dispatcher.log =
    (tokensReturned sys.server.dispatcher.log).map MetadataPayload.frame := by
  rw [DispatchLog.tokenFrames_eq, tokensReturned_eq, List.map_filterMap]
  refine List.filterMap_congr fun x hx => ?_
  cases htoken : x.wrapper.returnToken with
  | false => simp [ResultMessage.event, htoken]
  | true =>
    obtain ⟨mp, hlatest, habout⟩ := h.token x hx htoken
    simp [ResultMessage.event, htoken, hlatest, MetadataPayload.frame, ResultWrapper.frame, habout.address,
      habout.producerId, habout.frameId]

/-- The token of no input is sent twice. -/
theorem tokenFrames_nodup (hsound : sys.MessagesSound) (hbacked : sys.Backed) (hframes : sys.FramesDistinct) :
    (tokenFrames sys.server.dispatcher.log).Nodup := by
  have hsubmitted : ∀ mp ∈ tokensReturned sys.server.dispatcher.log,
      mp ∈ submittedInputs sys.server.frontend.log := by
    intro mp hmp
    have hle := hbacked mp
    have hpos := List.count_pos_iff.2 hmp
    unfold Dispatcher.claims at hle
    exact List.count_pos_iff.1 (by omega)
  rw [hsound.tokenFrames_eq]
  refine (tokensReturned_nodup hbacked hframes).map_on fun mp hmp mp' hmp' he => ?_
  exact List.inj_on_of_nodup_map hframes.nodup (hsubmitted mp hmp) (hsubmitted mp' hmp') he

private theorem nodup_filterMap_of_imp {α β : Type} {f g : α → Option β} {l : List α}
    (h : ∀ x ∈ l, ∀ b, g x = some b → f x = some b) (hf : (l.filterMap f).Nodup) : (l.filterMap g).Nodup := by
  rw [List.Nodup, List.pairwise_filterMap] at hf ⊢
  exact hf.imp_of_mem fun hx hy hne b hb b' hb' => hne b (h _ hx b hb) b' (h _ hy b' hb')

/-- A result that is passed on is so once, to the address of the input it is for. -/
private theorem Sys.PassesOn.once {ks : List Nat} (h : sys.PassesOn c ks) (hforwards : sys.Forwards)
    (hk : k ∈ passedOn sys.server.dispatcher.log c) :
    ∃ mp, (writtenTo sys.server.dispatcher.log c)[k]? = some mp ∧
      ((forwarded sys.server.dispatcher.log).filter fun x => x.1 = c ∧ x.2.1 = k).map (·.2.2.1) =
        [mp.metadata.clientAddress] := by
  have hone : ((forwarded sys.server.dispatcher.log).filter fun x => x.1 = c ∧ x.2.1 = k).length = 1 := by
    have hcount := List.count_eq_one_of_mem (h.sorted.imp Nat.ne_of_lt) hk
    rw [passedOn, List.count_filterMap] at hcount
    rw [← hcount, ← List.countP_eq_length_filter]
    refine List.countP_congr fun x _ => ?_
    by_cases hx : x.1 = c <;> simp [hx]
  obtain ⟨⟨c', k', a, w⟩, hx⟩ := List.length_eq_one_iff.1 hone
  obtain ⟨hmem, hck⟩ := List.mem_filter.1 (hx ▸ List.mem_singleton_self _)
  obtain ⟨rfl, rfl⟩ : c' = c ∧ k' = k := by simpa using hck
  obtain ⟨mp, r, hmp, -, ha, -⟩ := hforwards.attributed c' k' a w hmem
  exact ⟨mp, hmp, by rw [hx, List.map_singleton, ha]⟩

/-- A server with a client and two engines, of which only the first requires all responses; both get a frame. -/
private def twoEngines : List Action :=
  [.openSession, .engineMessage 0 (.register "A" true), .openSession, .engineMessage 1 (.register "B" false),
    .openClient "client", .message 0 (.registration {}) [] false, .resumeStream 0 false false,
    .message 0 (.input { frameId := 1, producerId := "P", targetEngineIds := ["A", "B"] }) [0, 1] true,
    .resumeStream 0 false true, .resumeStream 0 false true]

end Interleaved

end Gabriel
