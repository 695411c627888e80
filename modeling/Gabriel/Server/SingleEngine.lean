import Gabriel.Lib.Fifo
import Gabriel.Server.Delivery

/-!
# A single engine

With one engine that never disconnects and answers each input once, the dispatcher is a server with one FIFO queue per
producer (`Fifo`): the in-flight slots, the pending flags and the comparison of frame ids have no effect of their own.
At most one producer is in flight, the one whose input the engine is on, and the last input of a producer that the
engine was sent is the latest one, so that nothing is ever picked up a second time.
-/

namespace Gabriel

open DispatchLog

namespace Dispatcher

variable {cfg : Config} {d d' : Dispatcher} {p : String} {mp : MetadataPayload}

/-- The dispatcher with the engine `0` seen as a FIFO server. -/
def fifo (d : Dispatcher) : Fifo String MetadataPayload where
  waiting p := (d.producer p).inputQueue
  serving := (d.workers 0).currentInputMetadata.bind fun m => (d.producer m.producerId).latestInputSentToEngine
  accepted := accepted d.log
  served := writtenTo d.log 0
  finished := tokensReturned d.log

/-- A call of `send_result` that forwards the `k`-th result of the engine to the client of the `k`-th input, and
returns the token. -/
def ForwardsResult (log : List DispatchEvent) : DispatchEvent → Prop
  | .sendResult origin address wrapper latestInput => ∃ k mp r, origin = .result 0 k ∧
      (writtenTo log 0)[k]? = some mp ∧ (results log 0)[k]? = some r ∧ address = mp.metadata.clientAddress ∧
      wrapper = { producerId := mp.producerId, returnToken := true
                  result := { r with frameId := mp.metadata.frameId } } ∧ latestInput = some mp
  | _ => True

theorem ForwardsResult.mono {log log' : List DispatchEvent} {e : DispatchEvent} (h : ForwardsResult log e)
    (hlog : log <+: log') : ForwardsResult log' e := by
  cases e with
  | sendResult origin address wrapper latestInput =>
    obtain ⟨t, rfl⟩ := hlog
    obtain ⟨k, mp, r, ho, hk, hr, h⟩ := h
    refine ⟨k, mp, r, ho, ?_, ?_, h⟩
    · rw [writtenTo_append, List.getElem?_append_left (List.getElem?_eq_some_iff.1 hk).1, hk]
    · rw [results_append, List.getElem?_append_left (List.getElem?_eq_some_iff.1 hr).1, hr]
  | _ => trivial

/-- One engine, which answers each input once. -/
structure SoleEngine (d : Dispatcher) : Prop where
  alone : d.engineWorkers = [] ∧ d.nextContext = 0 ∧ d.workers 0 = {} ∧
      (∀ p, (d.producer p).latestInputSentToEngine = none) ∨
    d.engineWorkers = [0] ∧ d.nextContext = 1
  idle : (d.workers 0).currentInputMetadata = none →
    ∀ p, (d.producer p).inputQueue = [] ∧ (d.producer p).pendingTokenReturn = false
  busy : ∀ m, (d.workers 0).currentInputMetadata = some m → ∃ mp,
    (d.producer m.producerId).latestInputSentToEngine = some mp ∧ mp.metadata = m ∧
      (d.producer m.producerId).pendingTokenReturn = true
  pending_current : ∀ p, (d.producer p).pendingTokenReturn = true → ∃ m,
    (d.workers 0).currentInputMetadata = some m ∧ m.producerId = p
  seen : ∀ p mp, (d.producer p).latestInputSentToEngine = some mp →
    (d.workers 0).latestInputProcessed p = some mp.metadata
  waiting_known : ∀ p, (d.producer p).inputQueue ≠ [] → p ∈ (d.workers 0).producers
  results_length : (results d.log 0).length = (tokensReturned d.log).length
  forwards : ∀ e ∈ d.log, ForwardsResult d.log e

/-- The steps that a deployment with a single engine takes: it registers before any other engine, never disconnects,
and sends as many results as it was sent inputs.  No write raises. -/
def Action.soleEngine (d : Dispatcher) : Action → Prop
  | .input _ _ _ _ raising => raising = []
  | .register _ _ => d.nextContext = 0
  | .fromEngine c msg raises =>
    raises = false ∧ ((∃ id ar, msg = .register id ar) ∨ (results d.log c).length < (writtenTo d.log c).length)
  | .remove _ => False

namespace SoleEngine

theorem init : SoleEngine {} where
  alone := Or.inl ⟨rfl, rfl, rfl, fun _ => rfl⟩
  idle _ p := by simp [producer]
  busy m h := by simp at h
  pending_current p h := by simp [producer] at h
  seen p mp h := by simp [producer] at h
  waiting_known p h := by simp [producer] at h
  results_length := rfl
  forwards := by simp

/-- The targets of an input, if it has any. -/
theorem targets_eq (h : SoleEngine d) {ids : List String} {order : List Context}
    (hperm : order.Perm (d.targetEngines ids)) (hne : order ≠ []) :
    order = [0] ∧ d.engineWorkers = [0] ∧ d.nextContext = 1 := by
  rcases h.alone with ⟨hw, -, -, -⟩ | ⟨hw, hn⟩
  · simp only [targetEngines, hw, List.filter_nil, List.perm_nil] at hperm
    exact absurd hperm hne
  · refine ⟨?_, hw, hn⟩
    simp only [targetEngines, hw, List.filter_cons, List.filter_nil] at hperm
    split at hperm
    · exact List.perm_singleton.1 hperm
    · exact absurd (List.perm_nil.1 hperm) hne

/-- The log grows by events that forward no result. -/
private theorem forwards_append (h : SoleEngine d) (es : List DispatchEvent)
    (hes : ∀ e ∈ es, ForwardsResult (d.log ++ es) e) : ∀ e ∈ d.log ++ es, ForwardsResult (d.log ++ es) e := by
  intro e he
  rcases List.mem_append.1 he with he | he
  · exact (h.forwards e he).mono (List.prefix_append _ _)
  · exact hes e he

/-- Steps that the engine takes no part in. -/
theorem of_eq (h : SoleEngine d) (hw : d'.engineWorkers = d.engineWorkers) (hn : d'.nextContext = d.nextContext)
    (hnew : d.nextContext = 0 → d'.workers 0 = d.workers 0)
    (hcur : (d'.workers 0).currentInputMetadata = (d.workers 0).currentInputMetadata)
    (hseen : (d'.workers 0).latestInputProcessed = (d.workers 0).latestInputProcessed)
    (hknown : (d.workers 0).producers ⊆ (d'.workers 0).producers)
    (hq : ∀ p, (d'.producer p).inputQueue = (d.producer p).inputQueue)
    (hl : ∀ p, (d'.producer p).latestInputSentToEngine = (d.producer p).latestInputSentToEngine)
    (hp : ∀ p, (d'.producer p).pendingTokenReturn = (d.producer p).pendingTokenReturn)
    (hlog : d'.log = d.log) : SoleEngine d' ∧ d'.fifo = d.fifo := by
  refine ⟨⟨?_, ?_, ?_, ?_, ?_, ?_, by rw [hlog]; exact h.results_length, by rw [hlog]; exact h.forwards⟩, ?_⟩
  · rw [hw, hn]
    exact h.alone.imp_left fun ⟨hw', hn', hworker, hlatest⟩ =>
      ⟨hw', hn', (hnew hn').trans hworker, fun p => (hl p).trans (hlatest p)⟩
  · simpa only [hcur, hq, hp] using h.idle
  · simpa only [hcur, hl, hp] using h.busy
  · simpa only [hcur, hp] using h.pending_current
  · simpa only [hseen, hl] using h.seen
  · intro p
    rw [hq]
    exact fun hne => hknown (h.waiting_known p hne)
  · simp only [fifo, hcur, hq, hl, hlog]

theorem addProducer (h : SoleEngine d) (hne : d.nextContext ≠ 0) :
    SoleEngine (d.addProducer 0 p) ∧ (d.addProducer 0 p).fifo = d.fifo :=
  h.of_eq rfl rfl (fun he => absurd he hne) (by simp) (by simp) (fun q hq => by simp [hq]) (fun _ => rfl)
    (fun _ => rfl) (fun _ => rfl) rfl

/-- A new input comes while the engine is idle. -/
theorem start (h : SoleEngine d) (mp : MetadataPayload) (hone : d.engineWorkers = [0] ∧ d.nextContext = 1)
    (hidle : (d.workers 0).currentInputMetadata = none) :
    SoleEngine ((((d.addProducer 0 mp.producerId).sendPayload 0 mp true).setInFlight mp).emit (.accepted mp)) ∧
    Fifo.Step MetadataPayload.producerId d.fifo
      ((((d.addProducer 0 mp.producerId).sendPayload 0 mp true).setInFlight mp).emit (.accepted mp)).fifo := by
  have hnone := h.idle hidle
  refine ⟨⟨Or.inr (by simpa using hone), by simp, ?_, ?_, ?_, ?_, by simpa using h.results_length, ?_⟩, ?_⟩
  · intro m hm
    obtain rfl : mp.metadata = m := by simpa using hm
    exact ⟨mp, by simp, rfl, by simp⟩
  · intro q hq
    refine ⟨mp.metadata, by simp, ?_⟩
    by_contra hne
    have hne' : q ≠ mp.metadata.producerId := fun he => hne he.symm
    simp [hne', (hnone q).2] at hq
  · intro q x hx
    by_cases hqp : q = mp.producerId
    · subst hqp
      obtain rfl : mp = x := by simpa using hx
      simp
    · simpa [hqp] using h.seen q x (by simpa [hqp] using hx)
  · intro q hq
    simp [(hnone q).1] at hq
  · simpa using h.forwards_append [.wrote 0 mp.toEngine mp, .accepted mp] (by simp [ForwardsResult])
  · have hstep := @Fifo.Step.start _ _ _ MetadataPayload.producerId d.fifo mp (by simp [fifo, hidle])
    convert hstep using 1
    simp [fifo]

/-- A new input comes while the engine is on another one, and there is room in its queue. -/
theorem wait (h : SoleEngine d) (mp : MetadataPayload) (hone : d.engineWorkers = [0] ∧ d.nextContext = 1)
    (hbusy : (d.workers 0).currentInputMetadata ≠ none) :
    SoleEngine (((d.addProducer 0 mp.producerId).enqueue mp).emit (.accepted mp)) ∧
    Fifo.Step MetadataPayload.producerId d.fifo
      (((d.addProducer 0 mp.producerId).enqueue mp).emit (.accepted mp)).fifo := by
  obtain ⟨m, hm⟩ := Option.ne_none_iff_exists'.1 hbusy
  refine ⟨⟨Or.inr (by simpa using hone), by simp [hm], by simpa using h.busy, by simpa using h.pending_current,
    by simpa using h.seen, ?_, by simpa using h.results_length, ?_⟩, ?_⟩
  · intro q hq
    by_cases hqp : q = mp.producerId
    · simp [hqp]
    · simpa [hqp] using h.waiting_known q (by simpa [hqp] using hq)
  · simpa using h.forwards_append [.enqueued mp.producerId mp, .accepted mp] (by simp [ForwardsResult])
  · have hserving : d.fifo.serving ≠ none := by
      obtain ⟨x, hx, -⟩ := h.busy m hm
      simp [fifo, hm, hx]
    have hstep := @Fifo.Step.wait _ _ _ MetadataPayload.producerId d.fifo mp hserving
    convert hstep using 1
    simp only [fifo, emit_workers, enqueue_workers, addProducer_workers, Function.update_self,
      EngineWorker.addProducer_currentInputMetadata, emit_producer, enqueue_latestInputSentToEngine,
      addProducer_producer, Fifo.mk.injEq, true_and]
    refine ⟨funext fun q => ?_, by simp⟩
    by_cases hq : q = mp.producerId
    · subst hq; simp
    · simp [hq]

/-- The state after the result of the engine for the input `mp` has been forwarded. -/
private def forwarded (d : Dispatcher) (mp : MetadataPayload) (r : Result) : Dispatcher :=
  (d.emit (.gotResult 0 r)).release (.result 0 (d.resultsRead 0)) mp true { r with frameId := mp.metadata.frameId }

/-- What the log says after a result has been forwarded. -/
private theorem forwarded_log (h : SoleEngine d) {r : Result}
    (hk : (writtenTo d.log 0)[(results d.log 0).length]? = some mp) :
    (results (forwarded d mp r).log 0).length = (tokensReturned (forwarded d mp r).log).length ∧
    ∀ e ∈ (forwarded d mp r).log, ForwardsResult (forwarded d mp r).log e := by
  refine ⟨by simp [forwarded, h.results_length], ?_⟩
  have hlog : (forwarded d mp r).log = d.log ++ [.gotResult 0 r, .sendResult (.result 0 (d.resultsRead 0))
      mp.metadata.clientAddress { producerId := mp.producerId, returnToken := true
                                  result := { r with frameId := mp.metadata.frameId } } (some mp)] := by
    simp [forwarded]
  rw [hlog]
  refine h.forwards_append _ fun e he => ?_
  simp only [List.mem_cons, List.not_mem_nil, or_false] at he
  rcases he with rfl | rfl
  · trivial
  · exact ⟨d.resultsRead 0, mp, r, rfl, by simpa [resultsRead_eq] using hk, by simp [resultsRead_eq], rfl, rfl, rfl⟩

/-- Only the producer of the engine's input was in flight. -/
private theorem forwarded_pending (h : SoleEngine d) (hcur : (d.workers 0).currentInputMetadata = some mp.metadata)
    (r : Result) (q : String) : ((forwarded d mp r).producer q).pendingTokenReturn = false := by
  simp only [forwarded, release_pendingTokenReturn, emit_producer]
  split
  · rfl
  · rename_i hne
    by_contra hq
    obtain ⟨m, hm, hname⟩ := h.pending_current q (by simpa using hq)
    rw [hcur] at hm
    exact hne (by rw [← hname, ← Option.some.inj hm])

/-- The result of the engine is forwarded, and nothing waits. -/
private theorem finish (h : SoleEngine d) (hone : d.engineWorkers = [0] ∧ d.nextContext = 1) {r : Result} (k : Nat)
    (hcur : (d.workers 0).currentInputMetadata = some mp.metadata)
    (hlatest : (d.producer mp.producerId).latestInputSentToEngine = some mp)
    (hk : (writtenTo d.log 0)[(results d.log 0).length]? = some mp) (hempty : ∀ q, (d.producer q).inputQueue = []) :
    SoleEngine (((forwarded d mp r).modifyWorker 0 (·.rotateProducers k)).modifyWorker 0
      (·.clearCurrentInputMetadata)) ∧
    Fifo.Step MetadataPayload.producerId d.fifo (((forwarded d mp r).modifyWorker 0
      (·.rotateProducers k)).modifyWorker 0 (·.clearCurrentInputMetadata)).fifo := by
  obtain ⟨hlen, hfor⟩ := h.forwarded_log (r := r) hk
  have hpend := h.forwarded_pending hcur r
  refine ⟨⟨Or.inr (by simpa [forwarded] using hone), ?_, by simp, ?_, ?_, ?_, by simpa using hlen,
    by simpa using hfor⟩, ?_⟩
  · intro _ q
    exact ⟨by simpa [forwarded] using hempty q, by simpa using hpend q⟩
  · intro q hq
    simp [hpend] at hq
  · intro q x hx
    simpa [forwarded] using h.seen q x (by simpa [forwarded] using hx)
  · intro q hq
    simp [forwarded, hempty] at hq
  · have hstep := @Fifo.Step.finish _ _ _ MetadataPayload.producerId d.fifo mp (by simp [fifo, hcur, hlatest]) hempty
    convert hstep using 1
    simp [fifo, forwarded]

/-- The result of the engine is forwarded, and the next waiting input of some producer is sent. -/
private theorem next (h : SoleEngine d) (hone : d.engineWorkers = [0] ∧ d.nextContext = 1) {r : Result}
    {x : MetadataPayload} {rest : List MetadataPayload} (k : Nat)
    (hcur : (d.workers 0).currentInputMetadata = some mp.metadata)
    (hlatest : (d.producer mp.producerId).latestInputSentToEngine = some mp)
    (hk : (writtenTo d.log 0)[(results d.log 0).length]? = some mp)
    (hq : (d.producer x.producerId).inputQueue = x :: rest) :
    SoleEngine ((((forwarded d mp r).modifyWorker 0 (·.rotateProducers k)).dequeue x.producerId x rest).sendPayload
      0 x true) ∧
    Fifo.Step MetadataPayload.producerId d.fifo ((((forwarded d mp r).modifyWorker 0
      (·.rotateProducers k)).dequeue x.producerId x rest).sendPayload 0 x true).fifo := by
  obtain ⟨hlen, hfor⟩ := h.forwarded_log (r := r) hk
  have hpend := h.forwarded_pending hcur r
  refine ⟨⟨Or.inr (by simpa [forwarded] using hone), by simp, ?_, ?_, ?_, ?_, by simpa using hlen, ?_⟩, ?_⟩
  · intro m hm
    obtain rfl : x.metadata = m := by simpa using hm
    exact ⟨x, by simp, rfl, by simp⟩
  · intro q hq'
    refine ⟨x.metadata, by simp, ?_⟩
    by_contra hne
    have hne' : q ≠ x.metadata.producerId := fun he => hne he.symm
    simp [hne', hpend] at hq'
  · intro q y hy
    by_cases hqp : q = x.producerId
    · subst hqp
      obtain rfl : x = y := by simpa using hy
      simp
    · simpa [hqp, forwarded] using h.seen q y (by simpa [hqp, forwarded] using hy)
  · intro q hne
    by_cases hqp : q = x.producerId
    · subst hqp
      simpa [forwarded] using h.waiting_known _ (by rw [hq]; simp)
    · simpa [forwarded] using h.waiting_known q (by simpa [hqp, forwarded] using hne)
  · intro e he
    simp only [sendPayload_log, dequeue_log, modifyWorker_log, ↓reduceIte, List.append_assoc, List.mem_append] at he ⊢
    rcases he with he | he | he
    · exact (hfor e he).mono (List.prefix_append _ _)
    · rw [List.mem_singleton.1 he]; trivial
    · rw [List.mem_singleton.1 he]; trivial
  · have hstep := @Fifo.Step.next _ _ _ MetadataPayload.producerId d.fifo mp x.producerId x rest
      (by simp [fifo, hcur, hlatest]) hq
    convert hstep using 1
    simp only [fifo, Fifo.mk.injEq]
    refine ⟨funext fun q => ?_, by simp, by simp [forwarded], by simp [forwarded], by simp [forwarded]⟩
    by_cases hqp : q = x.producerId
    · subst hqp; simp
    · simp [hqp, forwarded]

end SoleEngine

/-! ### Steps and runs -/

/-- The engine is on the input that its next result is for. -/
private theorem current_of_unanswered (h : SoleEngine d) (hreach : Fifo.Reachable MetadataPayload.producerId d.fifo)
    (hlt : (results d.log 0).length < (writtenTo d.log 0).length) :
    ∃ mp, (d.workers 0).currentInputMetadata = some mp.metadata ∧
      (d.producer mp.producerId).latestInputSentToEngine = some mp ∧
      (d.producer mp.producerId).pendingTokenReturn = true ∧
      (writtenTo d.log 0)[(results d.log 0).length]? = some mp := by
  have hserved : writtenTo d.log 0 = tokensReturned d.log ++ d.fifo.serving.toList := hreach.invariant.served_eq
  cases hcur : (d.workers 0).currentInputMetadata with
  | none =>
    have hnone : d.fifo.serving = none := by simp [fifo, hcur]
    rw [hserved, hnone, h.results_length] at hlt
    simp at hlt
  | some m =>
    obtain ⟨mp, hl, rfl, hpend⟩ := h.busy m hcur
    have hsome : d.fifo.serving = some mp := by simp [fifo, hcur, hl]
    refine ⟨mp, rfl, hl, hpend, ?_⟩
    rw [hserved, hsome, h.results_length]
    simp

/-- An input that goes through the dispatch loop is sent to an idle engine, waits for a busy one or is dropped. -/
private theorem SoleEngine.dispatched {d₁ : Dispatcher} {b : Bool} (h : SoleEngine d)
    (hone : d.engineWorkers = [0] ∧ d.nextContext = 1) (mp : MetadataPayload)
    (hloop : d.dispatchAll mp [] [0] true = (d₁, some b)) :
    SoleEngine (d₁.concludeInput cfg mp b).1 ∧ ((d₁.concludeInput cfg mp b).1.fifo = d.fifo ∨
      Fifo.Step MetadataPayload.producerId d.fifo (d₁.concludeInput cfg mp b).1.fifo) := by
  by_cases hidle : (d.workers 0).currentInputMetadata = none
  · simp only [dispatchAll, dispatchOne_of_idle _ hidle, List.not_mem_nil, ↓reduceIte, Prod.mk.injEq,
      Option.some.injEq, not_false_eq_true, decide_true] at hloop
    obtain ⟨rfl, rfl⟩ := hloop
    obtain ⟨hsole, hfifo⟩ := h.start mp hone hidle
    exact ⟨hsole, Or.inr hfifo⟩
  · simp only [dispatchAll, dispatchOne_of_busy _ hidle, Prod.mk.injEq, Option.some.injEq] at hloop
    obtain ⟨rfl, rfl⟩ := hloop
    generalize hr : (d.addProducer 0 _).concludeInput cfg mp true = r
    cases concludeInput_cases hr with
    | enqueued =>
      obtain ⟨hsole, hfifo⟩ := h.wait mp hone hidle
      exact ⟨hsole, Or.inr hfifo⟩
    | dropped =>
      have hnew : d.nextContext ≠ 0 := by rw [hone.2]; exact Nat.one_ne_zero
      obtain ⟨hsole, hfifo⟩ := h.addProducer (p := mp.producerId) hnew
      exact ⟨hsole, Or.inl hfifo⟩

/-- The engine registers, before which no input was sent. -/
private theorem SoleEngine.registered (h : SoleEngine d) (hw : d.engineWorkers = []) (hn : d.nextContext = 0)
    (hworker : d.workers 0 = {}) (hlatest : ∀ p, (d.producer p).latestInputSentToEngine = none) (id : String)
    (ar : Bool) :
    SoleEngine (d.openContext.insertWorker d.nextContext id ar) ∧
      (d.openContext.insertWorker d.nextContext id ar).fifo = d.fifo := by
  have hcur : (d.workers 0).currentInputMetadata = none := by rw [hworker]
  refine ⟨⟨Or.inr ?_, fun _ => h.idle hcur, ?_, ?_, ?_, ?_, h.results_length, h.forwards⟩, ?_⟩
  · simp [insertWorker, hw, hn]
  · simp [hn]
  · intro p hp
    have hpend := (h.idle hcur p).2
    simp [hpend] at hp
  · simp [hlatest]
  · intro p hp
    have hq := (h.idle hcur p).1
    simp [hq] at hp
  · simp [fifo, hn, hcur]

/-- Once its result is forwarded, the engine is sent the next input that waits, or has nothing to do. -/
private theorem SoleEngine.fed (hwf : WellFormed d) (h : SoleEngine d)
    (hone : d.engineWorkers = [0] ∧ d.nextContext = 1) {mp : MetadataPayload} (r : Result)
    (hcur : (d.workers 0).currentInputMetadata = some mp.metadata)
    (hl : (d.producer mp.producerId).latestInputSentToEngine = some mp)
    (hk : (writtenTo d.log 0)[(results d.log 0).length]? = some mp) :
    SoleEngine ((SoleEngine.forwarded d mp r).feedEngine 0 false) ∧
      Fifo.Step MetadataPayload.producerId d.fifo ((SoleEngine.forwarded d mp r).feedEngine 0 false).fifo := by
  rw [feedEngine_false]
  generalize hr : (SoleEngine.forwarded d mp r).sendNextInput 0 true = next
  cases sendNextInput_cases hr with
  | none k hno =>
    have hempty : ∀ q, (d.producer q).inputQueue = [] := by
      intro q
      by_contra hq
      refine hno q (by simpa [SoleEngine.forwarded] using h.waiting_known q hq) (Or.inl ?_)
      exact ⟨h.forwarded_pending hcur _ q, by simpa [SoleEngine.forwarded] using hq⟩
    exact h.finish hone k hcur hl hk hempty
  | @dequeued k p x rest hp _ hq =>
    have hq' : (d.producer p).inputQueue = x :: rest := by simpa [SoleEngine.forwarded] using hq
    obtain rfl : x.producerId = p := hwf.queue_named p x (by rw [hq']; exact List.mem_cons_self ..)
    exact h.next hone k hcur hl hk hq'
  | @pickedUp k p x m _ _ hlatest hprev hlt' =>
    -- the engine was last sent this very input
    have hseen := h.seen p x (by simpa [SoleEngine.forwarded] using hlatest)
    have hprev' : (d.workers 0).latestInputProcessed p = some m := by simpa [SoleEngine.forwarded] using hprev
    rw [hprev'] at hseen
    rw [Option.some.inj hseen] at hlt'
    exact absurd hlt' (lt_irrefl _)

/-- A step of a deployment with a single engine is a step of the FIFO server, or it changes nothing there. -/
theorem step_soleEngine {a : Action} (hwf : WellFormed d) (h : SoleEngine d)
    (hreach : Fifo.Reachable MetadataPayload.producerId d.fifo) (ha : a.soleEngine d)
    (hstep : step cfg d a = some d') :
    SoleEngine d' ∧ (d'.fifo = d.fifo ∨ Fifo.Step MetadataPayload.producerId d.fifo d'.fifo) := by
  have hstutter : ∀ {d₁ : Dispatcher}, SoleEngine d₁ ∧ d₁.fifo = d.fifo →
      SoleEngine d₁ ∧ (d₁.fifo = d.fifo ∨ Fifo.Step MetadataPayload.producerId d.fifo d₁.fifo) :=
    fun h => ⟨h.1, Or.inl h.2⟩
  have hbegin : ∀ p ts, SoleEngine (d.beginInput p ts) ∧ (d.beginInput p ts).fifo = d.fifo := fun p ts =>
    h.of_eq (by simp) (by simp) (by simp) (by simp) (by simp) (by simp) (by simp) (by simp) (by simp) (by simp)
  -- a result comes from the only engine, and the input it answers is the one in flight
  have hresult : ∀ {c msg raises}, Action.soleEngine d (.fromEngine c msg raises) →
      (∀ id ar, msg ≠ .register id ar) → c < d.nextContext → c = 0 ∧
      (d.engineWorkers = [0] ∧ d.nextContext = 1) ∧ (results d.log 0).length < (writtenTo d.log 0).length := by
    intro c msg raises ha hmsg hlt
    rcases h.alone with ⟨-, hn, -, -⟩ | hone
    · rw [hn] at hlt
      exact absurd hlt (Nat.not_lt_zero _)
    · obtain rfl : c = 0 := Nat.lt_one_iff.1 (hone.2 ▸ hlt)
      rcases ha.2 with ⟨id, ar, he⟩ | hlt
      · exact absurd he (hmsg id ar)
      · exact ⟨rfl, hone, hlt⟩
  cases step_cases hstep with
  | noTarget => exact hstutter (hbegin _ _)
  | raised hperm hne he =>
    obtain rfl := ha
    exact absurd rfl (raising_of_dispatchAll he)
  | @dispatched input address info order raising d₁ b hperm hne he =>
    obtain rfl := ha
    obtain ⟨rfl, hone⟩ := h.targets_eq hperm hne
    obtain ⟨h₀, hf₀⟩ := hbegin input.producerId (d.targetEngines input.targetEngineIds)
    rw [← hf₀]
    exact h₀.dispatched (by simpa using hone) _ he
  | @registered id ar old hold =>
    rcases h.alone with ⟨hw, hn, hworker, hlatest⟩ | ⟨-, hn⟩
    · obtain rfl : old = none := Option.eq_none_iff_forall_not_mem.2 fun v hv => by
        have hmem := (hold v hv).1
        rw [hw] at hmem
        exact List.not_mem_nil hmem
      exact hstutter (h.registered hw hn hworker hlatest id ar)
    · have hzero : d.nextContext = 0 := ha
      rw [hn] at hzero
      cases hzero
  | ignored => exact ⟨h, Or.inl rfl⟩
  | unregistered hc hmsg hlt =>
    obtain ⟨rfl, hone, -⟩ := hresult ha hmsg hlt
    exact absurd (by rw [hone.1]; exact List.mem_singleton_self _) hc
  | unanswered hc hm hmsg hlt =>
    obtain ⟨rfl, -, hlt⟩ := hresult ha hmsg hlt
    obtain ⟨mp, hcur, hl, -, -⟩ := current_of_unanswered h hreach hlt
    have hnone := hm _ hcur
    rw [producerInfos_of_latest hl] at hnone
    cases hnone
  | @answered c msg raises m d₁ ans hc hm hans hgo hmsg hlt =>
    obtain rfl : raises = false := ha.1
    obtain ⟨rfl, hone, hlt⟩ := hresult ha hmsg hlt
    obtain ⟨mp, hcur, hl, hpend, hk⟩ := current_of_unanswered h hreach hlt
    obtain rfl : mp.metadata = m := by rw [hcur] at hm; exact Option.some.inj hm
    have hd₁ : d₁ = SoleEngine.forwarded d mp msg.asResult := by
      have hstamp : d.stampResult 0 msg = { msg.asResult with frameId := mp.metadata.frameId } := by
        simp [stampResult, hcur]
      rw [SoleEngine.forwarded, ← hstamp]
      exact hans.eq_release rfl hpend hl
    subst hd₁
    obtain ⟨hsole, hfifo⟩ := h.fed hwf hone msg.asResult hcur hl hk
    exact ⟨hsole, Or.inr hfifo⟩
  | removed => exact absurd ha id

theorem Action.soleEngine.writesSucceed {a : Action} (h : a.soleEngine d) : a.writesSucceed := by
  cases a with
  | input => exact h
  | register => trivial
  | fromEngine => exact h.1
  | remove => exact absurd h id

theorem run_soleEngine {as : List Action} (h : (machine cfg).RunWhere (fun d a => a.soleEngine d) as d) :
    SoleEngine d ∧ Fifo.Reachable MetadataPayload.producerId d.fifo := by
  refine h.invariant_of (I := fun d => SoleEngine d ∧ Fifo.Reachable MetadataPayload.producerId d.fifo) run_wellFormed
    ⟨.init, .refl⟩ fun s a s' hwf hI ha hstep => ?_
  obtain ⟨hsole, he | hfifo⟩ := step_soleEngine hwf hI.1 hI.2 ha hstep
  · exact ⟨hsole, by rw [he]; exact hI.2⟩
  · exact ⟨hsole, hI.2.tail hfifo⟩

/-- The inputs without a returned token are those in the queues and the one the engine is on. -/
private theorem unreturned_iff (hdel : Delivered cfg d) (hinv : Fifo.Invariant MetadataPayload.producerId d.fifo) :
    mp ∈ accepted d.log ∧ mp ∉ tokensReturned d.log ↔
      mp ∈ (d.producer mp.producerId).inputQueue ∨ d.fifo.serving = some mp := by
  have hserved : writtenTo d.log 0 = tokensReturned d.log ++ d.fifo.serving.toList := hinv.served_eq
  have haccepted : ∀ x : MetadataPayload, x ∈ accepted d.log ↔
      x ∈ writtenTo d.log 0 ∨ x ∈ (d.producer x.producerId).inputQueue := by
    intro x
    have heq : (accepted d.log).filter (MetadataPayload.producerId · = x.producerId) =
        (writtenTo d.log 0).filter (MetadataPayload.producerId · = x.producerId) ++
          (d.producer x.producerId).inputQueue := hinv.accepted_eq x.producerId
    have hmem := congrArg (x ∈ ·) heq
    simpa using hmem
  rw [haccepted, hserved, List.mem_append]
  constructor
  · rintro ⟨(h | h) | h, hnot⟩
    · exact absurd h hnot
    · exact Or.inr (by simpa using h)
    · exact Or.inl h
  · rintro (h | h)
    · refine ⟨Or.inr h, fun htok => ?_⟩
      exact hdel.written.queue_unwritten _ mp h 0 (by rw [hserved]; exact List.mem_append_left _ htok)
    · refine ⟨Or.inl (Or.inr (by simp [h])), fun htok => ?_⟩
      have hnodup := hdel.written.nodup 0
      rw [hserved, h] at hnodup
      exact (List.nodup_append.1 hnodup).2.2 _ htok _ (List.mem_singleton_self _) rfl

/-- The input that the engine is on is the last one it was sent. -/
private theorem serving_iff (h : SoleEngine d) (hinv : Fifo.Invariant MetadataPayload.producerId d.fifo) :
    d.fifo.serving = some mp ↔
      (d.workers 0).currentInputMetadata = some mp.metadata ∧ (writtenTo d.log 0).getLast? = some mp := by
  have hserved : writtenTo d.log 0 = tokensReturned d.log ++ d.fifo.serving.toList := hinv.served_eq
  cases hcur : (d.workers 0).currentInputMetadata with
  | none => simp [fifo, hcur]
  | some m =>
    obtain ⟨x, hl, rfl, -⟩ := h.busy m hcur
    have hsome : d.fifo.serving = some x := by simp [fifo, hcur, hl]
    rw [hserved, hsome]
    simp only [Option.some.injEq, Option.toList_some, List.getLast?_append, List.getLast?_singleton, Option.some_or]
    exact ⟨fun he => ⟨by rw [he], he⟩, fun he => he.2⟩

end Dispatcher

namespace Atomic

variable {cfg : Config} {s : Server}

/-- The steps of a deployment with a single engine, which registers before any other engine, never disconnects, and
sends as many results as it was sent inputs.  No write raises. -/
def Action.soleEngine (s : Server) : Action → Prop
  | .connect _ | .disconnect _ => True
  | .fromClient _ _ _ raising => raising = []
  | .registerEngine _ _ => s.dispatcher.nextContext = 0
  | .fromEngine c msg raises => raises = false ∧ ((∃ id ar, msg = .register id ar) ∨
      (results s.dispatcher.log c).length < (writtenTo s.dispatcher.log c).length)
  | .disconnectEngine _ => False

private theorem soleEngine_dispatcher {a : Action} {a' : Dispatcher.Action} (h : a.soleEngine s)
    (ha : a.dispatcher cfg s = some a') : a'.soleEngine s.dispatcher := by
  cases dispatcher_cases ha with
  | input _ _ => exact h
  | register _ _ => exact h
  | fromEngine _ _ _ => exact h
  | remove _ => exact absurd h id

theorem run_soleEngine {as : List Action} (h : (machine cfg).RunWhere (fun s a => a.soleEngine s) as s) :
    ∃ as', (Dispatcher.machine cfg).RunWhere (fun d a => a.soleEngine d) as' s.dispatcher :=
  run_dispatcher (fun _ _ _ => soleEngine_dispatcher) h

/-- With a single engine the server is a FIFO server for each producer.  The accepted inputs of a producer are those
sent to the engine followed by those in its queue; each input was accepted once.  Each call of `send_result` forwards
the `k`-th result of the engine to the client of the `k`-th input sent, with its token; the inputs sent are those whose
token was returned, followed by the one the engine is on.  The accepted inputs without a returned token are the queued
ones and the one the engine is on, which is the last one sent.  The engine is idle only if all queues are empty. -/
theorem single_engine_fifo {as : List Action} (h : (machine cfg).RunWhere (fun s a => a.soleEngine s) as s) :
    Fifo.Reachable MetadataPayload.producerId s.dispatcher.fifo ∧
    (accepted s.dispatcher.log).Nodup ∧
    (∀ p, (accepted s.dispatcher.log).filter (·.producerId = p) =
      (writtenTo s.dispatcher.log 0).filter (·.producerId = p) ++ (s.dispatcher.producer p).inputQueue) ∧
    (∀ e ∈ s.dispatcher.log, Dispatcher.ForwardsResult s.dispatcher.log e) ∧
    writtenTo s.dispatcher.log 0 = tokensReturned s.dispatcher.log ++ s.dispatcher.fifo.serving.toList ∧
    (∀ mp, mp ∈ accepted s.dispatcher.log ∧ mp ∉ tokensReturned s.dispatcher.log ↔
      mp ∈ (s.dispatcher.producer mp.producerId).inputQueue ∨
      (s.dispatcher.workers 0).currentInputMetadata = some mp.metadata ∧
        (writtenTo s.dispatcher.log 0).getLast? = some mp) ∧
    ((s.dispatcher.workers 0).currentInputMetadata = none → ∀ p, (s.dispatcher.producer p).inputQueue = []) := by
  obtain ⟨as', hrun⟩ := run_soleEngine h
  have hdel := Dispatcher.run_delivered (hrun.mono fun _ _ ha => ha.writesSucceed)
  obtain ⟨hsole, hreach⟩ := Dispatcher.run_soleEngine hrun
  have hinv := hreach.invariant
  refine ⟨hreach, hdel.queued.accepted_nodup, hinv.accepted_eq, hsole.forwards, hinv.served_eq, fun mp => ?_,
    fun hidle p => (hsole.idle hidle p).1⟩
  rw [Dispatcher.unreturned_iff hdel hinv, Dispatcher.serving_iff hsole hinv]

instance : DecidablePred (Action.soleEngine s)
  | .connect _ | .disconnect _ => inferInstanceAs (Decidable True)
  | .fromClient _ _ _ raising => inferInstanceAs (Decidable (raising = []))
  | .registerEngine _ _ => inferInstanceAs (Decidable (s.dispatcher.nextContext = 0))
  | .fromEngine c (.register id ar) raises =>
    decidable_of_iff (raises = false) (by simp [Action.soleEngine])
  | .fromEngine c .unset raises => decidable_of_iff (raises = false ∧
      (results s.dispatcher.log c).length < (writtenTo s.dispatcher.log c).length) (by simp [Action.soleEngine])
  | .fromEngine c (.result r) raises => decidable_of_iff (raises = false ∧
      (results s.dispatcher.log c).length < (writtenTo s.dispatcher.log c).length) (by simp [Action.soleEngine])
  | .disconnectEngine _ => inferInstanceAs (Decidable False)

/-- Two clients share the producer `P`; the engine answers the first frame and is then on the second. -/
theorem single_engine_fifo_of_two_clients :
    ∃ as s, (machine { numTokensPerProducer := 2, sizeForQueues := 2 }).RunWhere (fun s a => a.soleEngine s) as s ∧
      (accepted s.dispatcher.log).length = 2 ∧ (tokensReturned s.dispatcher.log).length = 1 ∧
      (accepted s.dispatcher.log).filter (·.producerId = "P") =
        (writtenTo s.dispatcher.log 0).filter (·.producerId = "P") ++ (s.dispatcher.producer "P").inputQueue := by
  obtain ⟨s, hrun, h⟩ := Machine.exists_runWhere
    (M := machine { numTokensPerProducer := 2, sizeForQueues := 2 }) (G := fun s a => a.soleEngine s)
    (g := fun s a => decide (a.soleEngine s)) (fun _ _ h => of_decide_eq_true h)
    (fun s => (accepted s.dispatcher.log).length = 2 ∧ (tokensReturned s.dispatcher.log).length = 1)
    [.registerEngine "A" false, .connect "a", .fromClient "a" (.registration {}) [] [],
      .connect "b", .fromClient "b" (.registration {}) [] [],
      .fromClient "a" (.input { frameId := 5, producerId := "P", targetEngineIds := ["A"] }) [0] [],
      .fromClient "b" (.input { frameId := 5, producerId := "P", targetEngineIds := ["A"] }) [0] [],
      .fromEngine 0 (.result {}) false] (by decide)
  exact ⟨_, s, hrun, h.1, h.2, (single_engine_fifo hrun).2.2.1 "P"⟩

/-- The engine is on the only input: it is not idle, although every queue is empty. -/
theorem busy_with_empty_queues :
    ∃ as s, (machine { numTokensPerProducer := 2, sizeForQueues := 2 }).RunWhere (fun s a => a.soleEngine s) as s ∧
      (s.dispatcher.workers 0).currentInputMetadata ≠ none ∧ ∀ p, (s.dispatcher.producer p).inputQueue = [] := by
  obtain ⟨s, hrun, hcur, hlog⟩ := Machine.exists_runWhere
    (M := machine { numTokensPerProducer := 2, sizeForQueues := 2 }) (G := fun s a => a.soleEngine s)
    (g := fun s a => decide (a.soleEngine s)) (fun _ _ h => of_decide_eq_true h)
    (fun s => (s.dispatcher.workers 0).currentInputMetadata ≠ none ∧
      accepted s.dispatcher.log = writtenTo s.dispatcher.log 0)
    [.registerEngine "A" false, .connect "a", .fromClient "a" (.registration {}) [] [],
      .fromClient "a" (.input { frameId := 5, producerId := "P", targetEngineIds := ["A"] }) [0] []] (by decide)
  refine ⟨_, s, hrun, hcur, fun p => ?_⟩
  obtain ⟨as', hrun'⟩ := run_soleEngine hrun
  have heq : (accepted s.dispatcher.log).filter (MetadataPayload.producerId · = p) =
      (writtenTo s.dispatcher.log 0).filter (MetadataPayload.producerId · = p) ++
        (s.dispatcher.producer p).inputQueue := (Dispatcher.run_soleEngine hrun').2.invariant.accepted_eq p
  rw [hlog] at heq
  exact List.append_right_eq_self.1 heq.symm

end Atomic

end Gabriel
