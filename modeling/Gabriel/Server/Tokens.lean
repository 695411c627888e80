import Gabriel.Server.History
import Gabriel.Server.WellFormed

/-!
# Where the tokens of accepted inputs are

The dispatcher has one in-flight slot per producer.  The token of an accepted input is accounted for if it was
returned, if the input waits in the queue of its producer, or if the input is in flight and its token still pending.
Dequeuing respects the slot: an input leaves the queue only when no token is pending.  Direct dispatch does not: an
input that finds one of its target engines idle takes the slot even if the input that is in it still waits for its
token, and then nothing will return that token (`Atomic.token_lost`).  As long as inputs that come while a token is
pending find all of their target engines busy, every token stays accounted for.
-/

namespace Gabriel

open DispatchLog

namespace Dispatcher

variable {cfg : Config} {d d' : Dispatcher} {c : Context} {p : String} {mp x : MetadataPayload}

/-- The input `x` is in flight with a pending token, or its token was returned. -/
def InFlightOrReturned (d : Dispatcher) (x : MetadataPayload) : Prop :=
  ((d.producer x.producerId).latestInputSentToEngine = some x ∧
    (d.producer x.producerId).pendingTokenReturn = true) ∨ x ∈ tokensReturned d.log

/-- The token of `x` is not lost. -/
def Accounted (d : Dispatcher) (x : MetadataPayload) : Prop :=
  InFlightOrReturned d x ∨ x ∈ (d.producer x.producerId).inputQueue

/-! ### The operations -/

namespace InFlightOrReturned

theorem of_eq (h : InFlightOrReturned d x)
    (hl : ∀ p, (d'.producer p).latestInputSentToEngine = (d.producer p).latestInputSentToEngine)
    (hp : ∀ p, (d'.producer p).pendingTokenReturn = (d.producer p).pendingTokenReturn)
    (ht : tokensReturned d.log ⊆ tokensReturned d'.log) : InFlightOrReturned d' x := by
  rcases h with h | h
  · exact Or.inl (by rw [hl, hp]; exact h)
  · exact Or.inr (ht h)

theorem dequeue {rest : List MetadataPayload} (h : InFlightOrReturned d x)
    (hpend : (d.producer p).pendingTokenReturn = false) : InFlightOrReturned (d.dequeue p mp rest) x := by
  rcases h with ⟨hl, hx⟩ | h
  · have hne : x.producerId ≠ p := by rintro rfl; rw [hpend] at hx; cases hx
    exact Or.inl (by simp [hne, hl, hx])
  · exact Or.inr (by simpa using h)

theorem setInFlight (h : InFlightOrReturned d x)
    (hpend : (d.producer mp.producerId).pendingTokenReturn = false) : InFlightOrReturned (d.setInFlight mp) x := by
  rcases h with ⟨hl, hx⟩ | h
  · have hne : x.producerId ≠ mp.producerId := by
      intro he
      rw [he, hpend] at hx
      cases hx
    exact Or.inl (by simp [hne, hl, hx])
  · exact Or.inr h

theorem release {origin : Origin} {token : Bool} {result : Result} (h : InFlightOrReturned d x)
    (hlatest : (d.producer mp.producerId).latestInputSentToEngine = some mp)
    (htoken : (d.producer mp.producerId).pendingTokenReturn = true → token = true) :
    InFlightOrReturned (d.release origin mp token result) x := by
  rcases h with ⟨hl, hx⟩ | h
  · by_cases he : x.producerId = mp.producerId
    · rw [he] at hl hx
      obtain rfl : mp = x := by rw [hlatest] at hl; exact Option.some.inj hl
      exact Or.inr (by simp [htoken hx])
    · exact Or.inl (by simp [he, hl, hx])
  · exact Or.inr (by simp [h])

theorem sendNextInput (h : InFlightOrReturned d x) (b : Bool) : InFlightOrReturned (d.sendNextInput c b).1 x := by
  generalize hr : d.sendNextInput c b = r
  cases sendNextInput_cases hr with
  | none => exact h
  | @dequeued k p mp rest hp hpend hq =>
    have hdeq : InFlightOrReturned ((d.modifyWorker c (·.rotateProducers k)).dequeue p mp rest) x :=
      InFlightOrReturned.dequeue (d := d.modifyWorker c (·.rotateProducers k)) h hpend
    exact hdeq.of_eq (by simp) (by simp) (by cases b <;> simp)
  | pickedUp => exact h.of_eq (by simp) (by simp) (by cases b <;> simp)

theorem answered {k : Nat} {result : Result} {m : Option Metadata} {ans : Answer} (h : InFlightOrReturned d x)
    (hans : Answered d c k result m (d', ans)) : InFlightOrReturned d' x := by
  cases hans with
  | noMetadata => exact h
  | noProducer => exact h
  | token hpend hlatest => exact h.release hlatest (fun _ => rfl)
  | copy => exact h.of_eq (fun _ => rfl) (fun _ => rfl) (by simp)
  | next => exact h

theorem removeEngineWorker (h : InFlightOrReturned d x) : InFlightOrReturned (d.removeEngineWorker c) x := by
  have hbegun : InFlightOrReturned (d.beginRemoval c).1 x := by
    generalize hr : d.beginRemoval c = r
    cases beginRemoval_cases hr with
    | silent => exact h
    | released hcur hlatest => exact h.release hlatest id
  exact hbegun.of_eq (by simp) (by simp) (by simp)

end InFlightOrReturned

/-- From `d` to `d'` nothing is accepted and no token is lost. -/
structure KeepsTokens (d d' : Dispatcher) : Prop where
  accepted_eq : accepted d'.log = accepted d.log
  inFlight : ∀ x, InFlightOrReturned d x → InFlightOrReturned d' x
  accounted : ∀ x, Accounted d x → Accounted d' x

namespace KeepsTokens

theorem trans {d₁ d₂ d₃ : Dispatcher} (h : KeepsTokens d₁ d₂) (h' : KeepsTokens d₂ d₃) : KeepsTokens d₁ d₃ :=
  ⟨h'.accepted_eq.trans h.accepted_eq, fun x hx => h'.inFlight x (h.inFlight x hx),
    fun x hx => h'.accounted x (h.accounted x hx)⟩

/-- Operations that leave the queues alone. -/
theorem of_queue (ha : accepted d'.log = accepted d.log)
    (hq : ∀ p, (d'.producer p).inputQueue = (d.producer p).inputQueue)
    (hx : ∀ x, InFlightOrReturned d x → InFlightOrReturned d' x) : KeepsTokens d d' :=
  ⟨ha, hx, fun x h => h.imp (hx x) fun h => by rwa [hq]⟩

theorem of_eq (ha : accepted d'.log = accepted d.log) (ht : tokensReturned d'.log = tokensReturned d.log)
    (hq : ∀ p, (d'.producer p).inputQueue = (d.producer p).inputQueue)
    (hl : ∀ p, (d'.producer p).latestInputSentToEngine = (d.producer p).latestInputSentToEngine)
    (hp : ∀ p, (d'.producer p).pendingTokenReturn = (d.producer p).pendingTokenReturn) : KeepsTokens d d' :=
  of_queue ha hq fun _ h => h.of_eq hl hp (ht ▸ List.Subset.refl _)

theorem beginInput (targets : List Context) : KeepsTokens d (d.beginInput p targets) :=
  of_eq (by simp) (by simp) (by simp) (by simp) (by simp)

theorem gotResult (r : Result) : KeepsTokens d (d.emit (.gotResult c r)) :=
  of_eq (by simp) (by simp) (fun _ => rfl) (fun _ => rfl) (fun _ => rfl)

theorem openContext : KeepsTokens d d.openContext := of_eq rfl rfl (fun _ => rfl) (fun _ => rfl) (fun _ => rfl)

theorem insertWorker (id : String) (ar : Bool) : KeepsTokens d (d.insertWorker c id ar) :=
  of_eq rfl rfl (fun _ => rfl) (fun _ => rfl) (fun _ => rfl)

theorem answered {k : Nat} {result : Result} {m : Option Metadata} {ans : Answer}
    (hans : Answered d c k result m (d', ans)) : KeepsTokens d d' :=
  of_queue (by cases hans <;> simp) hans.inputQueue fun _ h => h.answered hans

theorem removeEngineWorker : KeepsTokens d (d.removeEngineWorker c) := by
  refine of_queue ?_ (by simp) fun _ h => h.removeEngineWorker
  rw [removeEngineWorker_log]
  generalize hr : d.beginRemoval c = r
  cases beginRemoval_cases hr <;> simp

theorem sendNextInput (b : Bool) : KeepsTokens d (d.sendNextInput c b).1 := by
  refine ⟨?_, fun x h => h.sendNextInput b, fun x h => ?_⟩
  · generalize hr : d.sendNextInput c b = r
    cases sendNextInput_cases hr <;> cases b <;> simp
  rcases h with h | hx
  · exact Or.inl (h.sendNextInput b)
  generalize hr : d.sendNextInput c b = r
  cases sendNextInput_cases hr with
  | none => exact Or.inr hx
  | pickedUp => exact Or.inr (by simpa using hx)
  | @dequeued k p mp rest hp hpend hq =>
    by_cases he : x.producerId = p
    · subst he
      rw [hq] at hx
      rcases List.mem_cons.1 hx with rfl | hx
      · exact Or.inl (Or.inl (by simp))
      · exact Or.inr (by simpa using hx)
    · exact Or.inr (by simpa [he] using hx)

theorem dispatchAll {raising order : List Context} {b : Bool} {r : Option Bool}
    (hr : d.dispatchAll mp raising order b = (d', r)) : KeepsTokens d d' := by
  have hloop := dispatchAll_ind (P := fun _ d₁ _ => KeepsTokens d d₁)
    (fun d₁ c _ _ h _ => h.trans (of_eq rfl rfl (fun _ => rfl) (fun _ => rfl) (fun _ => rfl)))
    (fun d₁ c _ _ h _ => h.trans (of_eq (by by_cases hc : c ∈ raising <;> simp [hc])
      (by by_cases hc : c ∈ raising <;> simp [hc]) (by simp) (by simp) (by simp)))
    (of_eq rfl rfl (fun _ => rfl) (fun _ => rfl) (fun _ => rfl)) hr
  cases r with
  | none => exact (hloop.2 rfl).2.choose_spec
  | some b => exact hloop.1 b rfl

end KeepsTokens

/-! ### Dispatching an input -/

/-- No target of the input is idle while a token of its producer is pending. -/
def Action.respectsPending (d : Dispatcher) : Action → Prop
  | .input i _ _ _ _ => (d.producer i.producerId).pendingTokenReturn = true →
      ∀ c ∈ d.targetEngines i.targetEngineIds, (d.workers c).currentInputMetadata ≠ none
  | _ => True

instance : DecidablePred (Action.respectsPending d)
  | .input i _ _ _ _ => inferInstanceAs (Decidable ((d.producer i.producerId).pendingTokenReturn = true →
      ∀ c ∈ d.targetEngines i.targetEngineIds, (d.workers c).currentInputMetadata ≠ none))
  | .register _ _ | .fromEngine _ _ _ | .remove _ => inferInstanceAs (Decidable True)

theorem InFlightOrReturned.concludeInput {b : Bool} (h : InFlightOrReturned d x)
    (hb : b = false → (d.producer mp.producerId).pendingTokenReturn = false) :
    InFlightOrReturned (d.concludeInput cfg mp b).1 x := by
  generalize hr : d.concludeInput cfg mp b = r
  cases concludeInput_cases hr with
  | dropped => exact h
  | inFlight => exact (h.setInFlight (hb rfl)).of_eq (fun _ => rfl) (fun _ => rfl) (by simp)
  | enqueued => exact h.of_eq (by simp) (by simp) (by simp)

theorem Accounted.concludeInput {b : Bool} (h : Accounted d x)
    (hb : b = false → (d.producer mp.producerId).pendingTokenReturn = false) :
    Accounted (d.concludeInput cfg mp b).1 x := by
  rcases h with h | hx
  · exact Or.inl (h.concludeInput hb)
  refine Or.inr ?_
  generalize hr : d.concludeInput cfg mp b = r
  by_cases hq : x.producerId = mp.producerId
  · rw [hq] at hx ⊢
    cases concludeInput_cases hr <;> simp [hx]
  · cases concludeInput_cases hr <;> simp [hq, hx]

/-- The token of every accepted input is accounted for. -/
def AllAccounted (d : Dispatcher) : Prop := ∀ x ∈ accepted d.log, Accounted d x

theorem AllAccounted.concludeInput {b : Bool} (h : AllAccounted d)
    (hb : b = false → (d.producer mp.producerId).pendingTokenReturn = false) :
    AllAccounted (d.concludeInput cfg mp b).1 := by
  intro x hx
  have hnew : x ∈ accepted d.log ∨ x = mp ∧ Accounted (d.concludeInput cfg mp b).1 mp := by
    revert hx
    generalize hr : d.concludeInput cfg mp b = r
    cases concludeInput_cases hr with
    | dropped => exact Or.inl
    | inFlight =>
      intro hx
      refine (by simpa using hx : x ∈ accepted d.log ∨ x = mp).imp_right fun he => ⟨he, Or.inl (Or.inl ?_)⟩
      simp
    | enqueued =>
      intro hx
      refine (by simpa using hx : x ∈ accepted d.log ∨ x = mp).imp_right fun he => ⟨he, Or.inr ?_⟩
      simp
  rcases hnew with hx | ⟨rfl, hx⟩
  · exact (h x hx).concludeInput hb
  · exact hx

/-! ### Steps and runs -/

theorem KeepsTokens.all (h : KeepsTokens d d') (hall : AllAccounted d) : AllAccounted d' := fun x hx =>
  h.accounted x (hall x (h.accepted_eq ▸ hx))

theorem step_accounted {a : Action} (ha : a.writesSucceed) (hresp : a.respectsPending d)
    (hstep : step cfg d a = some d') :
    (∀ x, InFlightOrReturned d x → InFlightOrReturned d' x) ∧ (AllAccounted d → AllAccounted d') := by
  have hkeep : KeepsTokens d d' → (∀ x, InFlightOrReturned d x → InFlightOrReturned d' x) ∧
      (AllAccounted d → AllAccounted d') := fun h => ⟨h.inFlight, h.all⟩
  cases step_cases hstep with
  | noTarget => exact hkeep (.beginInput _)
  | raised hperm hne he =>
    obtain rfl := ha
    exact absurd rfl (raising_of_dispatchAll he)
  | @dispatched input address info order raising d₁ b hperm hne he =>
    have hloop := (KeepsTokens.beginInput _).trans (.dispatchAll he)
    have hb : b = false →
        (d₁.producer (d.metadataPayload input address info).producerId).pendingTokenReturn = false := by
      rintro rfl
      by_contra hpend
      have hpend' : (d.producer input.producerId).pendingTokenReturn = true := by
        simpa [dispatchAll_producer he] using hpend
      have := dispatchAll_busy (fun c hc => by simpa using hresp hpend' c (hperm.mem_iff.1 hc)) he
      cases this
    exact ⟨fun x hx => (hloop.inFlight x hx).concludeInput hb, fun h => (hloop.all h).concludeInput hb⟩
  | registered old hold =>
    cases old with
    | none => exact hkeep (KeepsTokens.openContext.trans (.insertWorker _ _))
    | some v => exact hkeep ((KeepsTokens.openContext.trans .removeEngineWorker).trans (.insertWorker _ _))
  | ignored => exact hkeep (.of_eq rfl rfl (fun _ => rfl) (fun _ => rfl) (fun _ => rfl))
  | unregistered => exact hkeep (.gotResult _)
  | unanswered => exact hkeep (.gotResult _)
  | answered hc hm hans hgo =>
    obtain rfl := ha
    refine hkeep ?_
    rw [feedEngine_false]
    exact ((KeepsTokens.gotResult _).trans (.answered hans)).trans (.sendNextInput _)
  | removed => exact hkeep .removeEngineWorker

theorem run_accounted {as : List Action}
    (h : (machine cfg).RunWhere (fun d a => a.writesSucceed ∧ a.respectsPending d) as d) : AllAccounted d :=
  h.invariant (I := AllAccounted) (by simp [AllAccounted, machine]) fun _ _ _ hI ha hstep =>
    (step_accounted ha.1 ha.2 hstep).2 hI

end Dispatcher

namespace Atomic

variable {cfg : Config} {s : Server}

/-- If the step gives an input to the dispatcher while a token of its producer is pending, all connected engines that
the input targets are busy. -/
def Action.respectsPending (cfg : Config) (s : Server) (a : Action) : Prop :=
  ∀ a' ∈ a.dispatcher cfg s, a'.respectsPending s.dispatcher

instance : DecidablePred (Action.respectsPending cfg s) := fun a =>
  inferInstanceAs (Decidable (∀ a' ∈ a.dispatcher cfg s, a'.respectsPending s.dispatcher))

/-- In every state of the server with atomic handlers whose writes succeed and whose inputs respect pending tokens:
an accepted input whose token has not been returned waits in its queue or is in flight with a pending token, and the
next such step leaves a pending input in flight or returns its token. -/
theorem tokens_accounted {as : List Action}
    (h : (machine cfg).RunWhere (fun s a => a.writesSucceed ∧ a.respectsPending cfg s) as s) :
    (∀ mp ∈ accepted s.dispatcher.log, mp ∉ tokensReturned s.dispatcher.log →
      mp ∈ (s.dispatcher.producer mp.producerId).inputQueue ∨
      (s.dispatcher.producer mp.producerId).latestInputSentToEngine = some mp ∧
        (s.dispatcher.producer mp.producerId).pendingTokenReturn = true) ∧
    ∀ p mp, (s.dispatcher.producer p).latestInputSentToEngine = some mp →
      (s.dispatcher.producer p).pendingTokenReturn = true → ∀ a s', a.writesSucceed → a.respectsPending cfg s →
      step cfg s a = some s' →
      (s'.dispatcher.producer p).latestInputSentToEngine = some mp ∧
        (s'.dispatcher.producer p).pendingTokenReturn = true ∨ mp ∈ tokensReturned s'.dispatcher.log := by
  obtain ⟨as', hrun⟩ : ∃ as', (Dispatcher.machine cfg).RunWhere
      (fun d a => a.writesSucceed ∧ a.respectsPending d) as' s.dispatcher :=
    run_dispatcher (fun _ _ _ ha hproj => ⟨writesSucceed_dispatcher ha.1 hproj, ha.2 _ hproj⟩) h
  refine ⟨fun mp hmp hnot => ?_, fun p mp hlatest hpend a s' ha hresp hstep => ?_⟩
  · rcases Dispatcher.run_accounted hrun mp hmp with (hflight | hret) | hqueue
    · exact Or.inr hflight
    · exact absurd hret hnot
    · exact Or.inl hqueue
  · obtain rfl : mp.producerId = p := (Dispatcher.run_wellFormed hrun).latest_named p mp hlatest
    have hd := step_dispatcher hstep
    cases hproj : a.dispatcher cfg s with
    | none =>
      rw [hproj] at hd
      exact Or.inl (by rw [hd]; exact ⟨hlatest, hpend⟩)
    | some a' =>
      rw [hproj] at hd
      exact (Dispatcher.step_accounted (writesSucceed_dispatcher ha hproj) (hresp _ hproj) hd).1 mp
        (Or.inl ⟨hlatest, hpend⟩)

/-- Two frames of one producer for the same engine: the second waits in the queue. -/
theorem tokens_accounted_of_two_frames :
    ∃ as s, (machine { numTokensPerProducer := 2, sizeForQueues := 2 }).RunWhere
        (fun s a => a.writesSucceed ∧ a.respectsPending { numTokensPerProducer := 2, sizeForQueues := 2 } s) as s ∧
      (accepted s.dispatcher.log).length = 2 ∧ ∀ mp ∈ accepted s.dispatcher.log,
        mp ∉ tokensReturned s.dispatcher.log → mp ∈ (s.dispatcher.producer mp.producerId).inputQueue ∨
        (s.dispatcher.producer mp.producerId).latestInputSentToEngine = some mp ∧
          (s.dispatcher.producer mp.producerId).pendingTokenReturn = true := by
  obtain ⟨s, hrun, h⟩ := Machine.exists_runWhere
    (M := machine { numTokensPerProducer := 2, sizeForQueues := 2 })
    (G := fun s a => a.writesSucceed ∧ a.respectsPending { numTokensPerProducer := 2, sizeForQueues := 2 } s)
    (g := fun s a => decide (a.writesSucceed ∧
      a.respectsPending { numTokensPerProducer := 2, sizeForQueues := 2 } s)) (fun _ _ h => of_decide_eq_true h)
    (fun s => (accepted s.dispatcher.log).length = 2)
    [.connect "client", .registerEngine "A" false, .fromClient "client" (.registration {}) [] [],
      .fromClient "client" (.input { frameId := 1, producerId := "P", targetEngineIds := ["A"] }) [0] [],
      .fromClient "client" (.input { frameId := 2, producerId := "P", targetEngineIds := ["A"] }) [0] []] (by decide)
  exact ⟨_, s, hrun, h, (tokens_accounted hrun).1⟩

/-- The producer `P` sends a frame to the engine `A` and the next one to the idle engine `B`.  The second takes the
in-flight slot of the first.  All engines have answered and are idle, and the token of the first is still out. -/
theorem token_lost :
    ∃ as s, (machine { numTokensPerProducer := 2, sizeForQueues := 2 }).RunWhere (fun _ a => a.writesSucceed) as s ∧
      (∃ mp ∈ accepted s.dispatcher.log, mp ∉ tokensReturned s.dispatcher.log ∧
        mp ∉ (s.dispatcher.producer mp.producerId).inputQueue ∧
        (s.dispatcher.producer mp.producerId).latestInputSentToEngine ≠ some mp) ∧
      (s.dispatcher.producer "P").pendingTokenReturn = false ∧
      ∀ c ∈ s.dispatcher.engineWorkers, (s.dispatcher.workers c).currentInputMetadata = none := by
  obtain ⟨s, hrun, h⟩ := Machine.exists_runWhere
    (M := machine { numTokensPerProducer := 2, sizeForQueues := 2 }) (G := fun _ a => a.writesSucceed)
    (g := fun _ a => decide a.writesSucceed) (fun _ _ h => of_decide_eq_true h)
    (fun s => (∃ mp ∈ accepted s.dispatcher.log, mp ∉ tokensReturned s.dispatcher.log ∧
        mp ∉ (s.dispatcher.producer mp.producerId).inputQueue ∧
        (s.dispatcher.producer mp.producerId).latestInputSentToEngine ≠ some mp) ∧
      (s.dispatcher.producer "P").pendingTokenReturn = false ∧
      ∀ c ∈ s.dispatcher.engineWorkers, (s.dispatcher.workers c).currentInputMetadata = none)
    [.connect "client", .registerEngine "A" false, .registerEngine "B" false,
      .fromClient "client" (.registration {}) [] [],
      .fromClient "client" (.input { frameId := 1, producerId := "P", targetEngineIds := ["A"] }) [0] [],
      .fromClient "client" (.input { frameId := 2, producerId := "P", targetEngineIds := ["B"] }) [1] [],
      .fromEngine 0 (.result {}) false, .fromEngine 1 (.result {}) false, .fromEngine 0 (.result {}) false] (by decide)
  exact ⟨_, s, hrun, h⟩

end Atomic

end Gabriel
