import Gabriel.Server.Ownership

/-!
# A waiting queue is served

Only the result of an engine takes inputs out of a queue, and only out of the queues of the producers in the deque of
that engine.  So a queue that is not empty should always have a busy engine with its producer in the deque.  Every
handler keeps this except the removal of an engine: the queue of a producer whose last busy engine is removed waits
until the client sends something else, also if the engine comes back (`queue_stalled`).

When an engine runs out of work, the producers in its deque have empty queues or pending inputs, and a pending input
has an owner (`Gabriel.Server.Ownership`) that is busy.
-/

namespace Gabriel

namespace Dispatcher

variable {cfg : Config} {d d' : Dispatcher} {c : Context} {p : String} {mp : MetadataPayload}

/-- The worker `c` is connected and busy, and has `p` in its deque. -/
def Attends (d : Dispatcher) (c : Context) (p : String) : Prop :=
  c ∈ d.engineWorkers ∧ p ∈ (d.workers c).producers ∧ (d.workers c).currentInputMetadata ≠ none

instance (d : Dispatcher) (c : Context) (p : String) : Decidable (d.Attends c p) :=
  inferInstanceAs (Decidable (_ ∧ _))

/-- Every queue that is not empty is served by a busy worker. -/
def Served (d : Dispatcher) : Prop := ∀ p, (d.producer p).inputQueue ≠ [] → ∃ c, d.Attends c p

/-- The producers in the deque of `c` whose queues are not empty are served by other workers as well. -/
def Spares (d : Dispatcher) (c : Context) : Prop :=
  ∀ p ∈ (d.workers c).producers, (d.producer p).inputQueue ≠ [] → ∃ c' ∈ d.engineWorkers, c' ≠ c ∧ d.Attends c' p

instance (d : Dispatcher) (c : Context) : Decidable (d.Spares c) :=
  inferInstanceAs (Decidable (∀ p ∈ (d.workers c).producers, _ → ∃ c' ∈ d.engineWorkers, _))

/-- Operations that keep the busy workers busy and do not fill a queue. -/
theorem Served.mono (h : Served d) (hq : ∀ p, (d'.producer p).inputQueue ≠ [] → (d.producer p).inputQueue ≠ [])
    (hs : ∀ c p, d.Attends c p → d'.Attends c p) : Served d' := by
  intro p hp
  obtain ⟨c, hc⟩ := h p (hq p hp)
  exact ⟨c, hs c p hc⟩

/-- Operations that leave the workers and the queues alone. -/
theorem Served.of_eq (h : Served d) (hq : ∀ p, (d'.producer p).inputQueue = (d.producer p).inputQueue)
    (hw : d'.workers = d.workers) (he : d'.engineWorkers = d.engineWorkers) : Served d' :=
  h.mono (fun p hp => hq p ▸ hp) fun c p hc => by
    unfold Attends at hc ⊢
    rw [hw, he]
    exact hc

theorem Served.beginInput (h : Served d) (targets : List Context) : Served (d.beginInput p targets) :=
  h.of_eq (by simp) (by simp) (by simp)

theorem Served.openContext (h : Served d) : Served d.openContext := h

theorem Attends.addProducer {c' : Context} {q : String} (h : d.Attends c' q) :
    (d.addProducer c p).Attends c' q := by
  obtain ⟨hc, hq, hbusy⟩ := h
  by_cases he : c' = c
  · subst he
    exact ⟨hc, by simp [hq], by simpa using hbusy⟩
  · exact ⟨hc, by simpa [he] using hq, by simpa [he] using hbusy⟩

theorem Attends.sendPayload {c' : Context} {q : String} (h : d.Attends c' q) (b : Bool) :
    (d.sendPayload c mp b).Attends c' q := by
  obtain ⟨hc, hq, hbusy⟩ := h
  by_cases he : c' = c
  · subst he
    exact ⟨by simpa using hc, by simpa using hq, by simp⟩
  · exact ⟨by simpa using hc, by simpa [he] using hq, by simpa [he] using hbusy⟩

theorem Attends.rotate {c' : Context} {q : String} (h : d.Attends c' q) (k : Nat) :
    (d.modifyWorker c (·.rotateProducers k)).Attends c' q := by
  obtain ⟨hc, hq, hbusy⟩ := h
  by_cases he : c' = c
  · subst he
    exact ⟨hc, by simpa using hq, by simpa using hbusy⟩
  · exact ⟨hc, by simpa [he] using hq, by simpa [he] using hbusy⟩

/-! ### The dispatch loop -/

/-- The loop keeps the queues served, and afterwards the producer of the input is served by one of its targets. -/
private theorem dispatchAll_served {raising order : List Context} {b : Bool} (h : Served d) (hne : order ≠ [])
    (horder : ∀ c ∈ order, c ∈ d.engineWorkers) (hr : d.dispatchAll mp raising order true = (d', some b)) :
    Served d' ∧ ∃ c, d'.Attends c mp.producerId := by
  have hloop := (dispatchAll_ind
    (P := fun rest d₁ _ => Served d₁ ∧ (∀ c ∈ rest, c ∈ d₁.engineWorkers) ∧
      (rest = order ∨ ∃ c, d₁.Attends c mp.producerId)) ?_ ?_ ⟨h, horder, Or.inl rfl⟩ hr).1 b rfl
  · obtain ⟨hserved, -, hend | hc⟩ := hloop
    · exact absurd hend.symm hne
    · exact ⟨hserved, hc⟩
  · rintro d₁ c rest b ⟨hserved, hrest, -⟩ hbusy
    refine ⟨hserved.mono (fun _ hq => hq) fun c' q hc' => hc'.addProducer,
      fun c' hc' => hrest c' (List.mem_cons_of_mem _ hc'), Or.inr ⟨c, hrest c (List.mem_cons_self ..), ?_, ?_⟩⟩
    · simp
    · simpa using hbusy
  · rintro d₁ c rest b ⟨hserved, hrest, -⟩ -
    refine ⟨hserved.mono (fun q hq => by simpa using hq) fun c' q hc' => hc'.addProducer.sendPayload _,
      fun c' hc' => by simpa using hrest c' (List.mem_cons_of_mem _ hc'), Or.inr ⟨c, ?_, ?_, ?_⟩⟩
    · simpa using hrest c (List.mem_cons_self ..)
    · simp
    · simp

private theorem Served.concludeInput {b : Bool} (h : Served d) (hc : ∃ c, d.Attends c mp.producerId) :
    Served (d.concludeInput cfg mp b).1 := by
  generalize hr : d.concludeInput cfg mp b = r
  cases concludeInput_cases hr with
  | dropped => exact h
  | inFlight => exact h.of_eq (by simp) rfl rfl
  | enqueued =>
    intro q hq
    by_cases hqp : q = mp.producerId
    · obtain ⟨c, hserves⟩ := hc
      exact ⟨c, hqp ▸ hserves⟩
    · obtain ⟨c, hserves⟩ := h q (by simpa [hqp] using hq)
      exact ⟨c, hserves⟩

/-! ### Results and removals -/

/-- An engine that has answered is given its next input, or goes idle because nothing waits for it. -/
private theorem Served.sendNextInput (h : Served d) (hown : OwnedApartFrom c d) :
    Served (d.sendNextInput c true).1 := by
  generalize hr : d.sendNextInput c true = r
  cases sendNextInput_cases hr with
  | none k hno =>
    intro q hq
    obtain ⟨c', hc', hdeque, hbusy⟩ := h q hq
    by_cases he : c' = c
    · subst he
      -- the queue is closed, so the in-flight input of `q` is pending and another worker is on it
      have hpend : (d.producer q).pendingTokenReturn = true := by
        by_contra hpend
        exact hno q hdeque (Or.inl ⟨by simpa using hpend, hq⟩)
      obtain ⟨c₂, hc₂, hne, x, -, hcur, hprod⟩ := hown q hpend
      exact ⟨c₂, hc₂, by simpa [hne] using hprod, by simp [hne, hcur]⟩
    · exact ⟨c', hc', by simpa [he] using hdeque, by simpa [he] using hbusy⟩
  | @dequeued k p mp rest hp hpend hqueue =>
    refine h.mono (fun q hq => ?_) fun c' q hc' => ?_
    · by_cases hqp : q = p
      · subst hqp
        simp [hqueue]
      · simpa [hqp] using hq
    · have hrot : ((d.modifyWorker c (·.rotateProducers k)).dequeue p mp rest).Attends c' q := hc'.rotate k
      exact hrot.sendPayload true
  | pickedUp k => exact h.mono (fun q hq => by simpa using hq) fun c' q hc' => (hc'.rotate k).sendPayload true

/-- The removal of a worker that the queues can spare. -/
private theorem Served.removeEngineWorker (h : Served d) (hspares : d.Spares c) :
    Served (d.removeEngineWorker c) := by
  intro q hq
  have hq' : (d.producer q).inputQueue ≠ [] := by simpa using hq
  obtain ⟨c', hne, hmem, hdeque, hbusy⟩ : ∃ c', c' ≠ c ∧ d.Attends c' q := by
    obtain ⟨c', hserves⟩ := h q hq'
    by_cases he : c' = c
    · obtain ⟨c₂, -, hne, hserves₂⟩ := hspares q (he ▸ hserves.2.1) hq'
      exact ⟨c₂, hne, hserves₂⟩
    · exact ⟨c', he, hserves⟩
  refine ⟨c', ?_, by simpa using hdeque, by simpa using hbusy⟩
  unfold Dispatcher.removeEngineWorker
  rcases finishRemoval_engineWorkers (d.beginRemoval c).1 c with he | he <;> rw [he]
  · simpa using hmem
  · exact (List.mem_erase_of_ne hne).2 (by simpa using hmem)

private theorem Served.insertWorker (h : Served d) (hc : c ∉ d.engineWorkers) (id : String) (ar : Bool) :
    Served (d.insertWorker c id ar) := by
  refine h.mono (fun _ hq => hq) fun c' q ⟨hmem, hdeque, hbusy⟩ => ?_
  have hne : c' ≠ c := fun he => hc (he ▸ hmem)
  exact ⟨by simp [hmem], by simpa [hne] using hdeque, by simpa [hne] using hbusy⟩

/-! ### Steps and runs -/

/-- A worker is removed, by its disconnection or because another engine registers its id, only if the queues can
spare it. -/
def Action.sparesQueues (d : Dispatcher) : Action → Prop
  | .register engineId _ => ∀ c ∈ d.engineWorkers, (d.workers c).engineId = engineId → d.Spares c
  | .remove c => d.Spares c
  | _ => True

instance : DecidablePred (Action.sparesQueues d)
  | .register engineId _ =>
    inferInstanceAs (Decidable (∀ c ∈ d.engineWorkers, (d.workers c).engineId = engineId → d.Spares c))
  | .remove c => inferInstanceAs (Decidable (d.Spares c))
  | .input _ _ _ _ _ | .fromEngine _ _ _ => inferInstanceAs (Decidable True)

theorem step_served {a : Action} (hwf : WellFormed d) (hown : Owned d) (h : Served d) (ha : a.writesSucceed)
    (hspares : a.sparesQueues d) (hstep : step cfg d a = some d') : Served d' := by
  cases step_cases hstep with
  | noTarget => exact h.beginInput _
  | raised hperm hne he => exact absurd ha (raising_of_dispatchAll he)
  | dispatched hperm hne he =>
    obtain ⟨hserved, hc⟩ := dispatchAll_served (h.beginInput _) hne
      (fun c hc => by simpa using (mem_targetEngines.1 (hperm.mem_iff.1 hc)).1) he
    exact hserved.concludeInput hc
  | registered old hold =>
    cases old with
    | none => exact h.openContext.insertWorker hwf.nextContext_not_mem _ _
    | some v =>
      obtain ⟨hv, hid⟩ := hold v rfl
      have hremoved : Served (d.openContext.removeEngineWorker v) :=
        h.openContext.removeEngineWorker (hspares v hv hid)
      exact hremoved.insertWorker hwf.nextContext_not_mem_removed _ _
  | ignored => exact h
  | unregistered => exact h.of_eq (fun _ => rfl) rfl rfl
  | unanswered => exact h.of_eq (fun _ => rfl) rfl rfl
  | answered hc hm hans hgo =>
    obtain rfl := ha
    rw [feedEngine_false]
    have hapart := Owned.answered (d := d.emit _) hown (hwf.emit _) hm hans hgo
    exact Served.sendNextInput (h.of_eq hans.inputQueue hans.workers hans.engineWorkers) hapart
  | removed => exact h.removeEngineWorker hspares

theorem run_served {as : List Action}
    (h : (machine cfg).RunWhere (fun d a => a.writesSucceed ∧ a.sparesQueues d) as d) : Served d :=
  h.invariant_of (J := fun d => WellFormed d ∧ Owned d) (fun hrun => ⟨run_wellFormed hrun, run_owned hrun⟩)
    (fun p hp => by simp [machine, producer] at hp)
    fun _ _ _ hJ hI ha hstep => step_served hJ.1 hJ.2 hI ha.1 ha.2 hstep

end Dispatcher

namespace Atomic

variable {cfg : Config} {s : Server}

/-- An engine is removed, by its disconnection or because another one registers its id, only while each producer in
its deque has an empty queue or another connected busy engine with the producer in its deque. -/
def Action.sparesQueues (cfg : Config) (s : Server) (a : Action) : Prop :=
  ∀ a' ∈ a.dispatcher cfg s, a'.sparesQueues s.dispatcher

instance : DecidablePred (Action.sparesQueues cfg s) := fun a =>
  inferInstanceAs (Decidable (∀ a' ∈ a.dispatcher cfg s, a'.sparesQueues s.dispatcher))

/-- In every state of the server with atomic handlers whose writes succeed and that removes an engine only if the
queues can spare it: a queue that is not empty has a connected busy engine with its producer in the deque. -/
theorem waiting_queue_served {as : List Action}
    (h : (machine cfg).RunWhere (fun s a => a.writesSucceed ∧ a.sparesQueues cfg s) as s) {p : String}
    (hq : (s.dispatcher.producer p).inputQueue ≠ []) :
    ∃ c ∈ s.dispatcher.engineWorkers, p ∈ (s.dispatcher.workers c).producers ∧
      (s.dispatcher.workers c).currentInputMetadata ≠ none := by
  obtain ⟨as', hrun⟩ : ∃ as', (Dispatcher.machine cfg).RunWhere
      (fun d a => a.writesSucceed ∧ a.sparesQueues d) as' s.dispatcher :=
    run_dispatcher (fun _ _ _ ha hproj => ⟨writesSucceed_dispatcher ha.1 hproj, ha.2 _ hproj⟩) h
  obtain ⟨c, hc⟩ := Dispatcher.run_served hrun p hq
  exact ⟨c, hc⟩

/-- The second frame waits for the engine `A`, after an idle engine has come and gone. -/
theorem waiting_queue_served_of_two_frames :
    ∃ as s, (machine { numTokensPerProducer := 2, sizeForQueues := 2 }).RunWhere
        (fun s a => a.writesSucceed ∧ a.sparesQueues { numTokensPerProducer := 2, sizeForQueues := 2 } s) as s ∧
      (s.dispatcher.producer "P").inputQueue ≠ [] ∧ ∃ c ∈ s.dispatcher.engineWorkers,
        "P" ∈ (s.dispatcher.workers c).producers ∧ (s.dispatcher.workers c).currentInputMetadata ≠ none := by
  obtain ⟨s, hrun, hq⟩ := Machine.exists_runWhere
    (M := machine { numTokensPerProducer := 2, sizeForQueues := 2 })
    (G := fun s a => a.writesSucceed ∧ a.sparesQueues { numTokensPerProducer := 2, sizeForQueues := 2 } s)
    (g := fun s a => decide (a.writesSucceed ∧
      a.sparesQueues { numTokensPerProducer := 2, sizeForQueues := 2 } s)) (fun _ _ h => of_decide_eq_true h)
    (fun s => (s.dispatcher.producer "P").inputQueue ≠ [])
    [.connect "client", .registerEngine "A" false, .fromClient "client" (.registration {}) [] [],
      .fromClient "client" (.input { frameId := 1, producerId := "P", targetEngineIds := ["A"] }) [0] [],
      .fromClient "client" (.input { frameId := 2, producerId := "P", targetEngineIds := ["A"] }) [0] [],
      .registerEngine "B" false, .disconnectEngine 1] (by decide)
  exact ⟨_, s, hrun, hq, waiting_queue_served hrun hq⟩

/-- The engine `A` disconnects while it has the first frame of `P` and comes back.  The second frame still waits for
it in the queue, the token of the first has been returned, and no connected engine is busy. -/
theorem queue_stalled :
    ∃ as s, (machine { numTokensPerProducer := 2, sizeForQueues := 2 }).RunWhere (fun _ a => a.writesSucceed) as s ∧
      (∃ mp ∈ (s.dispatcher.producer "P").inputQueue.head?, ∃ c ∈ s.dispatcher.engineWorkers,
        (s.dispatcher.workers c).engineId ∈ mp.metadata.targetEngineIds) ∧
      ∀ c ∈ s.dispatcher.engineWorkers, (s.dispatcher.workers c).currentInputMetadata = none := by
  obtain ⟨s, hrun, h⟩ := Machine.exists_runWhere
    (M := machine { numTokensPerProducer := 2, sizeForQueues := 2 }) (G := fun _ a => a.writesSucceed)
    (g := fun _ a => decide a.writesSucceed) (fun _ _ h => of_decide_eq_true h)
    (fun s => (∃ mp ∈ (s.dispatcher.producer "P").inputQueue.head?, ∃ c ∈ s.dispatcher.engineWorkers,
        (s.dispatcher.workers c).engineId ∈ mp.metadata.targetEngineIds) ∧
      ∀ c ∈ s.dispatcher.engineWorkers, (s.dispatcher.workers c).currentInputMetadata = none)
    [.connect "client", .registerEngine "A" false, .fromClient "client" (.registration {}) [] [],
      .fromClient "client" (.input { frameId := 1, producerId := "P", targetEngineIds := ["A"] }) [0] [],
      .fromClient "client" (.input { frameId := 2, producerId := "P", targetEngineIds := ["A"] }) [0] [],
      .disconnectEngine 0, .registerEngine "A" false] (by decide)
  exact ⟨_, s, hrun, h⟩

end Atomic

end Gabriel
