import Gabriel.Lib.RoundRobin
import Gabriel.Server.Calls

/-!
# The producers of an engine take turns

`send_next_input` rotates the deque of a worker until a producer that has something for the engine is in front: a
round of `RoundRobin.search`.  Between two calls, with any handlers running in between, producers are only added to
the deque.  So a producer is not served twice in a row while another one that was in the deque has something all the
time.
-/

namespace Gabriel

namespace Dispatcher

variable {d d' : Dispatcher} {c : Context} {p : String} {mp : MetadataPayload}

/-! ### A call of `send_next_input` -/

instance : Decidable (d.Offers c p) := inferInstanceAs (Decidable (_ ∨ _))

/-- The producer whose input a call of `send_next_input` sends. -/
def nextProducer (d : Dispatcher) (c : Context) : Option String :=
  (d.nextInput c (d.workers c).producers.length).2.map (·.producerId)

/-- The deque after a call of `send_next_input`. -/
def nextProducers (d : Dispatcher) (c : Context) : List String :=
  ((d.nextInput c (d.workers c).producers.length).1.workers c).producers

theorem sendNextInput_producers (d : Dispatcher) (c : Context) (b : Bool) :
    ((d.sendNextInput c b).1.workers c).producers = d.nextProducers c := by
  unfold sendNextInput nextProducers
  split <;> rename_i heq <;> simp [heq]

/-- The loop of `send_next_input` is a search for a producer that has something for the engine. -/
private theorem nextInput_search (h : d.WellFormed) (n : Nat) :
    (((d.nextInput c n).1.workers c).producers, (d.nextInput c n).2.map (·.producerId)) =
      RoundRobin.search (fun p => decide (d.Offers c p)) n (d.workers c).producers := by
  induction n generalizing d with
  | zero => rfl
  | succ n ih =>
    have hoffers : ∀ p, (d.modifyWorker c (·.rotateProducers 1)).Offers c p ↔ d.Offers c p := fun p => by
      simp [Offers, pickUp_rotate]
    have hrotated := ih (h.modifyWorker (c := c) (·.rotateProducers 1))
    simp only [hoffers] at hrotated
    have hw : ((d.modifyWorker c (·.rotateProducers 1)).workers c).producers = (d.workers c).producers.rotate 1 := by
      simp
    rw [hw] at hrotated
    simp only [nextInput, RoundRobin.search, hw]
    cases hrot : (d.workers c).producers.rotate 1 with
    | nil => simp [hrot]
    | cons p ps =>
      rw [hrot] at hrotated hw
      simp only [modifyWorker_producer]
      by_cases hpend : (d.producer p).pendingTokenReturn = true
      · simp only [hpend, ↓reduceIte, pickUp_rotate]
        cases hpick : d.pickUp c p with
        | some mp =>
          have hname := h.latest_named p mp (pickUp_eq_some.1 hpick).1
          simp [Offers, hpick, hname, hrot]
        | none => simpa [Offers, hpick, hpend] using hrotated
      · simp only [hpend, Bool.false_eq_true, ↓reduceIte, getInputFromQueue, modifyWorker_producer]
        cases hqueue : (d.producer p).inputQueue with
        | cons mp rest =>
          have hname := h.queue_named p mp (by rw [hqueue]; exact List.mem_cons_self ..)
          simp [Offers, hpend, hqueue, hname, hrot]
        | nil =>
          simp only [pickUp_rotate]
          cases hpick : d.pickUp c p with
          | some mp =>
            have hname := h.latest_named p mp (pickUp_eq_some.1 hpick).1
            simp [Offers, hpick, hname, hrot]
          | none => simpa [Offers, hpick, hqueue] using hrotated

/-- A call of `send_next_input` is a round. -/
theorem searched_nextProducer (h : d.WellFormed) (c : Context) :
    RoundRobin.Searched (fun p => decide (d.Offers c p)) (d.workers c).producers
      (d.nextProducers c, d.nextProducer c) := by
  have hsearch : (d.nextProducers c, d.nextProducer c) = _ := nextInput_search h _
  rw [hsearch]
  exact RoundRobin.search_cases _ _

end Dispatcher

namespace Interleaved

variable {cfg : Config} {sys sys' : Sys} {act : Action} {s s' : Server} {c c' : Context} {pc pc' : SessionPc}
  {d : Dispatcher}

/-! ### The deque between two calls -/

/-- An operation adds at most producers to the deque of `c`. -/
private def Extends (c : Context) (d d' : Dispatcher) : Prop :=
  ∃ added, (d'.workers c).producers = (d.workers c).producers ++ added

private theorem Extends.of_workers {d d' : Dispatcher} (h : d'.workers c = d.workers c) : Extends c d d' :=
  ⟨[], by rw [h, List.append_nil]⟩

private theorem Extends.trans {d₁ d₂ d₃ : Dispatcher} (h : Extends c d₁ d₂) (h' : Extends c d₂ d₃) :
    Extends c d₁ d₃ := by
  obtain ⟨l, hl⟩ := h
  obtain ⟨l', hl'⟩ := h'
  exact ⟨l ++ l', by rw [hl', hl, List.append_assoc]⟩

private theorem StreamEffect.extends {d d' : Dispatcher} (h : StreamEffect d d') : Extends c d d' := by
  cases h with
  | begun => exact .of_workers (by simp)
  | added c₁ p =>
    by_cases hc : c = c₁
    · subst hc
      simp only [Extends, Dispatcher.addProducer_workers, Function.update_self, EngineWorker.addProducer]
      split
      · exact ⟨[], by simp⟩
      · exact ⟨_, rfl⟩
    · exact .of_workers (by simp [hc])
  | sent c₁ => exact ⟨[], by by_cases hc : c = c₁ <;> simp [hc]⟩
  | queued => exact .of_workers rfl
  | inFlight => exact .of_workers rfl

/-- A session past its registration that makes no call leaves the workers alone. -/
private theorem workers_of_own_step (hown : act.session = some c) (hcall : nextInputCall c sys act = none)
    (hreg : sys.Registered c) (hstep : step cfg sys act = some sys') :
    sys'.server.dispatcher.workers = sys.server.dispatcher.workers := by
  obtain ⟨pc, hpc, hregistering⟩ := hreg
  obtain ⟨pc', hpc', hunfed⟩ := unfed_of_no_call hown hcall hstep
  obtain rfl : pc = pc' := Option.some.inj (hpc.symm.trans hpc')
  generalize sys'.server = s' at hunfed
  cases hunfed with
  | removed h => exact h.workers
  | gotResult => rfl
  | answered h => exact h.workers
  | inserted _ _ hpc => exact absurd hpc hregistering

/-- A step that makes no call of `send_next_input` of the worker `c` at most adds producers to its deque. -/
theorem producers_of_no_call (hcall : nextInputCall c sys act = none) (hreg : sys.Registered c)
    (hstep : step cfg sys act = some sys') : ∃ added, (sys'.server.dispatcher.workers c).producers =
      (sys.server.dispatcher.workers c).producers ++ added := by
  by_cases hown : act.session = some c
  · exact Extends.of_workers (congrFun (workers_of_own_step hown hcall hreg hstep) c)
  · cases step_outline hstep with
    | stream _ _ h => exact h.invariant (P := Extends c _) (fun h hd => hd.trans h.extends) (.of_workers rfl)
    | opened _ h => exact Extends.of_workers (by rw [h]; rfl)
    | session hact _ hs =>
      have hne : c ≠ _ := fun he => hown (hact.trans (congrArg some he.symm))
      exact Extends.of_workers (hs.effects.workers_of_ne hne)

/-! ### Whole runs -/

/-- The calls of a run are orderly rounds, each with the deque that the one before it left, perhaps with producers
added; so is the worker's deque now. -/
structure CallsChained (c : Context) (calls : List Dispatcher) (sys : Sys) : Prop where
  orderly : ∀ d ∈ calls, d.Orderly
  chain : calls.IsChain fun d d' => ∃ added, (d'.workers c).producers = d.nextProducers c ++ added
  last : ∀ d ∈ calls.getLast?, sys.Registered c ∧
    ∃ added, (sys.server.dispatcher.workers c).producers = d.nextProducers c ++ added

theorem callsChained_step {calls : List Dispatcher} (horderly : sys.server.dispatcher.Orderly)
    (hused : sys.ContextsUsed) (h : CallsChained c calls sys) (hstep : step cfg sys act = some sys') :
    CallsChained c (calls ++ (nextInputCall c sys act).toList) sys' := by
  cases hcall : nextInputCall c sys act with
  | none =>
    simp only [Option.toList_none, List.append_nil]
    refine ⟨h.orderly, h.chain, fun d hd => ?_⟩
    obtain ⟨hreg, l, hl⟩ := h.last d hd
    obtain ⟨l', hl'⟩ := producers_of_no_call hcall hreg hstep
    exact ⟨registered_step hstep hused.fresh hreg, l ++ l', by rw [hl', hl, List.append_assoc]⟩
  | some d =>
    obtain ⟨hreg, b, -, hd⟩ := step_of_nextInputCall hcall hstep
    have hcases := nextInputCall_answered hcall
    have horderly' : d.Orderly := by
      rcases hcases with rfl | ⟨k, m, result, ans, hans⟩
      · exact horderly
      · exact horderly.answered hans
    have hworkers : d.workers = sys.server.dispatcher.workers := by
      rcases hcases with rfl | ⟨k, m, result, ans, hans⟩
      · rfl
      · exact hans.workers
    simp only [Option.toList_some]
    refine ⟨fun d' hd' => ?_, ?_, fun d' hd' => ?_⟩
    · rcases List.mem_append.1 hd' with hd' | hd'
      · exact h.orderly d' hd'
      · exact List.mem_singleton.1 hd' ▸ horderly'
    · refine h.chain.append (.singleton d) fun d₁ hd₁ d₂ hd₂ => ?_
      obtain rfl : d = d₂ := by simpa using hd₂
      rw [hworkers]
      exact (h.last d₁ hd₁).2
    · obtain rfl : d = d' := by simpa using hd'
      exact ⟨hreg, [], by rw [hd, Dispatcher.sendNextInput_producers, List.append_nil]⟩

theorem run_callsChained {as : List Action} (h : (machine cfg).Run as sys) :
    CallsChained c (nextInputCalls cfg c as) sys := by
  induction h with
  | init => exact ⟨by simp [nextInputCalls, Machine.trace], .nil, by simp [nextInputCalls, Machine.trace]⟩
  | step hrun _ hstep ih =>
    rw [nextInputCalls, Machine.trace_concat hrun.exec]
    exact callsChained_step (run_orderly hrun) (run_contextsUsed hrun) ih hstep

/-- Between two calls of `send_next_input` that send an input of `q`, a producer `p` that was in the deque at the
first and has something for the engine at every later one has an input sent, whatever the other handlers do. -/
theorem producers_take_turns {as : List Action} (h : (machine cfg).Run as sys) {p q : String}
    {before between after : List Dispatcher} {first second : Dispatcher}
    (hcalls : nextInputCalls cfg c as = before ++ first :: (between ++ second :: after))
    (hfirst : first.nextProducer c = some q) (hsecond : second.nextProducer c = some q) (hpq : p ≠ q)
    (hp : p ∈ (first.workers c).producers) (hoffers : ∀ d ∈ between ++ [second], d.Offers c p) :
    ∃ d ∈ between, d.nextProducer c = some p := by
  have hchained := run_callsChained (c := c) h
  have hsplit : nextInputCalls cfg c as = before ++ (first :: (between ++ [second])) ++ after := by simp [hcalls]
  have hmem : ∀ d ∈ first :: (between ++ [second]), d.Orderly := fun d hd =>
    hchained.orderly d (by rw [hsplit]; simp only [List.mem_append]; exact Or.inl (Or.inr hd))
  have hchain := hchained.chain
  rw [hsplit] at hchain
  exact RoundRobin.fair (fun d hd => Dispatcher.searched_nextProducer (hmem d hd).wellFormed c)
    (fun d hd => (hmem d hd).nodup c) hchain.left_of_append.right_of_append hfirst hsecond hpq hp
    fun d hd => by simpa using hoffers d hd

private def frameOf (p : String) (n : Int) : Action :=
  .message 0 (.input { frameId := n, producerId := p, targetEngineIds := ["A"] }) [0] true

/-- The engine returns a result, its client gets it, and the engine is sent its next input. -/
private def resultOf : List Action :=
  [.engineMessage 0 (.result {}), .resumeSession 0 false true, .resumeSession 0 false true, .resumeSession 0 false true]

/-- One engine with frames of two producers; the first is sent right away and the others have to wait. -/
private def twoProducers : List Action :=
  [.openSession, .engineMessage 0 (.register "A" false), .openClient "client",
    .message 0 (.registration {}) [] false, .resumeStream 0 false false, frameOf "p" 1, .resumeStream 0 false false,
    frameOf "q" 1, frameOf "p" 2, frameOf "q" 2, frameOf "p" 3] ++ resultOf ++ resultOf ++ resultOf

/-- The engine is sent a frame of `q`, then one of `p`, then one of `q`. -/
theorem producers_take_turns_of_two_producers : ∃ first between second,
    nextInputCalls { clientTransport := .websocket, numTokensPerProducer := 3, sizeForQueues := 2 } 0 twoProducers =
      [first, between, second] ∧
    first.nextProducer 0 = some "q" ∧ second.nextProducer 0 = some "q" ∧ between.nextProducer 0 = some "p" := by
  obtain ⟨sys, hrun, -⟩ := Machine.exists_run
    (M := machine { clientTransport := .websocket, numTokensPerProducer := 3, sizeForQueues := 2 }) (fun _ => True)
    twoProducers (by decide)
  have hcalls : (nextInputCalls { clientTransport := .websocket, numTokensPerProducer := 3, sizeForQueues := 2 } 0
      twoProducers).map (fun d => (d.nextProducer 0, (d.workers 0).producers, decide (d.Offers 0 "p"))) =
    [(some "q", ["p", "q"], true), (some "p", ["q", "p"], true), (some "q", ["p", "q"], true)] := by decide
  obtain ⟨first, l, heq, hfirst, hl⟩ := List.map_eq_cons_iff.1 hcalls
  obtain ⟨between, l, rfl, hbetween, hl⟩ := List.map_eq_cons_iff.1 hl
  obtain ⟨second, l, rfl, hsecond, hl⟩ := List.map_eq_cons_iff.1 hl
  obtain rfl := List.map_eq_nil_iff.1 hl
  simp only [Prod.mk.injEq, decide_eq_true_eq] at hfirst hbetween hsecond
  have hp : "p" ∈ (first.workers 0).producers := by rw [hfirst.2.1]; decide
  have hoffers : ∀ d ∈ [between] ++ [second], d.Offers 0 "p" := by
    simpa using ⟨hbetween.2.2, hsecond.2.2⟩
  have hsplit := heq.trans (List.nil_append (first :: ([between] ++ second :: []))).symm
  obtain ⟨d, hd, hserved⟩ := producers_take_turns hrun hsplit hfirst.1 hsecond.1 (by decide) hp hoffers
  exact ⟨first, between, second, heq, hfirst.1, hsecond.1, List.mem_singleton.1 hd ▸ hserved⟩

end Interleaved

end Gabriel
