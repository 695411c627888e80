import Gabriel.Client.ZeroMQ

/-!
# What the steps of the ZeroMQ client do

One lemma for each function that chooses what to do, as for the server: `return_token`, the handlers of the producers
and the other tasks.
-/

namespace Gabriel.ZeroMQClient

/-- The tokens in the hands of a producer loop. -/
def ProducerPc.held : ProducerPc → Nat
  | .woken _ | .disconnected | .producing => 1
  | _ => 0

/-- An input of the producer `p`. -/
def Uplink.isInputOf (p : String) : Uplink → Bool
  | .message (.input input) => input.producerId = p
  | _ => false

namespace State

variable {s s' : State} {p q : String}

section Fields

variable (s : State) (p q : String) (pc : ProducerPc) (producer : Producer) (pool : TokenPool) (err : ClientError)

@[simp] theorem fail_tokens : (s.fail err).tokens = s.tokens := rfl
@[simp] theorem fail_producers : (s.fail err).producers = s.producers := rfl
@[simp] theorem goTo_tokens : (s.goTo p pc).tokens = s.tokens := rfl
@[simp] theorem goTo_producers : (s.goTo p pc).producers =
    Function.update s.producers p ((s.producers p).map fun producer => { producer with pc := pc }) := rfl
@[simp] theorem setPool_tokens : (s.setPool p pool).tokens = Function.update s.tokens p (some pool) := rfl
@[simp] theorem setPool_producers : (s.setPool p pool).producers = s.producers := rfl
@[simp] theorem setProducer_tokens : (s.setProducer p producer).tokens = s.tokens := rfl
@[simp] theorem setProducer_producers :
    (s.setProducer p producer).producers = Function.update s.producers p (some producer) := rfl

end Fields

/-- What `return_token` does. -/
inductive Returned (s : State) (p : String) : State → Prop
  | failed (err : ClientError) : Returned s p (s.fail err)
  | handed {pool : TokenPool} {producer : Producer} (hpool : s.tokens p = some pool)
      (hproducer : s.producers p = some producer) (hpc : producer.pc = .waiting pool.resets) :
      Returned s p (s.goTo p (.woken pool.resets))
  | stored {pool : TokenPool} (hpool : s.tokens p = some pool) :
      Returned s p (s.setPool p { pool with value := pool.value + 1 })

theorem returnToken_cases (s : State) (p : String) : Returned s p (s.returnToken p) := by
  unfold returnToken
  split
  · exact .failed _
  · rename_i pool hpool
    split
    · exact .failed _
    · split
      · rename_i hpc
        obtain ⟨producer, hproducer, hpc⟩ := Option.map_eq_some_iff.1 hpc
        exact .handed hpool hproducer hpc
      · exact .stored hpool

/-- What `_process_response` does. -/
inductive Responded (s : State) (wrapper : ResultWrapper) : State → Prop
  | failed (err : ClientError) : Responded s wrapper (s.fail err)
  | returned (htoken : wrapper.returnToken = true) : Responded s wrapper (s.returnToken wrapper.producerId)
  | kept (htoken : wrapper.returnToken = false) : Responded s wrapper s

theorem processResponse_cases (s : State) (wrapper : ResultWrapper) (raises : Bool) :
    Responded s wrapper (s.processResponse wrapper raises) := by
  have hback : Responded s wrapper (if wrapper.returnToken then s.returnToken wrapper.producerId else s) := by
    split
    · exact .returned ‹_›
    · rename_i htoken
      exact .kept (Bool.eq_false_of_not_eq_true htoken)
  unfold processResponse
  simp only
  split
  · split
    · exact .failed _
    · exact hback
  · exact .failed _
  · exact .failed _
  · exact hback

/-! ### The handlers of the producers -/

/-- What a step of the handler of `p`, suspended at `producer`, can do. -/
inductive ProducerStep (s : State) (p : String) (producer : Producer) : State → Output → Prop
  | failed (err : ClientError) : ProducerStep s p producer (s.fail err) {}
  /-- The client stops before it has registered. -/
  | unstarted (hpc : producer.pc = .starting) : ProducerStep s p producer (s.goTo p .finished) {}
  | started (hpc : producer.pc = .starting) :
      ProducerStep s p producer ((s.setPool p (.new s.numTokensPerProducer)).goTo p .looping) {}
  /-- The handler goes on with the token that it holds, or leaves its loop with it. -/
  | moved {pc : ProducerPc} (hstarted : producer.pc ≠ .starting) (hrunning : producer.pc ≠ .finished)
      (hpc : pc ≠ .starting) (hheld : pc.held ≤ producer.pc.held) : ProducerStep s p producer (s.goTo p pc) {}
  | acquired {pool : TokenPool} (hpc : producer.pc = .acquiring) (hpool : s.tokens p = some pool)
      (hpos : 0 < pool.value) : ProducerStep s p producer
        ((s.setPool p { pool with value := pool.value - 1 }).goTo p (.woken pool.resets)) {}
  | timedOut (hstarted : producer.pc ≠ .starting) (hrunning : producer.pc ≠ .finished) :
      ProducerStep s p producer ({ s with scheduleHeartbeat := true }.goTo p .looping) {}
  /-- The wait for a token is cancelled when the semaphore has already given one. -/
  | givenBack {pool : TokenPool} (hpc : producer.pc = .woken pool.resets) (hpool : s.tokens p = some pool) :
      ProducerStep s p producer
        (({ s with scheduleHeartbeat := true }.goTo p .looping).setPool p { pool with value := pool.value + 1 }) {}
  | noTargets {sem : Nat} (hpc : producer.pc = .woken sem) :
      ProducerStep s p producer (((s.returnToken p).goTo p .finished).fail .noTargets) {}
  | skipped (scheduled : Bool) (hpc : producer.pc = .producing) :
      ProducerStep s p producer { s.skip p with scheduleHeartbeat := scheduled } {}
  | sent (input : Input) (hpc : producer.pc = .producing) (hp : input.producerId = p) :
      ProducerStep s p producer (s.setProducer p { pc := .sending, frameId := producer.frameId + 1 })
        { sent := [.message (.input input)] }

/-- What the handler of `p`, suspended at `producer`, does at an event. -/
inductive ProducerMove (s : State) (p : String) (producer : Producer) : Event → State → Output → Prop
  | failed {ev : Event} (err : ClientError) : ProducerMove s p producer ev (s.fail err) {}
  | unstarted {q : String} (hpc : producer.pc = .starting) :
      ProducerMove s p producer (.start q) (s.goTo p .finished) {}
  | started {q : String} (hpc : producer.pc = .starting) : ProducerMove s p producer (.start q)
      ((s.setPool p (.new s.numTokensPerProducer)).goTo p .looping) {}
  | looped {q : String} (wanted paused : Bool) (hpc : producer.pc = .looping) :
      ProducerMove s p producer (.loop q wanted paused)
        (s.goTo p (if s.running ∧ wanted then (if paused then .paused else .acquiring) else .finished)) {}
  | unpaused {q : String} (hpc : producer.pc = .paused) :
      ProducerMove s p producer (.unpaused q) (s.goTo p .acquiring) {}
  | acquired {q : String} {pool : TokenPool} (hpc : producer.pc = .acquiring) (hpool : s.tokens p = some pool)
      (hpos : 0 < pool.value) : ProducerMove s p producer (.getToken q)
        ((s.setPool p { pool with value := pool.value - 1 }).goTo p (.woken pool.resets)) {}
  | waits {q : String} {pool : TokenPool} (hpc : producer.pc = .acquiring) :
      ProducerMove s p producer (.getToken q) (s.goTo p (.waiting pool.resets)) {}
  | timedOut {q : String} (hpc : producer.pc = .acquiring ∨ ∃ sem, producer.pc = .waiting sem) :
      ProducerMove s p producer (.tokenTimeout q) ({ s with scheduleHeartbeat := true }.goTo p .looping) {}
  | givenBack {q : String} {pool : TokenPool} (hpc : producer.pc = .woken pool.resets)
      (hpool : s.tokens p = some pool) : ProducerMove s p producer (.tokenTimeout q)
        (({ s with scheduleHeartbeat := true }.goTo p .looping).setPool p { pool with value := pool.value + 1 }) {}
  /-- The token is of a semaphore that was replaced. -/
  | dropped {q : String} {pool : TokenPool} {sem : Nat} (hpc : producer.pc = .woken sem)
      (hpool : s.tokens p = some pool) (hsem : sem ≠ pool.resets) :
      ProducerMove s p producer (.tokenTimeout q) ({ s with scheduleHeartbeat := true }.goTo p .looping) {}
  | noTargets {q : String} {targets : List String} {sem : Nat} (hpc : producer.pc = .woken sem) :
      ProducerMove s p producer (.gotToken q targets) (((s.returnToken p).goTo p .finished).fail .noTargets) {}
  | gotToken {q : String} {targets : List String} {sem : Nat} {pc : ProducerPc} (hpc : producer.pc = .woken sem)
      (hpc' : pc = .producing ∨ pc = .disconnected) :
      ProducerMove s p producer (.gotToken q targets) (s.goTo p pc) {}
  | stopped {q : String} (hpc : producer.pc = .disconnected) (hstop : s.running = false) :
      ProducerMove s p producer (.reconnected q) (s.goTo p .finished) {}
  | reconnected {q : String} (hpc : producer.pc = .disconnected) :
      ProducerMove s p producer (.reconnected q) (s.goTo p .producing) {}
  | skipped {ev : Event} (scheduled : Bool) (hpc : producer.pc = .producing) :
      ProducerMove s p producer ev { s.skip p with scheduleHeartbeat := scheduled } {}
  | sent {q : String} {produced : GrpcClient.Produced} (input : Input) (hpc : producer.pc = .producing)
      (hp : input.producerId = p) : ProducerMove s p producer (.produce q produced)
        (s.setProducer p { pc := .sending, frameId := producer.frameId + 1 }) { sent := [.message (.input input)] }
  | inputSent {q : String} (hpc : producer.pc = .sending) :
      ProducerMove s p producer (.inputSent q) (s.goTo p .looping) {}

private theorem produce_moves {producer : Producer} {produced : GrpcClient.Produced} {r : State × Output}
    (hpc : producer.pc = .producing) (hr : s.produce p producer produced = r) (q : String) :
    ProducerMove s p producer (.produce q produced) r.1 r.2 := by
  subst hr
  unfold produce
  split
  · exact .failed _
  · exact .skipped (s.skip p).scheduleHeartbeat hpc
  · split
    · exact .skipped (s.skip p).scheduleHeartbeat hpc
    · split
      · exact .sent _ hpc rfl
      · exact .failed _

private theorem tokenTimeout_moves {producer : Producer} (h : s.tokenTimeout p producer.pc = some s') (q : String) :
    ProducerMove s p producer (.tokenTimeout q) s' {} := by
  unfold tokenTimeout at h
  split at h <;> rename_i hpc
  · cases h; exact .timedOut (Or.inl hpc)
  · cases h; exact .timedOut (Or.inr ⟨_, hpc⟩)
  · obtain ⟨pool, hpool, h⟩ := Option.bind_eq_some_iff.1 h
    split at h <;> rename_i hsem <;> cases h
    · exact .givenBack (hsem ▸ hpc) hpool
    · exact .dropped hpc hpool hsem
  · cases h

theorem stepProducer_moves {producer : Producer} {ev : Event} {out : Output}
    (hstep : s.stepProducer p producer ev = some (s', out)) : ProducerMove s p producer ev s' out := by
  cases ev with
  | start =>
    obtain ⟨hpc, hstep⟩ := Option.ite_none_right_eq_some.1 hstep
    obtain ⟨s₁, hs₁, heq⟩ := Option.map_eq_some_iff.1 hstep
    cases heq
    unfold start at hs₁
    split at hs₁
    · cases hs₁; exact .unstarted hpc
    · obtain ⟨-, hs₁⟩ := Option.ite_none_right_eq_some.1 hs₁
      cases hs₁; exact .started hpc
  | loop _ wanted paused =>
    obtain ⟨hpc, hstep⟩ := Option.ite_none_right_eq_some.1 hstep
    cases hstep
    exact .looped wanted paused hpc
  | unpaused =>
    obtain ⟨hpc, hstep⟩ := Option.ite_none_right_eq_some.1 hstep
    cases hstep
    exact .unpaused hpc
  | getToken =>
    obtain ⟨hpc, hstep⟩ := Option.ite_none_right_eq_some.1 hstep
    obtain ⟨s₁, hs₁, heq⟩ := Option.map_eq_some_iff.1 hstep
    cases heq
    obtain ⟨pool, hpool, hs₁⟩ := Option.bind_eq_some_iff.1 hs₁
    split at hs₁
    · cases hs₁; exact .acquired hpc hpool ‹_›
    · cases hs₁; exact .waits hpc
  | tokenTimeout =>
    obtain ⟨s₁, hs₁, heq⟩ := Option.map_eq_some_iff.1 hstep
    cases heq
    exact tokenTimeout_moves hs₁ _
  | gotToken _ targets =>
    simp only [stepProducer] at hstep
    split at hstep
    · rename_i sem hpc
      cases hstep
      unfold gotToken
      split
      · exact .noTargets hpc
      · split
        · exact .gotToken hpc (Or.inl rfl)
        · exact .gotToken hpc (Or.inr rfl)
    · cases hstep
  | reconnected =>
    obtain ⟨hpc, hstep⟩ := Option.ite_none_right_eq_some.1 hstep
    split at hstep
    · cases hstep; exact .stopped hpc (by simpa using ‹¬ s.running = true›)
    · obtain ⟨-, hstep⟩ := Option.ite_none_right_eq_some.1 hstep
      cases hstep; exact .reconnected hpc
  | produceTimeout =>
    obtain ⟨hpc, hstep⟩ := Option.ite_none_right_eq_some.1 hstep
    cases hstep
    exact .skipped true hpc
  | produce _ produced =>
    obtain ⟨hpc, hstep⟩ := Option.ite_none_right_eq_some.1 hstep
    exact produce_moves hpc (Option.some.inj hstep) _
  | inputSent =>
    obtain ⟨hpc, hstep⟩ := Option.ite_none_right_eq_some.1 hstep
    cases hstep
    exact .inputSent hpc
  | _ => cases hstep

/-- The moves of a handler, as far as its token is concerned. -/
theorem ProducerMove.step {producer : Producer} {ev : Event} {out : Output}
    (h : ProducerMove s p producer ev s' out) : ProducerStep s p producer s' out := by
  cases h with
  | failed err => exact .failed err
  | unstarted hpc => exact .unstarted hpc
  | started hpc => exact .started hpc
  | looped wanted paused hpc =>
    refine .moved (by simp [hpc]) (by simp [hpc]) ?_ ?_ <;> (split <;> [split; skip]) <;> simp [ProducerPc.held]
  | unpaused hpc => exact .moved (by simp [hpc]) (by simp [hpc]) (by simp) (by simp [ProducerPc.held])
  | acquired hpc hpool hpos => exact .acquired hpc hpool hpos
  | waits hpc => exact .moved (by simp [hpc]) (by simp [hpc]) (by simp) (by simp [ProducerPc.held])
  | timedOut hpc => rcases hpc with hpc | ⟨sem, hpc⟩ <;> exact .timedOut (by simp [hpc]) (by simp [hpc])
  | givenBack hpc hpool => exact .givenBack hpc hpool
  | dropped hpc => exact .timedOut (by simp [hpc]) (by simp [hpc])
  | noTargets hpc => exact .noTargets hpc
  | gotToken hpc hpc' =>
    rcases hpc' with rfl | rfl <;>
      exact .moved (by simp [hpc]) (by simp [hpc]) (by simp) (by simp [hpc, ProducerPc.held])
  | stopped hpc => exact .moved (by simp [hpc]) (by simp [hpc]) (by simp) (by simp [ProducerPc.held])
  | reconnected hpc => exact .moved (by simp [hpc]) (by simp [hpc]) (by simp) (by simp [hpc, ProducerPc.held])
  | skipped scheduled hpc => exact .skipped scheduled hpc
  | sent input hpc hp => exact .sent input hpc hp
  | inputSent hpc => exact .moved (by simp [hpc]) (by simp [hpc]) (by simp) (by simp [ProducerPc.held])

theorem ProducerStep.reconnects {producer : Producer} {out : Output} (h : ProducerStep s p producer s' out) :
    out.reconnects = false := by
  cases h <;> rfl

/-! ### The other tasks -/

/-- The tokens, the producers and the state of the connection stay the same. -/
structure SameLink (s s' : State) : Prop where
  tokens : s'.tokens = s.tokens
  producers : s'.producers = s.producers
  producerIds : s'.producerIds = s.producerIds
  connected : s'.connected = s.connected
  registeredEvent : s'.registeredEvent = s.registeredEvent
  reregistrationNeeded : s'.reregistrationNeeded = s.reregistrationNeeded

/-- What a step of a task other than the handlers of the producers can do. -/
inductive TaskStep (s : State) : Event → State → Output → Prop
  /-- No task but the consumer and the registration handler changes more than its own state. -/
  | plain {ev : Event} {s' : State} {sent : List Uplink} (hev : ∀ msg raises, ev ≠ .receive msg raises)
      (hs : SameLink s s') (hsent : ∀ p, sent.countP (Uplink.isInputOf p) = 0) :
      TaskStep s ev s' { sent := sent }
  | disconnected : TaskStep s .pollTimeout s.pollTimeout.1 s.pollTimeout.2
  | received (msg : Downlink) (raises : Bool) : TaskStep s (.receive msg raises) (s.receive msg raises) {}
  | reregistered : TaskStep s .reregister
      { s with reregistrationNeeded := false, registeredEvent := false, registration := .sending }
      { sent := [s.registrationMessage] }

theorem stepTask_cases {ev : Event} {out : Output} (hstep : s.stepTask ev = some (s', out)) :
    TaskStep s ev s' out := by
  cases ev with
  | stop => cases hstep; exact .plain (by simp) ⟨rfl, rfl, rfl, rfl, rfl, rfl⟩ (fun _ => rfl)
  | cancel => cases hstep; exact .plain (by simp) ⟨rfl, rfl, rfl, rfl, rfl, rfl⟩ (fun _ => rfl)
  | pollTimeout =>
    obtain ⟨-, hstep⟩ := Option.ite_none_right_eq_some.1 hstep
    cases hstep; exact .disconnected
  | receive msg raises =>
    obtain ⟨-, hstep⟩ := Option.ite_none_right_eq_some.1 hstep
    cases hstep; exact .received msg raises
  | register =>
    obtain ⟨-, hstep⟩ := Option.ite_none_right_eq_some.1 hstep
    unfold register at hstep
    split at hstep <;> cases hstep <;> exact .plain (by simp) ⟨rfl, rfl, rfl, rfl, rfl, rfl⟩ (fun _ => rfl)
  | registrationSent =>
    obtain ⟨-, hstep⟩ := Option.ite_none_right_eq_some.1 hstep
    cases hstep; exact .plain (by simp) ⟨rfl, rfl, rfl, rfl, rfl, rfl⟩ (fun _ => rfl)
  | retry =>
    obtain ⟨-, hstep⟩ := Option.ite_none_right_eq_some.1 hstep
    cases hstep; exact .plain (by simp) ⟨rfl, rfl, rfl, rfl, rfl, rfl⟩ (fun _ => rfl)
  | acknowledged =>
    obtain ⟨-, hstep⟩ := Option.ite_none_right_eq_some.1 hstep
    unfold acknowledge at hstep
    split at hstep
    · cases hstep; exact .plain (by simp) ⟨rfl, rfl, rfl, rfl, rfl, rfl⟩ (fun _ => rfl)
    · obtain ⟨-, hstep⟩ := Option.ite_none_right_eq_some.1 hstep
      cases hstep; exact .plain (by simp) ⟨rfl, rfl, rfl, rfl, rfl, rfl⟩ (fun _ => rfl)
  | reregister =>
    obtain ⟨-, hstep⟩ := Option.ite_none_right_eq_some.1 hstep
    unfold reregister at hstep
    split at hstep
    · cases hstep; exact .plain (by simp) ⟨rfl, rfl, rfl, rfl, rfl, rfl⟩ (fun _ => rfl)
    · rename_i hrunning
      obtain ⟨-, hstep⟩ := Option.ite_none_right_eq_some.1 hstep
      rw [register, if_pos (by simpa using hrunning)] at hstep
      cases hstep; exact .reregistered
  | heartbeat recent =>
    obtain ⟨-, hstep⟩ := Option.ite_none_right_eq_some.1 hstep
    simp only [heartbeat] at hstep
    split at hstep <;> cases hstep <;> exact .plain (by simp) ⟨rfl, rfl, rfl, rfl, rfl, rfl⟩ (fun _ => rfl)
  | _ => cases hstep

/-- What a step of the client can do. -/
inductive Step (s : State) (ev : Event) (s' : State) (out : Output) : Prop
  | producer {p : String} {producer : Producer} (hev : ev.producer = some p)
      (hproducer : s.producers p = some producer) (h : ProducerStep s p producer s' out)
  | task (hev : ev.producer = none) (h : TaskStep s ev s' out)

theorem step_cases {ev : Event} {out : Output} (hstep : s.step ev = some (s', out)) : Step s ev s' out := by
  unfold step at hstep
  split at hstep
  · split at hstep
    · rename_i p hev
      obtain ⟨producer, hproducer, hstep⟩ := Option.bind_eq_some_iff.1 hstep
      exact .producer hev hproducer (stepProducer_moves hstep).step
    · exact .task ‹_› (stepTask_cases hstep)
  · cases hstep

end State

end Gabriel.ZeroMQClient
