import Gabriel.Client.Go

/-!
# What the steps of the Go client do

One lemma for each kind of handler, and what holds in every run whatever the server sends: the tokens that a handler and
its outstanding inputs hold are taken from the pool that the handler has fetched, and there is such a pool when it looks
for one.  A handler can therefore only be blocked, never panic.
-/

namespace Gabriel.GoClient

namespace HandlerPc

/-- The tokens in the hands of a handler. -/
def held : HandlerPc → Nat
  | .producing => 1
  | _ => 0

/-- The handler has not fetched its pool. -/
def starting : HandlerPc → Bool
  | .waiting | .opening | .fetching => true
  | _ => false

/-- The handler is in its loop. -/
def inLoop : HandlerPc → Bool
  | .looping | .checking | .pausing | .acquiring | .producing | .sending _ => true
  | _ => false

/-- A bound on the steps that the handler makes when its context is done. -/
def rank : HandlerPc → Nat
  | .waiting => 4
  | .opening => 3
  | .fetching => 2
  | .looping => 1
  | .checking => 6
  | .pausing => 5
  | .acquiring => 4
  | .producing => 3
  | .sending _ => 2
  | .finished => 0

end HandlerPc

/-! ### Pools -/

namespace Producer

variable {P P' : Producer} {i j : Nat}

theorem current_eq_some : P.current = some i ↔ P.pools.length = i + 1 := by
  unfold current
  split <;> rename_i h <;> simp [h, eq_comm]

theorem current_eq_none : P.current = none ↔ P.pools = [] := by
  unfold current
  split <;> rename_i h <;> simp [← List.length_eq_zero_iff, h]

/-- A token is taken from the pool `i`. -/
theorem getToken_cases (h : P.getToken i = some P') : ∃ pool, P.pools[i]? = some pool ∧
    P' = { P with pools := P.pools.set i { pool with acquired := pool.acquired + 1 } } := by
  obtain ⟨pool', hpool', rfl⟩ := Option.map_eq_some_iff.1 h
  obtain ⟨pool, hpool, hget⟩ := Option.bind_eq_some_iff.1 hpool'
  obtain ⟨-, hget⟩ := Option.ite_none_right_eq_some.1 hget
  exact ⟨pool, hpool, by rw [Option.some.inj hget]⟩

theorem returnToken_cases (h : P.returnToken i j = some P') : ∃ pool, P.pools[j]? = some pool ∧
    P' = { P with
      pools := P.pools.set j { pool with acquired := pool.acquired - 1 }
      returned := P.returned ++ [⟨i, j⟩] } := by
  obtain ⟨pool', hpool', rfl⟩ := Option.map_eq_some_iff.1 h
  obtain ⟨pool, hpool, hret⟩ := Option.bind_eq_some_iff.1 hpool'
  obtain ⟨-, hret⟩ := Option.ite_none_right_eq_some.1 hret
  exact ⟨pool, hpool, by rw [Option.some.inj hret]⟩

/-- A pool that has given out a token takes one back. -/
theorem returnToken_ne_none {pool : TokenPool} (hpool : P.pools[j]? = some pool) (hpos : 0 < pool.acquired) :
    P.returnToken i j ≠ none := by
  simp [returnToken, hpool, TokenPool.returnToken, hpos]

end Producer

/-! ### The producer handlers -/

/-- The ways of a handler that does not touch a pool. -/
inductive Moves (view : View) : HandlerPc → HandlerPc → Prop
  | connected (h : view.connected = true) : Moves view .waiting .opening
  | opened : Moves view .opening .fetching
  | notOpened : Moves view .opening .finished
  | left : Moves view .looping .finished
  | entered (h : view.ctxDone = false) : Moves view .looping .checking
  | running : Moves view .checking .acquiring
  | paused : Moves view .checking .pausing
  | resumed : Moves view .pausing .acquiring
  | notAcquired : Moves view .acquiring .finished
  | notProduced : Moves view .producing .finished
  | sent (input : Input) : Moves view (.sending input) .looping
  | notSent (input : Input) : Moves view (.sending input) .finished

namespace Moves

variable {view : View} {pc pc' : HandlerPc}

theorem held_le (h : Moves view pc pc') : pc'.held ≤ pc.held := by
  cases h <;> simp [HandlerPc.held]

theorem starting (h : Moves view pc pc') (hs : pc'.starting = true) : pc.starting = true := by
  cases h <;> simp_all [HandlerPc.starting]

theorem inLoop (h : Moves view pc pc') (hl : pc'.inLoop = true) : pc.inLoop = true := by
  cases h <;> simp_all [HandlerPc.inLoop]

theorem rank_lt (h : Moves view pc pc') (hdone : view.ctxDone = true) : pc'.rank < pc.rank := by
  cases h <;> simp_all [HandlerPc.rank]

theorem connected_of_waiting (h : Moves view pc pc') (hpc : pc = .waiting) : view.connected = true := by
  cases h <;> first | assumption | cases hpc

end Moves

/-- What a step of the `producerHandler` of `P` can do. -/
inductive HandlerStep (view : View) (P : Producer) : Producer → Outcome → Prop
  /-- The handler goes on without touching a pool, or returns. -/
  | moved {pc : HandlerPc} {frameId : Int} {o : Outcome} (hmoves : Moves view P.pc pc) (ho : o ≠ .panic) :
      HandlerStep view P
        { P with
          pc := pc
          frameId := frameId } o
  | fetched (hpc : P.pc = .fetching) :
      HandlerStep view P
        { P with
          pc := .looping
          tokenPool := P.current
          frameId := 1 } .quiet
  | acquired {P' : Producer} {i : Nat} (hpc : P.pc = .acquiring) (hpool : P.tokenPool = some i)
      (hget : P.getToken i = some P') : HandlerStep view P { P' with pc := .producing } .quiet
  | skipped {P' : Producer} {i : Nat} (hpc : P.pc = .producing) (hpool : P.tokenPool = some i)
      (hret : P.returnToken i i = some P') : HandlerStep view P { P' with pc := .looping } .quiet
  | sent {i : Nat} {input : Input} (hpc : P.pc = .producing) (hpool : P.tokenPool = some i) :
      HandlerStep view P
        { P with
          pc := .sending input
          frameId := P.frameId + 1
          outstanding := P.outstanding ++ [⟨P.frameId, i⟩] } .quiet
  | nilPool (hpc : P.pc.inLoop = true) (hpool : P.tokenPool = none) : HandlerStep view P P .panic
  | overReleased {i : Nat} (hpc : P.pc = .producing) (hpool : P.tokenPool = some i)
      (hret : P.returnToken i i = none) : HandlerStep view P P .panic

namespace Producer

variable {P P' : Producer} {view : View} {name : String} {o : Outcome}

/-- A move that leaves the frame id as it is. -/
private theorem moved {pc pc' : HandlerPc} (hpc : P.pc = pc) (hmoves : Moves view pc pc') (ho : o ≠ .panic) :
    HandlerStep view P { P with pc := pc' } o :=
  .moved (hpc ▸ hmoves) ho

private theorem skip_cases {i : Nat} (hpc : P.pc = .producing) (hpool : P.tokenPool = some i) :
    HandlerStep view P (P.skip i).1 (P.skip i).2 := by
  unfold skip
  split
  · exact .overReleased hpc hpool ‹_›
  · exact .skipped hpc hpool ‹_›

private theorem produce_cases {i : Nat} (hpc : P.pc = .producing) (hpool : P.tokenPool = some i)
    (frame : Option InputFrame) :
    HandlerStep view P (P.produce name view.engineIds i frame).1 (P.produce name view.engineIds i frame).2 := by
  unfold produce
  split
  · exact skip_cases hpc hpool
  · split
    · exact skip_cases hpc hpool
    · split
      · exact .moved (hpc ▸ .notProduced) (by simp)
      · exact .sent hpc hpool

theorem stepHandler_cases {ev : HandlerEvent} (h : P.stepHandler name view ev = some (P', o)) :
    HandlerStep view P P' o := by
  unfold stepHandler at h
  split at h <;> rename_i hpc
  · obtain ⟨hconnected, h⟩ := Option.ite_none_right_eq_some.1 h
    cases h
    exact moved hpc (.connected hconnected) (by simp)
  · split at h <;> cases h
    · exact moved hpc .opened (by simp)
    · exact moved hpc .notOpened (by simp)
  · cases h
    exact .fetched hpc
  · cases h
    split
    · exact moved hpc .left (by simp)
    · rename_i hdone
      exact moved hpc (.entered (Bool.eq_false_of_not_eq_true hdone)) (by simp)
  · cases h
    split
    · exact moved hpc .running (by simp)
    · exact moved hpc .paused (by simp)
  · obtain ⟨-, h⟩ := Option.ite_none_right_eq_some.1 h
    cases h
    exact moved hpc .resumed (by simp)
  · split at h <;> rename_i hpool
    · cases h
      exact .nilPool (by simp [hpc, HandlerPc.inLoop]) hpool
    · obtain ⟨P₁, hget, heq⟩ := Option.map_eq_some_iff.1 h
      cases heq
      exact .acquired hpc hpool hget
  · obtain ⟨-, h⟩ := Option.ite_none_right_eq_some.1 h
    cases h
    exact moved hpc .notAcquired (by simp)
  · obtain ⟨-, h⟩ := Option.ite_none_right_eq_some.1 h
    cases h
    exact moved hpc .notProduced (by simp)
  · split at h <;> rename_i hpool
    · cases h
      exact .nilPool (by simp [hpc, HandlerPc.inLoop]) hpool
    · have heq := Option.some.inj h
      have hstep := @produce_cases P view name _ hpc hpool ‹_›
      rw [heq] at hstep
      exact hstep
  · split at h <;> cases h
    · exact moved hpc (.sent _) (by simp)
    · exact moved hpc (.notSent _) (by simp)
  · cases h

end Producer

/-! ### The client -/

/-- A bound on the steps that `registrationHandler` makes when the client is connected and the context is done. -/
def RegistrationPc.rank : RegistrationPc → Nat
  | .sending => 2
  | .ticking => 1
  | .finished => 0

namespace State

variable {s s' : State} {a : Action}

section Fields

variable (s : State) (name : String) (producer : Producer) (o : Outcome)

@[simp] theorem setProducer_producers :
    (s.setProducer name producer).producers = Function.update s.producers name producer := rfl
@[simp] theorem setProducer_names : (s.setProducer name producer).names = s.names := rfl
@[simp] theorem setProducer_consumer : (s.setProducer name producer).consumer = s.consumer := rfl
@[simp] theorem setProducer_registration : (s.setProducer name producer).registration = s.registration := rfl
@[simp] theorem setProducer_launch : (s.setProducer name producer).launch = s.launch := rfl
@[simp] theorem setProducer_connected : (s.setProducer name producer).connected = s.connected := rfl
@[simp] theorem setProducer_panicked : (s.setProducer name producer).panicked = s.panicked := rfl
@[simp] theorem setProducer_ctxDone : (s.setProducer name producer).ctxDone = s.ctxDone := rfl
@[simp] theorem report_producers : (s.report o).producers = s.producers := by cases o <;> rfl
@[simp] theorem report_names : (s.report o).names = s.names := by cases o <;> rfl
@[simp] theorem report_consumer : (s.report o).consumer = s.consumer := by cases o <;> rfl
@[simp] theorem report_registration : (s.report o).registration = s.registration := by cases o <;> rfl
@[simp] theorem report_launch : (s.report o).launch = s.launch := by cases o <;> rfl
@[simp] theorem report_connected : (s.report o).connected = s.connected := by cases o <;> rfl

theorem report_panicked {o : Outcome} (ho : o ≠ .panic) : (s.report o).panicked = s.panicked := by
  cases o <;> first | rfl | exact absurd rfl ho

theorem report_ctxDone (h : s.ctxDone = true) : (s.report o).ctxDone = true := by
  cases o <;> simp_all [report, ctxDone]

end Fields

/-- What a step of the client can do. -/
inductive Step (s : State) : Action → State → Prop
  | handler {name : String} {ev : HandlerEvent} {P : Producer} {o : Outcome} (hlaunch : s.launch = .session)
      (hname : name ∈ s.names) (hstep : HandlerStep s.view (s.producers name) P o) :
      Step s (.handler name ev) ((s.setProducer name P).report o)
  | checked (hlaunch : s.launch = .session) (hpc : s.consumer = .looping) :
      Step s (.consumer .checkContext) { s with consumer := if s.ctxDone then .finished else .receiving }
  /-- A message other than a `Registered` that does not lead to a `ReturnToken`. -/
  | read {msg : ToClient} {engineIds : Finset String} (hlaunch : s.launch = .session) (hpc : s.consumer = .receiving) :
      Step s (.consumer (.receive msg))
        { s with
          engineIds := engineIds
          consumer := .looping }
  | registered {msg : ToClient} {n : Nat} {engineIds : Finset String} (hlaunch : s.launch = .session)
      (hpc : s.consumer = .receiving) :
      Step s (.consumer (.receive msg))
        { s with
          numTokensPerProducer := n
          engineIds := engineIds
          consumer := .registering s.names }
  | returned {msg : ToClient} {name : String} {sent : Sent} {i : Nat} {P : Producer} (hlaunch : s.launch = .session)
      (hpc : s.consumer = .receiving) (hcurrent : (s.producers name).current = some i)
      (hsent : sent ∈ (s.producers name).outstanding)
      (hret : (s.producers name).returnToken sent.pool i = some P) :
      Step s (.consumer (.receive msg))
        { s.setProducer name { P with outstanding := P.outstanding.erase sent } with consumer := .looping }
  | overReleased {msg : ToClient} {name : String} {sent : Sent} {i : Nat} (hlaunch : s.launch = .session)
      (hpc : s.consumer = .receiving) (hcurrent : (s.producers name).current = some i)
      (hsent : sent ∈ (s.producers name).outstanding)
      (hret : (s.producers name).returnToken sent.pool i = none) :
      Step s (.consumer (.receive msg)) { s with panicked := true }
  | recvError {err : RecvError} {o : Outcome} (hlaunch : s.launch = .session) (hpc : s.consumer = .receiving)
      (ho : err = .canceled ∧ o = .quiet ∨ err ≠ .canceled ∧ o = .disconnected) :
      Step s (.consumer (.recvError err)) ({ s with consumer := .finished }.report o)
  | newPool {name : String} {todo : List String} (hlaunch : s.launch = .session)
      (hpc : s.consumer = .registering (name :: todo)) :
      Step s (.consumer .register)
        { s.setProducer name ((s.producers name).newPool s.numTokensPerProducer) with consumer := .registering todo }
  | connected (hlaunch : s.launch = .session) (hpc : s.consumer = .registering []) :
      Step s (.consumer .register)
        { s with
          connected := true
          consumer := .looping }
  | registration {ev : RegistrationEvent} {pc : RegistrationPc} {o : Outcome} (hlaunch : s.launch = .session)
      (hrank : s.connected = true → pc.rank < s.registration.rank) (ho : o ≠ .panic) :
      Step s (.registration ev) ({ s with registration := pc }.report o)
  | user (ev : UserEvent) : Step s (.user ev) (s.stepUser ev)
  /-- `Launch` goes on outside a session. -/
  | outside {ev : LaunchEvent} {launch : LaunchPc} {sessCancelled launchCancelled : Bool}
      (hlaunch : launch ≠ .session) :
      Step s (.launch ev)
        { s with
          launch := launch
          sessCancelled := sessCancelled
          launchCancelled := launchCancelled }
  | newSession {ev : LaunchEvent} : Step s (.launch ev) s.newSession

private theorem returnToken_step {msg : ToClient} {name : String} {frameId : Int} (hlaunch : s.launch = .session)
    (hpc : s.consumer = .receiving) (h : s.returnToken name frameId = some s') :
    Step s (.consumer (.receive msg)) s' := by
  unfold returnToken at h
  split at h
  · cases h
    exact .read hlaunch hpc
  · rename_i hcurrent
    obtain ⟨sent, hfind, heq⟩ := Option.map_eq_some_iff.1 h
    have hsent := List.mem_of_find?_eq_some hfind
    subst heq
    split
    · exact .overReleased hlaunch hpc hcurrent hsent ‹_›
    · exact .returned hlaunch hpc hcurrent hsent ‹_›

private theorem receive_cases {msg : ToClient} (hlaunch : s.launch = .session) (hpc : s.consumer = .receiving)
    (h : s.receive msg = some s') : Step s (.consumer (.receive msg)) s' := by
  unfold receive at h
  split at h
  · cases h
    exact .registered hlaunch hpc
  · split at h
    · exact returnToken_step hlaunch hpc h
    · cases h
      exact .read hlaunch hpc
  · cases h
    exact .read hlaunch hpc

private theorem stepConsumer_cases {ev : ConsumerEvent} (hlaunch : s.launch = .session)
    (h : s.stepConsumer ev = some s') : Step s (.consumer ev) s' := by
  unfold stepConsumer at h
  split at h <;> rename_i hpc
  · cases h
    exact .checked hlaunch hpc
  · exact receive_cases hlaunch hpc h
  · cases h
    refine .recvError hlaunch hpc ?_
    split <;> simp
  · cases h
    exact .newPool hlaunch hpc
  · cases h
    exact .connected hlaunch hpc
  · cases h

private theorem stepRegistration_cases {ev : RegistrationEvent} (hlaunch : s.launch = .session)
    (h : s.stepRegistration ev = some s') : Step s (.registration ev) s' := by
  have hquiet : ∀ {pc : RegistrationPc}, (s.connected = true → pc.rank < s.registration.rank) →
      Step s (.registration ev) { s with registration := pc } := fun hrank =>
    .registration (o := .quiet) hlaunch hrank (by simp)
  unfold stepRegistration at h
  split at h <;> rename_i hpc
  · split at h <;> cases h
    · exact hquiet (by simp [hpc, RegistrationPc.rank])
    · exact .registration hlaunch (by simp [hpc, RegistrationPc.rank]) (by simp)
  · cases h
    refine hquiet fun hconnected => ?_
    simp [hconnected, hpc, RegistrationPc.rank]
  · obtain ⟨-, h⟩ := Option.ite_none_right_eq_some.1 h
    cases h
    exact hquiet (by simp [hpc, RegistrationPc.rank])
  · cases h

private theorem stepLaunch_cases {ev : LaunchEvent} (h : s.stepLaunch ev = some s') : Step s (.launch ev) s' := by
  unfold stepLaunch at h
  split at h <;> rename_i hlaunch
  · obtain ⟨-, h⟩ := Option.ite_none_right_eq_some.1 h
    cases h
    unfold endSession
    split
    · exact .outside (by simp)
    · exact .outside (by simp)
  · split at h <;> cases h
    · exact .newSession
    · exact .outside (by simp [hlaunch])
  · obtain ⟨-, h⟩ := Option.ite_none_right_eq_some.1 h
    cases h
    exact .outside (by simp)
  · cases h

theorem step_cases (h : s.step a = some s') : s.panicked = false ∧ Step s a s' := by
  unfold step at h
  obtain ⟨hpanicked, h⟩ := Option.ite_none_left_eq_some.1 h
  refine ⟨Bool.eq_false_of_not_eq_true hpanicked, ?_⟩
  split at h
  · obtain ⟨⟨hlaunch, hname⟩, h⟩ := Option.ite_none_right_eq_some.1 h
    obtain ⟨⟨P, o⟩, hP, rfl⟩ := Option.map_eq_some_iff.1 h
    exact .handler hlaunch hname (Producer.stepHandler_cases hP)
  · obtain ⟨hlaunch, h⟩ := Option.ite_none_right_eq_some.1 h
    exact stepConsumer_cases hlaunch h
  · obtain ⟨hlaunch, h⟩ := Option.ite_none_right_eq_some.1 h
    exact stepRegistration_cases hlaunch h
  · cases h
    exact .user _
  · exact stepLaunch_cases h

/-! ### What a step does to one producer -/

/-- What a step `a` can do to the producer `name`. -/
inductive Change (s : State) (a : Action) (name : String) : Producer → Prop
  | same : Change s a name (s.producers name)
  | handler {P : Producer} {o : Outcome} (hname : name ∈ s.names)
      (hstep : HandlerStep s.view (s.producers name) P o) : Change s a name P
  | newPool {todo : List String} (ha : a = .consumer .register) (hpc : s.consumer = .registering (name :: todo)) :
      Change s a name ((s.producers name).newPool s.numTokensPerProducer)
  | answered {sent : Sent} {i : Nat} {P : Producer} (hcurrent : (s.producers name).current = some i)
      (hsent : sent ∈ (s.producers name).outstanding)
      (hret : (s.producers name).returnToken sent.pool i = some P) :
      Change s a name { P with outstanding := P.outstanding.erase sent }
  | user (running : Bool) (targetEngineIds : List String) :
      Change s a name
        { s.producers name with
          running := running
          targetEngineIds := targetEngineIds }
  | restarted : Change s a name (s.producers name).restart

private theorem Change.update {name name' : String} {P : Producer} (h : Change s a name' P) :
    Change s a name ((Function.update s.producers name' P) name) := by
  by_cases hname : name = name'
  · subst hname
    simpa using h
  · rw [Function.update_of_ne hname]
    exact .same

private theorem stepUser_change {name : String} (ev : UserEvent) :
    Change s (.user ev) name ((s.stepUser ev).producers name) := by
  cases ev with
  | pause name' => exact (Change.user _ _).update
  | resume name' => exact (Change.user _ _).update
  | changeTargetEngines name' ids => exact (Change.user _ _).update
  | cancel => exact .same

theorem Step.change (h : Step s a s') (name : String) : Change s a name (s'.producers name) := by
  cases h with
  | handler _ hname hstep =>
    rw [report_producers]
    exact (Change.handler hname hstep).update
  | returned _ _ hcurrent hsent hret => exact (Change.answered hcurrent hsent hret).update
  | newPool _ hpc => exact (Change.newPool rfl hpc).update
  | user ev => exact stepUser_change ev
  | newSession => exact .restarted
  | recvError _ _ _ =>
    rw [report_producers]
    exact .same
  | registration _ _ _ =>
    rw [report_producers]
    exact .same
  | checked | read | registered | overReleased | connected | outside => exact .same

end State

end Gabriel.GoClient
