import Gabriel.Client.GoPools
import Mathlib.Algebra.Order.BigOperators.Group.List
import Mathlib.Algebra.Order.Ring.Nat

/-!
# The end of a session of the Go client

When `consumerHandler` has returned, `runSession` waits for the other handlers.  The ways in which it returns are those
of `Recv` and of its own check of the context; `State.orderly` says what has to hold then: the client is connected, its
producers are running, and `Recv` gives the status `Canceled` only if the context is done.  Every handler that has not
returned can then go on without a message of the server and without a call of the application, and each of its steps
brings it nearer to its return (`HandlerStep.rank_lt`).
-/

namespace Gabriel.GoClient

/-- The steps that need no message of the server, no call of the application and no frame of a producer.  The streams
of the producers are opened with the context of the session, so that a call on them returns with an error when the
context is done; the control stream is not, but a `Send` on it returns in any case. -/
def Action.unaided : Action → Bool
  | .handler _ (.openStream ok) | .handler _ (.send ok) => !ok
  | .handler _ (.produce _) => false
  | .handler _ _ => true
  | .consumer (.receive _) | .consumer (.recvError _) => false
  | .consumer _ => true
  | .registration _ => true
  | .user _ => false
  | .launch (.connect _) => false
  | .launch _ => true

/-! ### Handlers that return -/

theorem HandlerStep.rank_lt {view : View} {P P' : Producer} {o : Outcome} (h : HandlerStep view P P' o)
    (hdone : view.ctxDone = true) (ho : o ≠ .panic) : P'.pc.rank < P.pc.rank := by
  cases h with
  | moved hmoves _ => exact hmoves.rank_lt hdone
  | fetched hpc => simp [hpc, HandlerPc.rank]
  | acquired hpc _ _ => simp [hpc, HandlerPc.rank]
  | skipped hpc _ _ => simp [hpc, HandlerPc.rank]
  | sent hpc _ => simp [hpc, HandlerPc.rank]
  | nilPool | overReleased => exact absurd rfl ho

theorem HandlerStep.running_eq {view : View} {P P' : Producer} {o : Outcome} (h : HandlerStep view P P' o) :
    P'.running = P.running := by
  cases h with
  | acquired _ _ hget =>
    obtain ⟨_, _, rfl⟩ := Producer.getToken_cases hget
    rfl
  | skipped _ _ hret =>
    obtain ⟨_, _, rfl⟩ := Producer.returnToken_cases hret
    rfl
  | moved | fetched | sent | nilPool | overReleased => rfl

/-- When the context is done, the handler of a running producer of a connected client can go on. -/
theorem Producer.unaided_step {view : View} {P : Producer} (name : String) (hdone : view.ctxDone = true)
    (hconnected : view.connected = true) (hrunning : P.running = true) (hpc : P.pc ≠ .finished) :
    ∃ ev r, (Action.handler name ev).unaided = true ∧ P.stepHandler name view ev = some r := by
  cases h : P.pc with
  | waiting => exact ⟨.connected, _, rfl, by simp only [stepHandler, h, hconnected]; rfl⟩
  | opening => exact ⟨.openStream false, _, rfl, by simp only [stepHandler, h]; rfl⟩
  | fetching => exact ⟨.fetch, _, rfl, by simp only [stepHandler, h]; rfl⟩
  | looping => exact ⟨.checkContext, _, rfl, by simp only [stepHandler, h]; rfl⟩
  | checking => exact ⟨.checkRunning, _, rfl, by simp only [stepHandler, h]; rfl⟩
  | pausing => exact ⟨.resumed, _, rfl, by simp only [stepHandler, h, hrunning]; rfl⟩
  | acquiring => exact ⟨.done, _, rfl, by simp only [stepHandler, h, hdone]; rfl⟩
  | producing => exact ⟨.done, _, rfl, by simp only [stepHandler, h, hdone]; rfl⟩
  | sending input => exact ⟨.send false, _, rfl, by simp only [stepHandler, h]; rfl⟩
  | finished => exact absurd h hpc

namespace State

variable {s s' : State} {a : Action}

/-- The client is connected and no producer is paused. -/
def settled (s : State) : Prop := s.connected = true ∧ ∀ name ∈ s.names, (s.producers name).running = true

instance (s : State) : Decidable s.settled := inferInstanceAs (Decidable (_ ∧ _))

/-- `consumerHandler` returns only when a `Registered` message has been processed and no producer is paused, no producer
is paused between that and the end of the session, and `Recv` gives the status `Canceled` only if the context is
done. -/
def orderly (s : State) : Action → Prop
  | .consumer .checkContext => s.ctxDone = true → s.settled
  | .consumer (.recvError err) => s.settled ∧ (err = .canceled → s.ctxDone = true)
  | .user (.pause _) => s.launch = .session → s.consumer ≠ .finished
  | _ => True

instance (s : State) : DecidablePred s.orderly
  | .consumer .checkContext => inferInstanceAs (Decidable (_ → _))
  | .consumer (.recvError _) => inferInstanceAs (Decidable (_ ∧ _))
  | .user (.pause _) => inferInstanceAs (Decidable (_ → _))
  | .consumer (.receive _) | .consumer .register | .handler _ _ | .registration _ | .user (.resume _)
  | .user (.changeTargetEngines _ _) | .user .cancel | .launch _ => .isTrue trivial

/-- What holds when `consumerHandler` has returned. -/
structure Ended (s : State) : Prop where
  ctxDone : s.ctxDone = true
  settled : s.settled
  panicked : s.panicked = false

namespace Ended

private theorem setProducer {name : String} {P : Producer} (h : s.Ended)
    (hP : name ∈ s.names → P.running = true) : (s.setProducer name P).Ended := by
  refine ⟨h.ctxDone, ⟨h.settled.1, fun name' hname' => ?_⟩, h.panicked⟩
  by_cases hname : name' = name
  · subst hname
    simpa using hP hname'
  · simpa [hname] using h.settled.2 name' hname'

private theorem report {o : Outcome} (h : s.Ended) (ho : o ≠ .panic) : (s.report o).Ended := by
  refine ⟨report_ctxDone _ _ h.ctxDone, ⟨?_, ?_⟩, ?_⟩
  · simpa using h.settled.1
  · simpa using h.settled.2
  · rw [report_panicked _ ho]
    exact h.panicked

private theorem user {ev : UserEvent} (h : s.Ended) (hev : ∀ name, ev ≠ .pause name) : (s.stepUser ev).Ended := by
  cases ev with
  | pause name => exact absurd rfl (hev name)
  | resume name => exact h.setProducer fun _ => rfl
  | changeTargetEngines name ids => exact h.setProducer (h.settled.2 name)
  | cancel => exact ⟨by simp [stepUser, State.ctxDone], h.settled, h.panicked⟩

end Ended

theorem Step.ended (h : Step s a s') (horderly : s.orderly a) (hpanicked : s.panicked = false)
    (haccounted : ∀ name, (s.producers name).Accounted) (hready : s.Ready)
    (hs : s.launch = .session → s.consumer = .finished → s.Ended) :
    s'.launch = .session → s'.consumer = .finished → s'.Ended := by
  intro hlaunch' hconsumer'
  cases h with
  | @handler name _ P o hlaunch hname hstep =>
    have hended := hs hlaunch (by simpa using hconsumer')
    have hrunning := hended.settled.2 name hname
    exact (hended.setProducer fun _ => hstep.running_eq.trans hrunning).report
      (hstep.ne_panic (haccounted name) (hready.inLoop name))
  | checked hlaunch hpc =>
    by_cases hdone : s.ctxDone = true
    · exact ⟨hdone, horderly hdone, hpanicked⟩
    · simp [hdone] at hconsumer'
  | @recvError err o hlaunch hpc ho =>
    obtain ⟨hsettled, hcanceled⟩ := horderly
    rcases ho with ⟨rfl, rfl⟩ | ⟨-, rfl⟩
    · exact ⟨hcanceled rfl, hsettled, hpanicked⟩
    · exact ⟨rfl, hsettled, hpanicked⟩
  | registration hlaunch _ ho =>
    have hended := hs hlaunch (by simpa using hconsumer')
    exact Ended.report ⟨hended.ctxDone, hended.settled, hended.panicked⟩ ho
  | user ev =>
    have hframe : (s.stepUser ev).launch = s.launch ∧ (s.stepUser ev).consumer = s.consumer := by
      cases ev <;> exact ⟨rfl, rfl⟩
    rw [hframe.1] at hlaunch'
    rw [hframe.2] at hconsumer'
    refine (hs hlaunch' hconsumer').user ?_
    rintro name rfl
    exact horderly hlaunch' hconsumer'
  | overReleased _ hpc => exact nomatch hpc.symm.trans hconsumer'
  | outside hlaunch => exact absurd hlaunch' hlaunch
  | read | registered | returned | newPool | connected | newSession => cases hconsumer'

end State

theorem run_ended {settings : Settings} {as : List Action} {s : State}
    (h : settings.machine.RunWhere State.orderly as s) :
    s.launch = .session → s.consumer = .finished → s.Ended := by
  refine h.invariant_of (I := fun s => s.launch = .session → s.consumer = .finished → s.Ended)
    (J := fun s => (∀ name, (s.producers name).Accounted) ∧ s.Ready)
    (fun h => ⟨run_accounted h, run_ready h⟩) (fun _ h => (nomatch h)) ?_
  intro s a s' hJ hs horderly hstep
  obtain ⟨hpanicked, hstep⟩ := State.step_cases hstep
  exact hstep.ended horderly hpanicked hJ.1 hJ.2 hs

/-! ### The return of `runSession` -/

namespace State

variable {s s' : State} {a : Action}

/-- A bound on the steps of the handlers that have not returned. -/
def rank (s : State) : Nat := s.registration.rank + (s.names.map fun name => (s.producers name).pc.rank).sum

theorem Ended.handler_step {name : String} (h : s.Ended) (hlaunch : s.launch = .session) (hname : name ∈ s.names)
    (hpc : (s.producers name).pc ≠ .finished) :
    ∃ ev s', (Action.handler name ev).unaided = true ∧ s.step (.handler name ev) = some s' := by
  obtain ⟨ev, r, hunaided, hr⟩ := Producer.unaided_step name (show s.view.ctxDone = true from h.ctxDone)
    h.settled.1 (h.settled.2 name hname) hpc
  refine ⟨ev, (s.setProducer name r.1).report r.2, hunaided, ?_⟩
  simp [step, h.panicked, hlaunch, hname, stepHandler, hr]

theorem Ended.registration_step (h : s.Ended) (hlaunch : s.launch = .session) (hpc : s.registration ≠ .finished) :
    ∃ ev s', (Action.registration ev).unaided = true ∧ s.step (.registration ev) = some s' := by
  cases hr : s.registration with
  | sending =>
    refine ⟨.send false, { s with registration := .finished }.report .disconnected, rfl, ?_⟩
    simp [step, h.panicked, hlaunch, stepRegistration, hr]
  | ticking =>
    refine ⟨.done, { s with registration := .finished }, rfl, ?_⟩
    simp [step, h.panicked, hlaunch, stepRegistration, hr, h.ctxDone]
  | finished => exact absurd hr hpc

/-- Every step of a handler brings the handlers nearer to their return. -/
theorem Ended.handler_rank {name : String} {ev : HandlerEvent} (h : s.Ended) (hready : s.Ready)
    (haccounted : ∀ name, (s.producers name).Accounted) (hstep : Step s (.handler name ev) s') :
    s'.rank < s.rank ∧ s'.launch = s.launch ∧ s'.consumer = s.consumer := by
  cases hstep with
  | handler hlaunch hname hstep =>
    refine ⟨?_, by simp, by simp⟩
    have hlt := hstep.rank_lt h.ctxDone (hstep.ne_panic (haccounted name) (hready.inLoop name))
    have hsum : ∀ P : Producer, P.pc.rank < (s.producers name).pc.rank →
        (s.names.map fun name' => (Function.update s.producers name P name').pc.rank).sum <
          (s.names.map fun name' => (s.producers name').pc.rank).sum := by
      intro P hP
      refine List.sum_lt_sum _ _ (fun name' _ => ?_) ⟨name, hname, by simpa using hP⟩
      by_cases hname' : name' = name
      · subst hname'
        simpa using hP.le
      · simp [hname']
    simpa [rank] using hsum _ hlt

theorem Ended.registration_rank {ev : RegistrationEvent} (h : s.Ended) (hstep : Step s (.registration ev) s') :
    s'.rank < s.rank ∧ s'.launch = s.launch ∧ s'.consumer = s.consumer := by
  cases hstep with
  | registration hlaunch hrank ho =>
    refine ⟨?_, by simp, by simp⟩
    simpa [rank] using hrank h.settled.1

end State

/-- A session that has ended but for some handlers: they return, and `runSession` does. -/
private theorem session_returns {settings : Settings} {as : List Action} {s : State}
    (h : settings.machine.RunWhere State.orderly as s) (hlaunch : s.launch = .session)
    (hconsumer : s.consumer = .finished) :
    ∃ as' s', (∀ a ∈ as', a.unaided = true) ∧ settings.machine.exec s as' = some s' ∧ s'.launch ≠ .session := by
  refine Machine.exists_exec (I := fun s => (∃ as, settings.machine.RunWhere State.orderly as s) ∧
    s.launch = .session ∧ s.consumer = .finished) State.rank ?_ ⟨⟨as, h⟩, hlaunch, hconsumer⟩
  rintro s ⟨⟨as, h⟩, hlaunch, hconsumer⟩
  have hended := run_ended h hlaunch hconsumer
  -- a producer handler goes on, or else the registration handler, or else all handlers have returned
  by_cases hhandlers : ∀ name ∈ s.names, (s.producers name).pc = .finished
  · by_cases hregistration : s.registration = .finished
    · have hfinished : s.allFinished := ⟨hconsumer, hregistration, hhandlers⟩
      have hstep : s.step (.launch .endSession) = some s.endSession := by
        simp [State.step, hended.panicked, State.stepLaunch, hlaunch, hfinished]
      refine ⟨.launch .endSession, s.endSession, rfl, hstep, Or.inl ?_⟩
      unfold State.endSession
      split <;> simp [State.stop]
    · obtain ⟨ev, s', hunaided, hstep⟩ := hended.registration_step hlaunch hregistration
      obtain ⟨hrank, hlaunch', hconsumer'⟩ := hended.registration_rank (State.step_cases hstep).2
      have hrun := h.step (show s.orderly (.registration ev) from trivial) hstep
      refine ⟨_, s', hunaided, hstep, Or.inr ⟨⟨⟨_, hrun⟩, ?_, ?_⟩, hrank⟩⟩
      · rw [hlaunch', hlaunch]
      · rw [hconsumer', hconsumer]
  · obtain ⟨name, hname, hpc⟩ : ∃ name ∈ s.names, (s.producers name).pc ≠ .finished := by
      simpa using hhandlers
    obtain ⟨ev, s', hunaided, hstep⟩ := hended.handler_step hlaunch hname hpc
    obtain ⟨hrank, hlaunch', hconsumer'⟩ :=
      hended.handler_rank (run_ready h) (run_accounted h) (State.step_cases hstep).2
    have hrun := h.step (show s.orderly (.handler name ev) from trivial) hstep
    refine ⟨_, s', hunaided, hstep, Or.inr ⟨⟨⟨_, hrun⟩, ?_, ?_⟩, hrank⟩⟩
    · rw [hlaunch', hlaunch]
    · rw [hconsumer', hconsumer]

/-- In every orderly run, when `consumerHandler` has returned the context of the session is done, every handler that has
not returned can make a step without a message of the server and without a call of the application, and by such steps
`runSession` returns to the loop of `Launch`. -/
theorem lost_session_torn_down {settings : Settings} {as : List Action} {s : State}
    (h : settings.machine.RunWhere State.orderly as s) (hlaunch : s.launch = .session)
    (hconsumer : s.consumer = .finished) :
    s.ctxDone = true ∧
    (s.registration ≠ .finished →
      ∃ ev s', (Action.registration ev).unaided = true ∧ s.step (.registration ev) = some s') ∧
    (∀ name ∈ s.names, (s.producers name).pc ≠ .finished →
      ∃ ev s', (Action.handler name ev).unaided = true ∧ s.step (.handler name ev) = some s') ∧
    ∃ as' s', (∀ a ∈ as', a.unaided = true) ∧ settings.machine.exec s as' = some s' ∧ s'.launch ≠ .session := by
  have hended := run_ended h hlaunch hconsumer
  exact ⟨hended.ctxDone, hended.registration_step hlaunch, fun name hname => hended.handler_step hlaunch hname,
    session_returns h hlaunch hconsumer⟩

/-- The server closes the stream of a client whose producer has just sent an input: the handlers return, and the client
reconnects. -/
theorem lost_session_torn_down_of_eof :
    ∃ as s, Settings.oneProducer.machine.RunWhere State.orderly as s ∧ s.launch = .session ∧
      s.consumer = .finished ∧ s.registration = .ticking ∧ (s.producers "P").pc = .looping ∧
      ∃ as' s', (∀ a ∈ as', a.unaided = true) ∧ Settings.oneProducer.machine.exec s as' = some s' ∧
        s'.launch ≠ .session := by
  obtain ⟨s, hrun, hlaunch, hconsumer, hrest⟩ := Machine.exists_runWhere (M := Settings.oneProducer.machine)
    (G := State.orderly) (g := fun s a => decide (s.orderly a)) (fun _ _ h => of_decide_eq_true h)
    (fun s => s.launch = .session ∧ s.consumer = .finished ∧ s.registration = .ticking ∧
      (s.producers "P").pc = .looping)
    [.registration (.send true), .consumer .checkContext, .consumer (.receive (.registered 1 {"E"})),
      .consumer .register, .consumer .register, .handler "P" .connected, .handler "P" (.openStream true),
      .handler "P" .fetch, .handler "P" .checkContext, .handler "P" .checkRunning, .handler "P" .getToken,
      .handler "P" (.produce (some { payload := .stringPayload "frame" })), .consumer .checkContext,
      .consumer (.recvError .eof), .handler "P" (.send true)]
    (by decide)
  exact ⟨_, s, hrun, hlaunch, hconsumer, hrest.1, hrest.2, (lost_session_torn_down hrun hlaunch hconsumer).2.2.2⟩

/-- `connectedCond.Wait` and `waitForRunning` do not return when the context is done. -/
private theorem State.handler_blocked {s : State} {name : String}
    (h : (s.producers name).pc = .waiting ∧ s.connected = false ∨
      (s.producers name).pc = .pausing ∧ (s.producers name).running = false) (ev : HandlerEvent) :
    s.step (.handler name ev) = none := by
  have hnone : (s.producers name).stepHandler name s.view ev = none := by
    rcases h with ⟨hpc, hconnected⟩ | ⟨hpc, hrunning⟩
    · have hview : s.view.connected = false := hconnected
      cases ev <;> simp [Producer.stepHandler, hpc, hview]
    · cases ev <;> simp [Producer.stepHandler, hpc, hrunning]
  simp [State.step, State.stepHandler, hnone]

/-- Three ways in which `consumerHandler` returns and the session does not end: `Recv` fails with the status `Canceled`
of the server, which cancels nothing; the stream is lost before the client is registered, when the producer handler
waits to be connected; the stream is lost when the producer handler waits for a paused producer. -/
theorem lost_session_blocked :
    (∃ as s, Settings.oneProducer.machine.Run as s ∧ s.launch = .session ∧ s.consumer = .finished ∧
      s.ctxDone = false) ∧
    (∃ as s, Settings.oneProducer.machine.Run as s ∧ s.launch = .session ∧ s.consumer = .finished ∧
      (s.producers "P").pc = .waiting ∧ ∀ ev, s.step (.handler "P" ev) = none) ∧
    ∃ as s, Settings.oneProducer.machine.Run as s ∧ s.launch = .session ∧ s.consumer = .finished ∧
      (s.producers "P").pc = .pausing ∧ ∀ ev, s.step (.handler "P" ev) = none := by
  refine ⟨?_, ?_, ?_⟩
  · obtain ⟨s, hrun, h⟩ := Machine.exists_run (M := Settings.oneProducer.machine)
      (fun s => s.launch = .session ∧ s.consumer = .finished ∧ s.ctxDone = false)
      [.registration (.send true), .consumer .checkContext, .consumer (.receive (.registered 1 {"E"})),
        .consumer .register, .consumer .register, .consumer .checkContext, .consumer (.recvError .canceled)]
      (by decide)
    exact ⟨_, s, hrun, h⟩
  · obtain ⟨s, hrun, hlaunch, hconsumer, hpc, hconnected⟩ := Machine.exists_run (M := Settings.oneProducer.machine)
      (fun s => s.launch = .session ∧ s.consumer = .finished ∧ (s.producers "P").pc = .waiting ∧ s.connected = false)
      [.registration (.send true), .consumer .checkContext, .consumer (.recvError .eof), .registration .done]
      (by decide)
    exact ⟨_, s, hrun, hlaunch, hconsumer, hpc, State.handler_blocked (Or.inl ⟨hpc, hconnected⟩)⟩
  · obtain ⟨s, hrun, hlaunch, hconsumer, hpc, hrunning⟩ := Machine.exists_run (M := Settings.oneProducer.machine)
      (fun s => s.launch = .session ∧ s.consumer = .finished ∧ (s.producers "P").pc = .pausing ∧
        (s.producers "P").running = false)
      [.registration (.send true), .consumer .checkContext, .consumer (.receive (.registered 1 {"E"})),
        .consumer .register, .consumer .register, .registration .tick, .user (.pause "P"), .handler "P" .connected,
        .handler "P" (.openStream true), .handler "P" .fetch, .handler "P" .checkContext, .handler "P" .checkRunning,
        .consumer .checkContext, .consumer (.recvError .eof)]
      (by decide)
    exact ⟨_, s, hrun, hlaunch, hconsumer, hpc, State.handler_blocked (Or.inr ⟨hpc, hrunning⟩)⟩

end Gabriel.GoClient
