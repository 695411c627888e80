import Gabriel.Client.TokenLimit

/-!
# What the steps of the ZeroMQ client do to tokens and loops

A token of a producer is in its pool, in the hands of its loop, or with the server.  Every step moves tokens between
these places, except where a reconnection replaces the semaphores or the client ends (`State.spare_step`).  A loop tests
the flag of its producer at its head, and goes on from there to the call of `produce` (`State.Turn`).
-/

namespace Gabriel.ZeroMQClient

namespace State

/-- Where the loop of `p` is. -/
def pc (s : State) (p : String) : Option ProducerPc := (s.producers p).map Producer.pc

/-- The tokens of `p` in its pool and in the hands of its loop, less those that the pool was made with. -/
def spare (s : State) (p : String) : Int :=
  ((s.tokens p).elim 0 fun pool => (pool.value : Int) - pool.maxTokens) + s.held p

/-- The steps at which a reconnection or the end of the client changes the number of tokens: the semaphores are
replaced, a token of a semaphore that was replaced is dropped, a loop ends with a token in its hands. -/
def replacesTokens (s : State) : Event → Bool
  | .receive _ _ => !s.connected
  | .tokenTimeout p =>
    match s.pc p, s.tokens p with
    | some (.woken sem), some pool => sem ≠ pool.resets
    | _, _ => false
  | .reconnected _ => !s.running
  | _ => false

end State

variable {s s' : State} {p q : String} {ev : Event} {out : Output} {producer : Producer}

namespace State

theorem fail_ended_ne_none (s : State) (err : ClientError) : (s.fail err).ended ≠ none := by
  cases h : s.ended <;> simp [fail, h]

theorem spare_of_same (htokens : s'.tokens q = s.tokens q) (hproducers : s'.producers q = s.producers q) :
    s'.spare q = s.spare q := by
  simp only [spare, held, htokens, hproducers]

theorem spare_goTo (hp : s.producers p = some producer) (pc : ProducerPc) :
    (s.goTo p pc).spare p + producer.pc.held = s.spare p + pc.held := by
  simp only [spare, held, goTo_tokens, goTo_producers, Function.update_self, hp, Option.map_some, Option.getD_some]
  omega

theorem spare_setPool {pool : TokenPool} (hpool : s.tokens p = some pool) (pool' : TokenPool)
    (hmax : pool'.maxTokens = pool.maxTokens) :
    (s.setPool p pool').spare p + pool.value = s.spare p + pool'.value := by
  simp only [spare, held, setPool_tokens, setPool_producers, Function.update_self, hpool, Option.elim_some, hmax]
  omega

/-- A token goes back to its pool, or to the loop that waits for it. -/
theorem spare_returnToken (hok : (s.returnToken p).ended = none) : (s.returnToken p).spare p = s.spare p + 1 := by
  have hr := returnToken_cases s p
  generalize s.returnToken p = s' at hr hok
  cases hr with
  | failed err => exact absurd hok (fail_ended_ne_none s err)
  | @handed pool producer hpool hproducer hpc =>
    have := spare_goTo hproducer (.woken pool.resets)
    simp only [hpc, ProducerPc.held] at this
    omega
  | @stored pool hpool =>
    have := spare_setPool hpool { pool with value := pool.value + 1 } rfl
    simp only at this
    push_cast at this
    omega

/-- The token that was taken for an input goes back. -/
theorem spare_skip (hp : s.producers p = some producer) (hpc : producer.pc = .producing)
    (hok : (s.skip p).ended = none) : (s.skip p).spare p = s.spare p := by
  have hreturn := spare_returnToken (s := s) (p := p) hok
  have hproducer : (s.returnToken p).producers p = some producer := by
    have hr := returnToken_cases s p
    have hok : (s.returnToken p).ended = none := hok
    generalize s.returnToken p = s' at hr hok
    cases hr with
    | failed err => exact absurd hok (fail_ended_ne_none s err)
    | handed _ hproducer hwaiting =>
      rw [hp] at hproducer
      cases hproducer
      cases hpc.symm.trans hwaiting
    | stored => exact hp
  have := spare_goTo hproducer .looping
  simp only [hpc, ProducerPc.held] at this
  rw [skip]
  omega

/-- A token that a wait has already got goes back to its semaphore. -/
theorem spare_givenBack {pool : TokenPool} (hp : s.producers p = some producer)
    (hpc : producer.pc = .woken pool.resets) (hpool : s.tokens p = some pool) :
    (({ s with scheduleHeartbeat := true }.goTo p .looping).setPool p { pool with value := pool.value + 1 }).spare p =
      s.spare p := by
  have hgone := spare_goTo (s := { s with scheduleHeartbeat := true }) hp .looping
  have hsame : { s with scheduleHeartbeat := true }.spare p = s.spare p := rfl
  have hpool' : ({ s with scheduleHeartbeat := true }.goTo p .looping).tokens p = some pool := hpool
  have hstored := spare_setPool hpool' { pool with value := pool.value + 1 } rfl
  simp only [hpc, ProducerPc.held] at hgone hstored
  push_cast at hstored
  omega

theorem spare_stepProducer (hp : s.producers p = some producer)
    (hfresh : producer.pc = .starting → s.tokens p = none) (hev : ev.producer = some p)
    (hstep : s.stepProducer p producer ev = some (s', out)) (hok : s'.ended = none)
    (hkeep : s.replacesTokens ev = false) : s'.spare p + out.sent.countP (Uplink.isInputOf p) = s.spare p := by
  -- the handler goes on without a token, or with the one that it has
  have hmoved : ∀ {pc : ProducerPc}, pc.held = producer.pc.held →
      (s.goTo p pc).spare p + ([] : List Uplink).countP (Uplink.isInputOf p) = s.spare p := by
    intro pc hheld
    have := spare_goTo hp pc
    simp only [List.countP_nil]
    omega
  have hlooping : producer.pc.held = 0 → ({ s with scheduleHeartbeat := true }.goTo p .looping).spare p +
      ([] : List Uplink).countP (Uplink.isInputOf p) = s.spare p := fun hheld => @hmoved .looping hheld.symm
  cases stepProducer_moves hstep with
  | failed err => exact absurd hok (fail_ended_ne_none s err)
  | unstarted hpc => exact hmoved (by simp [hpc, ProducerPc.held])
  | started hpc => simp [spare, held, hp, hpc, hfresh hpc, ProducerPc.held, TokenPool.new]
  | looped wanted paused hpc =>
    refine hmoved ?_
    rw [hpc]
    split
    · split <;> rfl
    · rfl
  | unpaused hpc => exact hmoved (by simp [hpc, ProducerPc.held])
  | @acquired _ pool hpc hpool hpos =>
    have htaken := spare_setPool hpool { pool with value := pool.value - 1 } rfl
    have hwoken := spare_goTo (s := s.setPool p { pool with value := pool.value - 1 }) hp (.woken pool.resets)
    simp only [hpc, ProducerPc.held, List.countP_nil] at hwoken htaken ⊢
    omega
  | waits hpc => exact hmoved (by simp [hpc, ProducerPc.held])
  | timedOut hpc => rcases hpc with hpc | ⟨sem, hpc⟩ <;> exact hlooping (by simp [hpc, ProducerPc.held])
  | givenBack hpc hpool => simpa using spare_givenBack hp hpc hpool
  | dropped hpc hpool hsem =>
    cases hev
    simp [replacesTokens, pc, hp, hpc, hpool, hsem] at hkeep
  | noTargets => exact absurd hok (fail_ended_ne_none _ _)
  | gotToken hpc hpc' => rcases hpc' with rfl | rfl <;> exact hmoved (by simp [hpc, ProducerPc.held])
  | stopped _ hstop => simp [replacesTokens, hstop] at hkeep
  | reconnected hpc => exact hmoved (by simp [hpc, ProducerPc.held])
  | skipped scheduled hpc => simpa [spare, held] using spare_skip hp hpc hok
  | sent input hpc hproducer => simp [spare, held, hp, hpc, ProducerPc.held, Uplink.isInputOf, hproducer]
  | inputSent hpc => exact hmoved (by simp [hpc, ProducerPc.held])

/-- A response returns a token to the producer that it is for. -/
theorem spare_receive {msg : Downlink} {raises : Bool} (hconnected : s.connected = true)
    (hok : (s.receive msg raises).ended = none) (q : String) : (s.receive msg raises).spare q =
      s.spare q + if (Event.receive msg raises).returnsTo = some q then 1 else 0 := by
  rw [receive, noteConnection, if_pos hconnected] at hok ⊢
  have hsame : ∀ {t : State} {consuming : Bool}, { t with consuming := consuming }.spare q = t.spare q := rfl
  rw [hsame]
  cases msg with
  | heartbeat | undecodable => exact (Int.add_zero _).symm
  | message msg =>
    cases msg with
    | registered | engineIdsUpdate => exact (Int.add_zero _).symm
    | resultWrapper w =>
      have hr := processResponse_cases s w raises
      simp only [processMessage] at hok ⊢
      generalize s.processResponse w raises = s' at hr hok
      cases hr with
      | failed err => exact absurd hok (fail_ended_ne_none _ _)
      | returned htoken =>
        by_cases hq : w.producerId = q
        · subst hq
          simp [Event.returnsTo, htoken, spare_returnToken hok]
        · have htouches := touches_returnToken s w.producerId
          rw [spare_of_same (htouches.tokens q (Ne.symm hq)) (htouches.producers q (Ne.symm hq))]
          simp [Event.returnsTo, htoken, hq]
      | kept htoken => simp [Event.returnsTo, htoken]

/-- A loop that waits for the registration has no pool. -/
def Fresh (s : State) : Prop :=
  ∀ p producer, s.producers p = some producer → producer.pc = .starting → s.tokens p = none

theorem Fresh.of_same (h : s.Fresh) (htokens : s'.tokens = s.tokens) (hproducers : s'.producers = s.producers) :
    s'.Fresh := by
  intro p producer hp hpc
  rw [htokens]
  exact h p producer (hproducers ▸ hp) hpc

theorem Fresh.returnToken (h : s.Fresh) (p : String) : (s.returnToken p).Fresh := by
  have hr := returnToken_cases s p
  generalize s.returnToken p = s' at hr
  cases hr with
  | failed => exact h.of_same rfl rfl
  | handed hpool hproducer =>
    intro q producer hq hpc
    by_cases hqp : q = p
    · subst hqp
      simp only [goTo_producers, Function.update_self, hproducer, Option.map_some, Option.some.injEq] at hq
      subst hq
      cases hpc
    · simp only [goTo_producers, Function.update_of_ne hqp] at hq
      exact h q producer hq hpc
  | stored hpool =>
    intro q producer hq hpc
    have hnone := h q producer hq hpc
    by_cases hqp : q = p
    · subst hqp
      cases hnone.symm.trans hpool
    · simpa [hqp] using hnone

theorem Fresh.receive (h : s.Fresh) (msg : Downlink) (raises : Bool) : (s.receive msg raises).Fresh := by
  have hconnected : s.noteConnection.Fresh := by
    unfold noteConnection
    split
    · exact h
    · intro p producer hp hpc
      simp [resetTokens, h p producer hp hpc]
  refine Fresh.of_same (s := s.noteConnection.processMessage raises msg) ?_ rfl rfl
  generalize s.noteConnection = s₁ at hconnected
  cases msg with
  | heartbeat | undecodable => exact hconnected
  | message msg =>
    cases msg with
    | registered | engineIdsUpdate => exact hconnected
    | resultWrapper w =>
      have hr := processResponse_cases s₁ w raises
      simp only [processMessage]
      generalize s₁.processResponse w raises = s₂ at hr
      cases hr with
      | failed => exact hconnected
      | returned => exact hconnected.returnToken _
      | kept => exact hconnected

/-- After a step of the handler of `p` it is not at its start, unless the client has ended. -/
theorem ProducerStep.not_starting (h : ProducerStep s p producer s' out) (hok : s'.ended = none)
    {producer' : Producer} (hp' : s'.producers p = some producer') : producer'.pc ≠ .starting := by
  have hgone : ∀ {t : State} (pc : ProducerPc), pc ≠ .starting → (t.goTo p pc).producers p = some producer' →
      producer'.pc ≠ .starting := by
    intro t pc hpc hp'
    rw [goTo_producers, Function.update_self] at hp'
    obtain ⟨old, -, rfl⟩ := Option.map_eq_some_iff.1 hp'
    exact hpc
  cases h with
  | failed err => exact absurd hok (fail_ended_ne_none s err)
  | moved _ _ hpc => exact hgone _ hpc hp'
  | unstarted | started | acquired | timedOut | givenBack => exact hgone _ (by simp) hp'
  | noTargets => exact absurd hok (fail_ended_ne_none _ _)
  | skipped => exact hgone (t := s.returnToken p) .looping (by simp) hp'
  | sent =>
    simp only [setProducer_producers, Function.update_self, Option.some.injEq] at hp'
    simp [← hp']

theorem Fresh.step (h : s.Fresh) (hstep : s.step ev = some (s', out)) (hok : s'.ended = none) : s'.Fresh := by
  cases step_cases hstep with
  | @producer p producer hev hp hstep' =>
    intro q producer' hq hpc
    by_cases hqp : q = p
    · subst hqp
      exact absurd hpc (hstep'.not_starting hok hq)
    · rw [hstep'.touches.tokens q hqp]
      exact h q producer' (hstep'.touches.producers q hqp ▸ hq) hpc
  | task hev htask =>
    cases htask with
    | plain _ hs _ => exact h.of_same hs.tokens hs.producers
    | disconnected | reregistered => exact h.of_same rfl rfl
    | received msg raises => exact h.receive msg raises

/-- Every step but those that replace tokens moves them, or gets one from a response. -/
theorem spare_step (hfresh : s.Fresh) (hstep : s.step ev = some (s', out)) (hok : s'.ended = none)
    (hkeep : s.replacesTokens ev = false) (q : String) :
    s'.spare q + out.sent.countP (Uplink.isInputOf q) = s.spare q + if ev.returnsTo = some q then 1 else 0 := by
  have hcases := step_cases hstep
  obtain ⟨-, hstep⟩ := Option.ite_none_right_eq_some.1 hstep
  cases hcases with
  | @producer p producer hev hp hstep' =>
    have hreturns : ev.returnsTo = none := by cases ev <;> first | rfl | cases hev
    rw [hev] at hstep
    simp only [hp, Option.bind_some] at hstep
    rw [hreturns, if_neg (by simp), Int.add_zero]
    by_cases hq : q = p
    · subst hq
      exact spare_stepProducer hp (hfresh q producer hp) hev hstep hok hkeep
    · rw [hstep'.countP_sent hq, spare_of_same (hstep'.touches.tokens q hq) (hstep'.touches.producers q hq)]
      exact Int.add_zero _
  | task hev htask =>
    cases htask with
    | plain hreceive hs hsent =>
      have hreturns : ev.returnsTo = none := by
        cases ev with
        | receive msg raises => exact absurd rfl (hreceive msg raises)
        | _ => rfl
      rw [hsent, spare_of_same (congrFun hs.tokens q) (congrFun hs.producers q), hreturns]
      simp
    | disconnected => exact rfl
    | received msg raises =>
      simp only [replacesTokens, Bool.not_eq_false'] at hkeep
      rw [spare_receive hkeep hok q]
      exact Int.add_zero _
    | reregistered => exact rfl

end State

/-! ### Where the loops go -/

/-- The loop has found the flag of its producer set, and goes on to the creation of a task. -/
def ProducerPc.committed : ProducerPc → Bool
  | .acquiring | .waiting _ | .woken _ | .disconnected => true
  | _ => false

namespace State

theorem pc_goTo (hp : s.producers p = some producer) (pc : ProducerPc) : (s.goTo p pc).pc p = some pc := by
  simp [State.pc, hp]

/-- A step does nothing to the loops of others, except that one of them is handed a token. -/
theorem pc_of_other (hstep : s.step ev = some (s', out)) (hev : ev.producer ≠ some q) :
    s'.pc q = s.pc q ∨ ∃ sem, s.pc q = some (.waiting sem) ∧ s'.pc q = some (.woken sem) := by
  cases step_cases hstep with
  | @producer p producer hp _ hstep' =>
    have hqp : q ≠ p := fun h => hev (h ▸ hp)
    exact .inl (by simp only [pc, hstep'.touches.producers q hqp])
  | task _ htask =>
    cases htask with
    | plain _ hs _ => exact .inl (by simp only [pc, hs.producers])
    | disconnected | reregistered => exact .inl rfl
    | received msg raises =>
      have hsame : s.noteConnection.producers = s.producers := by
        unfold noteConnection
        split <;> rfl
      have hpc : (s.receive msg raises).pc q = (s.noteConnection.processMessage raises msg).pc q := rfl
      have hold : s.pc q = s.noteConnection.pc q := by simp only [pc, hsame]
      rw [hpc, hold]
      generalize s.noteConnection = s₁
      cases msg with
      | heartbeat | undecodable => exact .inl rfl
      | message msg =>
        cases msg with
        | registered | engineIdsUpdate => exact .inl rfl
        | resultWrapper w =>
          have hr := processResponse_cases s₁ w raises
          simp only [processMessage]
          generalize s₁.processResponse w raises = s₂ at hr
          cases hr with
          | failed | kept => exact .inl rfl
          | returned =>
            have hr := returnToken_cases s₁ w.producerId
            generalize s₁.returnToken w.producerId = s₂ at hr
            cases hr with
            | failed | stored => exact .inl rfl
            | @handed pool producer hpool hproducer hwaiting =>
              by_cases hq : q = w.producerId
              · subst hq
                exact .inr ⟨pool.resets, by simp [pc, hproducer, hwaiting], pc_goTo hproducer _⟩
              · exact .inl (by simp [pc, hq])

/-- The ways of a loop that takes a step, as far as the test of the flag is concerned. -/
inductive Turn (p : String) : Event → ProducerPc → ProducerPc → Prop
  | looped (wanted paused : Bool) {old pc : ProducerPc} (hcommitted : pc.committed = true → paused = false)
      (hpaused : pc = .paused → paused = true) : Turn p (.loop p wanted paused) old pc
  | unpaused : Turn p (.unpaused p) .paused .acquiring
  /-- The loop is on its way to the creation of a task. -/
  | onward {ev : Event} {old pc : ProducerPc} (hold : old.committed = true) (hpc : pc ≠ .paused) : Turn p ev old pc
  | elsewhere {ev : Event} {old pc : ProducerPc} (hpc : pc.committed = false ∧ pc ≠ .paused) : Turn p ev old pc

theorem stepProducer_turn {pc : ProducerPc} (hev : ev.producer = some p)
    (hstep : s.stepProducer p producer ev = some (s', out)) (hok : s'.ended = none) (hpc : s'.pc p = some pc) :
    Turn p ev producer.pc pc := by
  have hgone : ∀ {t : State} {pc' : ProducerPc}, (t.goTo p pc').pc p = some pc → pc = pc' := by
    intro t pc' hpc
    simp only [State.pc, goTo_producers, Function.update_self, Option.map_map] at hpc
    obtain ⟨_, -, rfl⟩ := Option.map_eq_some_iff.1 hpc
    rfl
  have helsewhere : ∀ {t : State} {pc' : ProducerPc}, pc'.committed = false ∧ pc' ≠ .paused →
      (t.goTo p pc').pc p = some pc → Turn p ev producer.pc pc := by
    intro t pc' hpc' hpc
    cases hgone hpc
    exact .elsewhere hpc'
  have honward : ∀ {t : State} {pc' : ProducerPc}, producer.pc.committed = true → pc' ≠ .paused →
      (t.goTo p pc').pc p = some pc → Turn p ev producer.pc pc := by
    intro t pc' hold hpc' hpc
    cases hgone hpc
    exact .onward hold hpc'
  have hidle : ProducerPc.looping.committed = false ∧ ProducerPc.looping ≠ .paused := by decide
  cases stepProducer_moves hstep with
  | failed err => exact absurd hok (fail_ended_ne_none s err)
  | unstarted => exact helsewhere (by decide) hpc
  | started => exact helsewhere hidle hpc
  | looped wanted paused =>
    cases hev
    cases hgone hpc
    refine .looped wanted paused ?_ ?_ <;> split <;> cases paused <;> simp [ProducerPc.committed]
  | unpaused hold =>
    cases hev
    cases hgone hpc
    exact hold ▸ .unpaused
  | acquired hold => exact honward (by simp [hold, ProducerPc.committed]) (by simp) hpc
  | waits hold => exact honward (by simp [hold, ProducerPc.committed]) (by simp) hpc
  | timedOut => exact helsewhere hidle hpc
  | givenBack => exact helsewhere (t := { s with scheduleHeartbeat := true }) hidle hpc
  | dropped => exact helsewhere hidle hpc
  | noTargets => exact absurd hok (fail_ended_ne_none _ _)
  | gotToken hold hpc' =>
    rcases hpc' with rfl | rfl <;> exact honward (by simp [hold, ProducerPc.committed]) (by simp) hpc
  | stopped hold => exact honward (by simp [hold, ProducerPc.committed]) (by simp) hpc
  | reconnected hold => exact honward (by simp [hold, ProducerPc.committed]) (by simp) hpc
  | skipped => exact helsewhere (t := s.returnToken p) hidle hpc
  | sent =>
    simp only [State.pc, setProducer_producers, Function.update_self, Option.map_some, Option.some.injEq] at hpc
    exact .elsewhere (by simp [← hpc, ProducerPc.committed])
  | inputSent => exact helsewhere hidle hpc

end State

end Gabriel.ZeroMQClient
