import Gabriel.Client.Ledger
import Gabriel.Client.Reregistration
import Gabriel.Client.TokenLimit

/-!
# The ZeroMQ client and the server agree on the tokens

As long as the connection is not lost, that is neither side counts the other as gone, a `ZeroMQClient` and the server
agree on the tokens.  The client's side of the account is `Link.Limited`: the tokens in a pool, in the hands of the
producer loop and with the inputs that await their response are at most its maximum.  The server's side is `Sys.Backs`,
for a client that has the tokens which are not with such an input.
-/

namespace Gabriel

open ClientLog

namespace ZeroMQClient

/-! ### Failures of the token pools -/

namespace State

variable {s s' : State} {p : String} {ev : Event} {out : Output}

/-- The client has not failed for its token pools. -/
def Healthy (s : State) : Prop := s.ended ≠ some .tooManyTokens ∧ s.ended ≠ some .noTokenPool

theorem healthy_of_none (h : s.ended = none) : s.Healthy := by
  unfold Healthy
  rw [h]
  exact ⟨by simp, by simp⟩

theorem healthy_fail {err : ClientError} (h : s.Healthy) (hmany : err ≠ .tooManyTokens) (hpool : err ≠ .noTokenPool) :
    (s.fail err).Healthy := by
  unfold Healthy at *
  cases hended : s.ended with
  | none => simp [fail, hended, hmany, hpool]
  | some err' =>
    rw [hended] at h
    simpa [fail, hended] using h

/-- A pool with room takes a token back. -/
theorem returnToken_ended {pool : TokenPool} (hpool : s.tokens p = some pool) (hlt : pool.value < pool.maxTokens) :
    (s.returnToken p).ended = s.ended := by
  have hfull : ¬ pool.full := fun hfull => absurd hfull.2 (Nat.not_le.2 hlt)
  simp only [returnToken, hpool, if_neg hfull]
  split <;> rfl

/-- A handler of a producer, which has a pool with room if it holds a token. -/
theorem stepProducer_healthy {producer : Producer} (hnone : s.ended = none)
    (hroom : producer.pc.held = 1 → (s.returnToken p).ended = none)
    (hstep : s.stepProducer p producer ev = some (s', out)) : s'.Healthy := by
  have hskip : producer.pc.held = 1 → (s.skip p).Healthy := fun hheld => healthy_of_none (hroom hheld)
  cases ev with
  | start =>
    obtain ⟨-, hstep⟩ := Option.ite_none_right_eq_some.1 hstep
    obtain ⟨s₁, hs₁, heq⟩ := Option.map_eq_some_iff.1 hstep
    cases heq
    unfold start at hs₁
    split at hs₁
    · cases hs₁
      exact healthy_of_none hnone
    · obtain ⟨-, hs₁⟩ := Option.ite_none_right_eq_some.1 hs₁
      cases hs₁
      exact healthy_of_none hnone
  | loop =>
    obtain ⟨-, hstep⟩ := Option.ite_none_right_eq_some.1 hstep
    cases hstep
    exact healthy_of_none hnone
  | unpaused =>
    obtain ⟨-, hstep⟩ := Option.ite_none_right_eq_some.1 hstep
    cases hstep
    exact healthy_of_none hnone
  | getToken =>
    obtain ⟨-, hstep⟩ := Option.ite_none_right_eq_some.1 hstep
    obtain ⟨s₁, hs₁, heq⟩ := Option.map_eq_some_iff.1 hstep
    cases heq
    obtain ⟨pool, -, hs₁⟩ := Option.bind_eq_some_iff.1 hs₁
    split at hs₁ <;> cases hs₁ <;> exact healthy_of_none hnone
  | tokenTimeout =>
    obtain ⟨s₁, hs₁, heq⟩ := Option.map_eq_some_iff.1 hstep
    cases heq
    unfold tokenTimeout at hs₁
    split at hs₁
    · cases hs₁; exact healthy_of_none hnone
    · cases hs₁; exact healthy_of_none hnone
    · obtain ⟨pool, -, hs₁⟩ := Option.bind_eq_some_iff.1 hs₁
      split at hs₁ <;> cases hs₁ <;> exact healthy_of_none hnone
    · cases hs₁
  | gotToken _ targets =>
    simp only [stepProducer] at hstep
    split at hstep
    · rename_i sem hpc
      cases hstep
      unfold gotToken
      split
      · have hended : ((s.returnToken p).goTo p .finished).ended = none := hroom (by simp [hpc, ProducerPc.held])
        exact healthy_fail (healthy_of_none hended) (by decide) (by decide)
      · split <;> exact healthy_of_none hnone
    · cases hstep
  | reconnected =>
    obtain ⟨-, hstep⟩ := Option.ite_none_right_eq_some.1 hstep
    split at hstep
    · cases hstep
      exact healthy_of_none hnone
    · obtain ⟨-, hstep⟩ := Option.ite_none_right_eq_some.1 hstep
      cases hstep
      exact healthy_of_none hnone
  | produceTimeout =>
    obtain ⟨hpc, hstep⟩ := Option.ite_none_right_eq_some.1 hstep
    cases hstep
    exact hskip (by simp [hpc, ProducerPc.held])
  | produce _ produced =>
    obtain ⟨hpc, hstep⟩ := Option.ite_none_right_eq_some.1 hstep
    have hheld : producer.pc.held = 1 := by simp [hpc, ProducerPc.held]
    have hr := Option.some.inj hstep
    have hs' : (s.produce p producer produced).1 = s' := congrArg Prod.fst hr
    rw [← hs']
    unfold produce
    split
    · exact healthy_fail (healthy_of_none hnone) (by decide) (by decide)
    · exact hskip hheld
    · split
      · exact hskip hheld
      · split
        · exact healthy_of_none hnone
        · exact healthy_fail (healthy_of_none hnone) (by decide) (by decide)
  | inputSent =>
    obtain ⟨-, hstep⟩ := Option.ite_none_right_eq_some.1 hstep
    cases hstep
    exact healthy_of_none hnone
  | _ => cases hstep

/-- A message that a connected client receives, with room for the token that it may return. -/
theorem receive_healthy {msg : Downlink} {raises : Bool} (hnone : s.ended = none) (hconn : s.connected = true)
    (hroom : ∀ p, Event.returnsTo (.receive msg raises) = some p → (s.returnToken p).ended = none) :
    (s.receive msg raises).Healthy := by
  have hnote : s.noteConnection = s := if_pos hconn
  unfold receive
  simp only [hnote]
  rcases msg with _ | _ | ⟨n, ids⟩ | w | ids
  · exact healthy_of_none hnone
  · exact healthy_of_none hnone
  · exact healthy_of_none hnone
  · have hback : (if w.returnToken then s.returnToken w.producerId else s).ended = none := by
      split
      · rename_i hret
        exact hroom w.producerId (by simp [Event.returnsTo, hret])
      · exact hnone
    have hresponse : (s.processResponse w raises).Healthy := by
      unfold processResponse
      simp only
      split
      · split
        · exact healthy_fail (healthy_of_none hnone) (by decide) (by decide)
        · exact healthy_of_none hback
      · exact healthy_fail (healthy_of_none hnone) (by decide) (by decide)
      · exact healthy_fail (healthy_of_none hnone) (by decide) (by decide)
      · exact healthy_of_none hback
    exact hresponse
  · exact healthy_of_none hnone

/-- What a step of a task other than the handlers of the producers does, apart from the tokens. -/
inductive TaskMove (s : State) : Event → State → Output → Prop
  /-- The task sends nothing but registrations and heartbeats. -/
  | quiet {ev : Event} {s' : State} {out : Output} (hended : s'.ended = s.ended)
      (hnumber : s'.numTokensPerProducer = s.numTokensPerProducer)
      (hsent : ∀ msg, .message msg ∈ out.sent → ∃ info, msg = .registration info) : TaskMove s ev s' out
  | cancelled : TaskMove s .cancel (s.fail .cancelled) {}
  | received (msg : Downlink) (raises : Bool) : TaskMove s (.receive msg raises) (s.receive msg raises) {}

theorem stepTask_moves (hstep : s.stepTask ev = some (s', out)) : TaskMove s ev s' out := by
  cases ev with
  | stop => cases hstep; exact .quiet rfl rfl (by simp)
  | cancel => cases hstep; exact .cancelled
  | pollTimeout =>
    obtain ⟨-, hstep⟩ := Option.ite_none_right_eq_some.1 hstep
    cases hstep; exact .quiet rfl rfl (by simp)
  | receive msg raises =>
    obtain ⟨-, hstep⟩ := Option.ite_none_right_eq_some.1 hstep
    cases hstep; exact .received msg raises
  | register =>
    obtain ⟨-, hstep⟩ := Option.ite_none_right_eq_some.1 hstep
    unfold register at hstep
    split at hstep <;> cases hstep <;> exact .quiet rfl rfl (by simp [registrationMessage])
  | registrationSent =>
    obtain ⟨-, hstep⟩ := Option.ite_none_right_eq_some.1 hstep
    cases hstep; exact .quiet rfl rfl (by simp)
  | retry =>
    obtain ⟨-, hstep⟩ := Option.ite_none_right_eq_some.1 hstep
    cases hstep; exact .quiet rfl rfl (by simp [registrationMessage])
  | acknowledged =>
    obtain ⟨-, hstep⟩ := Option.ite_none_right_eq_some.1 hstep
    unfold acknowledge at hstep
    split at hstep
    · cases hstep; exact .quiet rfl rfl (by simp)
    · obtain ⟨-, hstep⟩ := Option.ite_none_right_eq_some.1 hstep
      cases hstep; exact .quiet rfl rfl (by simp)
  | reregister =>
    obtain ⟨-, hstep⟩ := Option.ite_none_right_eq_some.1 hstep
    unfold reregister register at hstep
    split at hstep
    · cases hstep; exact .quiet rfl rfl (by simp)
    · obtain ⟨-, hstep⟩ := Option.ite_none_right_eq_some.1 hstep
      split at hstep <;> cases hstep <;> exact .quiet rfl rfl (by simp [registrationMessage])
  | heartbeat recent =>
    obtain ⟨-, hstep⟩ := Option.ite_none_right_eq_some.1 hstep
    simp only [heartbeat] at hstep
    split at hstep <;> cases hstep <;> exact .quiet rfl rfl (by simp)
  | _ => cases hstep

/-- The pool of a producer with an input or a token away. -/
theorem Holds.room {n : Nat} (h : s.Holds p n) (hpos : 0 < n + s.held p) :
    ∃ pool, s.tokens p = some pool ∧ pool.value < pool.maxTokens := by
  unfold Holds at h
  unfold held at hpos
  cases hpool : s.tokens p with
  | none =>
    cases hproducer : s.producers p with
    | none => simp_all [Fits]
    | some producer =>
      rw [hpool, hproducer] at h
      obtain ⟨hpc, rfl⟩ := h
      rcases hpc with hpc | hpc <;> simp [hproducer, hpc, ProducerPc.held] at hpos
  | some pool =>
    cases hproducer : s.producers p with
    | none =>
      rw [hpool, hproducer] at h
      exact h.elim
    | some producer =>
      rw [hpool, hproducer] at h
      simp only [hproducer, Option.map_some, Option.getD_some] at hpos
      exact ⟨pool, rfl, by have hle := h.2; omega⟩

theorem Holds.value_le {n : Nat} {pool : TokenPool} (h : s.Holds p n) (hpool : s.tokens p = some pool) :
    pool.value + s.held p ≤ pool.maxTokens := by
  unfold Holds at h
  cases hproducer : s.producers p with
  | none =>
    rw [hpool, hproducer] at h
    exact h.elim
  | some producer =>
    rw [hpool, hproducer] at h
    have hle := h.2
    simp only [held, hproducer, Option.map_some, Option.getD_some]
    omega

/-- A step of a connected client whose tokens are within the limits of their pools. -/
theorem step_healthy {outstanding : String → Nat} (hholds : ∀ p, s.Holds p (outstanding p)) (hconn : s.connected = true)
    (hanswer : ∀ p, ev.returnsTo = some p → 0 < outstanding p) (hstep : s.step ev = some (s', out)) : s'.Healthy := by
  obtain ⟨hnone, hstep⟩ := Option.ite_none_right_eq_some.1 hstep
  have hreturn : ∀ p, 0 < outstanding p + s.held p → (s.returnToken p).ended = none := by
    intro p hpos
    obtain ⟨pool, hpool, hlt⟩ := (hholds p).room hpos
    rw [returnToken_ended hpool hlt, hnone]
  split at hstep
  · rename_i p hev
    obtain ⟨producer, hproducer, hstep⟩ := Option.bind_eq_some_iff.1 hstep
    refine stepProducer_healthy hnone (fun hheld => hreturn p ?_) hstep
    simp [held, hproducer, hheld]
  · cases stepTask_moves hstep with
    | quiet hended => exact healthy_of_none (hended.trans hnone)
    | cancelled => exact healthy_fail (healthy_of_none hnone) (by decide) (by decide)
    | received msg raises =>
      refine receive_healthy hnone hconn fun p hp => hreturn p ?_
      have hpos := hanswer p hp
      omega

/-! ### The number of tokens -/

theorem returnToken_numTokens : (s.returnToken p).numTokensPerProducer = s.numTokensPerProducer := by
  have hr := returnToken_cases s p
  generalize s.returnToken p = s' at hr
  cases hr <;> rfl

theorem ProducerStep.numTokens {producer : Producer} (h : ProducerStep s p producer s' out) :
    s'.numTokensPerProducer = s.numTokensPerProducer := by
  cases h with
  | noTargets => exact returnToken_numTokens
  | skipped => exact returnToken_numTokens
  | _ => rfl

/-- Only the acknowledgement of a registration tells the number of tokens. -/
theorem receive_numTokens (s : State) (msg : Downlink) (raises : Bool) :
    (s.receive msg raises).numTokensPerProducer = s.numTokensPerProducer ∨
      ∃ n ids, msg = .message (.registered n ids) ∧ (s.receive msg raises).numTokensPerProducer = n := by
  have hnote : s.noteConnection.numTokensPerProducer = s.numTokensPerProducer := by
    unfold noteConnection
    split <;> rfl
  rcases msg with _ | _ | ⟨n, ids⟩ | w | ids
  · exact Or.inl hnote
  · exact Or.inl hnote
  · exact Or.inr ⟨n, ids, rfl, rfl⟩
  · left
    have hcases := processResponse_cases s.noteConnection w raises
    have hsame : (s.noteConnection.processResponse w raises).numTokensPerProducer =
        s.noteConnection.numTokensPerProducer := by
      generalize s.noteConnection.processResponse w raises = s₁ at hcases
      cases hcases with
      | failed err => rfl
      | returned => exact returnToken_numTokens
      | kept => rfl
    exact hsame.trans hnote
  · exact Or.inl hnote

theorem stepTask_numTokens (hstep : s.stepTask ev = some (s', out)) :
    s'.numTokensPerProducer = s.numTokensPerProducer ∨
      ∃ n ids raises, ev = .receive (.message (.registered n ids)) raises ∧ s'.numTokensPerProducer = n := by
  cases stepTask_moves hstep with
  | quiet _ hnumber => exact Or.inl hnumber
  | cancelled => exact Or.inl rfl
  | received msg raises =>
    rcases receive_numTokens s msg raises with hsame | ⟨n, ids, rfl, hn⟩
    · exact Or.inl hsame
    · exact Or.inr ⟨n, ids, raises, rfl, hn⟩

/-- A pool after a step is one from before, as far as its bound is concerned. -/
def OldPool (s : State) (p : String) (pool : TokenPool) : Prop :=
  ∃ pool', s.tokens p = some pool' ∧ pool.maxTokens = pool'.maxTokens

theorem oldPool_returnToken {q : String} {pool : TokenPool} (h : (s.returnToken p).tokens q = some pool) :
    s.OldPool q pool := by
  have hr := returnToken_cases s p
  generalize s.returnToken p = s' at hr h
  cases hr with
  | failed => exact ⟨pool, h, rfl⟩
  | handed => exact ⟨pool, h, rfl⟩
  | @stored pool' hpool' =>
    by_cases hq : q = p
    · subst hq
      simp only [setPool_tokens, Function.update_self, Option.some.injEq] at h
      exact ⟨pool', hpool', h ▸ rfl⟩
    · simp only [setPool_tokens, Function.update_of_ne hq] at h
      exact ⟨pool, h, rfl⟩

/-- The handler of a producer makes a pool after its wait for the registration. -/
theorem ProducerStep.pools {producer : Producer} (h : ProducerStep s p producer s' out) {q : String} {pool : TokenPool}
    (hpool : s'.tokens q = some pool) :
    s.OldPool q pool ∨ producer.pc = .starting ∧ q = p ∧ pool.maxTokens = s.numTokensPerProducer := by
  have hset : ∀ {pool' pool'' : TokenPool}, s.tokens p = some pool' →
      Function.update s.tokens p (some pool'') q = some pool → pool''.maxTokens = pool'.maxTokens →
      s.OldPool q pool := by
    intro pool' pool'' hpool' hq hmax
    by_cases hqp : q = p
    · subst hqp
      simp only [Function.update_self, Option.some.injEq] at hq
      exact ⟨pool', hpool', hq ▸ hmax⟩
    · rw [Function.update_of_ne hqp] at hq
      exact ⟨pool, hq, rfl⟩
  cases h with
  | started hpc =>
    by_cases hqp : q = p
    · subst hqp
      simp only [goTo_tokens, setPool_tokens, Function.update_self, Option.some.injEq] at hpool
      exact Or.inr ⟨hpc, rfl, hpool ▸ rfl⟩
    · simp only [goTo_tokens, setPool_tokens, Function.update_of_ne hqp] at hpool
      exact Or.inl ⟨pool, hpool, rfl⟩
  | acquired _ hpool' _ => exact Or.inl (hset hpool' hpool rfl)
  | givenBack _ hpool' => exact Or.inl (hset hpool' hpool rfl)
  | noTargets => exact Or.inl (oldPool_returnToken hpool)
  | skipped => exact Or.inl (oldPool_returnToken hpool)
  | _ => exact Or.inl ⟨pool, hpool, rfl⟩

theorem stepProducer_starting {producer : Producer} (hpc : producer.pc = .starting)
    (hstep : s.stepProducer p producer ev = some (s', out)) : s'.tokens = s.tokens ∨ s.registeredEvent = true := by
  cases ev with
  | start =>
    obtain ⟨-, hstep⟩ := Option.ite_none_right_eq_some.1 hstep
    obtain ⟨s₁, hs₁, heq⟩ := Option.map_eq_some_iff.1 hstep
    cases heq
    unfold start at hs₁
    split at hs₁
    · cases hs₁
      exact Or.inl rfl
    · obtain ⟨hreg, -⟩ := Option.ite_none_right_eq_some.1 hs₁
      exact Or.inr hreg
  | _ => simp [stepProducer, hpc, tokenTimeout] at hstep

/-- The client has pools once it is registered, of the size that the server told it. -/
structure Numbered (N : Nat) (s : State) : Prop where
  number : s.registeredEvent = true → s.numTokensPerProducer = N
  pools : ∀ p pool, s.tokens p = some pool → pool.maxTokens = N ∧ s.registeredEvent = true

/-- The client is connected and has no need to register again. -/
def Steady (s : State) : Prop := s.connected = true ∧ s.reregistrationNeeded = false

theorem receive_pools {msg : Downlink} {raises : Bool} (hconn : s.connected = true) {q : String} {pool : TokenPool}
    (hpool : (s.receive msg raises).tokens q = some pool) : s.OldPool q pool := by
  have hnote : s.noteConnection = s := if_pos hconn
  unfold receive at hpool
  simp only [hnote] at hpool
  rcases msg with _ | _ | ⟨n, ids⟩ | w | ids
  · exact ⟨pool, hpool, rfl⟩
  · exact ⟨pool, hpool, rfl⟩
  · exact ⟨pool, hpool, rfl⟩
  · have hcases := processResponse_cases s w raises
    simp only [processMessage] at hpool
    generalize s.processResponse w raises = s₁ at hcases hpool
    cases hcases with
    | failed err => exact ⟨pool, hpool, rfl⟩
    | returned => exact oldPool_returnToken hpool
    | kept => exact ⟨pool, hpool, rfl⟩
  · exact ⟨pool, hpool, rfl⟩

theorem receive_registered {n : Nat} {ids : Finset String} {raises : Bool} :
    (s.receive (.message (.registered n ids)) raises).registeredEvent = true := rfl

/-- A step that does not lose the connection keeps the client steady, and its registration. -/
theorem step_steady (h : s.Steady) (hev : ev ≠ .pollTimeout) (hstep : s.step ev = some (s', out)) :
    s'.Steady ∧ out.reconnects = false ∧ (s.registeredEvent = true → s'.registeredEvent = true) ∧
      (s'.registeredEvent = true →
        s.registeredEvent = true ∨ ∃ n ids raises, ev = .receive (.message (.registered n ids)) raises) := by
  obtain ⟨hconn, hneeded⟩ := h
  cases step_cases hstep with
  | producer _ _ hp =>
    have hsame := hp.sameConnection
    refine ⟨⟨hsame.connected.trans hconn, hsame.reregistrationNeeded.trans hneeded⟩, hp.reconnects, ?_, ?_⟩
    · rw [hsame.registeredEvent]
      exact id
    · rw [hsame.registeredEvent]
      exact Or.inl
  | task _ ht =>
    cases ht with
    | plain _ hs =>
      refine ⟨⟨hs.connected.trans hconn, hs.reregistrationNeeded.trans hneeded⟩, rfl, ?_, ?_⟩
      · rw [hs.registeredEvent]
        exact id
      · rw [hs.registeredEvent]
        exact Or.inl
    | disconnected => exact absurd rfl hev
    | received msg raises =>
      obtain ⟨hconn', hneeded', hevent⟩ := receive_connection s msg raises
      refine ⟨⟨hconn', by simp [hneeded', hneeded, hconn]⟩, rfl, ?_, ?_⟩
      · intro hreg
        cases hmsg : msg.isRegistered with
        | false => rw [hevent hmsg, hreg]
        | true =>
          rcases msg with _ | _ | ⟨n, ids⟩ | w | ids
          · cases hmsg
          · cases hmsg
          · exact receive_registered
          · cases hmsg
          · cases hmsg
      · intro hreg
        cases hmsg : msg.isRegistered with
        | false =>
          rw [hevent hmsg] at hreg
          exact Or.inl hreg
        | true =>
          rcases msg with _ | _ | ⟨n, ids⟩ | w | ids
          · cases hmsg
          · cases hmsg
          · exact Or.inr ⟨n, ids, raises, rfl⟩
          · cases hmsg
          · cases hmsg
    | reregistered =>
      obtain ⟨-, hstep⟩ := Option.ite_none_right_eq_some.1 hstep
      obtain ⟨-, hstep⟩ := Option.ite_none_right_eq_some.1 hstep
      simp [reregister, hneeded] at hstep

theorem Numbered.step {N : Nat} (h : s.Numbered N) (hsteady : s.Steady) (hev : ev ≠ .pollTimeout)
    (hcount : ∀ n ids raises, ev = .receive (.message (.registered n ids)) raises → n = N)
    (hstep : s.step ev = some (s', out)) : s'.Numbered N := by
  obtain ⟨-, -, hkeeps, htold⟩ := step_steady hsteady hev hstep
  -- the pools from before keep their size
  have hold : ∀ p pool, s.OldPool p pool → pool.maxTokens = N ∧ s'.registeredEvent = true := by
    rintro p pool ⟨pool', hpool', hmax⟩
    obtain ⟨hN, hreg⟩ := h.pools p pool' hpool'
    exact ⟨hmax.trans hN, hkeeps hreg⟩
  have hcases := step_cases hstep
  obtain ⟨-, hstep⟩ := Option.ite_none_right_eq_some.1 hstep
  cases hcases with
  | @producer p producer hev' hproducer hp =>
    rw [hev'] at hstep
    simp only [hproducer, Option.bind_some] at hstep
    constructor
    · intro hreg
      rw [hp.numTokens]
      rw [hp.sameConnection.registeredEvent] at hreg
      exact h.number hreg
    · intro q pool hpool
      rcases hp.pools hpool with hq | ⟨hpc, rfl, hmax⟩
      · exact hold q pool hq
      · rcases stepProducer_starting hpc hstep with hsame | hreg
        · exact hold q pool ⟨pool, hsame ▸ hpool, rfl⟩
        · exact ⟨hmax.trans (h.number hreg), hkeeps hreg⟩
  | task hev' ht =>
    rw [hev'] at hstep
    constructor
    · intro hreg
      rcases stepTask_numTokens hstep with hsame | ⟨n, ids, raises, rfl, hn⟩
      · rcases htold hreg with hreg | ⟨n, ids, raises, rfl⟩
        · exact hsame.trans (h.number hreg)
        · cases ht with
          | plain hne => exact absurd rfl (hne _ _)
          | received => exact hcount n ids raises rfl
      · exact hn.trans (hcount n ids raises rfl)
    · intro q pool hpool
      cases ht with
      | plain _ hs => exact hold q pool ⟨pool, hs.tokens ▸ hpool, rfl⟩
      | disconnected => exact absurd rfl hev
      | received msg raises => exact hold q pool (receive_pools hsteady.1 hpool)
      | reregistered => exact hold q pool ⟨pool, hpool, rfl⟩

/-- The client sends registrations, and inputs of producers that have a pool. -/
theorem step_sent (h : ∀ p, ∃ n, s.Holds p n) (hstep : s.step ev = some (s', out)) (msg : FromClient)
    (hmsg : .message msg ∈ out.sent) :
    (∃ info, msg = .registration info) ∨ (∃ input, msg = .input input) ∧ ∃ p pool, s.tokens p = some pool := by
  obtain ⟨-, hstep⟩ := Option.ite_none_right_eq_some.1 hstep
  split at hstep
  · rename_i p hev
    obtain ⟨producer, hproducer, hstep⟩ := Option.bind_eq_some_iff.1 hstep
    cases (stepProducer_moves hstep).step with
    | sent input hpc hp =>
      obtain ⟨n, hholds⟩ := h p
      obtain ⟨pool, hpool, -⟩ := hholds.pool hproducer (by simp [hpc]) (by simp [hpc])
      exact Or.inr ⟨⟨input, by simpa using hmsg⟩, p, pool, hpool⟩
    | _ => cases hmsg
  · cases stepTask_moves hstep with
    | quiet _ _ hsent => exact Or.inl (hsent msg hmsg)
    | cancelled => cases hmsg
    | received => cases hmsg

end State

/-! ### The account of the client -/

namespace Link

variable {l l' : Link} {ev : Event} {outstanding : String → Nat}

/-- No more inputs of a producer await their response than there are tokens. -/
theorem Limited.outstanding_le {N : Nat} (h : l.Limited) (hn : l.client.Numbered N) (p : String) :
    l.outstanding p ≤ N := by
  have hholds := h.holds p
  unfold State.Holds at hholds
  cases hpool : l.client.tokens p with
  | none =>
    cases hproducer : l.client.producers p with
    | none =>
      rw [hpool, hproducer] at hholds
      exact Nat.le_trans (Nat.le_of_eq hholds) (Nat.zero_le _)
    | some producer =>
      rw [hpool, hproducer] at hholds
      exact Nat.le_trans (Nat.le_of_eq hholds.2) (Nat.zero_le _)
  | some pool =>
    cases hproducer : l.client.producers p with
    | none =>
      rw [hpool, hproducer] at hholds
      exact hholds.elim
    | some producer =>
      rw [hpool, hproducer] at hholds
      have hmax := (hn.pools p pool hpool).1
      have hle := hholds.2
      omega

/-- The response to an input that awaits one takes it off the account. -/
theorem answer_of_pos (hpos : ∀ p, ev.returnsTo = some p → 0 < outstanding p) :
    ∃ outstanding', answer outstanding ev.returnsTo = some outstanding' ∧
      ∀ q, outstanding' q + (if ev.returnsTo = some q then 1 else 0) = outstanding q := by
  cases hev : ev.returnsTo with
  | none => exact ⟨outstanding, rfl, fun q => by simp⟩
  | some p =>
    have hp := hpos p hev
    refine ⟨Function.update outstanding p (outstanding p - 1), by simp [answer, hp], fun q => ?_⟩
    by_cases hq : q = p
    · subst hq
      simp only [Function.update_self, if_true]
      omega
    · have hne : some p ≠ some q := fun he => hq (Option.some.inj he).symm
      simp [Function.update_of_ne hq, hne]

end Link

end ZeroMQClient

namespace ZeroMQ

open ZeroMQClient Interleaved
open Composed (Reached)

variable {cfg : Config} {w w' : World} {outstanding : String → Nat} {n : Nat}

/-- The connection is not lost: the poll of the client does not time out, and the server neither deletes the entry of
the client nor restarts. -/
def Action.steady : Action → Bool
  | .client .pollTimeout _ | .forget _ _ | .restart _ _ _ => false
  | _ => true

/-- The message of the server in a message to the client. -/
def toClient? : Downlink → Option ToClient
  | .message msg => some msg
  | _ => none

/-- The tokens for `p` that are not with an input which awaits its response, and those with inputs that the server has
not taken up. -/
def World.tokens (w : World) (outstanding : String → Nat) (N : Nat) (p : String) : Nat :=
  N - outstanding p + w.up.countP (Uplink.isInputOf p)

/-- The client, with the inputs of each producer that await their response, and the server agree; the client has `n` of
the messages sent to it. -/
structure Agrees (cfg : Config) (w : World) (outstanding : String → Nat) (n : Nat) : Prop where
  reachable : ∃ acts, (Interleaved.machine (transport cfg)).RunWhere (fun sys act => act.addressFree sys) acts w.sys
  limited : Link.Limited ⟨w.client, outstanding⟩
  numbered : w.client.Numbered cfg.numTokensPerProducer
  steady : w.client.Steady
  healthy : w.client.Healthy
  sent : ∀ msg, .message msg ∈ w.up →
    (∃ info, msg = .registration info) ∨ (∃ input, msg = .input input) ∧ w.client.registeredEvent = true
  entry : w.identity ∈ w.sys.addresses → w.sys.server.frontend.clients.get? w.identity ≠ none
  down : w.down.filterMap toClient? = (sentTo w.sys.server.frontend.log w.identity).drop n
  backed : w.sys.Backs (transport cfg) w.identity (decide (w.identity ∈ w.sys.addresses)) n
    (w.client.registeredEvent = true) (w.tokens outstanding cfg.numTokensPerProducer)

namespace Agrees

theorem reached (h : Agrees cfg w outstanding n) : Reached (transport cfg) w.sys := by
  obtain ⟨acts, hrun⟩ := h.reachable
  exact Interleaved.run_reached hrun.run

theorem attached (h : Agrees cfg w outstanding n) : w.sys.Attached (transport cfg) := by
  obtain ⟨acts, hrun⟩ := h.reachable
  exact Interleaved.run_attached (fun _ _ => id) hrun

/-- A message that the client receives brings the token that its response returns. -/
theorem returnsTo_iff {msg : Downlink} {raises : Bool} {p : String} :
    Event.returnsTo (.receive msg raises) = some p ↔ ∃ m, toClient? msg = some m ∧ m.carriesToken p = true := by
  rcases msg with _ | _ | ⟨n, ids⟩ | wrapper | ids
  · simp [Event.returnsTo, toClient?]
  · simp [Event.returnsTo, toClient?]
  · simp [Event.returnsTo, toClient?, ToClient.carriesToken]
  · by_cases hret : wrapper.returnToken = true
    · simp [Event.returnsTo, toClient?, ToClient.carriesToken, hret]
    · simp [Event.returnsTo, toClient?, ToClient.carriesToken, hret]
  · simp [Event.returnsTo, toClient?, ToClient.carriesToken]

/-- The client takes a step at the event `ev`: with `n` of the messages sent to it, `down` is on the way to it; there is
room for the token that it gets; and how the account may stand afterwards. -/
structure Receipt (cfg : Config) (w : World) (outstanding : String → Nat) (ev : Event) (down : List Downlink)
    (n : Nat) : Prop where
  down : down.filterMap toClient? = (sentTo w.sys.server.frontend.log w.identity).drop n
  room : ∀ p, w.tokens outstanding cfg.numTokensPerProducer p + (if ev.returnsTo = some p then 1 else 0) ≤
    cfg.numTokensPerProducer
  number : ∀ m ids raises, ev = .receive (.message (.registered m ids)) raises → m = cfg.numTokensPerProducer
  backed : ∀ (told : Prop) (client : String → Nat),
    (told → w.client.registeredEvent = true ∨ ∃ m ids raises, ev = .receive (.message (.registered m ids)) raises) →
    (∀ p, client p ≤ w.tokens outstanding cfg.numTokensPerProducer p + if ev.returnsTo = some p then 1 else 0) →
    w.sys.Backs (transport cfg) w.identity (decide (w.identity ∈ w.sys.addresses)) n told client

/-- The client gets nothing that is a message of the server. -/
private theorem receipt_none {ev : Event} {down : List Downlink} (h : Agrees cfg w outstanding n)
    (hreturns : ∀ p, ev.returnsTo ≠ some p)
    (hregistered : ∀ m ids raises, ev ≠ .receive (.message (.registered m ids)) raises)
    (hdown : down.filterMap toClient? = w.down.filterMap toClient?) : Receipt cfg w outstanding ev down n := by
  refine ⟨hdown.trans h.down, fun p => ?_, fun m ids raises he => absurd he (hregistered m ids raises), ?_⟩
  · rw [if_neg (hreturns p)]
    exact h.backed.le p
  · intro told client htold hclient
    refine h.backed.client_step (fun ht => ?_) fun p => ?_
    · rcases htold ht with htold | ⟨m, ids, raises, he⟩
      · exact htold
      · exact absurd he (hregistered m ids raises)
    · have hp := hclient p
      rw [if_neg (hreturns p)] at hp
      exact hp

/-- The client gets the next message of the server. -/
private theorem receipt_some {next : Downlink} {rest : List Downlink} {raises : Bool} {msg : ToClient}
    (h : Agrees cfg w outstanding n) (hd : w.down = next :: rest) (hm : toClient? next = some msg) :
    Receipt cfg w outstanding (.receive next raises) rest (n + 1) := by
  have hdown := h.down
  rw [hd, List.filterMap_cons, hm] at hdown
  have hget : (sentTo w.sys.server.frontend.log w.identity)[n]? = some msg := by
    have hhead := congrArg List.head? hdown
    rw [List.head?_drop] at hhead
    exact hhead.symm
  have hrest : rest.filterMap toClient? = (sentTo w.sys.server.frontend.log w.identity).drop (n + 1) := by
    have htail := congrArg List.tail hdown
    rw [List.tail_drop] at htail
    exact htail
  have hcarries : ∀ p, (if Event.returnsTo (.receive next raises) = some p then 1 else 0) =
      if msg.carriesToken p then 1 else 0 := by
    intro p
    have hiff : Event.returnsTo (.receive next raises) = some p ↔ msg.carriesToken p = true := by
      rw [returnsTo_iff, hm]
      simp
    simp only [hiff]
  refine ⟨hrest, fun p => ?_, ?_, ?_⟩
  · rw [hcarries]
    exact h.backed.room h.reached.rooted hget p
  · rintro m ids raises' ⟨⟩
    obtain rfl := Option.some.inj hm
    obtain ⟨ref, hev⟩ := mem_sentTo.1 (List.mem_of_getElem? hget)
    exact (h.reached.welcomed ref _ m ids hev).1
  · intro told client htold hclient
    refine h.backed.receive h.reached.rooted hget (fun ht => (htold ht).imp_right ?_) fun p => ?_
    · rintro ⟨m, ids, raises', ⟨⟩⟩
      exact ⟨m, ids, (Option.some.inj hm).symm⟩
    · rw [← hcarries]
      exact hclient p

theorem receive {ev : Event} {w₁ : World} (h : Agrees cfg w outstanding n) (hreceive : w.receive ev = some w₁) :
    ∃ down n', w₁ = { w with down := down } ∧ Receipt cfg w outstanding ev down n' := by
  cases ev with
  | receive msg raises =>
    cases hd : w.down with
    | nil =>
      simp only [World.receive, hd] at hreceive
      cases hreceive
    | cons next rest =>
      simp only [World.receive, hd] at hreceive
      obtain ⟨rfl, hw₁⟩ := Option.ite_none_right_eq_some.1 hreceive
      cases hw₁
      cases hm : toClient? next with
      | none =>
        refine ⟨rest, n, rfl, receipt_none h ?_ ?_ (by simp [hd, hm])⟩
        · intro p hp
          obtain ⟨m, hm', -⟩ := returnsTo_iff.1 hp
          rw [hm] at hm'
          cases hm'
        · intro m ids raises' he
          cases he
          cases hm
      | some msg => exact ⟨rest, n + 1, rfl, receipt_some h hd hm⟩
  | _ =>
    cases hreceive
    exact ⟨w.down, n, rfl, receipt_none h (by simp [Event.returnsTo]) (by simp) rfl⟩

/-- A step of the client that does not lose the connection. -/
theorem client {ev : Event} {identity : Address} (h : Agrees cfg w outstanding n) (hev : ev ≠ .pollTimeout)
    (hstep : step cfg w (.client ev identity) = some w') : ∃ outstanding' n', Agrees cfg w' outstanding' n' := by
  obtain ⟨⟨client, out⟩, hclient, hstep⟩ := Option.bind_eq_some_iff.1 hstep
  obtain ⟨w₁, hreceive, hsend⟩ := Option.bind_eq_some_iff.1 hstep
  obtain ⟨hsteady, hout, hkeeps, htold⟩ := State.step_steady h.steady hev hclient
  obtain ⟨down, n', rfl, hreceipt⟩ := h.receive hreceive
  simp only [World.send, hout, Bool.false_eq_true, ↓reduceIte, Option.some.injEq] at hsend
  subst hsend
  have houtstanding := h.limited.outstanding_le h.numbered
  -- a token that comes back is that of an input which awaits its response
  have hpos : ∀ p, ev.returnsTo = some p → 0 < outstanding p := by
    intro p hp
    have hr := hreceipt.room p
    have hle : outstanding p ≤ cfg.numTokensPerProducer := houtstanding p
    rw [if_pos hp, World.tokens] at hr
    omega
  obtain ⟨outstanding₁, hanswer, hchange⟩ := Link.answer_of_pos hpos
  have hlink : Link.step ⟨w.client, outstanding⟩ ev = some { client := client, outstanding := fun p =>
      (if out.reconnects then 0 else outstanding₁ p) + out.sent.countP (Uplink.isInputOf p) } := by
    simp [Link.step, hclient, hanswer]
  have hsettled : Link.settled ⟨w.client, outstanding⟩ ev := by
    cases ev with
    | receive msg raises =>
      intro hdis
      have hconn := h.steady.1
      simp only at hdis
      rw [hconn] at hdis
      cases hdis
    | _ => trivial
  have hlimited := Link.limited_step hlink hsettled h.limited
  have hnumbered := h.numbered.step h.steady hev hreceipt.number hclient
  have hlimit := hlimited.outstanding_le hnumbered
  refine ⟨_, n', h.reachable, hlimited, hnumbered, hsteady,
    State.step_healthy h.limited.holds h.steady.1 hpos hclient, ?_, h.entry, hreceipt.down, ?_⟩
  · intro msg hmsg
    rcases List.mem_append.1 hmsg with hmsg | hmsg
    · exact (h.sent msg hmsg).imp_right fun hinput => ⟨hinput.1, hkeeps hinput.2⟩
    · refine (State.step_sent (fun p => ⟨_, h.limited.holds p⟩) hclient msg hmsg).imp_right fun hinput => ⟨hinput.1, ?_⟩
      obtain ⟨p, pool, hpool⟩ := hinput.2
      exact hkeeps (h.numbered.pools p pool hpool).2
  · refine hreceipt.backed _ _ htold fun p => ?_
    have hp := hchange p
    have hl := hlimit p
    have hle : outstanding p ≤ cfg.numTokensPerProducer := houtstanding p
    simp only [hout, Bool.false_eq_true, ↓reduceIte] at hl ⊢
    simp only [World.tokens, List.countP_append]
    omega

/-- The server takes a step, in which it may take up messages of the client. -/
theorem serve {act : Interleaved.Action} {sys : Sys} (h : Agrees cfg w outstanding n) (up : List Uplink)
    (hstep : Interleaved.step (transport cfg) w.sys act = some sys)
    (hclose : ∀ i stream, act = .closeStream i → w.sys.streams[i]? = some stream → stream.address ≠ w.identity)
    (hup : ∀ msg ∈ up, msg ∈ w.up)
    (hopen : w.identity ∈ act.opens → sys.server.frontend.clients.get? w.identity ≠ none)
    (hbacked : sys.Backs (transport cfg) w.identity (decide (w.identity ∈ sys.addresses)) n
      (w.client.registeredEvent = true) (World.tokens { w with up := up } outstanding cfg.numTokensPerProducer)) :
    Agrees cfg (World.serve { w with up := up } sys) outstanding n := by
  obtain ⟨acts, hrun⟩ := h.reachable
  obtain ⟨es, hes⟩ := (history_step hstep).log_grows
  refine ⟨⟨_, hrun.step (addressFree_of_zeromq rfl hstep) hstep⟩, h.limited, h.numbered, h.steady, h.healthy,
    fun msg hmsg => h.sent msg (hup _ hmsg), fun hmem => ?_, ?_, hbacked⟩
  · have hmem' : w.identity ∈ sys.addresses := hmem
    rw [addresses_step hstep, List.mem_append] at hmem'
    rcases hmem' with hold | hnew
    · obtain ⟨ref, href⟩ := Option.ne_none_iff_exists'.1 (h.entry hold)
      have hkept := entry_step rfl h.attached hstep hclose href
      exact fun hnone => Option.some_ne_none ref (hkept.symm.trans hnone)
    · exact hopen hnew
  · have hsent : World.sent { w with up := up } sys = sentTo es w.identity := by
      simp only [World.sent]
      rw [← hes, List.drop_left]
    have hmap : ((sentTo es w.identity).map Downlink.message).filterMap toClient? = sentTo es w.identity := by
      rw [List.filterMap_map]
      exact List.filterMap_some
    simp only [World.serve, hsent, List.filterMap_append, hmap, h.down]
    rw [← hes, sentTo_append, List.drop_append_of_le_length h.backed.received]

/-- The server takes a step for somebody else. -/
theorem server {act : Interleaved.Action} {sys : Sys} (h : Agrees cfg w outstanding n) (hforeign : w.foreign act = true)
    (hstep : Interleaved.step (transport cfg) w.sys act = some sys) : Agrees cfg (w.serve sys) outstanding n := by
  have hopens : w.identity ∉ act.opens := by
    intro hmem
    cases act with
    | openClient b =>
      obtain rfl := List.mem_singleton.1 hmem
      simp [World.foreign] at hforeign
    | openProducer b => cases hstep
    | _ => cases hmem
  have haddresses : decide (w.identity ∈ sys.addresses) = decide (w.identity ∈ w.sys.addresses) := by
    rw [addresses_step hstep]
    simp [hopens]
  refine h.serve w.up hstep ?_ (fun _ => id) (fun hmem => absurd hmem hopens) ?_
  · rintro i stream rfl hi
    simpa [World.foreign, hi] using hforeign
  · rw [haddresses]
    refine h.backed.elsewhere h.reached hstep hopens fun {_ _ _ _ stream} hact hi => ?_
    subst hact
    simpa [World.foreign, hi] using hforeign

/-- The server makes an entry for the client. -/
theorem accept {sys : Sys} (h : Agrees cfg w outstanding n)
    (hstep : Interleaved.step (transport cfg) w.sys (.openClient w.identity) = some sys) :
    Agrees cfg (w.serve sys) outstanding n := by
  have hfree : w.sys.server.frontend.clients.get? w.identity = none := addressFree_of_zeromq rfl hstep
  have hnew : w.identity ∉ w.sys.addresses := fun hmem => h.entry hmem hfree
  have hnow : w.identity ∈ sys.addresses := by
    rw [addresses_step hstep, List.mem_append]
    exact Or.inr (List.mem_singleton.2 rfl)
  have hbacked := h.backed
  rw [decide_eq_false hnew] at hbacked
  refine h.serve w.up hstep (fun _ _ he => by cases he) (fun _ => id) (fun _ => ?_) ?_
  · simp only [Interleaved.step] at hstep
    split at hstep
    · cases hstep
    · cases hstep
      simp [Frontend.addClient]
  · rw [decide_eq_true hnow]
    exact hbacked.accept h.reached hstep

/-- The consumer of the client's entry takes up a message. -/
theorem takeUp {i : Nat} {order : List Context} {b : Bool} {msg : Uplink} {rest : List Uplink}
    (h : Agrees cfg w outstanding n) (hup : w.up = msg :: rest) (hi : w.consumes i = true)
    (hstep : World.takeUp cfg { w with up := rest } i order b msg = some w') : Agrees cfg w' outstanding n := by
  have hrest : ∀ m ∈ rest, m ∈ w.up := fun m hm => hup ▸ List.mem_cons_of_mem _ hm
  -- a message that is no input leaves the tokens on the way
  have htokens : (∀ p, msg.isInputOf p = false) → ∀ p,
      World.tokens { w with up := rest } outstanding cfg.numTokensPerProducer p =
        w.tokens outstanding cfg.numTokensPerProducer p := by
    intro hmsg p
    simp [World.tokens, hup, hmsg p]
  have hkeep : (∀ p, msg.isInputOf p = false) → Agrees cfg { w with up := rest } outstanding n := by
    intro hmsg
    exact ⟨h.reachable, h.limited, h.numbered, h.steady, h.healthy, fun m hm => h.sent m (hrest _ hm), h.entry, h.down,
      h.backed.client_step id fun p => Nat.le_of_eq (htokens hmsg p)⟩
  cases msg with
  | hello =>
    cases hstep
    exact hkeep fun _ => rfl
  | heartbeat =>
    cases hstep
    have hkept := hkeep fun _ => rfl
    refine ⟨hkept.reachable, hkept.limited, hkept.numbered, hkept.steady, hkept.healthy, hkept.sent, hkept.entry, ?_,
      hkept.backed⟩
    have hnone : [Downlink.heartbeat].filterMap toClient? = [] := rfl
    rw [List.filterMap_append, hnone, List.append_nil]
    exact hkept.down
  | message msg =>
    obtain ⟨sys, hsys, heq⟩ := Option.map_eq_some_iff.1 hstep
    cases heq
    obtain ⟨stream, hstream, haddr, -⟩ := World.exists_stream_of_consumes hi
    have haddress : w.sys.addresses[i]? = some w.identity := by
      simp [Sys.addresses, hstream, haddr]
    have hkind := h.sent msg (hup ▸ List.mem_cons_self)
    refine h.serve rest hsys (fun _ _ he => by cases he) hrest (fun hmem => by cases hmem) ?_
    have haddresses : sys.addresses = w.sys.addresses := by
      rw [addresses_step hsys]
      simp [Interleaved.Action.opens]
    rw [haddresses]
    refine h.backed.message h.reached haddress hsys (fun hreg => ?_) fun p => ?_
    · rcases hkind with ⟨info, rfl⟩ | ⟨-, htold⟩
      · cases hreg
      · exact htold
    · rcases hkind with ⟨info, rfl⟩ | ⟨⟨input, rfl⟩, -⟩
      · simp [World.tokens, hup, Uplink.isInputOf, FromClient.isRegistration]
      · simp only [World.tokens, hup, List.countP_cons, Uplink.isInputOf, FromClient.isRegistration,
          FromClient.asInput, decide_eq_true_eq, true_and]
        omega

end Agrees

theorem agrees_step {act : Action} (h : Agrees cfg w outstanding n) (hsteady : act.steady = true)
    (hstep : step cfg w act = some w') : ∃ outstanding' n', Agrees cfg w' outstanding' n' := by
  cases act with
  | server act =>
    obtain ⟨hforeign, hstep⟩ := Option.ite_none_right_eq_some.1 hstep
    obtain ⟨sys, hsys, rfl⟩ := Option.map_eq_some_iff.1 hstep
    exact ⟨outstanding, n, h.server hforeign hsys⟩
  | client ev identity =>
    refine h.client ?_ hstep
    rintro rfl
    cases hsteady
  | accept =>
    obtain ⟨-, hstep⟩ := Option.ite_none_left_eq_some.1 hstep
    obtain ⟨sys, hsys, rfl⟩ := Option.map_eq_some_iff.1 hstep
    exact ⟨outstanding, n, h.accept hsys⟩
  | takeUp i order b =>
    simp only [step] at hstep
    split at hstep
    · rename_i msg rest hup
      obtain ⟨hi, hstep⟩ := Option.ite_none_right_eq_some.1 hstep
      exact ⟨outstanding, n, h.takeUp hup hi hstep⟩
    · cases hstep
  | forget => cases hsteady
  | restart => cases hsteady

theorem agrees_init (clientInfo : Option AnyProto) (ps : List String) (identity : Address) :
    Agrees cfg (machine cfg clientInfo ps identity).init (fun _ => 0) 0 := by
  have hlaunch : (Link.machine clientInfo ps).RunWhere Link.settled [] { client := .launch clientInfo ps } := .init
  have hserver : (Interleaved.machine (transport cfg)).Run [] {} := .init
  have hnumbered : (State.launch clientInfo ps).Numbered cfg.numTokensPerProducer := by
    constructor
    · intro hreg
      cases hreg
    · intro p pool hpool
      cases hpool
  refine ⟨⟨[], .init⟩, Link.run_limited hlaunch, hnumbered, ⟨rfl, rfl⟩, State.healthy_of_none rfl, by simp [machine],
    ?_, rfl, ?_⟩
  · intro hmem
    cases hmem
  · have hroot : Sys.Rooted {} := Interleaved.run_rooted hserver
    refine (Sys.Backs.start hroot (by simp [Sys.addresses]) fun p => ?_).client_step
      (fun hr => by cases hr) fun p => Nat.le_refl _
    simp [World.tokens, machine, Uplink.isInputOf, transport]

theorem run_agrees {clientInfo : Option AnyProto} {ps : List String} {identity : Address} {as : List Action}
    (h : (machine cfg clientInfo ps identity).RunWhere (fun _ act => act.steady = true) as w) :
    ∃ outstanding n, Agrees cfg w outstanding n := by
  refine h.invariant (I := fun w => ∃ outstanding n, Agrees cfg w outstanding n)
    ⟨_, _, agrees_init clientInfo ps identity⟩ ?_
  rintro w act w' ⟨outstanding, n, hagrees⟩ hsteady hstep
  exact agrees_step hagrees hsteady hstep

/-- As long as the connection is not lost: the server never answers an input of the client with `NO_TOKENS`, nor for
lack of a registration; the client neither releases a semaphore above its bound nor looks for a token pool that is not
there; and it never has more tokens for a producer than the server told it. -/
theorem zeromq_never_refused {clientInfo : Option AnyProto} {ps : List String} {identity : Address} {as : List Action}
    (h : (machine cfg clientInfo ps identity).RunWhere (fun _ act => act.steady = true) as w) :
    (∀ ref wrapper, .errorReply ref w.identity wrapper ∈ w.sys.server.frontend.log →
      wrapper.result.status.code ≠ .noTokens ∧
      wrapper.result.status ≠ ⟨.unspecifiedError, "Client must register before sending input"⟩) ∧
    w.client.ended ≠ some .tooManyTokens ∧ w.client.ended ≠ some .noTokenPool ∧
    ∀ p pool, w.client.tokens p = some pool → pool.value + w.client.held p ≤ cfg.numTokensPerProducer := by
  obtain ⟨outstanding, n, hagrees⟩ := run_agrees h
  refine ⟨fun ref wrapper hev => not_or.1 (hagrees.backed.unrefused ref wrapper hev), hagrees.healthy.1,
    hagrees.healthy.2, fun p pool hpool => ?_⟩
  have hmax := (hagrees.numbered.pools p pool hpool).1
  rw [← hmax]
  exact (hagrees.limited.holds p).value_le hpool

/-- A client with one token gets it back with a result and sends another frame. -/
theorem zeromq_never_refused_of_two_frames :
    ∃ as w, (machine { numTokensPerProducer := 1, sizeForQueues := 1 } none ["P"] "z").RunWhere
        (fun _ act => act.steady = true) as w ∧
      (w.client.producers "P").map Producer.frameId = some 3 ∧
      (∀ ref wrapper, .errorReply ref w.identity wrapper ∈ w.sys.server.frontend.log →
        wrapper.result.status.code ≠ .noTokens ∧
        wrapper.result.status ≠ ⟨.unspecifiedError, "Client must register before sending input"⟩) ∧
      w.client.ended ≠ some .tooManyTokens ∧ w.client.ended ≠ some .noTokenPool ∧
      ∀ p pool, w.client.tokens p = some pool → pool.value + w.client.held p ≤ 1 := by
  obtain ⟨w, hrun, hP⟩ := Machine.exists_runWhere
    (M := machine { numTokensPerProducer := 1, sizeForQueues := 1 } none ["P"] "z")
    (G := fun _ act => act.steady = true) (g := fun _ act => act.steady) (fun _ _ => id)
    (fun w => (w.client.producers "P").map Producer.frameId = some 3)
    [.server .openSession, .server (.engineMessage 0 (.register "A" false)), .accept, .takeUp 0 [] false,
      .client .register "", .client .registrationSent "", .takeUp 0 [] false, .server (.resumeStream 0 false true),
      .client (.receive (.message (.registered 1 {"A"})) false) "", .client (.start "P") "",
      .client (.loop "P" true false) "", .client (.getToken "P") "", .client (.gotToken "P" ["A"]) "",
      .client (.produce "P" (.frame { payloadType := .text } ["A"] ["A"])) "", .takeUp 0 [0] true,
      .server (.resumeStream 0 false true),
      .server (.engineMessage 0 (.result { status := { code := .success }, frameId := 1 })),
      .server (.resumeSession 0 false true),
      .client (.receive (.message (.resultWrapper
        ⟨"P", true, { status := { code := .success }, frameId := 1 }⟩)) false) "",
      .client (.inputSent "P") "", .client (.loop "P" true false) "", .client (.getToken "P") "",
      .client (.gotToken "P" ["A"]) "",
      .client (.produce "P" (.frame { payloadType := .text } ["A"] ["A"])) ""] (by decide)
  exact ⟨_, w, hrun, hP, zeromq_never_refused hrun⟩

end ZeroMQ

end Gabriel
