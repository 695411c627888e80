import Gabriel.Lib.Machine
import Gabriel.Client.ZeroMQLemmas

/-!
# The token limit of the ZeroMQ client

A token of a producer is in its pool, in the hands of the producer loop, or with an input that awaits its response.
When the client hears from the server again after a disconnection it fills all pools, whatever became of their tokens.
If no token is in the hands of a loop or with an input on the new socket at that point, a pool never has more tokens
than its maximum (`Link.Limited`).
-/

namespace Gabriel.ZeroMQClient

/-! ### The client and the inputs on its socket -/

def State.held (s : State) (p : String) : Nat := ((s.producers p).map fun producer => producer.pc.held).getD 0

/-- The producer to which a received message returns a token. -/
def Event.returnsTo : Event → Option String
  | .receive (.message (.resultWrapper wrapper)) _ => if wrapper.returnToken then some wrapper.producerId else none
  | _ => none

/-- The client, and for each producer the number of inputs sent on the current socket for which no response has
returned the token. -/
structure Link where
  client : State
  outstanding : String → Nat := fun _ => 0

namespace Link

/-- A response that returns a token answers an input that was sent on the current socket. -/
def answer (outstanding : String → Nat) : Option String → Option (String → Nat)
  | none => some outstanding
  | some p => if 0 < outstanding p then some (Function.update outstanding p (outstanding p - 1)) else none

def step (l : Link) (ev : Event) : Option Link := do
  let (client, out) ← l.client.step ev
  let outstanding ← answer l.outstanding ev.returnsTo
  return {
    client := client
    outstanding := fun p =>
      (if out.reconnects then 0 else outstanding p) + out.sent.countP (Uplink.isInputOf p) }

/-- A client with the producers `ps`. -/
def machine (clientInfo : Option AnyProto) (ps : List String) : Machine Link Event :=
  { init := { client := .launch clientInfo ps }, step := step }

end Link

namespace State

variable {s s' : State} {p q : String} {n : Nat}

/-! ### The tokens of one producer -/

/-- The tokens of a producer with `n` inputs outstanding do not exceed the maximum of its pool. -/
def Fits (n : Nat) : Option TokenPool → Option Producer → Prop
  | some pool, some producer => producer.pc ≠ .starting ∧ pool.value + producer.pc.held + n ≤ pool.maxTokens
  | none, some producer => (producer.pc = .starting ∨ producer.pc = .finished) ∧ n = 0
  | none, none => n = 0
  | some _, none => False

/-- The producer `p` of a client with `n` inputs outstanding. -/
def Holds (s : State) (p : String) (n : Nat) : Prop := Fits n (s.tokens p) (s.producers p)

theorem Holds.of_same (h : s.Holds p n) (htokens : s'.tokens p = s.tokens p)
    (hproducers : s'.producers p = s.producers p) : s'.Holds p n := by
  unfold Holds at *
  rwa [htokens, hproducers]

theorem Holds.of_pool (pool : TokenPool) (producer : Producer) (htokens : s.tokens p = some pool)
    (hproducer : s.producers p = some producer) (hpc : producer.pc ≠ .starting)
    (hle : pool.value + producer.pc.held + n ≤ pool.maxTokens) : s.Holds p n := by
  unfold Holds
  rw [htokens, hproducer]
  exact ⟨hpc, hle⟩

/-- The pool of a producer whose handler is in its loop. -/
theorem Holds.pool {producer : Producer} (h : s.Holds p n) (hproducer : s.producers p = some producer)
    (hstarted : producer.pc ≠ .starting) (hrunning : producer.pc ≠ .finished) :
    ∃ pool, s.tokens p = some pool ∧ pool.value + producer.pc.held + n ≤ pool.maxTokens := by
  unfold Holds at h
  rw [hproducer] at h
  cases hpool : s.tokens p with
  | none =>
    rw [hpool] at h
    exact absurd h.1 (by simp [hstarted, hrunning])
  | some pool =>
    rw [hpool] at h
    exact ⟨pool, rfl, h.2⟩

/-- The handler of `p` goes on, and what it no longer holds is with an input. -/
theorem Holds.goTo {producer : Producer} {pc : ProducerPc} {m : Nat} (h : s.Holds p n)
    (hproducer : s.producers p = some producer) (hstarted : producer.pc ≠ .starting)
    (hrunning : producer.pc ≠ .finished) (hpc : pc ≠ .starting) (hheld : pc.held + m ≤ producer.pc.held + n) :
    (s.goTo p pc).Holds p m := by
  obtain ⟨pool, hpool, hle⟩ := h.pool hproducer hstarted hrunning
  refine .of_pool pool { producer with pc := pc } hpool (by simp [hproducer]) hpc ?_
  simp only
  omega

theorem Holds.returned (h : s.Holds p (n + 1)) (hr : Returned s p s') : s'.Holds p n := by
  unfold Holds at h
  cases hproducer : s.producers p with
  | none =>
    rw [hproducer] at h
    cases hpool : s.tokens p <;> rw [hpool] at h
    · cases h
    · exact h.elim
  | some producer =>
    rw [hproducer] at h
    cases hpool : s.tokens p with
    | none => rw [hpool] at h; cases h.2
    | some pool =>
      rw [hpool] at h
      obtain ⟨hpc, hle⟩ := h
      cases hr with
      | failed => exact .of_pool pool producer hpool hproducer hpc (by omega)
      | @handed pool' producer' hpool' hproducer' hwait =>
        rw [hproducer] at hproducer'
        cases hproducer'
        refine .of_pool pool { producer with pc := .woken pool'.resets } hpool (by simp [hproducer])
          (by simp) ?_
        simp only [hwait, ProducerPc.held] at hle ⊢
        omega
      | @stored pool' hpool' =>
        rw [hpool] at hpool'
        cases hpool'
        refine .of_pool { pool with value := pool.value + 1 } producer (by simp) hproducer hpc ?_
        simp only
        omega

/-- A token comes back with a response. -/
theorem Holds.returnToken (h : s.Holds p (n + 1)) : (s.returnToken p).Holds p n :=
  h.returned (returnToken_cases s p)

/-- The handler of `p` gives its token back. -/
theorem Holds.giveBack {producer : Producer} {pc : ProducerPc} (h : s.Holds p n)
    (hproducer : s.producers p = some producer) (hheld : producer.pc.held = 1) (hpc : pc ≠ .starting)
    (hpc' : pc.held = 0) : ((s.returnToken p).goTo p pc).Holds p n := by
  have hstarted : producer.pc ≠ .starting := by rintro he; rw [he] at hheld; cases hheld
  have hrunning : producer.pc ≠ .finished := by rintro he; rw [he] at hheld; cases hheld
  have hgone : ∀ {s'}, Returned s p s' → (s'.goTo p pc).Holds p n := by
    intro s' hr
    obtain ⟨pool, hpool, hle⟩ := h.pool hproducer hstarted hrunning
    cases hr with
    | failed => exact h.goTo hproducer hstarted hrunning hpc (by omega)
    | @handed pool' producer' hpool' hproducer' hwait =>
      rw [hproducer] at hproducer'
      cases hproducer'
      rw [hwait] at hheld
      cases hheld
    | @stored pool' hpool' =>
      rw [hpool] at hpool'
      cases hpool'
      refine .of_pool { pool with value := pool.value + 1 } { producer with pc := pc }
        (by simp) (by simp [hproducer]) hpc ?_
      simp only
      omega
  exact hgone (returnToken_cases s p)

/-! ### The steps of the client -/

/-- Only the producer `p` is touched. -/
structure Touches (p : String) (s s' : State) : Prop where
  tokens : ∀ q, q ≠ p → s'.tokens q = s.tokens q
  producers : ∀ q, q ≠ p → s'.producers q = s.producers q
  producerIds : s'.producerIds = s.producerIds

theorem touches_goTo (s : State) (p : String) (pc : ProducerPc) : Touches p s (s.goTo p pc) :=
  ⟨fun _ _ => rfl, fun _ hq => Function.update_of_ne hq .., rfl⟩

theorem touches_setPool (s : State) (p : String) (pool : TokenPool) : Touches p s (s.setPool p pool) :=
  ⟨fun _ hq => Function.update_of_ne hq .., fun _ _ => rfl, rfl⟩

theorem Touches.trans {s'' : State} (h : Touches p s s') (h' : Touches p s' s'') : Touches p s s'' :=
  ⟨fun q hq => (h'.tokens q hq).trans (h.tokens q hq), fun q hq => (h'.producers q hq).trans (h.producers q hq),
    h'.producerIds.trans h.producerIds⟩

theorem touches_returnToken (s : State) (p : String) : Touches p s (s.returnToken p) := by
  have hr := returnToken_cases s p
  generalize s.returnToken p = s' at hr
  cases hr with
  | failed => exact ⟨fun _ _ => rfl, fun _ _ => rfl, rfl⟩
  | handed => exact touches_goTo ..
  | stored => exact touches_setPool ..

/-- The handler of `p` touches only `p`. -/
theorem ProducerStep.touches {producer : Producer} {out : Output} (h : ProducerStep s p producer s' out) :
    Touches p s s' := by
  cases h with
  | failed => exact ⟨fun _ _ => rfl, fun _ _ => rfl, rfl⟩
  | unstarted => exact touches_goTo ..
  | started => exact (touches_setPool ..).trans (touches_goTo ..)
  | moved => exact touches_goTo ..
  | acquired => exact (touches_setPool ..).trans (touches_goTo ..)
  | timedOut => exact ⟨fun _ _ => rfl, fun _ hq => Function.update_of_ne hq .., rfl⟩
  | givenBack =>
    exact ⟨fun _ hq => Function.update_of_ne hq .., fun _ hq => Function.update_of_ne hq .., rfl⟩
  | noTargets =>
    have hgone := touches_goTo (s.returnToken p) p .finished
    exact (touches_returnToken s p).trans ⟨hgone.tokens, hgone.producers, hgone.producerIds⟩
  | skipped =>
    have hgone := touches_goTo (s.returnToken p) p .looping
    exact (touches_returnToken s p).trans ⟨hgone.tokens, hgone.producers, hgone.producerIds⟩
  | sent => exact ⟨fun _ _ => rfl, fun _ hq => Function.update_of_ne hq .., rfl⟩

/-- The handler of `p` sends only inputs of `p`. -/
theorem ProducerStep.countP_sent {producer : Producer} {out : Output} (h : ProducerStep s p producer s' out)
    (hq : q ≠ p) : out.sent.countP (Uplink.isInputOf q) = 0 := by
  cases h with
  | sent input _ hp => simp [Uplink.isInputOf, hp, hq.symm]
  | _ => rfl

/-- The handler of `p` keeps within the limit. -/
theorem Holds.stepProducer {producer : Producer} {out : Output} (h : s.Holds p n)
    (hproducer : s.producers p = some producer) (hstep : ProducerStep s p producer s' out) :
    s'.Holds p (n + out.sent.countP (Uplink.isInputOf p)) := by
  cases hstep with
  | failed => exact h
  | unstarted hpc =>
    unfold Holds at *
    simp only [goTo_tokens, goTo_producers, Function.update_self, hproducer, Option.map_some]
    rw [hproducer] at h
    cases hpool : s.tokens p with
    | none => rw [hpool] at h; exact ⟨Or.inr rfl, h.2⟩
    | some pool => rw [hpool] at h; exact absurd hpc h.1
  | started hpc =>
    unfold Holds at *
    rw [hproducer] at h
    cases hpool : s.tokens p with
    | none =>
      rw [hpool] at h
      simp [hproducer, Fits, TokenPool.new, ProducerPc.held, h.2]
    | some pool => rw [hpool] at h; exact absurd hpc h.1
  | moved hstarted hrunning hpc hheld => exact h.goTo hproducer hstarted hrunning hpc (by simpa using hheld)
  | @acquired pool hpc hpool hpos =>
    obtain ⟨pool', hpool', hle⟩ := h.pool hproducer (by simp [hpc]) (by simp [hpc])
    rw [hpool] at hpool'
    cases hpool'
    refine .of_pool { pool with value := pool.value - 1 } { producer with pc := .woken pool.resets }
      (by simp) (by simp [hproducer]) (by simp) ?_
    simp only [ProducerPc.held, List.countP_nil]
    omega
  | timedOut hstarted hrunning =>
    exact h.goTo (s := s) hproducer hstarted hrunning (by simp) (by simp [ProducerPc.held])
  | @givenBack pool hpc hpool =>
    obtain ⟨pool', hpool', hle⟩ := h.pool hproducer (by simp [hpc]) (by simp [hpc])
    rw [hpool] at hpool'
    cases hpool'
    refine .of_pool { pool with value := pool.value + 1 } { producer with pc := .looping }
      (by simp) (by simp [hproducer]) (by simp) ?_
    simp only [hpc, ProducerPc.held, List.countP_nil] at hle ⊢
    omega
  | noTargets hpc => exact h.giveBack hproducer (by simp [hpc, ProducerPc.held]) (by simp) rfl
  | skipped _ hpc => exact h.giveBack hproducer (by simp [hpc, ProducerPc.held]) (by simp) rfl
  | sent input hpc hp =>
    obtain ⟨pool, hpool, hle⟩ := h.pool hproducer (by simp [hpc]) (by simp [hpc])
    refine .of_pool pool { pc := .sending, frameId := producer.frameId + 1 } hpool (by simp) (by simp) ?_
    simp [hpc, ProducerPc.held, Uplink.isInputOf, hp] at hle ⊢
    omega

/-- The handlers are those of the producers of the client. -/
def Known (s : State) : Prop := ∀ p, p ∉ s.producerIds → s.producers p = none

theorem Known.of_same (h : s.Known) (hids : s'.producerIds = s.producerIds) (hproducers : s'.producers = s.producers) :
    s'.Known := by
  intro p hp
  rw [hproducers]
  exact h p (hids ▸ hp)

theorem Known.touches (h : s.Known) (ht : Touches p s s') (hp : s.producers p = none → s'.producers p = none) :
    s'.Known := by
  intro q hq
  rw [ht.producerIds] at hq
  by_cases hqp : q = p
  · exact hqp ▸ hp (hqp ▸ h q hq)
  · rw [ht.producers q hqp]
    exact h q hq

theorem Known.returnToken (h : s.Known) : (s.returnToken p).Known := by
  refine h.touches (touches_returnToken s p) fun hnone => ?_
  have hr := returnToken_cases s p
  generalize s.returnToken p = s' at hr
  cases hr with
  | failed => exact hnone
  | handed _ hproducer => rw [hnone] at hproducer; cases hproducer
  | stored => exact hnone

theorem Known.processResponse {w : ResultWrapper} (h : s.Known) (raises : Bool) :
    (s.processResponse w raises).Known := by
  have hcases := processResponse_cases s w raises
  generalize s.processResponse w raises = s₁ at hcases ⊢
  cases hcases with
  | failed err => exact h.of_same rfl rfl
  | returned _ => exact h.returnToken
  | kept _ => exact h

theorem Known.receive (h : s.Known) (msg : Downlink) (raises : Bool) : (s.receive msg raises).Known := by
  have hnote : s.noteConnection.Known := by
    unfold noteConnection
    split
    · exact h
    · exact h.of_same rfl rfl
  have hmsg : (s.noteConnection.processMessage raises msg).Known := by
    unfold processMessage
    split
    · exact hnote.of_same rfl rfl
    · exact hnote
    · exact hnote.of_same rfl rfl
    · exact hnote.processResponse raises
    · exact hnote.of_same rfl rfl
  exact hmsg.of_same rfl rfl

theorem Holds.mono {m : Nat} (h : s.Holds p n) (hm : m ≤ n) : s.Holds p m := by
  unfold Holds at *
  cases hpool : s.tokens p <;> cases hproducer : s.producers p <;> rw [hpool, hproducer] at h
  · exact Nat.le_zero.1 (h ▸ hm)
  · exact ⟨h.1, Nat.le_zero.1 (h.2 ▸ hm)⟩
  · exact h.elim
  · exact ⟨h.1, Nat.le_trans (Nat.add_le_add_left hm _) h.2⟩

/-- The pools are filled when no token is away. -/
theorem Holds.resetTokens (h : s.Holds p n) (hheld : s.held p = 0) (hn : n = 0) : s.resetTokens.Holds p n := by
  unfold Holds at *
  subst hn
  cases hpool : s.tokens p <;> cases hproducer : s.producers p <;> rw [hpool, hproducer] at h <;>
    simp only [State.resetTokens, hpool, hproducer, Option.map_none, Option.map_some]
  · exact rfl
  · exact h
  · exact h.elim
  · simp only [held, hproducer, Option.map_some, Option.getD_some] at hheld
    refine ⟨h.1, ?_⟩
    simp [TokenPool.resetTokens, hheld]

theorem Holds.noteConnection (h : s.Holds p n) (hsettled : s.connected = false → s.held p = 0 ∧ n = 0) :
    s.noteConnection.Holds p n := by
  unfold State.noteConnection
  split
  · exact h
  · obtain ⟨hheld, hn⟩ := hsettled (by simpa using ‹¬ s.connected = true›)
    exact h.resetTokens hheld hn

/-- A response that returns a token answers an input. -/
theorem Holds.processResponse {w : ResultWrapper} (h : s.Holds p n) (raises : Bool)
    (hw : w.returnToken = true → w.producerId = p → 0 < n) :
    (s.processResponse w raises).Holds p (if w.returnToken = true ∧ w.producerId = p then n - 1 else n) := by
  have hcases := processResponse_cases s w raises
  generalize s.processResponse w raises = s₁ at hcases ⊢
  cases hcases with
  | failed err =>
    refine Holds.mono (n := n) h ?_
    split <;> omega
  | returned hret =>
    by_cases hp : w.producerId = p
    · rw [if_pos ⟨hret, hp⟩, hp]
      have hpos := hw hret hp
      exact Holds.returnToken (by rwa [Nat.sub_add_cancel hpos])
    · rw [if_neg (fun he => hp he.2)]
      have htouch := touches_returnToken s w.producerId
      exact h.of_same (htouch.tokens p (Ne.symm hp)) (htouch.producers p (Ne.symm hp))
  | kept hret =>
    rw [if_neg (fun he => by simp [hret] at he)]
    exact h

end State

/-! ### All steps -/

namespace Link

open State

variable {l l' : Link} {ev : Event}

/-- When the client hears from the server again, no producer loop holds a token and every input on the current socket
has its response. -/
def settled (l : Link) : Event → Prop
  | .receive _ _ => l.client.connected = false →
      ∀ p ∈ l.client.producerIds, l.client.held p = 0 ∧ l.outstanding p = 0
  | _ => True

instance (l : Link) : DecidablePred l.settled
  | .receive _ _ => inferInstanceAs (Decidable (_ → ∀ _ ∈ _, _ ∧ _))
  | .stop | .cancel | .pollTimeout | .register | .registrationSent | .retry | .acknowledged | .reregister
  | .heartbeat _ | .start _ | .loop _ _ _ | .unpaused _ | .getToken _ | .tokenTimeout _ | .gotToken _ _
  | .reconnected _ | .produceTimeout _ | .produce _ _ | .inputSent _ => inferInstanceAs (Decidable True)

/-- Every producer keeps within the limit of its pool. -/
structure Limited (l : Link) : Prop where
  holds : ∀ p, l.client.Holds p (l.outstanding p)
  known : l.client.Known

theorem Limited.receive {msg : Downlink} {raises : Bool} {outstanding : String → Nat} (h : l.Limited)
    (hact : l.settled (.receive msg raises))
    (hanswer : answer l.outstanding (Event.returnsTo (.receive msg raises)) = some outstanding) :
    Limited { client := l.client.receive msg raises, outstanding := outstanding } := by
  -- no token is away if the pools are filled
  have hsettled : ∀ p, l.client.connected = false → l.client.held p = 0 ∧ l.outstanding p = 0 := by
    intro p hconn
    by_cases hp : p ∈ l.client.producerIds
    · exact hact hconn p hp
    · have hnone := h.known p hp
      have hholds := h.holds p
      unfold Holds at hholds
      rw [hnone] at hholds
      refine ⟨by simp [held, hnone], ?_⟩
      cases hpool : l.client.tokens p <;> rw [hpool] at hholds
      · exact hholds
      · exact hholds.elim
  have hnote : ∀ p, l.client.noteConnection.Holds p (l.outstanding p) := fun p =>
    (h.holds p).noteConnection (hsettled p)
  have hsame : outstanding = l.outstanding →
      (∀ p, (l.client.noteConnection.processMessage raises msg).Holds p (l.outstanding p)) →
      ∀ p, (l.client.receive msg raises).Holds p (outstanding p) := by
    rintro rfl hholds p
    exact (hholds p).of_same rfl rfl
  refine ⟨?_, h.known.receive msg raises⟩
  rcases msg with _ | _ | ⟨n, ids⟩ | w | ids
  · exact hsame (Option.some.inj hanswer).symm fun p => (hnote p).of_same rfl rfl
  · exact hsame (Option.some.inj hanswer).symm hnote
  · exact hsame (Option.some.inj hanswer).symm fun p => (hnote p).of_same rfl rfl
  · intro p
    have houtstanding : (w.returnToken = true → w.producerId = p → 0 < l.outstanding p) ∧
        outstanding p = if w.returnToken = true ∧ w.producerId = p then l.outstanding p - 1 else l.outstanding p := by
      by_cases hret : w.returnToken = true
      · simp only [Event.returnsTo, hret, ↓reduceIte, answer] at hanswer
        obtain ⟨hpos, heq⟩ := Option.ite_none_right_eq_some.1 hanswer
        cases heq
        refine ⟨fun _ hp => hp ▸ hpos, ?_⟩
        by_cases hp : w.producerId = p
        · simp [hret, hp]
        · simp [hp, Function.update_of_ne (Ne.symm hp)]
      · simp only [Event.returnsTo, hret, Bool.false_eq_true, ↓reduceIte, answer, Option.some.injEq] at hanswer
        exact ⟨fun he => absurd he hret, by simp [hret, hanswer]⟩
    simp only [houtstanding.2]
    exact ((hnote p).processResponse raises houtstanding.1).of_same rfl rfl
  · exact hsame (Option.some.inj hanswer).symm fun p => (hnote p).of_same rfl rfl

theorem limited_step (hstep : step l ev = some l') (hact : l.settled ev) (h : l.Limited) : l'.Limited := by
  obtain ⟨⟨client, out⟩, hclient, hstep⟩ := Option.bind_eq_some_iff.1 hstep
  obtain ⟨outstanding, hanswer, hstep⟩ := Option.bind_eq_some_iff.1 hstep
  cases hstep
  cases step_cases hclient with
  | @producer p producer hev hproducer hp =>
    have hsame : outstanding = l.outstanding := by
      have hnone : ev.returnsTo = none := by cases ev <;> first | rfl | cases hev
      rw [hnone] at hanswer
      exact (Option.some.inj hanswer).symm
    have htouch := hp.touches
    refine ⟨fun q => ?_, h.known.touches htouch fun hnone => ?_⟩
    · simp only [hp.reconnects, Bool.false_eq_true, ↓reduceIte, hsame]
      by_cases hqp : q = p
      · subst hqp
        exact (h.holds q).stepProducer hproducer hp
      · rw [hp.countP_sent hqp]
        exact (h.holds q).of_same (htouch.tokens q hqp) (htouch.producers q hqp)
    · rw [hnone] at hproducer
      cases hproducer
  | task hev ht =>
    cases ht with
    | plain hne hs hsent =>
      have hsame : outstanding = l.outstanding := by
        have hnone : ev.returnsTo = none := by
          cases ev with
          | receive msg raises => exact absurd rfl (hne msg raises)
          | _ => rfl
        rw [hnone] at hanswer
        exact (Option.some.inj hanswer).symm
      refine ⟨fun q => ?_, h.known.of_same hs.producerIds hs.producers⟩
      simp only [Bool.false_eq_true, ↓reduceIte, hsame, hsent]
      exact (h.holds q).of_same (by rw [hs.tokens]) (by rw [hs.producers])
    | disconnected =>
      exact ⟨fun q => Holds.mono (n := l.outstanding q) (h.holds q) (Nat.zero_le _), h.known⟩
    | received msg raises => exact h.receive hact hanswer
    | reregistered =>
      cases hanswer
      exact ⟨h.holds, h.known⟩

theorem run_limited {clientInfo : Option AnyProto} {ps : List String} {evs : List Event}
    (h : (machine clientInfo ps).RunWhere settled evs l) : l.Limited := by
  have hinit : Limited (machine clientInfo ps).init := by
    refine ⟨fun p => ?_, fun p hp => if_neg hp⟩
    unfold Holds
    by_cases hp : p ∈ ps
    · simp [machine, launch, hp, Fits]
    · simp [machine, launch, hp, Fits]
  exact h.invariant hinit (fun _ _ _ h hact hstep => limited_step hstep hact h)

end Link

/-- In every run of the client in which it hears from the server again after a disconnection only when no producer loop
holds a token and every input on the current socket has its response, the tokens in a pool and in the hands of its
producer loop are at most the maximum of the pool. -/
theorem tokens_within_limit {clientInfo : Option AnyProto} {ps : List String} {evs : List Event} {l : Link}
    (h : (Link.machine clientInfo ps).RunWhere Link.settled evs l) (p : String) (pool : TokenPool)
    (hpool : l.client.tokens p = some pool) : pool.value + l.client.held p ≤ pool.maxTokens := by
  have hholds := (Link.run_limited h).holds p
  unfold State.Holds at hholds
  rw [hpool] at hholds
  cases hproducer : l.client.producers p with
  | none => rw [hproducer] at hholds; exact hholds.elim
  | some producer =>
    rw [hproducer] at hholds
    have hle := hholds.2
    simp only [State.held, hproducer, Option.map_some, Option.getD_some]
    omega

/-- A client sends an input, is disconnected and hears from the server again when its producer waits for the pool to
be filled; then it sends another input, which is answered. -/
theorem tokens_within_limit_of_reconnection :
    ∃ evs l pool, (Link.machine none ["P"]).RunWhere Link.settled evs l ∧ l.client.tokens "P" = some pool ∧
      pool = { maxTokens := 1, value := 1, bounded := false, resets := 1 } ∧
      pool.value + l.client.held "P" ≤ pool.maxTokens := by
  obtain ⟨l, hrun, h⟩ := Machine.exists_runWhere (M := Link.machine none ["P"]) (G := Link.settled)
    (g := fun l ev => decide (l.settled ev)) (fun _ _ h => of_decide_eq_true h)
    (fun l => l.client.tokens "P" = some { maxTokens := 1, value := 1, bounded := false, resets := 1 })
    [.register, .registrationSent, .receive (.message (.registered 1 {"E"})) false, .start "P",
      .loop "P" true false, .getToken "P", .gotToken "P" ["E"],
      .produce "P" (.frame { payload := .stringPayload "frame" } ["E"] ["E"]), .inputSent "P", .loop "P" true false,
      .getToken "P", .pollTimeout, .receive .heartbeat false, .tokenTimeout "P", .loop "P" true false, .getToken "P",
      .gotToken "P" ["E"], .produce "P" (.frame { payload := .stringPayload "frame" } ["E"] ["E"]),
      .receive (.message (.resultWrapper
        { producerId := "P", returnToken := true, result := { status := { code := .success } } })) false]
    (by decide)
  exact ⟨_, l, _, hrun, h, rfl, tokens_within_limit hrun "P" _ h⟩

/-- The client is disconnected while a producer loop with the only token waits for its producer.  The first message on
the new socket fills the pool, and the loop still has its token.  When the input that the loop then sends is answered,
the pool has two tokens. -/
theorem tokens_exceed_limit :
    (∃ evs l pool, (Link.machine none ["P"]).Run evs l ∧ l.client.tokens "P" = some pool ∧
      pool.maxTokens = 1 ∧ pool.value + l.client.held "P" = 2) ∧
    ∃ evs l pool, (Link.machine none ["P"]).Run evs l ∧ l.client.tokens "P" = some pool ∧
      pool.maxTokens = 1 ∧ pool.value = 2 := by
  constructor
  · obtain ⟨l, hrun, hpool, hheld⟩ := Machine.exists_run (M := Link.machine none ["P"])
      (fun l => l.client.tokens "P" = some { maxTokens := 1, value := 1, bounded := false, resets := 1 } ∧
        l.client.held "P" = 1)
      [.register, .registrationSent, .receive (.message (.registered 1 {"E"})) false, .start "P",
        .loop "P" true false, .getToken "P", .gotToken "P" ["E"], .pollTimeout, .receive .heartbeat false] (by decide)
    exact ⟨_, l, _, hrun, hpool, rfl, by rw [hheld]⟩
  · obtain ⟨l, hrun, hpool⟩ := Machine.exists_run (M := Link.machine none ["P"])
      (fun l => l.client.tokens "P" = some { maxTokens := 1, value := 2, bounded := false, resets := 1 })
      [.register, .registrationSent, .receive (.message (.registered 1 {"E"})) false, .start "P",
        .loop "P" true false, .getToken "P", .gotToken "P" ["E"], .pollTimeout, .receive .heartbeat false,
        .produce "P" (.frame { payload := .stringPayload "frame" } ["E"] ["E"]),
        .receive (.message (.resultWrapper
        { producerId := "P", returnToken := true, result := { status := { code := .success } } })) false]
      (by decide)
    exact ⟨_, l, _, hrun, hpool, rfl, rfl⟩

end Gabriel.ZeroMQClient
