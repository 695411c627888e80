import Gabriel.Client.StopResume
import Gabriel.Client.ZeroMQSteps

/-!
# Stopping and resuming a producer of the ZeroMQ client

The producer loop of `ZeroMQClient` looks at the flag of its producer as that of `GrpcClient` does, and then waits for a
token and for the connection.  It calls `produce` in a task of its own, so that a call may outlast the wait for its
result, and the loop comes back to it with another token.  The task starts some time after it was created, and reads the
flag when it starts.

As for the other clients the client survives if no producer is stopped between the test of its flag and the start of
`produce` (`Pausable.Ready`), and stopping a producer does nothing to its tokens (`Pausable.Balanced`).
-/

namespace Gabriel.ZeroMQClient

open GrpcClient (Produced)

/-- A `producer_task`: it has not started, it is in the producer of the application, or it has raised an exception
because the producer was stopped. -/
inductive ProducerTask
  | created
  | entered
  | refused
  deriving DecidableEq, Repr

/-- A client whose producers can be stopped. -/
structure Pausable where
  client : State
  /-- `_running` of each producer. -/
  running : String → Bool := fun _ => true
  /-- The thread of `_wait_for_running` has seen the flag set. -/
  seen : String → Bool := fun _ => false
  task : String → Option ProducerTask := fun _ => none
  /-- The producer whose `produce` has raised an exception because it was stopped. -/
  refused : Option String := none
  /-- The number of inputs that were sent. -/
  sent : String → Nat := fun _ => 0
  /-- The number of tokens that responses have returned. -/
  returned : String → Nat := fun _ => 0
  /-- The number of tokens that reconnections have added. -/
  added : String → Int := fun _ => 0

inductive PauseAction
  /-- `InputProducer.stop`. -/
  | stop (p : String)
  /-- `InputProducer.resume`, of a producer that is stopped. -/
  | resume (p : String)
  /-- The thread of `_wait_for_running` sees the flag set. -/
  | poll (p : String)
  /-- The task of the producer starts. -/
  | enter (p : String)
  | client (ev : Event)

namespace Pausable

/-- The tokens of `p`, in its pool, in the hands of its loop and with the server, less those that the pool was made
with. -/
def surplus (s : Pausable) (p : String) : Int := s.client.spare p + s.sent p - s.returned p

/-- A step of the client, without a look at the flags. -/
def stepClient (s : Pausable) (ev : Event) : Option Pausable :=
  (s.client.step ev).map fun r =>
    let t :=
      { s with
        client := r.1
        sent := fun p => s.sent p + r.2.sent.countP (Uplink.isInputOf p)
        returned := fun p => s.returned p + if r.1.ended = none ∧ ev.returnsTo = some p then 1 else 0 }
    if s.client.replacesTokens ev then { t with added := fun p => s.added p + (t.surplus p - s.surplus p) } else t

/-- The loop of `p` creates its task, or cancels it. -/
def manageTask (s : Pausable) (p : String) : Pausable :=
  match s.client.pc p with
  | some .producing =>
    if s.task p = none then { s with task := Function.update s.task p (some .created) } else s
  | some .disconnected | some .finished => { s with task := Function.update s.task p none }
  | _ => s

/-- The task of `p` has returned or raised. -/
def produce (s : Pausable) (p : String) (out : Produced) : Option Pausable :=
  match s.task p, out with
  | some .entered, _ =>
    (s.stepClient (.produce p out)).map fun t => { t with task := Function.update t.task p none }
  | some .refused, .raises => (s.stepClient (.produce p .raises)).map fun t => { t with refused := some p }
  | _, _ => none

def step (s : Pausable) : PauseAction → Option Pausable
  | .stop p => some { s with running := Function.update s.running p false }
  | .resume p => if s.running p then none else some { s with running := Function.update s.running p true }
  | .poll p =>
    if s.client.pc p = some .paused ∧ s.running p then some { s with seen := Function.update s.seen p true } else none
  | .enter p =>
    if s.task p = some .created then
      some { s with task := Function.update s.task p (some (if s.running p then .entered else .refused)) }
    else none
  | .client (.loop p wanted paused) =>
    if paused = !s.running p then
      (s.stepClient (.loop p wanted paused)).map fun t => { t with seen := Function.update t.seen p false }
    else none
  | .client (.unpaused p) => if s.seen p then s.stepClient (.unpaused p) else none
  | .client (.gotToken p targets) => (s.stepClient (.gotToken p targets)).map fun t => t.manageTask p
  | .client (.reconnected p) => (s.stepClient (.reconnected p)).map fun t => t.manageTask p
  | .client (.produceTimeout p) => if s.task p = some .refused then none else s.stepClient (.produceTimeout p)
  | .client (.produce p out) => s.produce p out
  | .client ev => s.stepClient ev

/-- The client with the producers `ps`. -/
def machine (clientInfo : Option AnyProto) (ps : List String) : Machine Pausable PauseAction :=
  { init := { client := .launch clientInfo ps }, step := step }

end Pausable

/-! ### Tokens -/

namespace Pausable

variable {s s' : Pausable} {p q : String} {a : PauseAction} {ev : Event}

/-- Stopping a producer and resuming it does nothing to the number of its tokens. -/
def Balanced (s : Pausable) : Prop := s.client.ended = none → s.client.Fresh ∧ ∀ p, s.surplus p = s.added p

theorem Balanced.stepClient (h : s.Balanced) (hstep : s.stepClient ev = some s') : s'.Balanced := by
  obtain ⟨⟨client, out⟩, hr, rfl⟩ := Option.map_eq_some_iff.1 hstep
  obtain ⟨hfresh, hsurplus⟩ := h (Option.ite_none_right_eq_some.1 hr).1
  dsimp only
  split
  · intro hok
    refine ⟨hfresh.step hr hok, fun p => ?_⟩
    have := hsurplus p
    simp only [surplus] at this ⊢
    omega
  · rename_i hkeep
    intro hok
    refine ⟨hfresh.step hr hok, fun p => ?_⟩
    have hspare := State.spare_step hfresh hr hok (by simpa using hkeep) p
    have hok' : client.ended = none := hok
    have := hsurplus p
    simp only [surplus, hok', true_and] at this ⊢
    push_cast
    split at hspare <;> rename_i hreturns <;> simp only [hreturns, ↓reduceIte] <;> omega

theorem Balanced.manageTask (h : s.Balanced) (p : String) : (s.manageTask p).Balanced := by
  unfold Pausable.manageTask
  split
  · split <;> exact h
  · exact h
  · exact h
  · exact h

theorem balanced_step (h : s.Balanced) (hstep : s.step a = some s') : s'.Balanced := by
  unfold step at hstep
  split at hstep
  · cases hstep
    exact h
  · obtain ⟨-, hstep⟩ := Option.ite_none_left_eq_some.1 hstep
    cases hstep
    exact h
  · obtain ⟨-, hstep⟩ := Option.ite_none_right_eq_some.1 hstep
    cases hstep
    exact h
  · obtain ⟨-, hstep⟩ := Option.ite_none_right_eq_some.1 hstep
    cases hstep
    exact h
  · obtain ⟨-, hstep⟩ := Option.ite_none_right_eq_some.1 hstep
    obtain ⟨t, ht, rfl⟩ := Option.map_eq_some_iff.1 hstep
    have hbalanced := h.stepClient ht
    exact hbalanced
  · obtain ⟨-, hstep⟩ := Option.ite_none_right_eq_some.1 hstep
    exact h.stepClient hstep
  · obtain ⟨t, ht, rfl⟩ := Option.map_eq_some_iff.1 hstep
    exact (h.stepClient ht).manageTask _
  · obtain ⟨t, ht, rfl⟩ := Option.map_eq_some_iff.1 hstep
    exact (h.stepClient ht).manageTask _
  · obtain ⟨-, hstep⟩ := Option.ite_none_left_eq_some.1 hstep
    exact h.stepClient hstep
  · unfold produce at hstep
    split at hstep
    · obtain ⟨t, ht, rfl⟩ := Option.map_eq_some_iff.1 hstep
      have hbalanced := h.stepClient ht
      exact hbalanced
    · obtain ⟨t, ht, rfl⟩ := Option.map_eq_some_iff.1 hstep
      have hbalanced := h.stepClient ht
      exact hbalanced
    · cases hstep
  · exact h.stepClient hstep

/-! ### The flags -/

/-- The loop of `p` has found the flag set, or its thread has, and its task has not started. -/
def committed (s : Pausable) (p : String) : Prop :=
  (s.client.pc p).any ProducerPc.committed = true ∨ (s.client.pc p = some .paused ∧ s.seen p = true) ∨
    s.task p = some .created

instance (s : Pausable) (p : String) : Decidable (s.committed p) := inferInstanceAs (Decidable (_ ∨ _ ∨ _))

/-- A producer is not stopped between the test of its flag and the start of `produce`. -/
def timely (s : Pausable) : PauseAction → Prop
  | .stop p => ¬ s.committed p
  | _ => True

instance (s : Pausable) (a : PauseAction) : Decidable (s.timely a) :=
  match a with
  | .stop _ => inferInstanceAs (Decidable (¬ _))
  | .resume _ | .poll _ | .enter _ | .client _ => inferInstanceAs (Decidable True)

/-- No task calls `produce` of a producer that is stopped. -/
structure Ready (s : Pausable) : Prop where
  refused : s.refused = none
  task : s.client.ended = none → ∀ p, s.task p ≠ some .refused
  running : s.client.ended = none → ∀ p, s.committed p → s.running p = true

theorem stepClient_flags (hstep : s.stepClient ev = some s') : s'.running = s.running ∧ s'.seen = s.seen ∧
    s'.task = s.task ∧ s'.refused = s.refused ∧ s.client.ended = none ∧
    ∃ out, s.client.step ev = some (s'.client, out) := by
  obtain ⟨⟨client, out⟩, hr, rfl⟩ := Option.map_eq_some_iff.1 hstep
  have hended := (Option.ite_none_right_eq_some.1 hr).1
  dsimp only
  split <;> exact ⟨rfl, rfl, rfl, rfl, hended, out, hr⟩

/-- The loop of `q` after a step of the client. -/
theorem stepClient_turn {pc : ProducerPc} (hstep : s.stepClient ev = some s') (hok : s'.client.ended = none)
    (hpc : s'.client.pc q = some pc) :
    s.client.pc q = some pc ∨ ∃ old, s.client.pc q = some old ∧ State.Turn q ev old pc := by
  obtain ⟨-, -, -, -, -, out, hr⟩ := stepClient_flags hstep
  by_cases hev : ev.producer = some q
  · obtain ⟨-, hr⟩ := Option.ite_none_right_eq_some.1 hr
    rw [hev] at hr
    obtain ⟨producer, hp, hr⟩ := Option.bind_eq_some_iff.1 hr
    exact .inr ⟨producer.pc, by simp [State.pc, hp], State.stepProducer_turn hev hr hok hpc⟩
  · rcases State.pc_of_other hr hev with hsame | ⟨sem, hold, hnew⟩
    · exact .inl (hsame ▸ hpc)
    · cases hnew.symm.trans hpc
      exact .inr ⟨_, hold, .onward rfl (by simp)⟩

theorem committed_of_pc {pc : ProducerPc} (hpc : s.client.pc p = some pc) (h : pc.committed = true) : s.committed p :=
  .inl (by simp [hpc, h])

/-- After a step of the client a loop that has found its flag set had found it before, or finds it now. -/
theorem committed_stepClient (hstep : s.stepClient ev = some s') (hok : s'.client.ended = none) (hq : s'.committed q) :
    s.committed q ∨ (∃ wanted, ev = .loop q wanted false) ∨ (ev = .unpaused q ∧ s.client.pc q = some .paused) ∨
      ∃ wanted, ev = .loop q wanted true ∧ s'.client.pc q = some .paused := by
  obtain ⟨-, hseen, htask, -⟩ := stepClient_flags hstep
  rcases hq with hpc | ⟨hpc, hq⟩ | hq
  · obtain ⟨pc, hpc, hcommitted⟩ := (Option.any_eq_true _ _).1 hpc
    rcases stepClient_turn hstep hok hpc with hsame | ⟨old, hold, hturn⟩
    · exact .inl (committed_of_pc hsame hcommitted)
    · cases hturn with
      | looped wanted paused hfalse => exact .inr (.inl ⟨wanted, by rw [hfalse hcommitted]⟩)
      | unpaused => exact .inr (.inr (.inl ⟨rfl, hold⟩))
      | onward hcommitted' => exact .inl (committed_of_pc hold hcommitted')
      | elsewhere hnot => simp [hnot.1] at hcommitted
  · rcases stepClient_turn hstep hok hpc with hsame | ⟨old, hold, hturn⟩
    · exact .inl (.inr (.inl ⟨hsame, hseen ▸ hq⟩))
    · cases hturn with
      | looped wanted paused _ htrue => exact .inr (.inr (.inr ⟨wanted, by rw [htrue rfl], hpc⟩))
      | onward _ hnot => exact absurd rfl hnot
      | elsewhere hnot => exact absurd rfl hnot.2
  · exact .inl (.inr (.inr (htask ▸ hq)))

theorem Ready.stepClient (h : s.Ready) (hloop : ∀ p wanted paused, ev ≠ .loop p wanted paused)
    (hunpaused : ∀ p, ev ≠ .unpaused p) (hstep : s.stepClient ev = some s') : s'.Ready := by
  obtain ⟨hrunning, -, htask, hrefused, hended, -⟩ := stepClient_flags hstep
  refine ⟨hrefused.trans h.refused, fun _ => htask ▸ h.task hended, fun hok q hq => ?_⟩
  rw [hrunning]
  rcases committed_stepClient hstep hok hq with hq | ⟨wanted, he⟩ | ⟨he, -⟩ | ⟨wanted, he, -⟩
  · exact h.running hended q hq
  · exact absurd he (hloop _ _ _)
  · exact absurd he (hunpaused _)
  · exact absurd he (hloop _ _ _)

/-- The loop looks at the flag. -/
theorem Ready.loop {wanted : Bool} (h : s.Ready) (hstep : s.stepClient (.loop p wanted (!s.running p)) = some s') :
    Ready { s' with seen := Function.update s'.seen p false } := by
  obtain ⟨hrunning, hseen, htask, hrefused, hended, -⟩ := stepClient_flags hstep
  refine ⟨hrefused.trans h.refused, fun _ => htask ▸ h.task hended, fun hok q hq => ?_⟩
  change s'.running q = true
  rw [hrunning]
  by_cases hqp : q = p
  · subst hqp
    -- the loop goes on if the flag is set; otherwise it waits, and its thread has not looked yet
    cases hflag : s.running q with
    | true => rfl
    | false =>
      rw [hflag] at hstep
      rcases hq with hpc | ⟨-, hseen'⟩ | htask'
      · rcases committed_stepClient hstep hok (.inl hpc) with hold | ⟨_, he⟩ | ⟨he, -⟩ | ⟨_, -, hpaused⟩
        · exact hflag.symm.trans (h.running hended q hold)
        · simp at he
        · cases he
        · simp [hpaused, ProducerPc.committed] at hpc
      · simp at hseen'
      · exact hflag.symm.trans (h.running hended q (.inr (.inr (htask ▸ htask'))))
  · have hq' : s'.committed q := by
      rcases hq with hpc | ⟨hpc, hseen'⟩ | htask'
      · exact .inl hpc
      · exact .inr (.inl ⟨hpc, by simpa [hqp] using hseen'⟩)
      · exact .inr (.inr htask')
    rcases committed_stepClient hstep hok hq' with hold | ⟨wanted', he⟩ | ⟨he, -⟩ | ⟨wanted', he, -⟩
    · exact h.running hended q hold
    · exact absurd (Event.loop.inj he).1.symm hqp
    · cases he
    · exact absurd (Event.loop.inj he).1.symm hqp

theorem Ready.unpaused (h : s.Ready) (hseen : s.seen p = true) (hstep : s.stepClient (.unpaused p) = some s') :
    s'.Ready := by
  obtain ⟨hrunning, -, htask, hrefused, hended, -⟩ := stepClient_flags hstep
  refine ⟨hrefused.trans h.refused, fun _ => htask ▸ h.task hended, fun hok q hq => ?_⟩
  rw [hrunning]
  rcases committed_stepClient hstep hok hq with hold | ⟨wanted, he⟩ | ⟨he, hpaused⟩ | ⟨wanted, he, -⟩
  · exact h.running hended q hold
  · cases he
  · cases he
    exact h.running hended p (.inr (.inl ⟨hpaused, hseen⟩))
  · cases he

/-- The task of `p` changes; if it is created now, the flag is set. -/
theorem Ready.setTask {task : Option ProducerTask} (h : s.Ready)
    (hrefused : s.client.ended = none → task ≠ some .refused)
    (hcreated : task = some .created → s.client.ended = none → s.running p = true) :
    Ready { s with task := Function.update s.task p task } := by
  refine ⟨h.refused, fun hok q => ?_, fun hok q hq => ?_⟩
  · by_cases hqp : q = p
    · simpa [hqp] using hrefused hok
    · simpa [hqp] using h.task hok q
  · rcases hq with hpc | hseen | htask
    · exact h.running hok q (.inl hpc)
    · exact h.running hok q (.inr (.inl hseen))
    · by_cases hqp : q = p
      · subst hqp
        exact hcreated (by simpa using htask) hok
      · exact h.running hok q (.inr (.inr (by simpa [hqp] using htask)))

theorem Ready.manageTask (h : s.Ready) (hrunning : s.client.ended = none → s.running p = true) :
    (s.manageTask p).Ready := by
  have hnone : Ready { s with task := Function.update s.task p none } := h.setTask (by simp) (by simp)
  unfold Pausable.manageTask
  split
  · split
    · exact h.setTask (by simp) fun _ => hrunning
    · exact h
  · exact hnone
  · exact hnone
  · exact h

/-- A step that may create a task is taken by a loop that has found the flag set. -/
theorem Ready.creates (h : s.Ready) (hev : (∃ targets, ev = .gotToken p targets) ∨ ev = .reconnected p)
    (hstep : s.stepClient ev = some s') : (s'.manageTask p).Ready := by
  obtain ⟨hrunning, -, -, -, hended, out, hr⟩ := stepClient_flags hstep
  obtain ⟨-, hr⟩ := Option.ite_none_right_eq_some.1 hr
  have hcommitted : s.committed p := by
    rcases hev with ⟨targets, rfl⟩ | rfl
    · obtain ⟨producer, hp, hr⟩ := Option.bind_eq_some_iff.1 hr
      simp only [State.stepProducer] at hr
      split at hr
      · rename_i hwoken
        exact .inl (by simp [State.pc, hp, hwoken, ProducerPc.committed])
      · cases hr
    · obtain ⟨producer, hp, hr⟩ := Option.bind_eq_some_iff.1 hr
      obtain ⟨hdisconnected, -⟩ := Option.ite_none_right_eq_some.1 hr
      exact .inl (by simp [State.pc, hp, hdisconnected, ProducerPc.committed])
  have hready : s'.Ready := by
    refine h.stepClient ?_ ?_ hstep <;> rcases hev with ⟨targets, rfl⟩ | rfl <;> simp
  exact hready.manageTask fun _ => hrunning ▸ h.running hended p hcommitted

theorem Ready.produce {out : Produced} (h : s.Ready) (hstep : s.produce p out = some s') : s'.Ready := by
  unfold Pausable.produce at hstep
  split at hstep
  · obtain ⟨t, ht, rfl⟩ := Option.map_eq_some_iff.1 hstep
    exact (h.stepClient (by simp) (by simp) ht).setTask (by simp) (by simp)
  · rename_i hrefused
    obtain ⟨t, ht, rfl⟩ := Option.map_eq_some_iff.1 hstep
    obtain ⟨-, -, -, -, hended, -⟩ := stepClient_flags ht
    exact absurd hrefused (h.task hended p)
  · cases hstep

theorem ready_step (h : s.Ready) (ha : s.timely a) (hstep : s.step a = some s') : s'.Ready := by
  unfold step at hstep
  split at hstep
  · rename_i p
    cases hstep
    refine ⟨h.refused, h.task, fun hok q hq => ?_⟩
    by_cases hqp : q = p
    · subst hqp
      exact absurd hq ha
    · simpa [hqp] using h.running hok q hq
  · rename_i p
    obtain ⟨-, hstep⟩ := Option.ite_none_left_eq_some.1 hstep
    cases hstep
    refine ⟨h.refused, h.task, fun hok q hq => ?_⟩
    by_cases hqp : q = p
    · simp [hqp]
    · simpa [hqp] using h.running hok q hq
  · rename_i p
    obtain ⟨⟨-, hrunning⟩, hstep⟩ := Option.ite_none_right_eq_some.1 hstep
    cases hstep
    refine ⟨h.refused, h.task, fun hok q hq => ?_⟩
    by_cases hqp : q = p
    · exact hqp ▸ hrunning
    · refine h.running hok q ?_
      rcases hq with hpc | ⟨hpc, hseen⟩ | htask
      · exact .inl hpc
      · exact .inr (.inl ⟨hpc, by simpa [hqp] using hseen⟩)
      · exact .inr (.inr htask)
  · rename_i p
    obtain ⟨hcreated, hstep⟩ := Option.ite_none_right_eq_some.1 hstep
    cases hstep
    refine h.setTask (fun hok => ?_) fun htask => ?_
    · simp [h.running hok p (.inr (.inr hcreated))]
    · split at htask <;> cases htask
  · obtain ⟨rfl, hstep⟩ := Option.ite_none_right_eq_some.1 hstep
    obtain ⟨t, ht, rfl⟩ := Option.map_eq_some_iff.1 hstep
    exact h.loop ht
  · obtain ⟨hseen, hstep⟩ := Option.ite_none_right_eq_some.1 hstep
    exact h.unpaused hseen hstep
  · obtain ⟨t, ht, rfl⟩ := Option.map_eq_some_iff.1 hstep
    exact h.creates (.inl ⟨_, rfl⟩) ht
  · obtain ⟨t, ht, rfl⟩ := Option.map_eq_some_iff.1 hstep
    exact h.creates (.inr rfl) ht
  · obtain ⟨-, hstep⟩ := Option.ite_none_left_eq_some.1 hstep
    exact h.stepClient (by simp) (by simp) hstep
  · exact h.produce hstep
  · rename_i hloop hunpaused _ _ _ _
    exact h.stepClient (fun p wanted paused he => hloop p wanted paused he) (fun p he => hunpaused p he) hstep

variable {clientInfo : Option AnyProto} {ps : List String} {as : List PauseAction}

theorem run_balanced {G : Pausable → PauseAction → Prop} (h : (machine clientInfo ps).RunWhere G as s) :
    s.Balanced :=
  h.invariant (I := Balanced) (fun _ => ⟨fun _ _ _ _ => rfl, fun p => by
    simp only [machine, surplus, State.spare, State.held, State.launch]
    split <;> rfl⟩) fun _ _ _ h _ hstep => balanced_step h hstep

theorem run_ready (h : (machine clientInfo ps).RunWhere timely as s) : s.Ready := by
  refine h.invariant (I := Ready) ⟨rfl, fun _ p => by simp [machine], fun _ p hp => ?_⟩
    fun _ _ _ h ha hstep => ready_step h ha hstep
  rfl

/-! ### Going on -/

/-- The steps of the loop of `p`, with some target engines, on its way to `produce`. -/
def isLoopStep (p : String) : PauseAction → Bool
  | .poll q | .enter q | .client (.loop q _ _) | .client (.unpaused q) | .client (.getToken q) => q = p
  | .client (.gotToken q targets) => q = p ∧ targets ≠ []
  | _ => false

/-- The loop of `p` holds a token, and its task has called `produce`. -/
def Producing (p : String) (s : Pausable) : Prop :=
  s.client.pc p = some .producing ∧ s.task p = some .entered ∧ s.refused = none

/-- A producer that is running and has a token, with a client that is connected and has not ended. -/
structure Able (p : String) (s : Pausable) : Prop where
  ended : s.client.ended = none
  connected : s.client.connected = true
  running : s.running p = true
  refused : s.refused = none
  task : s.task p ≠ some .refused

/-- The loop of `p` comes to `produce` by its own steps. -/
def ProducesAgain (clientInfo : Option AnyProto) (ps : List String) (p : String) : Pausable → Prop :=
  (machine clientInfo ps).Leads (fun a => isLoopStep p a) (Producing p)

theorem exists_stepClient {client : State} {out : Output} (hr : s.client.step ev = some (client, out)) :
    ∃ t, s.stepClient ev = some t ∧ t.client = client ∧ t.running = s.running ∧ t.seen = s.seen ∧ t.task = s.task ∧
      t.refused = s.refused := by
  rw [stepClient, hr, Option.map_some]
  refine ⟨_, rfl, ?_⟩
  dsimp only
  split <;> exact ⟨rfl, rfl, rfl, rfl, rfl⟩

theorem Able.entering (h : Able p s) (hpc : s.client.pc p = some .producing) (htask : s.task p = some .created) :
    ProducesAgain clientInfo ps p s := by
  have hstep : (machine clientInfo ps).step s (.enter p) =
      some { s with task := Function.update s.task p (some .entered) } := by
    simp only [machine, step, htask, h.running, ↓reduceIte]
  exact .single hstep (by simp [isLoopStep]) ⟨hpc, Function.update_self .., h.refused⟩

/-- The loop has a token, and creates its task if it has none. -/
theorem Able.woken {sem : Nat} (h : Able p s) (hpc : s.client.pc p = some (.woken sem)) :
    ProducesAgain clientInfo ps p s := by
  obtain ⟨producer, hp, hpc⟩ := Option.map_eq_some_iff.1 hpc
  have hr : s.client.step (.gotToken p ["engine"]) = some (s.client.goTo p .producing, {}) := by
    simp [State.step, h.ended, Event.producer, hp, State.stepProducer, hpc, State.gotToken, h.connected]
  obtain ⟨t, ht, hclient, hrunning, -, htask, hrefused⟩ := exists_stepClient hr
  have hproducing : t.client.pc p = some .producing := hclient ▸ State.pc_goTo hp _
  have hable : Able p t := ⟨hclient ▸ h.ended, hclient ▸ h.connected, hrunning ▸ h.running, hrefused ▸ h.refused,
    htask ▸ h.task⟩
  have hstep : (machine clientInfo ps).step s (.client (.gotToken p ["engine"])) = some (t.manageTask p) := by
    simp [machine, step, ht]
  have hkept : t.task p ≠ none → t.manageTask p = t := by
    intro hsome
    simp [Pausable.manageTask, hproducing, hsome]
  have ha : isLoopStep p (.client (.gotToken p ["engine"])) = true := by simp [isLoopStep]
  cases hold : t.task p with
  | none =>
    have hcreated : t.manageTask p = { t with task := Function.update t.task p (some .created) } := by
      simp [Pausable.manageTask, hproducing, hold]
    rw [hcreated] at hstep
    exact .cons hstep ha (Able.entering ⟨hable.ended, hable.connected, hable.running, hable.refused, by simp⟩ hproducing
      (Function.update_self ..))
  | some task =>
    rw [hkept (by simp [hold])] at hstep
    cases task with
    | created => exact .cons hstep ha (hable.entering hproducing hold)
    | entered => exact .single hstep ha ⟨hproducing, hold, hable.refused⟩
    | refused => exact absurd hold hable.task

theorem Able.acquiring {pool : TokenPool} (h : Able p s) (hpool : s.client.tokens p = some pool)
    (hpos : 0 < pool.value) (hpc : s.client.pc p = some .acquiring) : ProducesAgain clientInfo ps p s := by
  obtain ⟨producer, hp, hpc⟩ := Option.map_eq_some_iff.1 hpc
  have hr : s.client.step (.getToken p) = some
      ((s.client.setPool p { pool with value := pool.value - 1 }).goTo p (.woken pool.resets), {}) := by
    simp [State.step, h.ended, Event.producer, hp, State.stepProducer, hpc, State.getToken, hpool, hpos]
  obtain ⟨t, ht, hclient, hrunning, -, htask, hrefused⟩ := exists_stepClient hr
  have hwoken : t.client.pc p = some (.woken pool.resets) := by
    rw [hclient]
    exact State.pc_goTo hp _
  have hstep : (machine clientInfo ps).step s (.client (.getToken p)) = some t := by
    simp [machine, step, ht]
  exact .cons hstep (by simp [isLoopStep]) (Able.woken ⟨hclient ▸ h.ended, hclient ▸ h.connected,
    hrunning ▸ h.running, hrefused ▸ h.refused, htask ▸ h.task⟩ hwoken)

/-- A loop that waits for the flag goes on if it is set, and a token is there. -/
theorem Able.paused {pool : TokenPool} (h : Able p s) (hpool : s.client.tokens p = some pool)
    (hpos : 0 < pool.value) (hpc : s.client.pc p = some .paused) : ProducesAgain clientInfo ps p s := by
  have hpoll : (machine clientInfo ps).step s (.poll p) = some { s with seen := Function.update s.seen p true } := by
    simp only [machine, step, hpc, h.running, and_self, ↓reduceIte]
  obtain ⟨producer, hp, hpc⟩ := Option.map_eq_some_iff.1 hpc
  have hr : s.client.step (.unpaused p) = some (s.client.goTo p .acquiring, {}) := by
    simp [State.step, h.ended, Event.producer, hp, State.stepProducer, hpc]
  obtain ⟨t, ht, hclient, hrunning, -, htask, hrefused⟩ :=
    exists_stepClient (s := { s with seen := Function.update s.seen p true }) hr
  have hstep : (machine clientInfo ps).step { s with seen := Function.update s.seen p true } (.client (.unpaused p)) =
      some t := by
    simp [machine, step, ht]
  refine .cons hpoll (by simp [isLoopStep]) (.cons hstep (by simp [isLoopStep]) (Able.acquiring
    ⟨hclient ▸ h.ended, hclient ▸ h.connected, hrunning ▸ h.running, hrefused ▸ h.refused, htask ▸ h.task⟩
    (hclient ▸ hpool) hpos ?_))
  rw [hclient]
  exact State.pc_goTo hp _

theorem Able.looping {pool : TokenPool} (h : Able p s) (hpool : s.client.tokens p = some pool)
    (hpos : 0 < pool.value) (hpc : s.client.pc p = some .looping) (hclient : s.client.running = true) :
    ProducesAgain clientInfo ps p s := by
  obtain ⟨producer, hp, hpc⟩ := Option.map_eq_some_iff.1 hpc
  have hr : s.client.step (.loop p true false) = some (s.client.goTo p .acquiring, {}) := by
    simp [State.step, h.ended, Event.producer, hp, State.stepProducer, hpc, hclient]
  obtain ⟨t, ht, hclient, hrunning, -, htask, hrefused⟩ := exists_stepClient hr
  have hstep : (machine clientInfo ps).step s (.client (.loop p true false)) =
      some { t with seen := Function.update t.seen p false } := by
    simp [machine, step, ht, h.running]
  refine .cons hstep (by simp [isLoopStep]) (Able.acquiring
    ⟨hclient ▸ h.ended, hclient ▸ h.connected, hrunning ▸ h.running, hrefused ▸ h.refused, htask ▸ h.task⟩
    (hclient ▸ hpool) hpos ?_)
  change t.client.pc p = _
  rw [hclient]
  exact State.pc_goTo hp _

/-- What stopping and resuming producers must not change: no call of `produce` was refused, no token is lost or made up,
and a loop whose producer is running goes on with a token that is there. -/
structure Unharmed (clientInfo : Option AnyProto) (ps : List String) (s : Pausable) : Prop where
  refused : s.refused = none
  tokens : s.client.ended = none → ∀ p pool, s.client.tokens p = some pool →
    (pool.value : Int) + s.client.held p + s.sent p = pool.maxTokens + s.returned p + s.added p
  again : ∀ p pool, s.client.ended = none → s.client.connected = true → s.running p = true →
    s.client.tokens p = some pool → 0 < pool.value →
    (s.client.pc p = some .paused ∨ s.client.pc p = some .looping ∧ s.client.running = true) →
    ProducesAgain clientInfo ps p s

theorem run_unharmed (h : (machine clientInfo ps).RunWhere timely as s) : s.Unharmed clientInfo ps := by
  have hready := run_ready h
  refine ⟨hready.refused, fun hended p pool hpool => ?_, fun p pool hended hconnected hrunning hpool hpos hpc => ?_⟩
  · have hbalance := (run_balanced h hended).2 p
    simp only [surplus, State.spare, hpool, Option.elim_some] at hbalance
    omega
  · have hable : Able p s := ⟨hended, hconnected, hrunning, hready.refused, hready.task hended p⟩
    rcases hpc with hpc | ⟨hpc, hclient⟩
    · exact hable.paused hpool hpos hpc
    · exact hable.looping hpool hpos hpc hclient

end Pausable

end Gabriel.ZeroMQClient

namespace Gabriel

section Runs

/-- A response to the first input that returns its token. -/
private def tokenBack : ToClient :=
  .resultWrapper { producerId := "p", returnToken := true, result := { status := { code := .success }, frameId := 1 } }

/-- The loop of a session sends an input with the only token. -/
private def sessionSends : List GrpcClient.PauseAction :=
  [.client (.read (.registered 1 {"e"}) false), .client (.openStream "p"), .client (.loop "p" true),
    .client (.getToken "p"), .client (.produce "p" (.frame { payloadType := .text } ["e"] ["e"])),
    .client (.written "p")]

/-- The loop of the ZeroMQ client sends an input with the only token. -/
private def zeromqSends : List ZeroMQClient.PauseAction :=
  [.client (.receive (.message (.registered 1 {"e"})) false), .client (.start "p"), .client (.loop "p" true false),
    .client (.getToken "p"), .client (.gotToken "p" ["e"]), .enter "p",
    .client (.produce "p" (.frame { payloadType := .text } ["e"] ["e"])), .client (.inputSent "p")]

end Runs

end Gabriel
