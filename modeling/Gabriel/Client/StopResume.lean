import Gabriel.Lib.Machine
import Gabriel.Client.SessionSteps

/-!
# Stopping and resuming a producer

`InputProducer.stop` clears a flag and `resume` sets it, in any thread and at any time.  `produce` raises an exception
if the flag is clear when it is called.  The producer loop of `GrpcClient` looks at the flag, waits until it is set,
then waits for a token, and then calls `produce`; that of `WebsocketClient` does not look at it.  So the flag may be
clear when a token comes, and then the exception ends the session.

A gRPC session survives if no producer is stopped between the test of its flag and the call of `produce`, a WebSocket
client if no token is taken for a producer that is stopped (`Pausable.Ready`).  Whenever a producer is stopped and
resumed, its tokens are in its pool, in the hands of its loop or with the server (`Balance`).
-/

namespace Gabriel.GrpcClient

/-- How far the call of `_wait_for_running` in a producer loop has come, if there is one: its thread waits for the
flag, or has seen it set. -/
inductive Wait
  | none
  | polling
  | seen
  deriving DecidableEq, Repr

/-- A client whose producers can be stopped. -/
structure Pausable where
  session : Session
  /-- `_running` of each producer. -/
  running : String → Bool := fun _ => true
  waiting : String → Wait := fun _ => .none
  /-- The producer whose `produce` has raised an exception because it was stopped. -/
  refused : Option String := none
  /-- The number of inputs that were sent. -/
  sent : String → Nat := fun _ => 0
  /-- The number of tokens that responses have returned. -/
  returned : String → Nat := fun _ => 0

inductive PauseAction
  /-- `InputProducer.stop`. -/
  | stop (p : String)
  /-- `InputProducer.resume`, of a producer that is stopped. -/
  | resume (p : String)
  /-- The thread of `_wait_for_running` sees the flag set. -/
  | poll (p : String)
  /-- The producer loop goes on after `_wait_for_running`. -/
  | unpause (p : String)
  | client (ev : Event)

namespace Pausable

/-- A step of the client, without a look at the flags. -/
def stepClient (c : Client) (s : Pausable) (ev : Event) : Option Pausable :=
  (c.step s.session ev).map fun r =>
    { s with
      session := r.1
      sent := fun p => s.sent p + r.2.inputs p
      returned := fun p => s.returned p + if r.1.status = .running ∧ ev.returnsTo = some p then 1 else 0 }

/-- Where the loop of `p` is. -/
def pc (s : Pausable) (p : String) : Option ProducerPc := (s.session.producers p).map Producer.pc

/-- The producer loop enters its body, and looks at the flag if it is that of `GrpcClient`. -/
def loop (c : Client) (s : Pausable) (p : String) (wanted : Bool) : Option Pausable :=
  (s.stepClient c (.loop p wanted)).map fun t =>
    if c.waitsForRunning ∧ s.running p = false ∧ t.pc p = some .acquiring then
      { t with waiting := Function.update t.waiting p .polling }
    else t

/-- `get_token` returns, and `produce` is called. -/
def getToken (c : Client) (s : Pausable) (p : String) : Option Pausable :=
  if s.waiting p = .none then
    (s.stepClient c (.getToken p)).map fun t =>
      if s.running p then t
      else
        { t with
          session := t.session.fail .callback
          refused := some p }
  else none

def step (c : Client) (s : Pausable) : PauseAction → Option Pausable
  | .stop p => some { s with running := Function.update s.running p false }
  | .resume p => if s.running p then none else some { s with running := Function.update s.running p true }
  | .poll p =>
    if s.waiting p = .polling ∧ s.running p then some { s with waiting := Function.update s.waiting p .seen } else none
  | .unpause p => if s.waiting p = .seen then some { s with waiting := Function.update s.waiting p .none } else none
  | .client (.loop p wanted) => s.loop c p wanted
  | .client (.getToken p) => s.getToken c p
  | .client ev => s.stepClient c ev

/-- The client `c` with the producers `ps`. -/
def machine (c : Client) (clientInfo : Option AnyProto) (ps : List String) : Machine Pausable PauseAction :=
  { init := { session := .start clientInfo ps }, step := step c }

variable {c : Client} {s s' : Pausable} {p q : String} {a : PauseAction}

/-! ### Tokens -/

/-- The tokens in the hands of a producer loop. -/
def held : ProducerPc → Nat
  | .producing => 1
  | _ => 0

theorem held_eq_zero {pc : ProducerPc} (h : pc ≠ .producing) : held pc = 0 := by
  cases pc with
  | producing => exact absurd rfl h
  | _ => rfl

/-- The tokens of a producer are in its pool, in the hands of its loop or with the server. -/
def Balance (sent returned : Nat) : Option TokenPool → Option Producer → Prop
  | some pool, some producer =>
    producer.pc ≠ .starting ∧ pool.value + held producer.pc + sent = pool.maxTokens + returned
  | none, some producer => (producer.pc = .starting ∨ producer.pc = .finished) ∧ sent = 0 ∧ returned = 0
  | none, none => sent = 0 ∧ returned = 0
  | some _, none => False

/-- The tokens of all producers. -/
def Balanced (s : Pausable) : Prop :=
  ∀ p, Balance (s.sent p) (s.returned p) (s.session.tokens p) (s.session.producers p)

theorem balance_progress {s s' : Session} {ev : Event} {out : Output} {m n : Nat} (h : s.Progress ev s' out)
    (hb : Balance m n (s.tokens q) (s.producers q)) :
    Balance (m + out.inputs q) (n + if s'.status = .running ∧ ev.returnsTo = some q then 1 else 0) (s'.tokens q)
      (s'.producers q) := by
  -- a step that is for another producer, or for none
  have hother : ∀ {tokens : Option TokenPool} {producer : Option Producer}, tokens = s.tokens q →
      producer = s.producers q → out.inputs q = 0 → (s'.status = .running → ev.returnsTo ≠ some q) →
      Balance (m + out.inputs q) (n + if s'.status = .running ∧ ev.returnsTo = some q then 1 else 0) tokens
        producer := by
    rintro _ _ rfl rfl hout hreturns
    rw [hout, if_neg fun ⟨hs, hr⟩ => hreturns hs hr]
    exact hb
  cases h with
  | quiet htokens hproducers hout hreturns =>
    exact hother (by rw [htokens]) (by rw [hproducers]) (hout q) fun hs => by simp [hreturns hs]
  | @returned _ p pool pool' hreturns hpool hreturn htokens hproducers hstatus =>
    obtain ⟨hmax, hvalue⟩ := TokenPool.returnToken_eq_some hreturn
    by_cases hq : q = p
    · subst hq
      rw [htokens, hproducers, Function.update_self, if_pos ⟨hstatus, hreturns⟩]
      cases hproducer : s.producers q with
      | none => simp [Balance, hpool, hproducer] at hb
      | some producer =>
        simp only [Balance, hpool, hproducer] at hb
        exact ⟨hb.1, by rw [hmax, hvalue]; have := hb.2; simp only [Output.inputs_nothing]; omega⟩
    · refine hother (by rw [htokens, Function.update_of_ne hq]) (by rw [hproducers]) rfl fun _ => ?_
      simpa [hreturns] using Ne.symm hq
  | @moved p producer pc hreturns hp hlive hold hnew hstart =>
    by_cases hq : q = p
    · subst hq
      simp only [Session.setProducer, Function.update_self, hreturns, Output.inputs_nothing, reduceCtorEq, and_false,
        ↓reduceIte, Nat.add_zero]
      rw [hp] at hb
      cases htokens : s.tokens q with
      | none =>
        rw [htokens] at hb
        exact ⟨.inr (hb.1.elim hstart fun hfinished => absurd hfinished hlive), hb.2⟩
      | some pool =>
        rw [htokens] at hb
        have hcount := hb.2
        rw [held_eq_zero hold] at hcount
        exact ⟨hnew.2, by rw [held_eq_zero hnew.1, hcount]⟩
    · exact hother rfl (Function.update_of_ne hq _ _) rfl fun _ => by simp [hreturns]
  | @opened p producer n' _ hreturns hp hpc hout =>
    by_cases hq : q = p
    · subst hq
      have hnone : s.tokens q = none := by
        cases htokens : s.tokens q with
        | none => rfl
        | some pool =>
          rw [htokens, hp] at hb
          exact absurd hpc hb.1
      rw [hnone, hp] at hb
      obtain ⟨-, rfl, rfl⟩ := hb
      simp [Session.setProducer, Session.setPool, Balance, hreturns, hout, held, TokenPool.new]
    · exact hother (Function.update_of_ne hq _ _) (Function.update_of_ne hq _ _) (hout q) fun _ => by simp [hreturns]
  | @acquired p producer pool pool' hev hp hpc hpool hget =>
    by_cases hq : q = p
    · subst hq
      obtain ⟨hmax, hvalue⟩ := TokenPool.getToken_eq_some hget
      rw [hpool, hp] at hb
      have hcount := hb.2
      rw [hpc, held_eq_zero (by simp)] at hcount
      simp only [Session.setProducer, Session.setPool, Function.update_self, Balance, hev, Event.returnsTo, held, hmax,
        Output.inputs_nothing]
      exact ⟨by simp, by simp only [reduceCtorEq, and_false, ↓reduceIte]; omega⟩
    · exact hother (Function.update_of_ne hq _ _) (Function.update_of_ne hq _ _) rfl fun _ => by
        simp [hev, Event.returnsTo]
  | @skipped p producer pool pool' hreturns hp hpc hpool hreturn =>
    by_cases hq : q = p
    · subst hq
      obtain ⟨hmax, hvalue⟩ := TokenPool.returnToken_eq_some hreturn
      rw [hpool, hp] at hb
      have hcount := hb.2
      rw [hpc, held] at hcount
      simp only [Session.setProducer, Session.setPool, Function.update_self, Balance, hreturns, held, hmax, hvalue,
        Output.inputs_nothing]
      exact ⟨by simp, by simp only [reduceCtorEq, and_false, ↓reduceIte]; omega⟩
    · exact hother (Function.update_of_ne hq _ _) (Function.update_of_ne hq _ _) rfl fun _ => by simp [hreturns]
  | @wrote p producer msg frameId hreturns hp hpc =>
    by_cases hq : q = p
    · subst hq
      rw [hp] at hb
      simp only [Session.setProducer, Function.update_self, hreturns, Output.inputs, reduceCtorEq, and_false,
        ↓reduceIte]
      cases htokens : s.tokens q with
      | none =>
        rw [htokens] at hb
        exact absurd hb.1 (by simp [hpc])
      | some pool =>
        rw [htokens] at hb
        have hcount := hb.2
        rw [hpc, held] at hcount
        exact ⟨by simp, by simp only [held]; omega⟩
    · exact hother rfl (Function.update_of_ne hq _ _) (by simp [Output.inputs, Ne.symm hq]) fun _ => by simp [hreturns]

theorem Balanced.stepClient {ev : Event} (h : s.Balanced) (hstep : s.stepClient c ev = some s') : s'.Balanced := by
  obtain ⟨r, hr, rfl⟩ := Option.map_eq_some_iff.1 hstep
  exact fun p => balance_progress (Session.step_progress hr) (h p)

/-- Neither a stop nor a wait does anything to the tokens. -/
theorem balanced_step (h : s.Balanced) (hstep : s.step c a = some s') : s'.Balanced := by
  unfold step at hstep
  split at hstep
  · cases hstep
    exact h
  · obtain ⟨-, hstep⟩ := Option.ite_none_left_eq_some.1 hstep
    cases hstep
    exact h
  · obtain ⟨-, hstep⟩ := Option.ite_none_right_eq_some.1 hstep
    cases hstep
    exact h
  · obtain ⟨-, hstep⟩ := Option.ite_none_right_eq_some.1 hstep
    cases hstep
    exact h
  · obtain ⟨t, ht, rfl⟩ := Option.map_eq_some_iff.1 hstep
    have hbalanced := h.stepClient ht
    split <;> exact hbalanced
  · obtain ⟨-, hstep⟩ := Option.ite_none_right_eq_some.1 hstep
    obtain ⟨t, ht, rfl⟩ := Option.map_eq_some_iff.1 hstep
    have hbalanced := h.stepClient ht
    split <;> exact hbalanced
  · exact h.stepClient hstep

/-! ### The flags -/

/-- The loop of `p` has found the flag set, and goes on to a call of `produce`. -/
def committed (s : Pausable) (p : String) : Prop := s.pc p = some .acquiring ∧ s.waiting p ≠ .polling

instance (s : Pausable) (p : String) : Decidable (s.committed p) := inferInstanceAs (Decidable (_ ∧ _))

/-- A gRPC producer is not stopped between the test of its flag and the call of `produce`, and no token is taken for a
WebSocket producer that is stopped. -/
def timely (c : Client) (s : Pausable) : PauseAction → Prop
  | .stop p => c = .grpc → ¬ s.committed p
  | .client (.getToken p) => c = .websocket → s.running p = true
  | _ => True

instance (c : Client) (s : Pausable) (a : PauseAction) : Decidable (s.timely c a) := by
  unfold timely
  split <;> infer_instance

/-- No loop calls `produce` of a producer that is stopped. -/
structure Ready (c : Client) (s : Pausable) : Prop where
  refused : s.refused = none
  running : c = .grpc → ∀ p, s.committed p → s.running p = true

theorem pc_stepClient {ev : Event} (hstep : s.stepClient c ev = some s') (hpc : s'.pc p = some .acquiring) :
    s.pc p = some .acquiring ∨ ∃ wanted, ev = .loop p wanted := by
  obtain ⟨r, hr, rfl⟩ := Option.map_eq_some_iff.1 hstep
  have hprogress := Session.step_progress hr
  obtain ⟨session, out⟩ := r
  simp only [pc] at hpc ⊢
  -- the task that goes on gets there at the head of its loop only
  have hupdate : ∀ {q : String} {producer : Producer},
      (Function.update s.session.producers q (some producer) p).map Producer.pc = some .acquiring →
      (producer.pc = .acquiring → ∃ wanted, ev = .loop q wanted) →
      (s.session.producers p).map Producer.pc = some .acquiring ∨ ∃ wanted, ev = .loop p wanted := by
    intro q producer hpc hnew
    by_cases hp : p = q
    · subst hp
      simp only [Function.update_self, Option.map_some, Option.some.injEq] at hpc
      exact .inr (hnew hpc)
    · rw [Function.update_of_ne hp] at hpc
      exact .inl hpc
  cases hprogress with
  | quiet _ hproducers => exact .inl (hproducers ▸ hpc)
  | returned _ _ _ _ hproducers => exact .inl (hproducers ▸ hpc)
  | moved _ _ _ _ _ _ hacquiring => exact hupdate hpc hacquiring
  | opened | acquired | skipped | wrote => exact hupdate hpc (by simp)

theorem stepClient_flags {ev : Event} (hstep : s.stepClient c ev = some s') :
    s'.running = s.running ∧ s'.waiting = s.waiting ∧ s'.refused = s.refused := by
  obtain ⟨r, -, rfl⟩ := Option.map_eq_some_iff.1 hstep
  exact ⟨rfl, rfl, rfl⟩

theorem pc_of_getToken (hstep : s.stepClient c (.getToken p) = some s') : s.pc p = some .acquiring := by
  obtain ⟨r, hr, -⟩ := Option.map_eq_some_iff.1 hstep
  have hrunning : s.session.stepRunning (.getToken p) = some r := by
    cases c <;> exact (Option.ite_none_right_eq_some.1 hr).2
  obtain ⟨producer, hp, hrunning⟩ := Option.bind_eq_some_iff.1 hrunning
  obtain ⟨hpc, -⟩ := Option.ite_none_right_eq_some.1 hrunning
  simp [pc, hp, hpc]

theorem Ready.stepClient {ev : Event} (h : s.Ready c) (hev : ∀ p wanted, ev ≠ .loop p wanted)
    (hstep : s.stepClient c ev = some s') : s'.Ready c := by
  obtain ⟨hrunning, hwaiting, hrefused⟩ := stepClient_flags hstep
  refine ⟨hrefused.trans h.refused, fun hc p hp => ?_⟩
  have hpc := (pc_stepClient hstep hp.1).resolve_right fun ⟨wanted, he⟩ => hev p wanted he
  exact hrunning ▸ h.running hc p ⟨hpc, hwaiting ▸ hp.2⟩

theorem Ready.loop {wanted : Bool} (h : s.Ready c) (hstep : s.loop c p wanted = some s') : s'.Ready c := by
  obtain ⟨t, ht, rfl⟩ := Option.map_eq_some_iff.1 hstep
  obtain ⟨hrunning, hwaiting, hrefused⟩ := stepClient_flags ht
  have hother : ∀ q, q ≠ p → t.pc q = some .acquiring → s.pc q = some .acquiring := fun q hq hpc =>
    (pc_stepClient ht hpc).resolve_right fun ⟨_, he⟩ => by cases he; exact hq rfl
  split
  · -- the loop waits for the flag
    refine ⟨hrefused.trans h.refused, fun hc q hq => ?_⟩
    have hqp : q ≠ p := by
      rintro rfl
      simp [committed] at hq
    refine hrunning ▸ h.running hc q ⟨hother q hqp hq.1, ?_⟩
    simpa only [Function.update_of_ne hqp, hwaiting] using hq.2
  · rename_i hset
    refine ⟨hrefused.trans h.refused, fun hc q hq => ?_⟩
    by_cases hqp : q = p
    · subst hqp
      rw [hrunning]
      simpa [hc, Client.waitsForRunning, hq.1] using hset
    · exact hrunning ▸ h.running hc q ⟨hother q hqp hq.1, hwaiting ▸ hq.2⟩

theorem Ready.getToken (h : s.Ready c) (hflag : c = .websocket → s.running p = true)
    (hstep : s.getToken c p = some s') : s'.Ready c := by
  obtain ⟨hwaiting, hstep⟩ := Option.ite_none_right_eq_some.1 hstep
  obtain ⟨t, ht, rfl⟩ := Option.map_eq_some_iff.1 hstep
  have hrunning : s.running p = true := by
    cases c with
    | websocket => exact hflag rfl
    | grpc =>
      exact h.running rfl p ⟨pc_of_getToken ht, by simp [hwaiting]⟩
  rw [if_pos hrunning]
  exact h.stepClient (by simp) ht

theorem ready_step (h : s.Ready c) (ha : s.timely c a) (hstep : s.step c a = some s') : s'.Ready c := by
  unfold step at hstep
  split at hstep
  · rename_i p
    cases hstep
    refine ⟨h.refused, fun hc q hq => ?_⟩
    by_cases hqp : q = p
    · subst hqp
      exact absurd hq (ha hc)
    · simpa [hqp] using h.running hc q hq
  · rename_i p
    obtain ⟨-, hstep⟩ := Option.ite_none_left_eq_some.1 hstep
    cases hstep
    refine ⟨h.refused, fun hc q hq => ?_⟩
    by_cases hqp : q = p
    · simp [hqp]
    · simpa [hqp] using h.running hc q hq
  · rename_i p
    obtain ⟨⟨hpolling, hrunning⟩, hstep⟩ := Option.ite_none_right_eq_some.1 hstep
    cases hstep
    refine ⟨h.refused, fun hc q hq => ?_⟩
    by_cases hqp : q = p
    · exact hqp ▸ hrunning
    · exact h.running hc q ⟨hq.1, by simpa only [Function.update_of_ne hqp] using hq.2⟩
  · rename_i p
    obtain ⟨hseen, hstep⟩ := Option.ite_none_right_eq_some.1 hstep
    cases hstep
    refine ⟨h.refused, fun hc q hq => ?_⟩
    refine h.running hc q ⟨hq.1, ?_⟩
    by_cases hqp : q = p
    · subst hqp
      simp [hseen]
    · simpa only [Function.update_of_ne hqp] using hq.2
  · exact h.loop hstep
  · exact h.getToken ha hstep
  · rename_i ev hloop hget
    exact h.stepClient (fun p wanted he => hloop p wanted he) hstep

variable {clientInfo : Option AnyProto} {ps : List String} {as : List PauseAction}

theorem run_balanced {G : Pausable → PauseAction → Prop} (h : (machine c clientInfo ps).RunWhere G as s) :
    s.Balanced := by
  refine h.invariant (I := Balanced) (fun p => ?_) fun _ _ _ h _ hstep => balanced_step h hstep
  simp only [machine, Session.start]
  split
  · exact ⟨.inl rfl, rfl, rfl⟩
  · exact ⟨rfl, rfl⟩

theorem run_ready (h : (machine c clientInfo ps).RunWhere (timely c) as s) : s.Ready c := by
  refine h.invariant (I := Ready c) ⟨rfl, fun _ p hp => ?_⟩ fun _ _ _ h ha hstep => ready_step h ha hstep
  have hpc := hp.1
  simp only [pc, machine, Session.start] at hpc
  split at hpc <;> simp at hpc

/-! ### Going on -/

/-- The steps of the loop of `p` on its way to `produce`. -/
def isLoopStep (p : String) : PauseAction → Bool
  | .poll q | .unpause q | .client (.loop q _) | .client (.getToken q) => q = p
  | _ => false

/-- The loop of `p` holds a token, and has called `produce`. -/
def Producing (p : String) (s : Pausable) : Prop := s.pc p = some .producing ∧ s.refused = none

/-- A producer that is running and has a token, with a client that has not ended. -/
structure Able (p : String) (s : Pausable) : Prop where
  status : s.session.status = .running
  running : s.running p = true
  refused : s.refused = none
  pool : ∃ pool, s.session.tokens p = some pool ∧ 0 < pool.value

/-- The loop of `p` comes to `produce` by its own steps. -/
def ProducesAgain (c : Client) (clientInfo : Option AnyProto) (ps : List String) (p : String) : Pausable → Prop :=
  (machine c clientInfo ps).Leads (fun a => isLoopStep p a) (Producing p)

theorem Able.getToken (h : Able p s) (hpc : s.pc p = some .acquiring) (hwaiting : s.waiting p = .none) :
    ProducesAgain c clientInfo ps p s := by
  obtain ⟨producer, hp, hpc⟩ := Option.map_eq_some_iff.1 hpc
  obtain ⟨pool, hpool, hpos⟩ := h.pool
  obtain ⟨pool', hget⟩ : ∃ pool', pool.getToken = some pool' := by simp [TokenPool.getToken, hpos]
  have hclient : c.step s.session (.getToken p) =
      some ((s.session.setPool p pool').setProducer p { producer with pc := .producing }, .nothing) := by
    cases c <;> simp [Client.step, Session.step, WebsocketClient.step, WebsocketClient.stepRunning,
      Session.stepRunning, h.status, hp, hpc, hpool, hget]
  have hstep : (machine c clientInfo ps).step s (.client (.getToken p)) = some
      { s with session := (s.session.setPool p pool').setProducer p { producer with pc := .producing } } := by
    simp [machine, step, Pausable.getToken, hwaiting, stepClient, hclient, h.running, Event.returnsTo]
  exact .single hstep (by simp [isLoopStep]) ⟨by simp [pc, Session.setProducer], h.refused⟩

/-- A loop that waits for the flag or for a token goes on if both are there. -/
theorem Able.acquiring (h : Able p s) (hpc : s.pc p = some .acquiring) : ProducesAgain c clientInfo ps p s := by
  have hseen : ∀ {t : Pausable}, Able p t → t.pc p = some .acquiring → t.waiting p = .seen →
      ProducesAgain c clientInfo ps p t := by
    intro t h hpc hwaiting
    have hstep : (machine c clientInfo ps).step t (.unpause p) =
        some { t with waiting := Function.update t.waiting p .none } := by
      simp only [machine, step, hwaiting, ↓reduceIte]
    exact .cons hstep (by simp [isLoopStep])
      (Able.getToken ⟨h.status, h.running, h.refused, h.pool⟩ hpc (Function.update_self ..))
  cases hwaiting : s.waiting p with
  | none => exact h.getToken hpc hwaiting
  | seen => exact hseen h hpc hwaiting
  | polling =>
    have hstep : (machine c clientInfo ps).step s (.poll p) =
        some { s with waiting := Function.update s.waiting p .seen } := by
      simp only [machine, step, hwaiting, h.running, and_self, ↓reduceIte]
    exact .cons hstep (by simp [isLoopStep])
      (hseen ⟨h.status, h.running, h.refused, h.pool⟩ hpc (Function.update_self ..))

theorem Able.looping (h : Able p s) (hpc : s.pc p = some .looping) (hclient : s.session.running = true) :
    ProducesAgain c clientInfo ps p s := by
  obtain ⟨producer, hp, hpc⟩ := Option.map_eq_some_iff.1 hpc
  have hclient : c.step s.session (.loop p true) =
      some (s.session.setProducer p { producer with pc := .acquiring }, .nothing) := by
    cases c <;> simp [Client.step, Session.step, WebsocketClient.step, WebsocketClient.stepRunning,
      Session.stepRunning, h.status, hp, hpc, hclient]
  have hstep : (machine c clientInfo ps).step s (.client (.loop p true)) =
      some { s with session := s.session.setProducer p { producer with pc := .acquiring } } := by
    simp [machine, step, Pausable.loop, stepClient, hclient, h.running, Event.returnsTo]
  exact .cons hstep (by simp [isLoopStep])
    (Able.acquiring ⟨h.status, h.running, h.refused, h.pool⟩ (by simp [pc, Session.setProducer]))

/-- What stopping and resuming producers must not change: no call of `produce` was refused, no token is lost or made up,
and a loop whose producer is running goes on with a token that is there. -/
structure Unharmed (c : Client) (clientInfo : Option AnyProto) (ps : List String) (s : Pausable) : Prop where
  refused : s.refused = none
  tokens : ∀ p pool, s.session.tokens p = some pool →
    pool.value + s.session.held p + s.sent p = pool.maxTokens + s.returned p
  again : ∀ p pool, s.session.status = .running → s.running p = true → s.session.tokens p = some pool →
    0 < pool.value → (s.pc p = some .acquiring ∨ s.pc p = some .looping ∧ s.session.running = true) →
    ProducesAgain c clientInfo ps p s

theorem run_unharmed (h : (machine c clientInfo ps).RunWhere (timely c) as s) : s.Unharmed c clientInfo ps := by
  have hready := run_ready h
  refine ⟨hready.refused, fun p pool hpool => ?_, fun p pool hstatus hrunning hpool hpos hpc => ?_⟩
  · have hbalance := run_balanced h p
    cases hp : s.session.producers p with
    | none =>
      rw [hpool, hp] at hbalance
      exact hbalance.elim
    | some producer =>
      rw [hpool, hp] at hbalance
      have hheld : s.session.held p = held producer.pc := by
        rw [Session.held_of_pc hp]
        cases producer.pc <;> rfl
      rw [hheld]
      exact hbalance.2
  · have hable : Able p s := ⟨hstatus, hrunning, hready.refused, pool, hpool, hpos⟩
    rcases hpc with hpc | ⟨hpc, hclient⟩
    · exact hable.acquiring hpc
    · exact hable.looping hpc hclient

end Pausable

end Gabriel.GrpcClient
