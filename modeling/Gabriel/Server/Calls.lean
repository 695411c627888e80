import Gabriel.Server.Contexts
import Gabriel.Server.WellFormed

/-!
# The calls of `send_next_input`

A session calls `send_next_input` when it has dealt with a result: after the result was forwarded, or at once if no
client gets it.  `nextInputCall` is the dispatcher that such a call finds.  A step of the session that makes no call
reads or answers a result, registers the worker or removes workers (`Unfed`).
-/

namespace Gabriel

namespace Dispatcher

variable {d d' : Dispatcher} {c : Context} {p : String} {mp : MetadataPayload}

/-! ### Orderly dispatchers -/

/-- A well-formed dispatcher whose workers have each producer at most once in their deque. -/
structure Orderly (d : Dispatcher) : Prop where
  wellFormed : d.WellFormed
  nodup : ∀ c, (d.workers c).producers.Nodup

namespace Orderly

theorem of_producers (h : d.Orderly) (hwf : d'.WellFormed)
    (hproducers : ∀ c, (d'.workers c).producers = (d.workers c).producers) : d'.Orderly :=
  ⟨hwf, fun c => hproducers c ▸ h.nodup c⟩

theorem addProducer (h : d.Orderly) (c : Context) (p : String) : (d.addProducer c p).Orderly := by
  refine ⟨h.wellFormed.modifyWorker _, fun c' => ?_⟩
  by_cases hc : c' = c
  · subst hc
    simp only [addProducer_workers, Function.update_self, EngineWorker.addProducer]
    split
    · exact h.nodup c'
    · simpa using (h.nodup c').concat ‹_›
  · simpa [hc] using h.nodup c'

theorem sendPayload (h : d.Orderly) (c : Context) (b : Bool) : (d.sendPayload c mp b).Orderly :=
  h.of_producers (h.wellFormed.sendPayload b) fun c' => by by_cases hc : c' = c <;> simp [hc]

theorem rotate (h : d.Orderly) (c : Context) (k : Nat) : (d.modifyWorker c (·.rotateProducers k)).Orderly := by
  refine ⟨h.wellFormed.modifyWorker _, fun c' => ?_⟩
  by_cases hc : c' = c
  · subst hc
    simpa using h.nodup c'
  · simpa [hc] using h.nodup c'

theorem nextSent {b : Bool} {r : Dispatcher × Bool} (h : d.Orderly) (hr : NextSent d c b r) : r.1.Orderly := by
  cases hr with
  | none k =>
    refine (h.rotate c k).of_producers ((h.rotate c k).wellFormed.modifyWorker _) fun c' => ?_
    by_cases hc : c' = c <;> simp [hc]
  | dequeued k _ _ hq =>
    have hdequeue := (h.rotate c k).of_producers ((h.rotate c k).wellFormed.dequeue hq) fun _ => rfl
    exact hdequeue.sendPayload c b
  | pickedUp k => exact (h.rotate c k).sendPayload c b

theorem insertWorker (h : d.Orderly) (hc : c < d.nextContext) (id : String) (ar : Bool) :
    (d.insertWorker c id ar).Orderly := by
  refine ⟨h.wellFormed.insertWorker hc id ar, fun c' => ?_⟩
  by_cases hc' : c' = c
  · subst hc'
    simp [Dispatcher.insertWorker]
  · simpa [Dispatcher.insertWorker, hc'] using h.nodup c'

theorem answered {k : Nat} {m : Option Metadata} {result : Result} {ans : Answer} (h : d.Orderly)
    (hans : Answered d c k result m (d', ans)) : d'.Orderly :=
  h.of_producers (h.wellFormed.answered hans) fun _ => by rw [hans.workers]

end Orderly

end Dispatcher

namespace Interleaved

variable {cfg : Config} {sys sys' : Sys} {act : Action} {s s' : Server} {c c' : Context} {pc pc' : SessionPc}
  {d : Dispatcher}

/-! ### Orderly runs -/

private theorem orderly_removals (h : Removals s s') (hs : s.dispatcher.Orderly) : s'.dispatcher.Orderly := by
  refine h.dispatcher (P := Dispatcher.Orderly) (fun h hd => ?_)
    (fun _ hd => hd.of_producers hd.wellFormed.finishRemoval (by simp)) hs
  cases h with
  | silent => exact hd
  | released => exact hd.of_producers (hd.wellFormed.release _ _ _) fun _ => rfl

theorem SessionStep.orderly (h : SessionStep act c pc s s' pc') (hc : c < s.dispatcher.nextContext)
    (hs : s.dispatcher.Orderly) : s'.dispatcher.Orderly := by
  cases h with
  | read => exact hs.of_producers (hs.wellFormed.emit _) fun _ => rfl
  | unread => exact hs.of_producers (hs.wellFormed.emit _) fun _ => rfl
  | forwarded _ h => exact hs.answered h
  | stopped _ h => exact hs.answered h
  | unsent _ h hnext => exact (hs.answered h).nextSent hnext
  | fed _ hnext => exact hs.nextSent hnext
  | inserted id ar _ h => exact (orderly_removals h hs).insertWorker (h.effects.nextContext (c := c) ▸ hc) id ar
  | takeover _ h => exact orderly_removals h hs
  | managed h => exact orderly_removals h hs

theorem StreamEffect.orderly {d d' : Dispatcher} (h : StreamEffect d d') (hd : d.Orderly) : d'.Orderly := by
  cases h with
  | begun _ targets => exact hd.of_producers (hd.wellFormed.beginInput targets) (by simp)
  | added c p => exact hd.addProducer c p
  | sent c mp b => exact hd.sendPayload c b
  | queued => exact hd.of_producers (hd.wellFormed.enqueue.emit _) fun _ => rfl
  | inFlight => exact hd.of_producers (hd.wellFormed.setInFlight.emit _) fun _ => rfl

theorem orderly_step (hstep : step cfg sys act = some sys') (hused : sys.ContextsUsed)
    (h : sys.server.dispatcher.Orderly) : sys'.server.dispatcher.Orderly := by
  cases step_outline hstep with
  | stream _ _ hs => exact hs.invariant (fun hs hd => hs.orderly hd) h
  | opened _ hs => exact hs ▸ h.of_producers h.wellFormed.openContext fun _ => rfl
  | session _ hc hs =>
    refine hs.orderly (Nat.lt_of_not_le fun hle => ?_) h
    rw [hused.fresh _ hle] at hc
    cases hc

theorem run_orderly {as : List Action} (h : (machine cfg).Run as sys) : sys.server.dispatcher.Orderly :=
  h.invariant_of (J := Sys.ContextsUsed) run_contextsUsed ⟨.init, fun _ => List.nodup_nil⟩
    fun _ _ _ hused h _ hstep => orderly_step hstep hused h

/-! ### Calls -/

/-- The dispatcher as the step finds it when it calls `send_next_input` of the worker `c`, if it does. -/
def nextInputCall (c : Context) (sys : Sys) : Action → Option Dispatcher
  | .resumeSession c' false _ =>
    if c' = c then
      match sys.sessions c with
      | some (.sinking k m result) =>
        match sys.server.answerResult c k m result with
        | (s, .next) => some s.dispatcher
        | _ => none
      | some .answering => some sys.server.dispatcher
      | _ => none
    else none
  | _ => none

/-- The calls of `send_next_input` of the worker `c` in a run. -/
def nextInputCalls (cfg : Config) (c : Context) (as : List Action) : List Dispatcher :=
  (machine cfg).trace (nextInputCall c) (machine cfg).init as

theorem answerResult_dispatcher (s : Server) (c : Context) (k : Nat) (m : Option Metadata) (result : Result) :
    (s.answerResult c k m result).1.dispatcher = (s.dispatcher.answerResult c k m result).1 := by
  unfold Server.answerResult Server.sendResult
  split <;> rename_i heq <;> simp [heq]

/-- A call is made by the session of the worker, after its result was forwarded or if no client gets it. -/
theorem nextInputCall_cases (h : nextInputCall c sys act = some d) : ∃ b, act = .resumeSession c false b ∧
    ((sys.sessions c = some .answering ∧ d = sys.server.dispatcher) ∨
      ∃ k m result s, sys.sessions c = some (.sinking k m result) ∧
        sys.server.answerResult c k m result = (s, .next) ∧ d = s.dispatcher) := by
  cases act with
  | resumeSession c' raises b =>
    cases raises with
    | true => cases h
    | false =>
      simp only [nextInputCall] at h
      split at h
      · rename_i hc
        subst hc
        refine ⟨b, rfl, ?_⟩
        split at h
        · rename_i k m result hpc
          split at h
          · rename_i s hans
            exact Or.inr ⟨k, m, result, s, hpc, hans, (Option.some.inj h).symm⟩
          · cases h
        · exact Or.inl ⟨‹_›, (Option.some.inj h).symm⟩
        · cases h
      · cases h
  | _ => cases h

/-- The dispatcher at a call differs from the one before the step at most by an answered result. -/
theorem nextInputCall_answered (h : nextInputCall c sys act = some d) : d = sys.server.dispatcher ∨
    ∃ k m result ans, Dispatcher.Answered sys.server.dispatcher c k result m (d, ans) := by
  obtain ⟨b, -, ⟨-, rfl⟩ | ⟨k, m, result, s, -, hans, rfl⟩⟩ := nextInputCall_cases h
  · exact Or.inl rfl
  · refine Or.inr ⟨k, m, result, (sys.server.dispatcher.answerResult c k m result).2, ?_⟩
    have hd := answerResult_dispatcher sys.server c k m result
    rw [hans] at hd
    exact Dispatcher.answerResult_cases (by rw [hd])

private theorem feed_dispatcher (s : Server) (c : Context) (b : Bool) :
    (feed s c b).1.dispatcher = (s.dispatcher.sendNextInput c b).1 ∧ ¬ (feed s c b).2.registering := by
  unfold feed
  split <;> rename_i heq <;> simp [heq, SessionPc.registering]

/-- What a call leaves behind. -/
theorem step_of_nextInputCall (hcall : nextInputCall c sys act = some d) (hstep : step cfg sys act = some sys') :
    sys'.Registered c ∧ ∃ b, act = .resumeSession c false b ∧ sys'.server.dispatcher = (d.sendNextInput c b).1 := by
  obtain ⟨b, rfl, ⟨hpc, rfl⟩ | ⟨k, m, result, s, hpc, hans, rfl⟩⟩ := nextInputCall_cases hcall
  · simp only [step, hpc, resumeSession, Bool.false_eq_true, ↓reduceIte, Option.bind_eq_bind, Option.bind_some,
      Option.pure_def, Option.some.injEq] at hstep
    subst hstep
    exact ⟨⟨_, by simp [Sys.setSession], (feed_dispatcher sys.server c b).2⟩, b, rfl,
      (feed_dispatcher sys.server c b).1⟩
  · simp only [step, hpc, resumeSession, answer, hans, Bool.false_eq_true, ↓reduceIte, Option.bind_eq_bind,
      Option.bind_some, Option.pure_def, Option.some.injEq] at hstep
    subst hstep
    exact ⟨⟨_, by simp [Sys.setSession], (feed_dispatcher s c b).2⟩, b, rfl, (feed_dispatcher s c b).1⟩

/-- What a step of the session `c` at `pc` does to the shared state if it makes no call. -/
inductive Unfed (c : Context) (pc : SessionPc) (s : Server) : Server → Prop
  | removed {s' : Server} (h : Removals s s') : Unfed c pc s s'
  | gotResult (r : Result) : Unfed c pc s { s with dispatcher := s.dispatcher.emit (.gotResult c r) }
  | answered {s' : Server} {k : Nat} {m : Option Metadata} {result : Result} {ans : Dispatcher.Answer}
      (h : Dispatcher.Answered s.dispatcher c k result m (s'.dispatcher, ans)) : Unfed c pc s s'
  | inserted {s₁ : Server} {f : Frontend} (id : String) (ar : Bool) (hpc : pc.registering) (h : Removals s s₁) :
      Unfed c pc s { dispatcher := s₁.dispatcher.insertWorker c id ar, frontend := f }

/-- A session that is not about to call `send_next_input`. -/
private theorem SessionStep.unfed (h : SessionStep act c pc s s' pc')
    (hsinking : ∀ k m result, pc ≠ .sinking k m result) (hanswering : pc ≠ .answering) : Unfed c pc s s' := by
  cases h with
  | read => exact .gotResult _
  | unread => exact .gotResult _
  | forwarded hpc => exact absurd hpc (hsinking _ _ _)
  | stopped hpc => exact absurd hpc (hsinking _ _ _)
  | unsent hpc => exact absurd hpc (hsinking _ _ _)
  | fed hpc => exact absurd hpc hanswering
  | inserted id ar hpc h => exact .inserted id ar hpc h
  | takeover _ h => exact .removed h
  | managed h => exact .removed h

private theorem removals_leaveLoop (s : Server) (c : Context) (err : Option PyError) :
    Removals s (leaveLoop s c err).1 := by
  have hclosing : ∀ r : Server × RemovalOutcome, (closingFrom err r).1 = r.1 := by
    rintro ⟨s', _ | _ | _⟩ <;> rfl
  unfold leaveLoop
  split
  · rw [hclosing]
    exact removals_startRemoval
  · exact .refl

/-- A session that is about to call `send_next_input` and does not. -/
private theorem unfed_of_resumeSession {raises b : Bool} (hpc : sys.sessions c = some pc)
    (hcalls : (∃ k m result, pc = .sinking k m result) ∨ pc = .answering)
    (hcall : nextInputCall c sys (.resumeSession c raises b) = none)
    (h : resumeSession sys.server c raises b pc = some (s', pc')) : Unfed c pc sys.server s' := by
  cases raises with
  | true =>
    have hleave := removals_leaveLoop sys.server c (some .raised)
    rcases hcalls with ⟨k, m, result, rfl⟩ | rfl <;>
    · simp only [resumeSession, ↓reduceIte, Option.some.injEq] at h
      rw [h] at hleave
      exact .removed hleave
  | false =>
    rcases hcalls with ⟨k, m, result, rfl⟩ | rfl
    · have hd := answerResult_dispatcher sys.server c k m result
      simp only [resumeSession, answer, Bool.false_eq_true, ↓reduceIte, Option.some.injEq] at h
      simp only [nextInputCall, ↓reduceIte, hpc] at hcall
      rcases hans : sys.server.answerResult c k m result with ⟨s, _ | _ | _⟩
      all_goals rw [hans] at hd h hcall
      · cases h
        exact .answered (Dispatcher.answerResult_cases (Prod.ext hd.symm rfl))
      · cases h
        exact .answered (Dispatcher.answerResult_cases (Prod.ext hd.symm rfl))
      · cases hcall
    · simp [nextInputCall, hpc] at hcall

theorem unfed_of_no_call (hown : act.session = some c) (hcall : nextInputCall c sys act = none)
    (hstep : step cfg sys act = some sys') : ∃ pc, sys.sessions c = some pc ∧ Unfed c pc sys.server sys'.server := by
  cases step_cases hstep with
  | @session _ c' pc pc' s hpc _ hs hact =>
    obtain rfl : c' = c := Option.some.inj (hact.symm.trans hown)
    refine ⟨pc, hpc, ?_⟩
    by_cases hcalls : (∃ k m result, pc = .sinking k m result) ∨ pc = .answering
    · cases act with
      | resumeSession c₁ raises b =>
        obtain rfl : c₁ = c' := Option.some.inj hown
        simp only [step, hpc, Option.bind_eq_bind, Option.bind_some] at hstep
        obtain ⟨r, hr, he⟩ := Option.bind_eq_some_iff.1 hstep
        have hserver : r.1 = s := congrArg Sys.server (Option.some.inj he)
        exact hserver ▸ unfed_of_resumeSession hpc hcalls hcall hr
      | engineMessage c₁ msg =>
        obtain rfl : c₁ = c' := Option.some.inj hown
        rcases hcalls with ⟨k, m, result, rfl⟩ | rfl <;> simp [step, hpc] at hstep
      | closeSession c₁ =>
        obtain rfl : c₁ = c' := Option.some.inj hown
        rcases hcalls with ⟨k, m, result, rfl⟩ | rfl <;> simp [step, hpc, closeSession] at hstep
      | _ => cases hown
    · exact hs.unfed (fun k m result he => hcalls (Or.inl ⟨k, m, result, he⟩)) fun he => hcalls (Or.inr he)
  | _ => cases hown

end Interleaved

end Gabriel
