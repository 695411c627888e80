import Mathlib.Logic.Relation
import Gabriel.Server.DispatcherLemmas
import Gabriel.Server.FrontendLemmas
import Gabriel.Server.Interleaved

/-!
# What a session does between two suspensions

`session_cases` lists what a step of an engine's session can do: read a result, answer it, feed the engine, register
its worker, or remove workers and tell the clients.  Registrations and removals are sequences of a few operations on
the shared state (`Removals`).  Invariants that do not speak of program counters only need to know which operations
there are at all (`Effect`).
-/

namespace Gabriel.Interleaved

open Frontend

variable {s s' : Server} {c v : Context} {pc pc' : SessionPc}

/-! ### Removals and broadcasts -/

/-- The operations that `_remove_engine_worker` and `_engines_updated_cb` consist of. -/
inductive RemovalEffect : Server → Server → Prop
  | quiet {s : Server} {f : Frontend} (h : Told s.frontend f) : RemovalEffect s { s with frontend := f }
  | begunSilently {s : Server} {v : Context} {d : Dispatcher} (h : Dispatcher.RemovalBegun s.dispatcher v (d, none)) :
      RemovalEffect s { s with dispatcher := d }
  | begun {s : Server} {v : Context} {d : Dispatcher} {a : Address} {w : ResultWrapper} {r : Frontend × Bool}
      (h : Dispatcher.RemovalBegun s.dispatcher v (d, some (a, w))) (hf : ResultSent s.frontend a w r) :
      RemovalEffect s { dispatcher := d, frontend := r.1 }
  | finished {s : Server} (v : Context) : RemovalEffect s { s with dispatcher := (s.dispatcher.finishRemoval v).1 }

/-- A sequence of such operations. -/
abbrev Removals : Server → Server → Prop := Relation.ReflTransGen RemovalEffect

theorem told_broadcastFrom (f : Frontend) (ids : Finset String) (size : Nat) (todo : List Address) :
    Told f (broadcastFrom f ids size todo).1 := by
  induction todo generalizing f with
  | nil => exact .refl f
  | cons a rest ih =>
    have hsend : Told f (f.sendViaTransport a (.engineIdsUpdate ids)).1 := told_sendViaTransport ids
    unfold broadcastFrom
    split <;> rename_i heq <;> rw [heq] at hsend
    · exact hsend
    · exact hsend.trans (ih _)

theorem removals_startBroadcast : Removals s (startBroadcast s).1 := .single (.quiet (told_broadcastFrom _ _ _ _))

theorem removals_resumeBroadcast (b : Broadcast) : Removals s (resumeBroadcast s b).1 := by
  unfold resumeBroadcast
  split
  · exact .single (.quiet (told_broadcastFrom _ _ _ _))
  · exact .refl

theorem removals_afterSending : Removals s (afterSending s v).1 := by
  have hfin : Removals s { s with dispatcher := (s.dispatcher.finishRemoval v).1 } := .single (.finished v)
  unfold afterSending
  split <;> rename_i heq <;> rw [heq] at hfin
  · exact hfin
  · exact hfin.trans removals_startBroadcast

theorem removals_beginRemoval : Removals s (s.beginRemoval v).1 := by
  unfold Server.beginRemoval Server.sendResult
  split <;> rename_i heq
  · exact .single (.begunSilently (Dispatcher.beginRemoval_cases heq))
  · exact .single (.begun (Dispatcher.beginRemoval_cases heq) (sendResult_cases rfl))

theorem removals_startRemoval : Removals s (startRemoval s v).1 := by
  have hbegin : Removals s (s.beginRemoval v).1 := removals_beginRemoval
  unfold startRemoval
  split <;> rename_i heq <;> rw [heq] at hbegin
  · exact hbegin
  · exact hbegin.trans removals_afterSending

theorem removals_resumeRemoval (rpc : RemovalPc) : Removals s (resumeRemoval s v rpc).1 := by
  cases rpc with
  | sending => exact removals_afterSending
  | broadcasting b => exact removals_resumeBroadcast b

/-! ### The steps of a session -/

/-- The session is still in `_add_engine_worker`, before its worker is inserted. -/
def SessionPc.registering : SessionPc → Prop
  | .connected | .takeover _ _ _ _ => True
  | _ => False

/-- The session is past the insertion of its worker, or has ended, and has no result to deal with. -/
def SessionPc.resting : SessionPc → Prop
  | .announcing _ | .idle | .feeding | .closing _ _ | .finished _ => True
  | _ => False

/-- What the session `c` at `pc` does to the shared state `s`, and where it is suspended next. -/
inductive SessionStep (act : Action) (c : Context) (pc : SessionPc) (s : Server) : Server → SessionPc → Prop
  /-- A result is read. -/
  | read {msg : FromEngine} (hact : act = .engineMessage c msg) (hmsg : ∀ id ar, msg ≠ .register id ar)
      (hpc : pc = .idle) : SessionStep act c pc s
        { s with dispatcher := s.dispatcher.emit (.gotResult c msg.asResult) }
        (.sinking (s.dispatcher.resultsRead c) (s.dispatcher.workers c).currentInputMetadata
          (s.dispatcher.stampResult c msg))
  /-- A result of a worker that was removed is read. -/
  | unread {msg : FromEngine} (hact : act = .engineMessage c msg) (hmsg : ∀ id ar, msg ≠ .register id ar)
      (hpc : pc = .idle) (hc : c ∉ s.dispatcher.engineWorkers) : SessionStep act c pc s
        { s with dispatcher := s.dispatcher.emit (.gotResult c msg.asResult) } .idle
  /-- A result is forwarded to its client. -/
  | forwarded {k : Nat} {m : Option Metadata} {result : Result} {d : Dispatcher} {a : Address} {w : ResultWrapper}
      {r : Frontend × Bool} (hpc : pc = .sinking k m result)
      (h : Dispatcher.Answered s.dispatcher c k result m (d, .send a w)) (hf : ResultSent s.frontend a w r) :
      SessionStep act c pc s { dispatcher := d, frontend := r.1 } .answering
  /-- A result without an input is dropped. -/
  | stopped {k : Nat} {m : Option Metadata} {result : Result} {d : Dispatcher} (hpc : pc = .sinking k m result)
      (h : Dispatcher.Answered s.dispatcher c k result m (d, .stop)) :
      SessionStep act c pc s { s with dispatcher := d } .idle
  /-- A result that no client gets, and `send_next_input`. -/
  | unsent {k : Nat} {m : Option Metadata} {result : Result} {d : Dispatcher} {ans : Dispatcher.Answer} {b : Bool}
      {r : Dispatcher × Bool} {pc' : SessionPc} (hpc : pc = .sinking k m result)
      (h : Dispatcher.Answered s.dispatcher c k result m (d, ans)) (hnext : Dispatcher.NextSent d c b r)
      (hpc' : pc'.resting) (hgone : ∀ a w, ans = .send a w → s.frontend.clients.get? a = none) :
      SessionStep act c pc s { s with dispatcher := r.1 } pc'
  /-- `send_next_input` after a result was forwarded. -/
  | fed {b : Bool} {r : Dispatcher × Bool} {pc' : SessionPc} (hpc : pc = .answering)
      (hnext : Dispatcher.NextSent s.dispatcher c b r)
      (hpc' : pc'.resting) : SessionStep act c pc s { s with dispatcher := r.1 } pc'
  /-- The worker of the session is inserted. -/
  | inserted {s₁ : Server} {f : Frontend} {pc' : SessionPc} (id : String) (ar : Bool) (hpc : pc.registering)
      (h : Removals s s₁)
      (hf : Told s₁.frontend f) (hpc' : pc'.resting) :
      SessionStep act c pc s { dispatcher := s₁.dispatcher.insertWorker c id ar, frontend := f } pc'
  /-- The insertion waits for the removal of the worker `v`. -/
  | takeover {s' : Server} {id : String} {ar : Bool} {v : Context} {rpc : RemovalPc} (hpc : pc.registering)
      (h : Removals s s') :
      SessionStep act c pc s s' (.takeover id ar v rpc)
  /-- Workers are removed and clients told. -/
  | managed {s' : Server} {pc' : SessionPc} (h : Removals s s') (hpc' : pc'.resting)
      (hreg : pc.registering → ∃ err, pc' = .finished err) : SessionStep act c pc s s' pc'

variable {act : Action}

theorem SessionPc.resting_ofBroadcast (o : BroadcastOutcome) : (SessionPc.ofBroadcast o).resting := by
  cases o <;> trivial

theorem sessionStep_register {s₁ : Server} (id : String) (ar : Bool) (hpc : pc.registering)
      (h : Removals s s₁) :
    SessionStep act c pc s (register s₁ c id ar).1 (register s₁ c id ar).2 :=
  .inserted id ar hpc h (told_broadcastFrom _ _ _ _) (SessionPc.resting_ofBroadcast _)

theorem sessionStep_takeoverFrom (id : String) (ar : Bool) (hpc : pc.registering) {r : Server × RemovalOutcome}
    (h : Removals s r.1) :
    SessionStep act c pc s (takeoverFrom c id ar v r).1 (takeoverFrom c id ar v r).2 := by
  obtain ⟨s', _ | _ | _⟩ := r
  · exact .takeover hpc h
  · exact sessionStep_register id ar hpc h
  · exact .managed h trivial fun _ => ⟨_, rfl⟩

theorem sessionStep_closingFrom (err : Option PyError) (hpc : ¬ pc.registering) {r : Server × RemovalOutcome}
    (h : Removals s r.1) : SessionStep act c pc s (closingFrom err r).1 (closingFrom err r).2 := by
  obtain ⟨s', _ | _ | _⟩ := r <;> exact .managed h trivial fun hreg => absurd hreg hpc

theorem sessionStep_leaveLoop (err : Option PyError) (hpc : ¬ pc.registering) :
    SessionStep act c pc s (leaveLoop s c err).1 (leaveLoop s c err).2 := by
  unfold leaveLoop
  split
  · exact sessionStep_closingFrom err hpc removals_startRemoval
  · exact .managed .refl trivial fun hreg => absurd hreg hpc

theorem feed_cases (s : Server) (c : Context) (b : Bool) : ∃ r, Dispatcher.NextSent s.dispatcher c b r ∧
    (feed s c b).1 = { s with dispatcher := r.1 } ∧ (feed s c b).2.resting := by
  refine ⟨s.dispatcher.sendNextInput c b, Dispatcher.sendNextInput_cases rfl, ?_⟩
  unfold feed
  split <;> rename_i heq <;> rw [heq] <;> exact ⟨rfl, trivial⟩

theorem sessionStep_answer {k : Nat} {m : Option Metadata} {result : Result} (hpc : pc = .sinking k m result)
    (b : Bool) : SessionStep act c pc s (answer s c k m result b).1 (answer s c k m result b).2 := by
  unfold answer Server.answerResult Server.sendResult
  rcases hans : s.dispatcher.answerResult c k m result with ⟨d, _ | ⟨a, w⟩ | _⟩
  · exact .stopped hpc (Dispatcher.answerResult_cases hans)
  · simp only
    rcases hsent : s.frontend.sendResult a w with ⟨f, _ | _⟩
    · -- there is no client at the address any more
      obtain ⟨rfl, hnone⟩ : f = s.frontend ∧ s.frontend.clients.get? a = none := by
        generalize hr : (f, false) = r at hsent
        cases sendResult_cases hsent with
        | noClient hnone => exact ⟨congrArg Prod.fst hr, hnone⟩
        | sent => cases hr
      obtain ⟨r, hnext, hs, hpc'⟩ := feed_cases { s with dispatcher := d } c b
      simp only [Bool.false_eq_true, ↓reduceIte]
      rw [hs]
      exact .unsent hpc (Dispatcher.answerResult_cases hans) hnext hpc' fun _ _ he => by cases he; exact hnone
    · exact .forwarded hpc (Dispatcher.answerResult_cases hans) (sendResult_cases hsent)
  · obtain ⟨r, hnext, hs, hpc'⟩ := feed_cases { s with dispatcher := d } c b
    simp only
    rw [hs]
    exact .unsent hpc (Dispatcher.answerResult_cases hans) hnext hpc' fun _ _ he => by cases he

theorem sessionStep_firstMessage (msg : FromEngine) :
    SessionStep act c .connected s (firstMessage s c msg).1 (firstMessage s c msg).2 := by
  have hpc : SessionPc.registering .connected := trivial
  cases msg with
  | register id ar =>
    simp only [firstMessage]
    split
    · exact sessionStep_takeoverFrom id ar hpc removals_startRemoval
    · exact sessionStep_register id ar hpc .refl
  | unset => exact .managed .refl trivial fun _ => ⟨_, rfl⟩
  | result r => exact .managed .refl trivial fun _ => ⟨_, rfl⟩

theorem sessionStep_nextMessage (msg : FromEngine) :
    SessionStep (.engineMessage c msg) c .idle s (nextMessage s c msg).1 (nextMessage s c msg).2 := by
  have hresult : (∀ id ar, msg ≠ .register id ar) → SessionStep (.engineMessage c msg) c .idle s
      { s with dispatcher := s.dispatcher.emit (.gotResult c msg.asResult) }
      (if c ∈ s.dispatcher.engineWorkers then .sinking (s.dispatcher.resultsRead c)
        (s.dispatcher.workers c).currentInputMetadata (s.dispatcher.stampResult c msg) else .idle) := by
    intro hmsg
    split
    · exact .read rfl hmsg rfl
    · exact .unread rfl hmsg rfl ‹_›
  cases msg with
  | register id ar => exact .managed .refl trivial fun hreg => hreg.elim
  | unset =>
    have := hresult (by simp)
    simp only [nextMessage]
    split at this <;> rename_i hc <;> simpa only [hc, ↓reduceIte] using this
  | result r =>
    have := hresult (by simp)
    simp only [nextMessage]
    split at this <;> rename_i hc <;> simpa only [hc, ↓reduceIte] using this

private theorem SessionStep.of_some {r : Server × SessionPc} (h : some r = some (s', pc'))
    (hr : SessionStep act c pc s r.1 r.2) : SessionStep act c pc s s' pc' := by
  obtain rfl := Option.some.inj h
  exact hr

theorem resumeSession_cases {raises b : Bool} (h : resumeSession s c raises b pc = some (s', pc')) :
    SessionStep act c pc s s' pc' := by
  cases pc with
  | connected => cases h
  | idle => cases h
  | finished => cases h
  | takeover id ar v rpc =>
    simp only [resumeSession] at h
    split at h
    · exact .of_some h (.managed .refl trivial fun _ => ⟨_, rfl⟩)
    · exact .of_some h (sessionStep_takeoverFrom id ar
        (show SessionPc.registering (.takeover id ar v rpc) from trivial) (removals_resumeRemoval rpc))
  | announcing b =>
    simp only [resumeSession] at h
    split at h
    · exact .of_some h (.managed .refl trivial fun hreg => hreg.elim)
    · exact .of_some h (.managed (removals_resumeBroadcast b) (SessionPc.resting_ofBroadcast _)
        fun hreg => hreg.elim)
  | sinking k m result =>
    simp only [resumeSession] at h
    split at h
    · exact .of_some h (sessionStep_leaveLoop _ id)
    · exact .of_some h (sessionStep_answer rfl _)
  | answering =>
    simp only [resumeSession] at h
    split at h
    · exact .of_some h (sessionStep_leaveLoop _ id)
    · obtain ⟨r, hnext, hs, hpc'⟩ := feed_cases s c b
      exact .of_some h (hs ▸ .fed rfl hnext hpc')
  | feeding =>
    simp only [resumeSession] at h
    split at h
    · exact .of_some h (sessionStep_leaveLoop _ id)
    · exact .of_some h (.managed .refl trivial fun hreg => hreg.elim)
  | closing err rpc =>
    simp only [resumeSession] at h
    split at h
    · exact .of_some h (.managed .refl trivial fun hreg => hreg.elim)
    · exact .of_some h (sessionStep_closingFrom err id (removals_resumeRemoval rpc))

theorem closeSession_cases (h : closeSession s c pc = some (s', pc')) : SessionStep act c pc s s' pc' := by
  cases pc with
  | connected => exact .of_some h (.managed .refl trivial fun _ => ⟨_, rfl⟩)
  | idle => exact .of_some h (sessionStep_leaveLoop _ id)
  | _ => cases h

/-! ### Operations -/

/-- The operations that the steps of a session `c` consist of. -/
inductive Effect (c : Context) : Server → Server → Prop
  | removal {s s' : Server} (h : RemovalEffect s s') : Effect c s s'
  | quiet {s : Server} {f : Frontend} (h : Told s.frontend f) : Effect c s { s with frontend := f }
  | gotResult {s : Server} (r : Result) : Effect c s { s with dispatcher := s.dispatcher.emit (.gotResult c r) }
  | answered {s : Server} {k : Nat} {m : Option Metadata} {result : Result} {d : Dispatcher} {ans : Dispatcher.Answer}
      (h : Dispatcher.Answered s.dispatcher c k result m (d, ans)) : Effect c s { s with dispatcher := d }
  | resultSent {s : Server} {a : Address} {w : ResultWrapper} {r : Frontend × Bool}
      (h : ResultSent s.frontend a w r) : Effect c s { s with frontend := r.1 }
  | fed {s : Server} {b : Bool} {r : Dispatcher × Bool} (h : Dispatcher.NextSent s.dispatcher c b r) :
      Effect c s { s with dispatcher := r.1 }
  | inserted {s : Server} (id : String) (ar : Bool) :
      Effect c s { s with dispatcher := s.dispatcher.insertWorker c id ar }

/-- A sequence of operations. -/
abbrev Effects (c : Context) : Server → Server → Prop := Relation.ReflTransGen (Effect c)

theorem Removals.effects (h : Removals s s') : Effects c s s' :=
  Relation.ReflTransGen.mono (fun _ _ h => Effect.removal h) _ _ h

theorem SessionStep.effects (h : SessionStep act c pc s s' pc') : Effects c s s' := by
  cases h with
  | read => exact .single (.gotResult _)
  | unread => exact .single (.gotResult _)
  | @forwarded _ _ _ d _ _ _ hpc h hf =>
    have hsent : Effect c { s with dispatcher := d } _ := .resultSent hf
    exact (Relation.ReflTransGen.single (.answered h)).tail hsent
  | stopped hpc h => exact .single (.answered h)
  | @unsent _ _ _ d _ _ _ _ hpc h hnext =>
    have hfed : Effect c { s with dispatcher := d } _ := .fed hnext
    exact (Relation.ReflTransGen.single (.answered h)).tail hfed
  | fed hpc hnext => exact .single (.fed hnext)
  | @inserted s₁ _ _ id ar hpc h hf =>
    have hquiet : Effect c { s₁ with dispatcher := s₁.dispatcher.insertWorker c id ar } _ := .quiet hf
    exact (h.effects.tail (.inserted id ar)).tail hquiet
  | takeover hpc h => exact h.effects
  | managed h => exact h.effects

/-- What removals do to the dispatcher. -/
theorem Removals.dispatcher {P : Dispatcher → Prop}
    (hbegun : ∀ {d d' : Dispatcher} {v r}, Dispatcher.RemovalBegun d v (d', r) → P d → P d')
    (hfinished : ∀ {d : Dispatcher} v, P d → P (d.finishRemoval v).1) (h : Removals s s') (hs : P s.dispatcher) :
    P s'.dispatcher := by
  induction h with
  | refl => exact hs
  | tail _ h ih =>
    cases h with
    | quiet => exact ih
    | begunSilently h => exact hbegun h ih
    | begun h => exact hbegun h ih
    | finished v => exact hfinished v ih

/-- What the operations of a session do to the dispatcher. -/
theorem Effects.dispatcher {P : Dispatcher → Prop}
    (hbegun : ∀ {d d' : Dispatcher} {v r}, Dispatcher.RemovalBegun d v (d', r) → P d → P d')
    (hfinished : ∀ {d : Dispatcher} v, P d → P (d.finishRemoval v).1)
    (hgot : ∀ {d : Dispatcher} r, P d → P (d.emit (.gotResult c r)))
    (hanswered : ∀ {d d' : Dispatcher} {k result m ans}, Dispatcher.Answered d c k result m (d', ans) → P d → P d')
    (hfed : ∀ {d : Dispatcher} {b r}, Dispatcher.NextSent d c b r → P d → P r.1)
    (hinserted : ∀ {d : Dispatcher} id ar, P d → P (d.insertWorker c id ar))
    (h : Effects c s s') (hs : P s.dispatcher) : P s'.dispatcher := by
  induction h with
  | refl => exact hs
  | tail _ h ih =>
    cases h with
    | removal h => exact Removals.dispatcher hbegun hfinished (.single h) ih
    | quiet => exact ih
    | gotResult r => exact hgot r ih
    | answered h => exact hanswered h ih
    | resultSent => exact ih
    | fed h => exact hfed h ih
    | inserted id ar => exact hinserted id ar ih

theorem Effects.nextContext (h : Effects c s s') : s'.dispatcher.nextContext = s.dispatcher.nextContext :=
  h.dispatcher (P := fun d => d.nextContext = s.dispatcher.nextContext) (fun h hd => by cases h <;> exact hd)
    (fun _ hd => by simpa using hd) (fun _ hd => hd) (fun h hd => h.nextContext.trans hd)
    (fun h hd => by cases h <;> simpa using hd) (fun _ _ hd => hd) rfl

theorem Removals.workers (h : Removals s s') : s'.dispatcher.workers = s.dispatcher.workers :=
  h.dispatcher (P := fun d => d.workers = s.dispatcher.workers) (fun h hd => by cases h <;> exact hd)
    (fun _ hd => by simpa using hd) rfl

/-- A session leaves the workers of the others alone. -/
theorem Effects.workers_of_ne {c' : Context} (h : Effects c' s s') (hc : c ≠ c') :
    s'.dispatcher.workers c = s.dispatcher.workers c :=
  h.dispatcher (P := fun d => d.workers c = s.dispatcher.workers c) (fun h hd => by cases h <;> exact hd)
    (fun _ hd => by simpa using hd) (fun _ hd => hd) (fun h hd => by rw [h.workers, hd])
    (fun h hd => by cases h <;> simpa [hc] using hd) (fun _ _ hd => by simpa [hc] using hd) rfl

/-- A session forgets nothing that the dispatcher has recorded. -/
theorem Effects.dispatcher_log_grows (h : Effects c s s') : s.dispatcher.log <+: s'.dispatcher.log :=
  h.dispatcher (P := fun d => s.dispatcher.log <+: d.log) (fun h hd => hd.trans (by cases h <;> simp))
    (fun _ hd => by simpa using hd) (fun _ hd => hd.trans (by simp)) (fun h hd => hd.trans (by cases h <;> simp))
    (fun h hd => hd.trans (by cases h <;> simp)) (fun _ _ hd => hd) List.prefix_rfl

/-- What the operations of a session do to the frontend: they tell engine ids and send results. -/
theorem Effects.frontend {P : Frontend → Prop} (htold : ∀ {f f' : Frontend}, Told f f' → P f → P f')
    (hsent : ∀ {f : Frontend} {a : Address} {w : ResultWrapper} {r : Frontend × Bool}, ResultSent f a w r → P f → P r.1)
    (h : Effects c s s') (hs : P s.frontend) : P s'.frontend := by
  induction h with
  | refl => exact hs
  | tail _ h ih =>
    cases h with
    | removal h =>
      cases h with
      | quiet h => exact htold h ih
      | begunSilently => exact ih
      | begun _ hf => exact hsent hf ih
      | finished => exact ih
    | quiet h => exact htold h ih
    | gotResult => exact ih
    | answered => exact ih
    | resultSent hf => exact hsent hf ih
    | fed => exact ih
    | inserted => exact ih

/-- A session leaves the table of the clients as it is. -/
theorem Effects.clients (h : Effects c s s') : s'.frontend.clients = s.frontend.clients :=
  h.frontend (P := fun f => f.clients = s.frontend.clients) (fun ht hf => ht.table.trans hf)
    (fun hr hf => hr.clients.trans hf) rfl

theorem Effects.nextClient (h : Effects c s s') : s'.frontend.nextClient = s.frontend.nextClient :=
  h.frontend (P := fun f => f.nextClient = s.frontend.nextClient) (fun ht hf => ht.nextClient.trans hf)
    (fun hr hf => hr.nextClient.trans hf) rfl

end Gabriel.Interleaved
