import Gabriel.Server.History
import Gabriel.Server.InterleavedLemmas

/-!
# When the dispatcher uses a context

The dispatcher writes to an engine, reads from it and lists it as a worker only after its session has inserted the
worker.
-/

namespace Gabriel

/-- The context whose stream an event is about. -/
@[simp] def DispatchEvent.context : DispatchEvent → Option Context
  | .wrote c _ _ => some c
  | .gotResult c _ => some c
  | _ => none

namespace Dispatcher

variable {d d' : Dispatcher} {c c' : Context} {mp : MetadataPayload}

/-- The context is that of a worker, or its stream was used. -/
def Uses (d : Dispatcher) (c : Context) : Prop := c ∈ d.engineWorkers ∨ ∃ e ∈ d.log, e.context = some c

theorem Uses.of_append {l : List DispatchEvent} (hworkers : d'.engineWorkers ⊆ d.engineWorkers)
    (hlog : d'.log = d.log ++ l) (h : d'.Uses c) : d.Uses c ∨ ∃ e ∈ l, e.context = some c := by
  rcases h with hw | ⟨e, he, hec⟩
  · exact Or.inl (Or.inl (hworkers hw))
  · rw [hlog, List.mem_append] at he
    exact he.elim (fun he => Or.inl (Or.inr ⟨e, he, hec⟩)) fun he => Or.inr ⟨e, he, hec⟩

theorem Uses.answered {k : Nat} {m : Option Metadata} {result : Result} {ans : Answer}
    (h : Answered d c k result m (d', ans)) (hu : d'.Uses c') : d.Uses c' := by
  cases h with
  | noMetadata => exact hu
  | noProducer => exact hu
  | token => simpa using Uses.of_append (by simp) (release_log ..) hu
  | copy => simpa using Uses.of_append (by simp) (emit_log ..) hu
  | next => exact hu

theorem Uses.removalBegun {r : Option (Address × ResultWrapper)} (h : RemovalBegun d c (d', r)) (hu : d'.Uses c') :
    d.Uses c' := by
  cases h with
  | silent => exact hu
  | released => simpa using Uses.of_append (by simp) (release_log ..) hu

theorem Uses.finishRemoval (hu : (d.finishRemoval c).1.Uses c') : d.Uses c' := by
  have hsub : (d.finishRemoval c).1.engineWorkers ⊆ d.engineWorkers := by
    rcases d.finishRemoval_engineWorkers c with he | he <;> rw [he]
    · exact fun _ => id
    · exact List.erase_subset
  simpa using Uses.of_append (l := []) hsub (by simp) hu

theorem Uses.sendPayload {b : Bool} (hu : (d.sendPayload c mp b).Uses c') : d.Uses c' ∨ c' = c := by
  have := Uses.of_append (by simp) (sendPayload_log ..) hu
  cases b with
  | false => exact Or.inl (by simpa using this)
  | true => simpa [eq_comm] using this

theorem Uses.nextSent {b : Bool} {r : Dispatcher × Bool} (h : NextSent d c b r) (hu : r.1.Uses c') :
    d.Uses c' ∨ c' = c := by
  cases h with
  | none => exact Or.inl hu
  | dequeued =>
    refine hu.sendPayload.imp_left fun hu => ?_
    simpa [Uses] using Uses.of_append (by simp) (dequeue_log ..) hu
  | pickedUp => exact hu.sendPayload

theorem Uses.dispatched {b : Bool} {order : List Context} {r : Dispatcher × Option (List Context)}
    (h : Dispatched d mp b order r) (hu : r.1.Uses c') : d.Uses c' ∨ c' ∈ order := by
  have hadd : ∀ {cs p}, (d.addProducers cs p).Uses c' → d.Uses c' := fun hu => by simpa [Uses] using hu
  cases h with
  | busy => exact Or.inl (hadd hu)
  | wrote => exact hu.sendPayload.imp hadd fun hc => by simp [hc]

end Dispatcher

namespace Interleaved

variable {cfg : Config} {s s' : Server} {sys sys' : Sys} {act : Action} {c c' : Context} {pc pc' : SessionPc}

theorem Uses.removals (h : Removals s s') (hu : s'.dispatcher.Uses c) : s.dispatcher.Uses c :=
  h.dispatcher (P := fun d => d.Uses c → s.dispatcher.Uses c) (fun h hd hu => hd (hu.removalBegun h))
    (fun _ hd hu => hd hu.finishRemoval) id hu

theorem SessionPc.not_registering_of_resting (h : pc.resting) : ¬ pc.registering := by
  cases pc <;> simp_all [SessionPc.resting, SessionPc.registering]

theorem SessionStep.not_registering (h : SessionStep act c pc s s' pc') (hpc : ¬ pc.registering) :
    ¬ pc'.registering := by
  cases h with
  | read => exact id
  | unread => exact id
  | forwarded => exact id
  | stopped => exact id
  | unsent _ _ _ hpc' => exact SessionPc.not_registering_of_resting hpc'
  | fed _ _ hpc' => exact SessionPc.not_registering_of_resting hpc'
  | inserted _ _ _ _ _ hpc' => exact SessionPc.not_registering_of_resting hpc'
  | takeover hreg => exact absurd hreg hpc
  | managed _ hpc' => exact SessionPc.not_registering_of_resting hpc'

/-- A session uses no context but its own, and that only after the insertion of its worker. -/
theorem SessionStep.uses (h : SessionStep act c pc s s' pc') (hu : s'.dispatcher.Uses c') :
    s.dispatcher.Uses c' ∨ (c' = c ∧ ¬ pc'.registering) := by
  cases h with
  | read =>
    have := Dispatcher.Uses.of_append (by simp) (Dispatcher.emit_log ..) hu
    exact this.imp_right fun h => ⟨by simpa [eq_comm] using h, id⟩
  | unread =>
    have := Dispatcher.Uses.of_append (by simp) (Dispatcher.emit_log ..) hu
    exact this.imp_right fun h => ⟨by simpa [eq_comm] using h, id⟩
  | forwarded _ h => exact Or.inl (hu.answered h)
  | stopped _ h => exact Or.inl (hu.answered h)
  | unsent _ h hnext hpc' =>
    exact (hu.nextSent hnext).imp (·.answered h) fun hc => ⟨hc, SessionPc.not_registering_of_resting hpc'⟩
  | fed _ hnext hpc' =>
    exact (hu.nextSent hnext).imp_right fun hc => ⟨hc, SessionPc.not_registering_of_resting hpc'⟩
  | inserted id ar _ h hf hpc' =>
    rcases hu with hw | hl
    · rw [Dispatcher.mem_insertWorker] at hw
      exact hw.imp (fun hw => Uses.removals h (Or.inl hw)) fun hc =>
        ⟨hc, SessionPc.not_registering_of_resting hpc'⟩
    · exact Or.inl (Uses.removals h (Or.inr hl))
  | takeover _ h => exact Or.inl (Uses.removals h hu)
  | managed h => exact Or.inl (Uses.removals h hu)

/-- The worker of the session `c` was inserted, or the session has ended. -/
def Sys.Registered (sys : Sys) (c : Context) : Prop := ∃ pc, sys.sessions c = some pc ∧ ¬ pc.registering

/-- The contexts in use, and those about to be used by a dispatch loop, are registered. -/
structure Sys.ContextsUsed (sys : Sys) : Prop where
  fresh : ∀ c, sys.server.dispatcher.nextContext ≤ c → sys.sessions c = none
  uses : ∀ c, sys.server.dispatcher.Uses c → sys.Registered c
  targets : ∀ stream ∈ sys.streams, ∀ c ∈ stream.pc.targets, sys.Registered c

/-- The targets of an input are workers. -/
theorem Sys.ContextsUsed.order (h : sys.ContextsUsed) {ids : List String} {order : List Context}
    (hperm : order.Perm (sys.server.dispatcher.targetEngines ids)) : ∀ c ∈ order, sys.Registered c :=
  fun c hc => h.uses c (Or.inl (Dispatcher.mem_targetEngines.1 (hperm.mem_iff.1 hc)).1)

section Steps

variable {stream : Stream} {i : Nat} {r : Server × StreamPc}

/-- A stream goes on without using a context that is not registered. -/
private theorem Sys.ContextsUsed.setStream (h : sys.ContextsUsed)
    (hnext : r.1.dispatcher.nextContext = sys.server.dispatcher.nextContext)
    (huses : ∀ c, r.1.dispatcher.Uses c → sys.Registered c)
    (htargets : ∀ c ∈ r.2.targets, sys.Registered c) : (sys.setStream i stream r).ContextsUsed := by
  refine ⟨fun c hc => h.fresh c (hnext ▸ hc), huses, fun st hst => ?_⟩
  rcases List.mem_or_eq_of_mem_set hst with hst | rfl
  · exact h.targets st hst
  · exact htargets

private theorem Sys.ContextsUsed.settled {s : Server} {pc : StreamPc} (h : sys.ContextsUsed)
    (hnext : s.dispatcher.nextContext = sys.server.dispatcher.nextContext)
    (huses : ∀ c, s.dispatcher.Uses c → sys.Registered c) (hpc : pc.settled) :
    (sys.setStream i stream (s, pc)).ContextsUsed :=
  h.setStream hnext huses (by simp [StreamPc.targets_of_settled hpc])

theorem MessageStep.contextsUsed {a : Address} {ref : ClientRef} {msg : FromClient} {pc : StreamPc}
    (hstep : MessageStep cfg sys.server a ref msg s pc) (h : sys.ContextsUsed) :
    (sys.setStream i stream (s, pc)).ContextsUsed := by
  have hbegin : ∀ p ts c, (sys.server.dispatcher.beginInput p ts).Uses c → sys.Registered c :=
    fun p ts c hu => h.uses c (by simpa [Dispatcher.Uses] using hu)
  have hloop : ∀ {p ids order b mp r}, order.Perm (sys.server.dispatcher.targetEngines ids) →
      (sys.server.dispatcher.beginInput p (sys.server.dispatcher.targetEngines ids)).dispatchLoop mp b order = r →
      r.1.nextContext = sys.server.dispatcher.nextContext ∧ (∀ c, r.1.Uses c → sys.Registered c) ∧
        ∀ rest, r.2 = some rest → ∀ c ∈ rest, sys.Registered c := by
    intro p ids order b mp r hperm hr
    have hd := Dispatcher.dispatchLoop_cases hr
    refine ⟨?_, fun c hu => (hu.dispatched hd).elim (hbegin _ _ c) (h.order hperm c), fun rest hrest c hc => ?_⟩
    · cases hd <;> simp
    · cases hd with
      | busy => cases hrest
      | wrote => cases hrest; exact h.order hperm c (by simp [hc])
  cases hstep with
  | registered _ _ hpc => exact h.settled rfl h.uses hpc
  | unregistered _ _ _ hpc => exact h.settled rfl h.uses hpc
  | noTokens _ _ _ hpc => exact h.settled rfl h.uses hpc
  | noEngine _ _ hpc => exact h.settled (by simp) (hbegin _ _) hpc
  | suspended _ _ _ hperm hr =>
    obtain ⟨hn, hu, hrest⟩ := hloop hperm hr
    exact h.setStream hn hu (hrest _ rfl)
  | enqueued _ _ _ hperm hr =>
    obtain ⟨hn, hu, -⟩ := hloop hperm hr
    refine h.settled hn (fun c hc => hu c ?_) trivial
    simpa [Dispatcher.Uses, or_and_right, exists_or] using hc
  | dropped _ _ hperm hr _ hpc =>
    obtain ⟨hn, hu, -⟩ := hloop hperm hr
    exact h.settled hn hu hpc

theorem ResumeStep.contextsUsed {pc : StreamPc} (hstep : ResumeStep cfg sys.server stream s pc)
    (hi : sys.streams[i]? = some stream) (h : sys.ContextsUsed) : (sys.setStream i stream (s, pc)).ContextsUsed := by
  have htargets := h.targets stream (List.mem_of_getElem? hi)
  cases hstep with
  | settled _ hpc => exact h.settled rfl h.uses hpc
  | suspended hpc hr =>
    have hd := Dispatcher.dispatchLoop_cases hr
    rw [hpc] at htargets
    refine h.setStream ?_ (fun c hu => (hu.dispatched hd).elim (h.uses c) (htargets c)) ?_
    · cases hd; simp
    · intro c hc
      cases hd with
      | wrote => exact htargets c (by simpa using Or.inr (Or.inr hc))
  | concluded hpc hr =>
    have hd := Dispatcher.dispatchLoop_cases hr
    rw [hpc] at htargets
    refine h.settled ?_ (fun c hu => ?_) trivial
    · cases hd; simp
    · refine (Dispatcher.Uses.dispatched hd ?_).elim (h.uses c) (htargets c)
      simpa [Dispatcher.Uses, or_and_right, exists_or] using hu

/-- A session only moves in its own steps. -/
theorem sessions_of_other (hstep : step cfg sys act = some sys')
    (hfresh : ∀ c, sys.server.dispatcher.nextContext ≤ c → sys.sessions c = none) {c : Context} {pc : SessionPc}
    (hact : act.session ≠ some c) (hc : sys.sessions c = some pc) : sys'.sessions c = some pc := by
  cases step_outline hstep with
  | stream _ _ _ hsessions => rw [hsessions, hc]
  | opened _ _ hsessions =>
    have hne : c ≠ sys.server.dispatcher.nextContext := fun he => by
      rw [hfresh c he.ge] at hc
      cases hc
    rw [hsessions, Function.update_of_ne hne, hc]
  | @session c₀ _ _ hact₀ _ _ hsessions =>
    have hne : c ≠ c₀ := by
      rintro rfl
      exact hact hact₀
    rw [hsessions, Function.update_of_ne hne, hc]

/-- A registered context stays registered. -/
theorem registered_step (hstep : step cfg sys act = some sys')
    (hfresh : ∀ c, sys.server.dispatcher.nextContext ≤ c → sys.sessions c = none) {c : Context}
    (h : sys.Registered c) : sys'.Registered c := by
  obtain ⟨pc, hc, hpc⟩ := h
  by_cases hact : act.session = some c
  · cases step_outline hstep with
    | stream hnone => simp [hnone] at hact
    | opened hopen => simp [hopen, Action.session] at hact
    | @session c₀ pc₁ pc' hact₀ hc₀ hs hsessions =>
      obtain rfl : c₀ = c := Option.some.inj (hact₀.symm.trans hact)
      obtain rfl : pc₁ = pc := Option.some.inj (hc₀.symm.trans hc)
      exact ⟨pc', by rw [hsessions, Function.update_self], hs.not_registering hpc⟩
  · exact ⟨pc, sessions_of_other hstep hfresh hact hc, hpc⟩

theorem contextsUsed_step (hstep : step cfg sys act = some sys') (h : sys.ContextsUsed) : sys'.ContextsUsed := by
  cases step_cases hstep with
  | openClient =>
    refine ⟨h.fresh, h.uses, fun st hst => ?_⟩
    rcases List.mem_append.1 hst with hst | hst
    · exact h.targets st hst
    · obtain rfl := List.mem_singleton.1 hst
      exact fun _ hc => by cases hc
  | openProducer =>
    refine ⟨h.fresh, h.uses, fun st hst => ?_⟩
    rcases List.mem_append.1 hst with hst | hst
    · exact h.targets st hst
    · obtain rfl := List.mem_singleton.1 hst
      exact fun _ hc => by cases hc
  | unknownClient => exact h.settled rfl h.uses trivial
  | message _ _ _ hm => exact hm.contextsUsed h
  | resumed hi hr => exact hr.contextsUsed hi h
  | closed hi _ hr => exact hr.contextsUsed hi h
  | openSession =>
    have hkept : ∀ {c}, sys.Registered c → Sys.Registered { sys with
        sessions := Function.update sys.sessions sys.server.dispatcher.nextContext (some .connected) } c :=
      registered_step hstep h.fresh
    refine ⟨fun c hc => ?_, fun c hu => hkept (h.uses c hu), fun st hst c hc => hkept (h.targets st hst c hc)⟩
    have hlt : sys.server.dispatcher.nextContext < c := hc
    simp [hlt.ne', h.fresh c hlt.le]
  | @session _ c pc pc' s hc _ hs =>
    have hkept : ∀ {c'}, sys.Registered c' → (sys.setSession c (s, pc')).Registered c' :=
      registered_step hstep h.fresh
    refine ⟨fun c' hc' => ?_, fun c' hu => ?_, fun st hst c' hc' => hkept (h.targets st hst c' hc')⟩
    · have hfresh := h.fresh c' (hs.effects.nextContext ▸ hc')
      have hne : c' ≠ c := by rintro rfl; rw [hfresh] at hc; cases hc
      simp [Sys.setSession, hne, hfresh]
    · rcases hs.uses hu with hu | ⟨rfl, hpc'⟩
      · exact hkept (h.uses c' hu)
      · exact ⟨pc', by simp [Sys.setSession], hpc'⟩

end Steps

theorem run_contextsUsed {as : List Action} (h : (machine cfg).Run as sys) : sys.ContextsUsed :=
  h.invariant (I := Sys.ContextsUsed)
    ⟨fun _ _ => rfl, fun _ hu => by simp [machine, Dispatcher.Uses] at hu, fun _ hst => by cases hst⟩
    (fun _ _ _ h _ hstep => contextsUsed_step hstep h)

end Interleaved

end Gabriel
