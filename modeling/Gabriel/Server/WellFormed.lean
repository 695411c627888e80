import Gabriel.Server.AtomicLemmas

/-!
# Well-formed dispatchers

What every handler relies on without checking it: a producer's queue and in-flight slot hold inputs of that producer,
and the connected workers are different ones made for contexts already handed out.  Each operation keeps it, and so
does every step with atomic handlers (`Dispatcher.step_wellFormed`).
-/

namespace Gabriel.Dispatcher

/-- The queues and in-flight slots hold inputs of their own producer; the connected workers are distinct and known. -/
structure WellFormed (d : Dispatcher) : Prop where
  queue_named : ∀ p, ∀ mp ∈ (d.producer p).inputQueue, mp.producerId = p
  latest_named : ∀ p mp, (d.producer p).latestInputSentToEngine = some mp → mp.producerId = p
  workers_lt : ∀ c ∈ d.engineWorkers, c < d.nextContext
  workers_nodup : d.engineWorkers.Nodup

namespace WellFormed

variable {cfg : Config} {d d' : Dispatcher} {c : Context} {p : String} {mp : MetadataPayload}

theorem init : WellFormed {} where
  queue_named p mp h := by simp [producer] at h
  latest_named p mp h := by simp [producer] at h
  workers_lt c h := by simp at h
  workers_nodup := List.nodup_nil

/-- The next session is not connected yet. -/
theorem nextContext_not_mem (h : WellFormed d) : d.nextContext ∉ d.engineWorkers := fun hmem =>
  Nat.lt_irrefl _ (h.workers_lt _ hmem)

theorem nextContext_not_mem_removed (h : WellFormed d) :
    d.nextContext ∉ (d.openContext.removeEngineWorker c).engineWorkers := by
  intro hmem
  have hmem' := removeEngineWorker_subset hmem
  exact h.nextContext_not_mem hmem'

/-- An operation on the workers alone. -/
theorem of_eq (h : WellFormed d) (hq : ∀ p, (d'.producer p).inputQueue = (d.producer p).inputQueue)
    (hl : ∀ p, (d'.producer p).latestInputSentToEngine = (d.producer p).latestInputSentToEngine)
    (hw : d'.engineWorkers = d.engineWorkers) (hn : d'.nextContext = d.nextContext) : WellFormed d' where
  queue_named p mp := by rw [hq]; exact h.queue_named p mp
  latest_named p mp := by rw [hl]; exact h.latest_named p mp
  workers_lt c := by rw [hw, hn]; exact h.workers_lt c
  workers_nodup := hw ▸ h.workers_nodup

theorem emit (h : WellFormed d) (e : DispatchEvent) : WellFormed (d.emit e) :=
  h.of_eq (fun _ => rfl) (fun _ => rfl) rfl rfl

theorem modifyWorker (h : WellFormed d) (f : EngineWorker → EngineWorker) : WellFormed (d.modifyWorker c f) :=
  h.of_eq (fun _ => rfl) (fun _ => rfl) rfl rfl

theorem sendPayload (h : WellFormed d) (b : Bool) : WellFormed (d.sendPayload c mp b) :=
  h.of_eq (fun _ => by simp) (fun _ => by simp) (by simp) (by simp)

theorem beginInput (h : WellFormed d) (targets : List Context) : WellFormed (d.beginInput p targets) :=
  h.of_eq (fun _ => by simp) (fun _ => by simp) (by simp) (by simp)

theorem dequeue {rest : List MetadataPayload} (h : WellFormed d)
    (hq : (d.producer p).inputQueue = mp :: rest) : WellFormed (d.dequeue p mp rest) where
  queue_named q x hx := by
    refine h.queue_named q x ?_
    rw [dequeue_inputQueue] at hx
    split at hx
    · rename_i hqp
      rw [hqp, hq]
      exact List.mem_cons_of_mem _ hx
    · exact hx
  latest_named q x hx := by
    rw [dequeue_latestInputSentToEngine] at hx
    split at hx
    · rename_i hqp
      obtain rfl := Option.some.inj hx
      exact h.queue_named q mp (by rw [hqp, hq]; exact List.mem_cons_self ..)
    · exact h.latest_named q x hx
  workers_lt := h.workers_lt
  workers_nodup := h.workers_nodup

theorem setInFlight (h : WellFormed d) : WellFormed (d.setInFlight mp) where
  queue_named q x hx := h.queue_named q x (by simpa using hx)
  latest_named q x hx := by
    rw [setInFlight_latestInputSentToEngine] at hx
    split at hx
    · rename_i hq
      rw [← Option.some.inj hx, hq]
    · exact h.latest_named q x hx
  workers_lt := h.workers_lt
  workers_nodup := h.workers_nodup

theorem enqueue (h : WellFormed d) : WellFormed (d.enqueue mp) where
  queue_named q x hx := by
    rw [enqueue_inputQueue] at hx
    split at hx
    · rename_i hq
      rcases List.mem_append.1 hx with hx | hx
      · exact h.queue_named q x hx
      · rw [List.mem_singleton.1 hx, hq]
    · exact h.queue_named q x hx
  latest_named q x hx := h.latest_named q x (by simpa using hx)
  workers_lt := h.workers_lt
  workers_nodup := h.workers_nodup

theorem concludeInput (h : WellFormed d) (b : Bool) : WellFormed (d.concludeInput cfg mp b).1 := by
  generalize hr : d.concludeInput cfg mp b = r
  cases concludeInput_cases hr with
  | dropped => exact h
  | inFlight => exact h.setInFlight.emit _
  | enqueued => exact h.enqueue.emit _

theorem sendNextInput (h : WellFormed d) (b : Bool) : WellFormed (d.sendNextInput c b).1 := by
  generalize hr : d.sendNextInput c b = r
  cases sendNextInput_cases hr with
  | none => exact (h.modifyWorker _).modifyWorker _
  | dequeued k hp hpend hq => exact ((h.modifyWorker _).dequeue hq).sendPayload b
  | pickedUp => exact (h.modifyWorker _).sendPayload b

theorem release (h : WellFormed d) (origin : Origin) (token : Bool) (result : Result) :
    WellFormed (d.release origin mp token result) :=
  h.of_eq (by simp) (by simp) rfl rfl

theorem answered {k : Nat} {result : Result} {m : Option Metadata} {ans : Answer} (h : WellFormed d)
    (hans : Answered d c k result m (d', ans)) : WellFormed d' := by
  cases hans with
  | noMetadata => exact h
  | noProducer => exact h
  | token => exact h.release _ _ _
  | copy => exact h.emit _
  | next => exact h

theorem beginRemoval (h : WellFormed d) : WellFormed (d.beginRemoval c).1 := by
  generalize hr : d.beginRemoval c = r
  cases beginRemoval_cases hr with
  | silent => exact h
  | released => exact h.release _ _ _

theorem finishRemoval (h : WellFormed d) : WellFormed (d.finishRemoval c).1 := by
  have hsub : (d.finishRemoval c).1.engineWorkers.Sublist d.engineWorkers := by
    rcases finishRemoval_engineWorkers d c with he | he <;> rw [he]
    exact List.erase_sublist
  refine ⟨fun p mp => ?_, fun p mp => ?_, fun c' hc' => ?_, h.workers_nodup.sublist hsub⟩
  · rw [finishRemoval_producer]; exact h.queue_named p mp
  · rw [finishRemoval_producer]; exact h.latest_named p mp
  · rw [finishRemoval_nextContext]; exact h.workers_lt c' (hsub.subset hc')

theorem removeEngineWorker (h : WellFormed d) : WellFormed (d.removeEngineWorker c) :=
  h.beginRemoval.finishRemoval

theorem insertWorker (h : WellFormed d) (hc : c < d.nextContext) (id : String) (ar : Bool) :
    WellFormed (d.insertWorker c id ar) := by
  refine ⟨h.queue_named, h.latest_named, fun c' hc' => ?_, ?_⟩
  · rcases (mem_insertWorker d c id ar).1 hc' with hc' | rfl
    · exact h.workers_lt c' hc'
    · exact hc
  · unfold Dispatcher.insertWorker
    simp only
    split
    · exact h.workers_nodup
    · simpa using h.workers_nodup.concat ‹_›

theorem openContext (h : WellFormed d) : WellFormed d.openContext :=
  ⟨h.queue_named, h.latest_named, fun c hc => Nat.lt_succ_of_lt (h.workers_lt c hc), h.workers_nodup⟩

theorem feedEngine (h : WellFormed d) (raises : Bool) : WellFormed (d.feedEngine c raises) := by
  have hsent := h.sendNextInput (c := c) (!raises)
  unfold Dispatcher.feedEngine
  split
  · rename_i hr
    rw [hr] at hsent
    split
    · exact hsent.removeEngineWorker
    · exact hsent
  · rename_i hr
    rwa [hr] at hsent

end WellFormed

variable {cfg : Config} {d d' : Dispatcher}

theorem step_wellFormed {a : Action} (h : WellFormed d) (hstep : step cfg d a = some d') : WellFormed d' := by
  have hloop : ∀ {p : String} {targets order raising : List Context} {mp : MetadataPayload} {d' : Dispatcher}
      {r : Option Bool}, (d.beginInput p targets).dispatchAll mp raising order true = (d', r) → WellFormed d' := by
    intro p targets order raising mp d' r hr
    have := dispatchAll_ind (P := fun _ d _ => WellFormed d) (fun _ _ _ _ hd _ => hd.modifyWorker _)
      (fun _ _ _ _ hd _ => (hd.modifyWorker _).sendPayload _) (h.beginInput targets) hr
    cases r with
    | none => exact (this.2 rfl).2.choose_spec
    | some b => exact this.1 b rfl
  cases step_cases hstep with
  | noTarget => exact h.beginInput _
  | raised hperm hne he => exact hloop he
  | dispatched hperm hne he => exact (hloop he).concludeInput _
  | registered old hold =>
    cases old with
    | none => exact h.openContext.insertWorker (Nat.lt_succ_self _) _ _
    | some v => exact h.openContext.removeEngineWorker.insertWorker (by simp) _ _
  | ignored => exact h
  | unregistered => exact h.emit _
  | unanswered => exact h.emit _
  | answered hc hm hans => exact ((h.emit _).answered hans).feedEngine _
  | removed => exact h.removeEngineWorker

theorem run_wellFormed {G : Dispatcher → Action → Prop} {as : List Action} (h : (machine cfg).RunWhere G as d) :
    WellFormed d :=
  h.invariant (I := WellFormed) .init fun _ _ _ hI _ hstep => step_wellFormed hI hstep

end Gabriel.Dispatcher
