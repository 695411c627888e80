import Gabriel.Server.WellFormed

/-!
# The engine ids with atomic handlers

With atomic handlers nobody sees a registration or a removal half done: `_engine_ids` has the ids of the connected
workers, and these are different.  So the removal of a worker never fails with a `KeyError`.
-/

namespace Gabriel.Dispatcher

/-- `_engine_ids` has the ids of the connected workers, and no two of them have the same id. -/
structure Directory (d : Dispatcher) : Prop where
  mem_engineIds : ∀ id, id ∈ d.engineIds ↔ ∃ c ∈ d.engineWorkers, (d.workers c).engineId = id
  eq_of_engineId : ∀ c ∈ d.engineWorkers, ∀ c' ∈ d.engineWorkers,
    (d.workers c).engineId = (d.workers c').engineId → c = c'

variable {cfg : Config} {d d' : Dispatcher} {c : Context} {mp : MetadataPayload} {id : String}

/-! ### The table of workers -/

theorem concludeInput_engineWorkers (b : Bool) : (d.concludeInput cfg mp b).1.engineWorkers = d.engineWorkers := by
  generalize hr : d.concludeInput cfg mp b = r
  cases concludeInput_cases hr <;> rfl

theorem sendNextInput_engineWorkers (b : Bool) : (d.sendNextInput c b).1.engineWorkers = d.engineWorkers := by
  generalize hr : d.sendNextInput c b = r
  cases sendNextInput_cases hr <;> simp

theorem feedEngine_subset (raises : Bool) : (d.feedEngine c raises).engineWorkers ⊆ d.engineWorkers := by
  have hws := sendNextInput_engineWorkers (d := d) (c := c) (!raises)
  unfold feedEngine
  generalize d.sendNextInput c (!raises) = r at hws ⊢
  rw [← hws]
  rcases r with ⟨d', _ | _⟩
  · exact List.Subset.refl _
  · simp only
    split
    · exact removeEngineWorker_subset
    · exact List.Subset.refl _

/-- Only a registration adds a worker. -/
theorem mem_engineWorkers_of_step {a : Action} (hstep : step cfg d a = some d') (hc : c ∈ d'.engineWorkers) :
    c ∈ d.engineWorkers ∨ (∃ id ar, a = .register id ar) ∧ c = d.nextContext := by
  have hloop : ∀ {p : String} {targets order raising : List Context} {mp : MetadataPayload} {d' : Dispatcher}
      {r : Option Bool}, (d.beginInput p targets).dispatchAll mp raising order true = (d', r) →
        d'.engineWorkers = d.engineWorkers := by
    intro p targets order raising mp d' r hr
    have hP := dispatchAll_ind (P := fun _ d₁ _ => d₁.engineWorkers = d.engineWorkers) (fun _ _ _ _ hd _ => hd)
      (fun _ _ _ _ hd _ => by simpa using hd) (by simp) hr
    cases r with
    | none => exact (hP.2 rfl).2.choose_spec
    | some b => exact hP.1 b rfl
  cases step_cases hstep with
  | noTarget => exact Or.inl (by simpa using hc)
  | raised _ _ he => exact Or.inl (hloop he ▸ hc)
  | dispatched _ _ he => exact Or.inl (hloop he ▸ concludeInput_engineWorkers _ ▸ hc)
  | registered old hold =>
    rcases (mem_insertWorker _ _ _ _).1 hc with hc | rfl
    · cases old with
      | none => exact Or.inl hc
      | some v => exact Or.inl (removeEngineWorker_subset (d := d.openContext) hc)
    · exact Or.inr ⟨⟨_, _, rfl⟩, rfl⟩
  | ignored => exact Or.inl hc
  | unregistered => exact Or.inl hc
  | unanswered => exact Or.inl hc
  | answered _ _ hans => exact Or.inl (hans.engineWorkers ▸ feedEngine_subset _ hc)
  | removed => exact Or.inl (removeEngineWorker_subset hc)

/-! ### The ids -/

namespace Directory

theorem init : Directory {} := by
  constructor
  · intro id
    simp
  · intro c hc
    cases hc

/-- An operation that leaves the workers and their ids alone. -/
theorem of_eq (h : Directory d) (hws : d'.engineWorkers = d.engineWorkers) (hids : d'.engineIds = d.engineIds)
    (hid : ∀ c, (d'.workers c).engineId = (d.workers c).engineId) : Directory d' := by
  constructor
  · intro id
    simp only [hids, hws, hid]
    exact h.mem_engineIds id
  · intro c hc c' hc'
    rw [hws] at hc hc'
    rw [hid, hid]
    exact h.eq_of_engineId c hc c' hc'

theorem emit (h : Directory d) (e : DispatchEvent) : Directory (d.emit e) := h.of_eq rfl rfl fun _ => rfl

theorem openContext (h : Directory d) : Directory d.openContext := h.of_eq rfl rfl fun _ => rfl

theorem modifyWorker (h : Directory d) {f : EngineWorker → EngineWorker} (hf : ∀ w, (f w).engineId = w.engineId) :
    Directory (d.modifyWorker c f) := by
  refine h.of_eq (by simp) (by simp) fun c' => ?_
  by_cases hc : c' = c
  · subst hc
    simp [hf]
  · simp [hc]

theorem sendPayload (h : Directory d) (b : Bool) : Directory (d.sendPayload c mp b) := by
  refine h.of_eq (by simp) (by simp) fun c' => ?_
  by_cases hc : c' = c
  · subst hc
    simp
  · simp [hc]

theorem addProducer (h : Directory d) {p : String} : Directory (d.addProducer c p) :=
  h.modifyWorker fun w => w.addProducer_engineId p

theorem beginInput (h : Directory d) {p : String} {targets : List Context} : Directory (d.beginInput p targets) :=
  h.of_eq (by simp) (by simp) (by simp)

theorem dequeue (h : Directory d) {p : String} {rest : List MetadataPayload} : Directory (d.dequeue p mp rest) :=
  h.of_eq rfl rfl fun _ => rfl

theorem concludeInput (h : Directory d) (b : Bool) : Directory (d.concludeInput cfg mp b).1 := by
  generalize hr : d.concludeInput cfg mp b = r
  cases concludeInput_cases hr with
  | dropped => exact h
  | inFlight => exact h.of_eq rfl rfl fun _ => rfl
  | enqueued => exact h.of_eq rfl rfl fun _ => rfl

theorem sendNextInput (h : Directory d) (b : Bool) : Directory (d.sendNextInput c b).1 := by
  have hrotate : ∀ k, Directory (d.modifyWorker c (·.rotateProducers k)) := fun k => h.modifyWorker fun _ => rfl
  generalize hr : d.sendNextInput c b = r
  cases sendNextInput_cases hr with
  | none => exact (hrotate _).modifyWorker fun _ => rfl
  | dequeued k => exact (hrotate k).dequeue.sendPayload b
  | pickedUp k => exact (hrotate k).sendPayload b

theorem answered {k : Nat} {result : Result} {m : Option Metadata} {ans : Answer} (h : Directory d)
    (hans : Answered d c k result m (d', ans)) : Directory d' := by
  have hids : d'.engineIds = d.engineIds := by cases hans <;> rfl
  exact h.of_eq hans.engineWorkers hids fun c => by rw [hans.workers]

theorem beginRemoval (h : Directory d) : Directory (d.beginRemoval c).1 :=
  h.of_eq (by simp) (by simp) (by simp)

/-- The removal of a connected worker does not fail. -/
theorem finishRemoval_eq (h : Directory d) (hc : c ∈ d.engineWorkers) : d.finishRemoval c =
    ({ d with engineIds := d.engineIds.erase (d.workers c).engineId, engineWorkers := d.engineWorkers.erase c },
      false) := by
  have hid : (d.workers c).engineId ∈ d.engineIds := (h.mem_engineIds _).2 ⟨c, hc, rfl⟩
  unfold finishRemoval
  simp [hid, hc]

theorem finishRemoval (h : Directory d) (hnodup : d.engineWorkers.Nodup) (hc : c ∈ d.engineWorkers) :
    Directory (d.finishRemoval c).1 := by
  rw [h.finishRemoval_eq hc]
  constructor
  · intro id
    simp only [Finset.mem_erase, h.mem_engineIds, hnodup.mem_erase_iff]
    constructor
    · rintro ⟨hne, c', hc', rfl⟩
      exact ⟨c', ⟨fun he => hne (he ▸ rfl), hc'⟩, rfl⟩
    · rintro ⟨c', ⟨hne, hc'⟩, rfl⟩
      exact ⟨fun he => hne (h.eq_of_engineId c' hc' c hc he), c', hc', rfl⟩
  · intro c' hc' c'' hc''
    exact h.eq_of_engineId c' (List.mem_of_mem_erase hc') c'' (List.mem_of_mem_erase hc'')

theorem removeEngineWorker (h : Directory d) (hnodup : d.engineWorkers.Nodup) (hc : c ∈ d.engineWorkers) :
    Directory (d.removeEngineWorker c) :=
  h.beginRemoval.finishRemoval (by simpa using hnodup) (by simpa using hc)

/-- The id of a worker that was removed is free. -/
theorem removed_not_mem (h : Directory d) (hc : c ∈ d.engineWorkers) :
    (d.workers c).engineId ∉ (d.removeEngineWorker c).engineIds := by
  have hc' : c ∈ (d.beginRemoval c).1.engineWorkers := by simpa using hc
  unfold Dispatcher.removeEngineWorker
  rw [h.beginRemoval.finishRemoval_eq hc']
  simp

theorem not_mem_removed (h : Directory d) (hnodup : d.engineWorkers.Nodup) (hc : c ∈ d.engineWorkers) :
    c ∉ (d.removeEngineWorker c).engineWorkers := by
  have hc' : c ∈ (d.beginRemoval c).1.engineWorkers := by simpa using hc
  unfold Dispatcher.removeEngineWorker
  rw [h.beginRemoval.finishRemoval_eq hc']
  simpa using hnodup.not_mem_erase

theorem insertWorker (h : Directory d) (hc : c ∉ d.engineWorkers) (hid : id ∉ d.engineIds) (ar : Bool) :
    Directory (d.insertWorker c id ar) := by
  have hother : ∀ c' ∈ d.engineWorkers, c' ≠ c ∧ (d.workers c').engineId ≠ id := by
    intro c' hc'
    constructor
    · rintro rfl
      exact hc hc'
    · rintro rfl
      exact hid ((h.mem_engineIds _).2 ⟨c', hc', rfl⟩)
  constructor
  · intro id'
    simp only [insertWorker_engineIds, Finset.mem_insert, h.mem_engineIds, mem_insertWorker, insertWorker_workers]
    constructor
    · rintro (rfl | ⟨c', hc', rfl⟩)
      · exact ⟨c, Or.inr rfl, by simp⟩
      · exact ⟨c', Or.inl hc', by simp [(hother c' hc').1]⟩
    · rintro ⟨c', hc' | rfl, rfl⟩
      · exact Or.inr ⟨c', hc', by simp [(hother c' hc').1]⟩
      · exact Or.inl (by simp)
  · intro c₁ h₁ c₂ h₂ he
    simp only [insertWorker_workers] at he
    rcases (mem_insertWorker d c id ar).1 h₁ with h₁ | h₁ <;> rcases (mem_insertWorker d c id ar).1 h₂ with h₂ | h₂
    · have hne₁ := (hother c₁ h₁).1
      have hne₂ := (hother c₂ h₂).1
      simp only [Function.update_of_ne hne₁, Function.update_of_ne hne₂] at he
      exact h.eq_of_engineId c₁ h₁ c₂ h₂ he
    · have hne := hother c₁ h₁
      simp only [h₂, Function.update_self, Function.update_of_ne hne.1] at he
      exact absurd he hne.2
    · have hne := hother c₂ h₂
      simp only [h₁, Function.update_self, Function.update_of_ne hne.1] at he
      exact absurd he.symm hne.2
    · rw [h₁, h₂]

/-- An id that is in use is the id of a connected worker. -/
theorem predecessor_eq_none (h : Directory d) (hnone : d.predecessor id = none) : id ∉ d.engineIds := by
  intro hid
  obtain ⟨c, hc, he⟩ := (h.mem_engineIds id).1 hid
  unfold predecessor at hnone
  rw [if_pos hid, List.find?_eq_none] at hnone
  have hno := hnone c hc
  simp [he] at hno

theorem predecessor_eq_some (hsome : d.predecessor id = some c) :
    c ∈ d.engineWorkers ∧ (d.workers c).engineId = id := by
  unfold predecessor at hsome
  split at hsome
  · have hfound := List.find?_some hsome
    exact ⟨List.mem_of_find?_eq_some hsome, of_decide_eq_true hfound⟩
  · cases hsome

theorem addEngineWorker (h : Directory d) (hwf : WellFormed d) (ar : Bool) :
    Directory (d.openContext.addEngineWorker d.nextContext id ar) := by
  unfold Dispatcher.addEngineWorker
  cases hpred : d.openContext.predecessor id with
  | none =>
    exact h.openContext.insertWorker hwf.nextContext_not_mem (h.openContext.predecessor_eq_none hpred) ar
  | some v =>
    obtain ⟨hv, rfl⟩ := predecessor_eq_some hpred
    apply Directory.insertWorker
    · exact h.openContext.removeEngineWorker hwf.workers_nodup hv
    · exact hwf.nextContext_not_mem_removed
    · exact h.openContext.removed_not_mem hv

theorem feedEngine (h : Directory d) (hnodup : d.engineWorkers.Nodup) (hc : c ∈ d.engineWorkers) (raises : Bool) :
    Directory (d.feedEngine c raises) := by
  have hsent := h.sendNextInput (c := c) (!raises)
  have hws := sendNextInput_engineWorkers (d := d) (c := c) (!raises)
  unfold Dispatcher.feedEngine
  split
  · rename_i hr
    rw [hr] at hsent hws
    split
    · exact hsent.removeEngineWorker (hws ▸ hnodup) (hws ▸ hc)
    · exact hsent
  · rename_i hr
    rwa [hr] at hsent

end Directory

theorem step_directory {a : Action} (h : Directory d) (hwf : WellFormed d) (hstep : step cfg d a = some d') :
    Directory d' := by
  have hloop : ∀ {p : String} {targets order raising : List Context} {mp : MetadataPayload} {d' : Dispatcher}
      {r : Option Bool}, (d.beginInput p targets).dispatchAll mp raising order true = (d', r) → Directory d' := by
    intro p targets order raising mp d' r hr
    have hP := dispatchAll_ind (P := fun _ d _ => Directory d) (fun _ _ _ _ hd _ => hd.addProducer)
      (fun _ _ _ _ hd _ => hd.addProducer.sendPayload _) h.beginInput hr
    cases r with
    | none => exact (hP.2 rfl).2.choose_spec
    | some b => exact hP.1 b rfl
  by_cases hreg : ∃ id ar, a = .register id ar
  · obtain ⟨id, ar, rfl⟩ := hreg
    obtain rfl := Option.some.inj hstep
    exact h.addEngineWorker hwf ar
  · cases step_cases hstep with
    | registered => exact absurd ⟨_, _, rfl⟩ hreg
    | noTarget => exact h.beginInput
    | raised _ _ he => exact hloop he
    | dispatched _ _ he => exact (hloop he).concludeInput _
    | ignored => exact h
    | unregistered => exact h.emit _
    | unanswered => exact h.emit _
    | answered hc hm hans =>
      have hws := hans.engineWorkers
      exact ((h.emit _).answered hans).feedEngine (hws ▸ hwf.workers_nodup) (hws ▸ hc) _
    | removed hc => exact h.removeEngineWorker hwf.workers_nodup hc

theorem run_directory {G : Dispatcher → Action → Prop} {as : List Action} (h : (machine cfg).RunWhere G as d) :
    Directory d :=
  h.invariant_of (I := Directory) (J := WellFormed) run_wellFormed .init
    fun _ _ _ hwf hd _ hstep => step_directory hd hwf hstep

end Gabriel.Dispatcher
