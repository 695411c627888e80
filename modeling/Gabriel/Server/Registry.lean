import Gabriel.Server.Connections
import Gabriel.Server.Contexts

/-!
# The registry of the engines

`_engine_workers` and `_engine_ids` are changed by three kinds of handlers: a session that registers, one that
registers with an id in use and first removes the worker that has it, and one that ends and removes its own worker.
A removal awaits `send_result` before it deletes, and a registration awaits the removal before it inserts.
`Registry` says what holds between these points; it is kept as long as no two handlers work on one entry
(`Action.orderly`).
-/

namespace Gabriel

namespace Dispatcher

variable {d d' d'' : Dispatcher} {c : Context}

/-- The operations on inputs and results leave the registry alone. -/
structure SameRegistry (d d' : Dispatcher) : Prop where
  engineWorkers : d'.engineWorkers = d.engineWorkers
  engineIds : d'.engineIds = d.engineIds
  engineId : ∀ c, (d'.workers c).engineId = (d.workers c).engineId

theorem SameRegistry.refl (d : Dispatcher) : SameRegistry d d := ⟨rfl, rfl, fun _ => rfl⟩

theorem SameRegistry.trans (h : SameRegistry d d') (h' : SameRegistry d' d'') : SameRegistry d d'' :=
  ⟨h'.engineWorkers.trans h.engineWorkers, h'.engineIds.trans h.engineIds,
    fun c => (h'.engineId c).trans (h.engineId c)⟩

theorem sameRegistry_sendPayload (d : Dispatcher) (c : Context) (mp : MetadataPayload) (b : Bool) :
    SameRegistry d (d.sendPayload c mp b) :=
  ⟨by simp, by simp, fun c' => by by_cases hc : c' = c <;> simp [hc]⟩

theorem NextSent.sameRegistry {b : Bool} {r : Dispatcher × Bool} (h : NextSent d c b r) : SameRegistry d r.1 := by
  have hrotate : ∀ k, SameRegistry d (d.modifyWorker c (·.rotateProducers k)) := fun k =>
    ⟨rfl, rfl, fun c' => by by_cases hc : c' = c <;> simp [hc]⟩
  cases h with
  | none k => exact (hrotate k).trans ⟨rfl, rfl, fun c' => by by_cases hc : c' = c <;> simp [hc]⟩
  | dequeued k =>
    have hdequeue : ∀ (d : Dispatcher) p mp rest, SameRegistry d (d.dequeue p mp rest) := fun _ _ _ _ =>
      ⟨rfl, rfl, fun _ => rfl⟩
    exact ((hrotate k).trans (hdequeue ..)).trans (sameRegistry_sendPayload ..)
  | pickedUp k => exact (hrotate k).trans (sameRegistry_sendPayload ..)

theorem Answered.sameRegistry {k : Nat} {result : Result} {m : Option Metadata} {ans : Answer}
    (h : Answered d c k result m (d', ans)) : SameRegistry d d' :=
  ⟨h.engineWorkers, by cases h <;> rfl, fun _ => by rw [h.workers]⟩

end Dispatcher

namespace Interleaved

open Dispatcher

variable {cfg : Config} {s s' : Server} {sys sys' : Sys} {act : Action} {d d' : Dispatcher}
  {pcs : Context → Option SessionPc} {c v : Context} {pc pc' : SessionPc} {id : String} {ar : Bool}

theorem StreamEffect.sameRegistry (h : StreamEffect d d') : SameRegistry d d' := by
  cases h with
  | begun => exact ⟨by simp, by simp, fun c => by simp⟩
  | added c => exact ⟨rfl, rfl, fun c' => by by_cases hc : c' = c <;> simp [hc]⟩
  | sent => exact sameRegistry_sendPayload ..
  | queued => exact ⟨by simp, by simp, fun c => by simp⟩
  | inFlight => exact ⟨by simp, by simp, fun c => by simp⟩

/-- The steps of the handlers of the clients. -/
theorem sameRegistry_step (hstep : step cfg sys act = some sys') (hact : act.session = none)
    (hopen : act ≠ .openSession) :
    SameRegistry sys.server.dispatcher sys'.server.dispatcher ∧ sys'.sessions = sys.sessions := by
  cases step_outline hstep with
  | stream _ _ h hsessions =>
    exact ⟨h.invariant (P := SameRegistry _) (fun h hd => hd.trans h.sameRegistry) (.refl _), hsessions⟩
  | opened h => exact absurd h hopen
  | session hc => cases hact.symm.trans hc

/-! ### The invariant -/

/-- The worker of such a session can be in the registry. -/
def SessionPc.holdsEntry : SessionPc → Prop
  | .announcing _ | .idle | .sinking _ _ _ | .answering | .feeding | .closing _ .sending => True
  | _ => False

/-- The session has failed with a `KeyError`, or will when its worker is removed. -/
def SessionPc.keyError : SessionPc → Prop
  | .closing err _ | .finished err => err = some .keyError
  | _ => False

/-- The session is not about to change the registry. -/
def SessionPc.plain : SessionPc → Prop
  | .takeover _ _ _ _ | .closing _ .sending => False
  | _ => True

/-- The session reads and answers the results of its engine. -/
def SessionPc.serving : SessionPc → Prop
  | .idle | .sinking _ _ _ | .answering | .feeding => True
  | _ => False

/-- What a session that takes over the id `id` from the worker `v` relies on: the worker is still there to be removed,
or the id has become free. -/
def Evicting (d : Dispatcher) (pcs : Context → Option SessionPc) (id : String) (v : Context) : RemovalPc → Prop
  | .sending => v ∈ d.engineWorkers ∧ (d.workers v).engineId = id ∧ ∀ err, pcs v ≠ some (.closing err .sending)
  | .broadcasting _ => ∀ c ∈ d.engineWorkers, (d.workers c).engineId ≠ id

structure Registry (d : Dispatcher) (pcs : Context → Option SessionPc) : Prop where
  nodup : d.engineWorkers.Nodup
  inj : ∀ {c c'}, c ∈ d.engineWorkers → c' ∈ d.engineWorkers → (d.workers c).engineId = (d.workers c').engineId →
    c = c'
  ids : ∀ id, id ∈ d.engineIds ↔ ∃ c ∈ d.engineWorkers, (d.workers c).engineId = id
  running : ∀ {c}, c ∈ d.engineWorkers → ∃ pc, pcs c = some pc ∧ pc.holdsEntry
  evicting : ∀ {c id ar v rpc}, pcs c = some (.takeover id ar v rpc) → Evicting d pcs id v rpc
  single : ∀ {c c' id ar ar' v v' rpc rpc'}, pcs c = some (.takeover id ar v rpc) →
    pcs c' = some (.takeover id ar' v' rpc') → c = c'
  leaving : ∀ {c err}, pcs c = some (.closing err .sending) → c ∈ d.engineWorkers
  keyError : ∀ {c pc}, pcs c = some pc → ¬ pc.keyError

namespace Registry

theorem of_same (h : Registry d pcs) (hd : SameRegistry d d') : Registry d' pcs := by
  obtain ⟨hworkers, hids, hid⟩ := hd
  refine ⟨by rw [hworkers]; exact h.nodup, ?_, ?_, ?_, fun {c id ar v rpc} hc => ?_, h.single, ?_, h.keyError⟩
  · intro c c' hc hc' he
    rw [hworkers] at hc hc'
    rw [hid, hid] at he
    exact h.inj hc hc' he
  · simpa only [hworkers, hids, hid] using h.ids
  · intro c hc
    exact h.running (hworkers ▸ hc)
  · have := h.evicting hc
    cases rpc <;> simpa only [Evicting, hworkers, hid] using this
  · intro c err hc
    exact hworkers ▸ h.leaving hc

/-- Where another session, or this one before its step, was. -/
theorem of_update (hc : Function.update pcs c (some pc) v = some pc') (hne : pc' ≠ pc) :
    pcs v = some pc' := by
  by_cases he : v = c
  · subst he
    rw [Function.update_self] at hc
    exact absurd (Option.some.inj hc).symm hne
  · rwa [Function.update_of_ne he] at hc

/-- A session goes on to a point from which it does not change the registry. -/
theorem goOn (h : Registry d pcs) (hpc : pc.plain) (hkey : ¬ pc.keyError)
    (hentry : c ∈ d.engineWorkers → pc.holdsEntry) :
    Registry d (Function.update pcs c (some pc)) := by
  have hother : ∀ {c' pc'}, ¬ pc'.plain → Function.update pcs c (some pc) c' = some pc' → pcs c' = some pc' :=
    fun hpc' hc' => of_update hc' (fun he => hpc' (he ▸ hpc))
  refine ⟨h.nodup, h.inj, h.ids, fun {c'} hc' => ?_, fun {c' id' ar v rpc} hc' => ?_, fun hc₁ hc₂ => ?_,
    fun hc' => h.leaving (hother id hc'), fun {c' pc'} hc' hpc' => ?_⟩
  · by_cases he : c' = c
    · subst he
      exact ⟨pc, Function.update_self .., hentry hc'⟩
    · rw [Function.update_of_ne he]
      exact h.running hc'
  · have hev := h.evicting (hother id hc')
    cases rpc with
    | sending => exact ⟨hev.1, hev.2.1, fun err he => hev.2.2 err (hother id he)⟩
    | broadcasting => exact hev
  · exact h.single (hother id hc₁) (hother id hc₂)
  · exact h.keyError (of_update hc' (fun he => hkey (he ▸ hpc'))) hpc'

/-- The entry of the worker `v` is deleted. -/
theorem remove (h : Registry d pcs) (hv : v ∈ d.engineWorkers)
    (hevict : ∀ c id ar, pcs c ≠ some (.takeover id ar v .sending))
    (hleave : ∀ err, pcs v ≠ some (.closing err .sending)) :
    (d.finishRemoval v).2 = false ∧ Registry (d.finishRemoval v).1 pcs ∧
      v ∉ (d.finishRemoval v).1.engineWorkers ∧
      (∀ c, c ∈ (d.finishRemoval v).1.engineWorkers → c ∈ d.engineWorkers) ∧
      ∀ c ∈ (d.finishRemoval v).1.engineWorkers, (d.workers c).engineId ≠ (d.workers v).engineId := by
  have hid : (d.workers v).engineId ∈ d.engineIds := (h.ids _).2 ⟨v, hv, rfl⟩
  have heq : d.finishRemoval v = ({ d with
      engineIds := d.engineIds.erase (d.workers v).engineId
      engineWorkers := d.engineWorkers.erase v }, false) := by
    simp [finishRemoval, hid, hv]
  have hmem : ∀ {c}, c ∈ d.engineWorkers.erase v ↔ c ≠ v ∧ c ∈ d.engineWorkers := h.nodup.mem_erase_iff
  have hfree : ∀ c ∈ d.engineWorkers.erase v, (d.workers c).engineId ≠ (d.workers v).engineId :=
    fun c hc he => (hmem.1 hc).1 (h.inj (hmem.1 hc).2 hv he)
  rw [heq]
  refine ⟨rfl, ⟨h.nodup.erase v, ?_, ?_, ?_, ?_, h.single, ?_, h.keyError⟩, ?_, ?_, hfree⟩
  · exact fun hc hc' => h.inj (hmem.1 hc).2 (hmem.1 hc').2
  · intro id
    simp only [Finset.mem_erase, h.ids]
    constructor
    · rintro ⟨hne, c, hc, rfl⟩
      exact ⟨c, hmem.2 ⟨fun he => hne (he ▸ rfl), hc⟩, rfl⟩
    · rintro ⟨c, hc, rfl⟩
      exact ⟨hfree c hc, c, (hmem.1 hc).2, rfl⟩
  · exact fun hc => h.running (hmem.1 hc).2
  · intro c id ar v' rpc hc
    have hev := h.evicting hc
    cases rpc with
    | sending =>
      refine ⟨hmem.2 ⟨?_, hev.1⟩, hev.2⟩
      rintro rfl
      exact hevict c id ar hc
    | broadcasting => exact fun c hc => hev c (hmem.1 hc).2
  · intro c err hc
    refine hmem.2 ⟨?_, h.leaving hc⟩
    rintro rfl
    exact hleave err hc
  · exact fun hc => (hmem.1 hc).1 rfl
  · exact fun c hc => (hmem.1 hc).2

/-- A worker is inserted under an id that no worker has and no other session is taking over. -/
theorem insert (h : Registry d pcs) (hc : pcs c = some pc) (hentry : pc.holdsEntry)
    (hnew : c ∉ d.engineWorkers) (hid : ∀ c' ∈ d.engineWorkers, (d.workers c').engineId ≠ id)
    (htake : ∀ c' ar v rpc, pcs c' ≠ some (.takeover id ar v rpc)) (ar : Bool) :
    Registry (d.insertWorker c id ar) pcs := by
  have hworkers : (d.insertWorker c id ar).engineWorkers = d.engineWorkers ++ [c] := by simp [insertWorker, hnew]
  have hmem : ∀ {c'}, c' ∈ (d.insertWorker c id ar).engineWorkers ↔ c' ∈ d.engineWorkers ∨ c' = c :=
    mem_insertWorker ..
  have hself : ((d.insertWorker c id ar).workers c).engineId = id := by simp
  have hold : ∀ {c'}, c' ∈ d.engineWorkers →
      ((d.insertWorker c id ar).workers c').engineId = (d.workers c').engineId := by
    intro c' hc'
    have hne : c' ≠ c := fun he => hnew (he ▸ hc')
    simp [hne]
  refine ⟨?_, ?_, ?_, ?_, ?_, h.single, fun hc' => hmem.2 (Or.inl (h.leaving hc')), h.keyError⟩
  · rw [hworkers]
    exact h.nodup.append (List.nodup_singleton c) (by simpa using hnew)
  · intro c₁ c₂ h₁ h₂ he
    rcases hmem.1 h₁ with h₁' | rfl <;> rcases hmem.1 h₂ with h₂' | rfl
    · rw [hold h₁', hold h₂'] at he
      exact h.inj h₁' h₂' he
    · rw [hold h₁', hself] at he
      exact absurd he (hid c₁ h₁')
    · rw [hold h₂', hself] at he
      exact absurd he.symm (hid c₂ h₂')
    · rfl
  · intro id'
    simp only [insertWorker_engineIds, Finset.mem_insert, h.ids]
    constructor
    · rintro (rfl | ⟨c', hc', rfl⟩)
      · exact ⟨c, hmem.2 (Or.inr rfl), hself⟩
      · exact ⟨c', hmem.2 (Or.inl hc'), hold hc'⟩
    · rintro ⟨c', hc', rfl⟩
      rcases hmem.1 hc' with hc' | rfl
      · exact Or.inr ⟨c', hc', (hold hc').symm⟩
      · exact Or.inl hself
  · intro c' hc'
    rcases hmem.1 hc' with hc' | rfl
    · exact h.running hc'
    · exact ⟨pc, hc, hentry⟩
  · intro c' id' ar' v rpc hc'
    have hev := h.evicting hc'
    cases rpc with
    | sending => exact ⟨hmem.2 (Or.inl hev.1), (hold hev.1).trans hev.2.1, hev.2.2⟩
    | broadcasting =>
      intro c₁ h₁
      rcases hmem.1 h₁ with h₁ | rfl
      · rw [hold h₁]
        exact hev c₁ h₁
      · rw [hself]
        rintro rfl
        exact htake _ _ _ _ hc'

/-- A session without a worker starts to wait for a removal, so that it can take over the id `id`. -/
theorem takeover {rpc : RemovalPc} (h : Registry d pcs) (hnew : c ∉ d.engineWorkers) (hev : Evicting d pcs id v rpc)
    (htake : ∀ c' ar v rpc, c' ≠ c → pcs c' ≠ some (.takeover id ar v rpc)) :
    Registry d (Function.update pcs c (some (.takeover id ar v rpc))) := by
  have hother : ∀ {c' pc'}, (∀ id ar v rpc, pc' ≠ .takeover id ar v rpc) →
      Function.update pcs c (some (.takeover id ar v rpc)) c' = some pc' → pcs c' = some pc' :=
    fun hpc' hc' => of_update hc' (hpc' _ _ _ _)
  -- the conditions on the victims stay as they are
  have hmono : ∀ {id' v' rpc'}, Evicting d pcs id' v' rpc' →
      Evicting d (Function.update pcs c (some (.takeover id ar v rpc))) id' v' rpc' := by
    intro id' v' rpc' hev
    cases rpc' with
    | sending => exact ⟨hev.1, hev.2.1, fun err he => hev.2.2 err (hother (by simp) he)⟩
    | broadcasting => exact hev
  refine ⟨h.nodup, h.inj, h.ids, fun {c'} hc' => ?_, fun {c' id' ar' v' rpc'} hc' => ?_,
    fun {c₁ c₂ id' ar₁ ar₂ v₁ v₂ rpc₁ rpc₂} h₁ h₂ => ?_, fun hc' => h.leaving (hother (by simp) hc'),
    fun {c' pc'} hc' hpc' => ?_⟩
  · have hne : c' ≠ c := fun he => hnew (he ▸ hc')
    rw [Function.update_of_ne hne]
    exact h.running hc'
  · by_cases he : c' = c
    · subst he
      rw [Function.update_self] at hc'
      cases hc'
      exact hmono hev
    · rw [Function.update_of_ne he] at hc'
      exact hmono (h.evicting hc')
  · by_cases he₁ : c₁ = c <;> by_cases he₂ : c₂ = c
    · rw [he₁, he₂]
    · subst he₁
      rw [Function.update_self] at h₁
      cases h₁
      rw [Function.update_of_ne he₂] at h₂
      exact absurd h₂ (htake _ _ _ _ he₂)
    · subst he₂
      rw [Function.update_self] at h₂
      cases h₂
      rw [Function.update_of_ne he₁] at h₁
      exact absurd h₁ (htake _ _ _ _ he₁)
    · rw [Function.update_of_ne he₁] at h₁
      rw [Function.update_of_ne he₂] at h₂
      exact h.single h₁ h₂
  · refine h.keyError (hother ?_ hc') hpc'
    rintro _ _ _ _ rfl
    exact hpc'

/-- A session with a worker in the registry starts to wait for its removal. -/
theorem leave (h : Registry d pcs) (hc : c ∈ d.engineWorkers)
    (hevict : ∀ c' id ar, pcs c' ≠ some (.takeover id ar c .sending)) {err : Option PyError}
    (hkey : ¬ (SessionPc.closing err .sending).keyError) :
    Registry d (Function.update pcs c (some (.closing err .sending))) := by
  have hother : ∀ {c' pc'}, (∀ err, pc' ≠ .closing err .sending) →
      Function.update pcs c (some (.closing err .sending)) c' = some pc' → pcs c' = some pc' :=
    fun hpc' hc' => of_update hc' (hpc' _)
  refine ⟨h.nodup, h.inj, h.ids, fun {c'} hc' => ?_, fun {c' id' ar' v rpc} hc' => ?_,
    fun h₁ h₂ => h.single (hother (by simp) h₁) (hother (by simp) h₂), fun {c' err'} hc' => ?_,
    fun {c' pc'} hc' hpc' => h.keyError (of_update hc' (fun he => hkey (he ▸ hpc'))) hpc'⟩
  · by_cases he : c' = c
    · subst he
      exact ⟨_, Function.update_self .., trivial⟩
    · rw [Function.update_of_ne he]
      exact h.running hc'
  · have hold := hother (by simp) hc'
    have hev := h.evicting hold
    cases rpc with
    | sending =>
      refine ⟨hev.1, hev.2.1, fun err' he => ?_⟩
      by_cases hv : v = c
      · subst hv
        exact hevict _ _ _ hold
      · rw [Function.update_of_ne hv] at he
        exact hev.2.2 err' he
    | broadcasting => exact hev
  · by_cases he : c' = c
    · rwa [he]
    · rw [Function.update_of_ne he] at hc'
      exact h.leaving hc'

end Registry

/-! ### The functions of a session -/

@[simp] theorem startBroadcast_dispatcher : (startBroadcast s).1.dispatcher = s.dispatcher := rfl

@[simp] theorem resumeBroadcast_dispatcher (b : Broadcast) : (resumeBroadcast s b).1.dispatcher = s.dispatcher := by
  unfold resumeBroadcast
  split <;> rfl

theorem broadcastFrom_ne_runtimeError (f : Frontend) (ids : Finset String) (size : Nat) (todo : List Address) :
    (broadcastFrom f ids size todo).2 ≠ .runtimeError := by
  induction todo generalizing f with
  | nil => simp [broadcastFrom]
  | cons a rest ih =>
    unfold broadcastFrom
    split
    · simp
    · exact ih _

/-- A broadcast only fails when the number of clients has changed. -/
theorem resumeBroadcast_ne_runtimeError {b : Broadcast} (h : s.frontend.clients.size = b.size) :
    (resumeBroadcast s b).2 ≠ .runtimeError := by
  unfold resumeBroadcast
  rw [if_pos h]
  exact broadcastFrom_ne_runtimeError s.frontend b.engineIds b.size b.todo

theorem sameRegistry_beginRemoval : SameRegistry s.dispatcher (s.beginRemoval v).1.dispatcher := by
  have hbegin : SameRegistry s.dispatcher (s.dispatcher.beginRemoval v).1 := ⟨by simp, by simp, fun c => by simp⟩
  unfold Server.beginRemoval
  split <;> rename_i heq <;> rw [heq] at hbegin <;> exact hbegin

theorem feed_serving (b : Bool) : SameRegistry s.dispatcher (feed s c b).1.dispatcher ∧ (feed s c b).2.serving := by
  have hnext : SameRegistry s.dispatcher (s.dispatcher.sendNextInput c b).1 := (sendNextInput_cases rfl).sameRegistry
  unfold feed
  split <;> rename_i heq <;> rw [heq] at hnext <;> exact ⟨hnext, trivial⟩

theorem answer_serving (k : Nat) (m : Option Metadata) (result : Result) (b : Bool) :
    SameRegistry s.dispatcher (answer s c k m result b).1.dispatcher ∧ (answer s c k m result b).2.serving := by
  unfold answer Server.answerResult Server.sendResult
  rcases hans : s.dispatcher.answerResult c k m result with ⟨d, _ | ⟨a, w⟩ | _⟩ <;>
    have hsame := (answerResult_cases hans).sameRegistry
  · exact ⟨hsame, trivial⟩
  · simp only
    rcases s.frontend.sendResult a w with ⟨f, _ | _⟩
    · obtain ⟨hfeed, hpc⟩ := @feed_serving { dispatcher := d, frontend := f } c b
      exact ⟨hsame.trans hfeed, hpc⟩
    · exact ⟨hsame, trivial⟩
  · obtain ⟨hfeed, hpc⟩ := @feed_serving { s with dispatcher := d } c b
    exact ⟨hsame.trans hfeed, hpc⟩

theorem nextMessage_serving (msg : FromEngine) :
    SameRegistry s.dispatcher (nextMessage s c msg).1.dispatcher ∧ (nextMessage s c msg).2.serving := by
  unfold nextMessage
  split
  · exact ⟨.refl _, trivial⟩
  · simp only
    split <;> exact ⟨⟨rfl, rfl, fun _ => rfl⟩, trivial⟩

namespace Registry

/-- A session that reads and answers results. -/
theorem serve (h : Registry d pcs) (hd : SameRegistry d d') (hpc : pc.serving) :
    Registry d' (Function.update pcs c (some pc)) := by
  refine (h.of_same hd).goOn ?_ ?_ fun _ => ?_ <;> cases pc <;> first | trivial | exact hpc.elim | exact id

/-- The removal of a worker that nobody else removes does not fail. -/
theorem afterSending (h : Registry s.dispatcher pcs) (hv : v ∈ s.dispatcher.engineWorkers)
    (hevict : ∀ c id ar, pcs c ≠ some (.takeover id ar v .sending))
    (hleave : ∀ err, pcs v ≠ some (.closing err .sending)) :
    ∃ s' o, Interleaved.afterSending s v = (s', .ofBroadcast o) ∧ Registry s'.dispatcher pcs ∧
      v ∉ s'.dispatcher.engineWorkers ∧ (∀ c ∈ s'.dispatcher.engineWorkers, c ∈ s.dispatcher.engineWorkers) ∧
      ∀ c ∈ s'.dispatcher.engineWorkers, (s'.dispatcher.workers c).engineId ≠ (s.dispatcher.workers v).engineId := by
  have hworkers := finishRemoval_workers s.dispatcher v
  obtain ⟨hdone, hreg, hnot, hsub, hfree⟩ := h.remove hv hevict hleave
  unfold Interleaved.afterSending
  rcases hfin : s.dispatcher.finishRemoval v with ⟨d, failed⟩
  rw [hfin] at hworkers hdone hreg hnot hsub hfree
  cases hdone
  refine ⟨_, _, rfl, hreg, hnot, hsub, fun c hc => ?_⟩
  rw [startBroadcast_dispatcher, show d.workers = s.dispatcher.workers from hworkers]
  exact hfree c hc

/-- The insertion of a worker whose id is free. -/
theorem register (h : Registry s.dispatcher pcs) (hnew : c ∉ s.dispatcher.engineWorkers)
    (hid : ∀ c' ∈ s.dispatcher.engineWorkers, (s.dispatcher.workers c').engineId ≠ id)
    (htake : ∀ c' ar v rpc, c' ≠ c → pcs c' ≠ some (.takeover id ar v rpc)) :
    Registry (Interleaved.register s c id ar).1.dispatcher
      (Function.update pcs c (some (Interleaved.register s c id ar).2)) := by
  have hinsert : ∀ {pc : SessionPc}, pc.holdsEntry → pc.plain → ¬ pc.keyError →
      Registry (s.dispatcher.insertWorker c id ar) (Function.update pcs c (some pc)) := by
    intro pc hentry hpc hkey
    refine (h.goOn hpc hkey fun hc => absurd hc hnew).insert (Function.update_self ..) hentry hnew hid ?_ ar
    intro c' ar v rpc hc'
    by_cases he : c' = c
    · subst he
      rw [Function.update_self] at hc'
      cases hc'
      exact hpc
    · rw [Function.update_of_ne he] at hc'
      exact htake c' ar v rpc he hc'
  have hne := broadcastFrom_ne_runtimeError s.frontend (s.dispatcher.insertWorker c id ar).engineIds
    s.frontend.clients.size s.frontend.clients.keys
  unfold Interleaved.register
  rcases hstart : startBroadcast { s with dispatcher := s.dispatcher.insertWorker c id ar } with ⟨s', o⟩
  have hd : s'.dispatcher = s.dispatcher.insertWorker c id ar := congrArg (fun r => r.1.dispatcher) hstart.symm
  rw [show (broadcastFrom ..).2 = o from congrArg Prod.snd hstart] at hne
  cases o with
  | suspended => exact hd ▸ hinsert trivial trivial not_false
  | done => exact hd ▸ hinsert trivial trivial not_false
  | runtimeError => exact absurd rfl hne

/-- A take-over goes on after the worker with its id is gone. -/
theorem takeoverFrom (h : Registry s.dispatcher pcs) (hnew : c ∉ s.dispatcher.engineWorkers)
    (hid : ∀ c' ∈ s.dispatcher.engineWorkers, (s.dispatcher.workers c').engineId ≠ id)
    (htake : ∀ c' ar v rpc, c' ≠ c → pcs c' ≠ some (.takeover id ar v rpc)) (o : BroadcastOutcome) :
    Registry (Interleaved.takeoverFrom c id ar v (s, .ofBroadcast o)).1.dispatcher
      (Function.update pcs c (some (Interleaved.takeoverFrom c id ar v (s, .ofBroadcast o)).2)) := by
  cases o with
  | suspended b => exact h.takeover hnew hid htake
  | done => exact h.register hnew hid htake
  | runtimeError => exact h.goOn trivial (by rintro ⟨⟩) fun hc => absurd hc hnew

/-- A take-over deletes the worker `v` and goes on. -/
theorem evict (h : Registry s.dispatcher pcs) (ar : Bool) (hnew : c ∉ s.dispatcher.engineWorkers)
    (hv : v ∈ s.dispatcher.engineWorkers) (hid : (s.dispatcher.workers v).engineId = id)
    (hleave : ∀ err, pcs v ≠ some (.closing err .sending))
    (htake : ∀ c' ar v rpc, pcs c' ≠ some (.takeover id ar v rpc)) :
    Registry (Interleaved.takeoverFrom c id ar v (Interleaved.afterSending s v)).1.dispatcher
      (Function.update pcs c (some (Interleaved.takeoverFrom c id ar v (Interleaved.afterSending s v)).2)) := by
  have hevict : ∀ c' id' ar, pcs c' ≠ some (.takeover id' ar v .sending) := by
    intro c' id' ar' hc'
    have hev := h.evicting hc'
    rw [← hev.2.1, hid] at hc'
    exact htake _ _ _ _ hc'
  obtain ⟨s', o, heq, hreg, -, hsub, hfree⟩ := h.afterSending hv hevict hleave
  rw [heq]
  exact hreg.takeoverFrom (fun hc => hnew (hsub c hc)) (hid ▸ hfree) (fun c' ar v rpc _ => htake c' ar v rpc) o

/-- The `finally` clause goes on after the worker is gone. -/
theorem closingFrom (h : Registry s.dispatcher pcs) (hc : c ∉ s.dispatcher.engineWorkers) {err : Option PyError}
    (hkey : err ≠ some .keyError) (o : BroadcastOutcome) :
    Registry (Interleaved.closingFrom err (s, .ofBroadcast o)).1.dispatcher
      (Function.update pcs c (some (Interleaved.closingFrom err (s, .ofBroadcast o)).2)) := by
  cases o with
  | suspended b => exact h.goOn trivial hkey fun hc' => absurd hc' hc
  | done => exact h.goOn trivial hkey fun hc' => absurd hc' hc
  | runtimeError => exact h.goOn trivial (by rintro ⟨⟩) fun hc' => absurd hc' hc

/-- The `finally` clause of a session whose worker nobody else removes. -/
theorem leaveLoop (h : Registry s.dispatcher pcs) {err : Option PyError} (hkey : err ≠ some .keyError)
    (hevict : ∀ c' id ar, pcs c' ≠ some (.takeover id ar c .sending))
    (hleave : ∀ err, pcs c ≠ some (.closing err .sending)) :
    Registry (Interleaved.leaveLoop s c err).1.dispatcher
      (Function.update pcs c (some (Interleaved.leaveLoop s c err).2)) := by
  unfold Interleaved.leaveLoop
  split
  · rename_i hc
    have hbegun : SameRegistry s.dispatcher (s.beginRemoval c).1.dispatcher := sameRegistry_beginRemoval
    unfold startRemoval
    rcases hbegin : s.beginRemoval c with ⟨s₁, sends⟩
    rw [hbegin] at hbegun
    have hc₁ : c ∈ s₁.dispatcher.engineWorkers := hbegun.engineWorkers ▸ hc
    cases sends with
    | true => exact (h.of_same hbegun).leave hc₁ hevict hkey
    | false =>
      obtain ⟨s', o, heq, hreg, hnot, -⟩ := (h.of_same hbegun).afterSending hc₁ hevict hleave
      simp only
      rw [heq]
      exact hreg.closingFrom hnot hkey o
  · rename_i hc
    exact h.goOn trivial hkey fun hc' => absurd hc' hc

theorem predecessor_eq_some (hv : d.predecessor id = some v) :
    v ∈ d.engineWorkers ∧ (d.workers v).engineId = id := by
  unfold predecessor at hv
  split at hv
  · exact ⟨List.mem_of_find?_eq_some hv, by simpa using List.find?_some hv⟩
  · cases hv

theorem predecessor_eq_none (h : Registry d pcs) (hnone : d.predecessor id = none) :
    ∀ c ∈ d.engineWorkers, (d.workers c).engineId ≠ id := by
  intro c hc he
  unfold predecessor at hnone
  rw [if_pos ((h.ids id).2 ⟨c, hc, he⟩), List.find?_eq_none] at hnone
  exact hnone c hc (by simpa using he)

/-- A session that is not past its registration has no worker. -/
theorem not_mem (h : Registry d pcs) (hc : pcs c = some pc) (hpc : ¬ pc.holdsEntry) : c ∉ d.engineWorkers := by
  intro hmem
  obtain ⟨pc', hc', hentry⟩ := h.running hmem
  rw [hc] at hc'
  cases hc'
  exact hpc hentry

/-- A registration under an id that no session is taking over and whose worker is not being removed. -/
theorem firstMessage (h : Registry s.dispatcher pcs) (hc : pcs c = some .connected) (msg : FromEngine)
    (hmsg : ∀ id ar, msg = .register id ar → (∀ c' ar v rpc, pcs c' ≠ some (.takeover id ar v rpc)) ∧
      ∀ v, s.dispatcher.predecessor id = some v → ∀ err, pcs v ≠ some (.closing err .sending)) :
    Registry (Interleaved.firstMessage s c msg).1.dispatcher
      (Function.update pcs c (some (Interleaved.firstMessage s c msg).2)) := by
  have hnew : c ∉ s.dispatcher.engineWorkers := h.not_mem hc id
  unfold Interleaved.firstMessage
  cases msg with
  | register id ar =>
    obtain ⟨htake, hleave⟩ := hmsg id ar rfl
    simp only
    cases hpred : s.dispatcher.predecessor id with
    | none => exact h.register hnew (h.predecessor_eq_none hpred) fun c' ar v rpc _ => htake c' ar v rpc
    | some v =>
      obtain ⟨hv, hid⟩ := predecessor_eq_some hpred
      have hbegun : SameRegistry s.dispatcher (s.beginRemoval v).1.dispatcher := sameRegistry_beginRemoval
      simp only [startRemoval]
      rcases hbegin : s.beginRemoval v with ⟨s₁, sends⟩
      rw [hbegin] at hbegun
      have hv₁ : v ∈ s₁.dispatcher.engineWorkers := hbegun.engineWorkers ▸ hv
      have hnew₁ : c ∉ s₁.dispatcher.engineWorkers := hbegun.engineWorkers ▸ hnew
      have hid₁ : (s₁.dispatcher.workers v).engineId = id := (hbegun.engineId v).trans hid
      cases sends with
      | true =>
        exact (h.of_same hbegun).takeover hnew₁ ⟨hv₁, hid₁, hleave v hpred⟩ fun c' ar v rpc _ => htake c' ar v rpc
      | false => exact (h.of_same hbegun).evict _ hnew₁ hv₁ hid₁ (hleave v hpred) htake
  | _ => exact h.goOn trivial (by rintro ⟨⟩) fun hc' => absurd hc' hnew

end Registry

/-! ### The system -/

def SessionPc.isConnected : SessionPc → Bool
  | .connected => true
  | _ => false

/-- The session takes over the id `id`. -/
def SessionPc.takesOver (id : String) : SessionPc → Bool
  | .takeover id' _ _ _ => id' = id
  | _ => false

/-- The session takes over an id and has begun to remove the worker `v`. -/
def SessionPc.evicts (v : Context) : SessionPc → Bool
  | .takeover _ _ v' .sending => v' = v
  | _ => false

/-- The session has begun to remove its own worker. -/
def SessionPc.leaves : SessionPc → Bool
  | .closing _ .sending => true
  | _ => false

/-- No session has begun to remove the worker `v` in order to take over its id. -/
def Sys.Unevicted (sys : Sys) (v : Context) : Prop :=
  ∀ c < sys.server.dispatcher.nextContext, (sys.sessions c).any (·.evicts v) = false

instance (v : Context) : Decidable (sys.Unevicted v) := inferInstanceAs (Decidable (∀ _ < _, _ = _))

/-- A registration's last broadcast is not cancelled and finds the number of clients unchanged, a removal in a
`finally` clause is not cancelled, and a session does not fail while its worker is being removed by another. -/
def SessionPc.resumesOrderly (sys : Sys) (c : Context) (raises : Bool) : SessionPc → Prop
  | .announcing b => raises = false ∧ sys.server.frontend.clients.size = b.size
  | .closing _ .sending => raises = false
  | .sinking _ _ _ | .answering | .feeding => raises = true → sys.Unevicted c
  | _ => True

/-- No two handlers work on the registry entry of one engine at a time, the handlers that work on it are not
interrupted, and clients connect at free addresses. -/
def Action.orderly (sys : Sys) : Action → Prop
  | .openClient a => sys.server.frontend.clients.get? a = none
  | .engineMessage c (.register id _) => (sys.sessions c).any (·.isConnected) = true →
      (∀ c' < sys.server.dispatcher.nextContext, (sys.sessions c').any (·.takesOver id) = false) ∧
      ∀ v ∈ sys.server.dispatcher.predecessor id, (sys.sessions v).any (·.leaves) = false
  | .resumeSession c raises _ => ∀ pc ∈ sys.sessions c, pc.resumesOrderly sys c raises
  | .closeSession c => sys.Unevicted c
  | _ => True

instance (sys : Sys) (c : Context) (raises : Bool) : DecidablePred (SessionPc.resumesOrderly sys c raises)
  | .announcing _ => inferInstanceAs (Decidable (_ ∧ _))
  | .closing _ .sending => inferInstanceAs (Decidable (_ = _))
  | .sinking _ _ _ | .answering | .feeding => inferInstanceAs (Decidable (_ → _))
  | .closing _ (.broadcasting _) | .connected | .takeover _ _ _ _ | .idle | .finished _ =>
    inferInstanceAs (Decidable True)

instance (sys : Sys) : DecidablePred (Action.orderly sys)
  | .openClient _ => inferInstanceAs (Decidable (_ = _))
  | .engineMessage _ (.register _ _) => inferInstanceAs (Decidable (_ → _ ∧ _))
  | .resumeSession c raises _ => inferInstanceAs (Decidable (∀ pc ∈ sys.sessions c, pc.resumesOrderly sys c raises))
  | .closeSession c => inferInstanceAs (Decidable (sys.Unevicted c))
  | .openProducer _ | .message _ _ _ _ | .resumeStream _ _ _ | .closeStream _ | .openSession
  | .engineMessage _ (.result _) | .engineMessage _ .unset => inferInstanceAs (Decidable True)

theorem Action.orderly.addressFree (h : act.orderly sys) : act.addressFree sys := by
  cases act with
  | openClient => exact h
  | _ => trivial

/-- A property of the sessions that have been opened holds of all. -/
theorem Sys.ContextsUsed.any_eq_false {f : SessionPc → Bool} (hused : sys.ContextsUsed)
    (h : ∀ c < sys.server.dispatcher.nextContext, (sys.sessions c).any f = false) (hpc : f pc = true) :
    sys.sessions c ≠ some pc := by
  intro hc
  rcases Nat.lt_or_ge c sys.server.dispatcher.nextContext with hlt | hge
  · have := h c hlt
    rw [hc, Option.any_some, hpc] at this
    cases this
  · rw [hused.fresh c hge] at hc
    cases hc

private theorem Sys.Unevicted.ne (hused : sys.ContextsUsed) (h : sys.Unevicted v) :
    ∀ c id ar, sys.sessions c ≠ some (.takeover id ar v .sending) :=
  fun _ _ _ => hused.any_eq_false h (by simp [SessionPc.evicts])

open Registry in
theorem Registry.resumeSession {raises b : Bool} (h : Registry sys.server.dispatcher sys.sessions)
    (hused : sys.ContextsUsed) (hc : sys.sessions c = some pc) (hact : pc.resumesOrderly sys c raises)
    (hr : Interleaved.resumeSession sys.server c raises b pc = some (s', pc')) :
    Registry s'.dispatcher (Function.update sys.sessions c (some pc')) := by
  -- a session that answers a result, or fails at it
  have hserve : pc.plain → (raises = true → sys.Unevicted c) → ∀ r : Server × SessionPc,
      SameRegistry sys.server.dispatcher r.1.dispatcher ∧ r.2.serving →
      (if raises then some (Interleaved.leaveLoop sys.server c (some .raised)) else some r) = some (s', pc') →
      Registry s'.dispatcher (Function.update sys.sessions c (some pc')) := by
    intro hplain hun r hserving heq
    split at heq <;> obtain ⟨rfl, rfl⟩ := Prod.ext_iff.1 (Option.some.inj heq)
    · refine h.leaveLoop (by simp) ((hun ‹_›).ne hused) fun err hc' => ?_
      rw [hc] at hc'
      cases hc'
      exact hplain
    · exact h.serve hserving.1 hserving.2
  cases pc with
  | connected => cases hr
  | idle => cases hr
  | finished => cases hr
  | sinking k m result => exact hserve trivial hact _ (answer_serving ..) hr
  | answering => exact hserve trivial hact _ (feed_serving b) hr
  | feeding => exact hserve trivial hact (sys.server, .idle) ⟨.refl _, trivial⟩ hr
  | announcing bc =>
    obtain ⟨rfl, hsize⟩ := hact
    have hne := resumeBroadcast_ne_runtimeError hsize
    have hd := @resumeBroadcast_dispatcher sys.server bc
    simp only [Interleaved.resumeSession, Bool.false_eq_true, ↓reduceIte] at hr
    rcases hres : resumeBroadcast sys.server bc with ⟨s₁, o⟩
    rw [hres] at hne hr hd
    obtain ⟨rfl, rfl⟩ := Prod.ext_iff.1 (Option.some.inj hr)
    simp only at hd ⊢
    rw [hd]
    cases o with
    | suspended => exact h.goOn trivial not_false fun _ => trivial
    | done => exact h.goOn trivial not_false fun _ => trivial
    | runtimeError => exact absurd rfl hne
  | takeover id ar v rpc =>
    have hnew : c ∉ sys.server.dispatcher.engineWorkers := h.not_mem hc not_false
    simp only [Interleaved.resumeSession] at hr
    split at hr
    · cases hr
      exact h.goOn trivial (by rintro ⟨⟩) fun hc' => absurd hc' hnew
    obtain ⟨rfl, rfl⟩ := Prod.ext_iff.1 (Option.some.inj hr)
    cases rpc with
    | sending =>
      -- as if the session had just registered: no other session takes over its id or removes the worker
      obtain ⟨hv, hid, hleave⟩ := h.evicting hc
      have h₀ : Registry sys.server.dispatcher (Function.update sys.sessions c (some .connected)) :=
        h.goOn trivial not_false fun hc' => absurd hc' hnew
      have := h₀.evict ar hnew hv hid (fun err he => hleave err (of_update he (by simp))) fun c' ar v rpc he => by
        have he' := of_update he (by simp)
        obtain rfl := h.single hc he'
        rw [Function.update_self] at he
        cases he
      rwa [Function.update_idem] at this
    | broadcasting bc =>
      have hd := @resumeBroadcast_dispatcher sys.server bc
      rcases hres : resumeBroadcast sys.server bc with ⟨s₁, o⟩
      rw [hres] at hd
      simp only [resumeRemoval, hres]
      simp only at hd
      refine Registry.takeoverFrom (hd ▸ h) (hd ▸ hnew) (hd ▸ h.evicting hc) ?_ o
      intro c' ar' v' rpc' hne hc'
      exact hne (h.single hc' hc)
  | closing err rpc =>
    have hkey : err ≠ some .keyError := h.keyError hc
    simp only [Interleaved.resumeSession] at hr
    cases rpc with
    | sending =>
      obtain rfl : raises = false := hact
      obtain ⟨rfl, rfl⟩ := Prod.ext_iff.1 (Option.some.inj hr)
      have hmem := h.leaving hc
      -- as if the session had just left its loop
      have h₀ : Registry sys.server.dispatcher (Function.update sys.sessions c (some .idle)) :=
        h.goOn trivial not_false fun _ => trivial
      obtain ⟨s₁, o, heq, hreg, hnot, -⟩ := h₀.afterSending hmem
        (fun c' id ar he => (h.evicting (of_update he (by simp))).2.2 err hc)
        (fun err' he => by rw [Function.update_self] at he; cases he)
      have := hreg.closingFrom hnot hkey o
      rw [← heq, Function.update_idem] at this
      exact this
    | broadcasting bc =>
      have hnot : c ∉ sys.server.dispatcher.engineWorkers := h.not_mem hc not_false
      split at hr
      · cases hr
        exact h.goOn trivial (by rintro ⟨⟩) fun hc' => absurd hc' hnot
      · obtain ⟨rfl, rfl⟩ := Prod.ext_iff.1 (Option.some.inj hr)
        have hd := @resumeBroadcast_dispatcher sys.server bc
        rcases hres : resumeBroadcast sys.server bc with ⟨s₁, o⟩
        rw [hres] at hd
        simp only [resumeRemoval, hres]
        simp only at hd
        exact Registry.closingFrom (hd ▸ h) (hd ▸ hnot) hkey o

theorem registry_step (hstep : step cfg sys act = some sys') (hused : sys.ContextsUsed) (hact : act.orderly sys)
    (h : Registry sys.server.dispatcher sys.sessions) : Registry sys'.server.dispatcher sys'.sessions := by
  cases act with
  | openClient | openProducer | message | resumeStream | closeStream =>
    obtain ⟨hsame, hsessions⟩ := sameRegistry_step hstep rfl (by simp)
    rw [hsessions]
    exact h.of_same hsame
  | openSession =>
    cases hstep
    refine (h.of_same ⟨rfl, rfl, fun _ => rfl⟩ : Registry sys.server.dispatcher.openContext _).goOn trivial not_false
      fun hc => ?_
    obtain ⟨pc, hc, -⟩ := h.running hc
    rw [hused.fresh _ (Nat.le_refl _)] at hc
    cases hc
  | engineMessage c msg =>
    simp only [step] at hstep
    split at hstep
    · rename_i hc
      cases hstep
      refine h.firstMessage hc msg ?_
      rintro id ar rfl
      obtain ⟨htake, hleave⟩ := hact (by rw [hc]; rfl)
      refine ⟨fun _ _ _ _ => hused.any_eq_false htake (by simp [SessionPc.takesOver]), fun v hv err he => ?_⟩
      have := hleave v hv
      rw [he] at this
      cases this
    · cases hstep
      obtain ⟨hsame, hpc⟩ := @nextMessage_serving sys.server c msg
      exact h.serve hsame hpc
    · cases hstep
  | resumeSession c raises b =>
    obtain ⟨pc, hc, hstep⟩ := Option.bind_eq_some_iff.1 hstep
    obtain ⟨⟨s, pc'⟩, hr, hstep⟩ := Option.bind_eq_some_iff.1 hstep
    cases hstep
    exact h.resumeSession hused hc (hact pc hc) hr
  | closeSession c =>
    obtain ⟨pc, hc, hstep⟩ := Option.bind_eq_some_iff.1 hstep
    obtain ⟨⟨s, pc'⟩, hr, hstep⟩ := Option.bind_eq_some_iff.1 hstep
    cases hstep
    cases pc with
    | connected =>
      cases hr
      exact h.goOn trivial (by rintro ⟨⟩) fun hc' => absurd hc' (h.not_mem hc not_false)
    | idle =>
      obtain ⟨rfl, rfl⟩ := Prod.ext_iff.1 (Option.some.inj hr)
      refine h.leaveLoop (by simp) (Sys.Unevicted.ne hused hact) fun err hc' => ?_
      rw [hc] at hc'
      cases hc'
    | _ => cases hr

end Interleaved

end Gabriel
