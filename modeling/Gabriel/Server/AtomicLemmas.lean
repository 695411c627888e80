import Gabriel.Server.Atomic
import Gabriel.Server.DispatcherLemmas

/-!
# What a step with atomic handlers does

`Dispatcher.step_cases` lists what a step of the dispatcher can do, in terms of the operations whose outcomes
`Gabriel.Server.DispatcherLemmas` lists.  `Atomic.run_dispatcher` turns a run of the server into a run of the
dispatcher, so that a property of the dispatcher alone is proved about `Dispatcher.machine`.
-/

namespace Gabriel

namespace Dispatcher

variable {cfg : Config} {d d' : Dispatcher} {c : Context} {mp : MetadataPayload}

/-! ### The dispatch loop -/

/-- What the dispatch loop keeps: `P rest d busy` speaks of the targets `rest` still to come, and `busy` tells
whether no target so far was idle. -/
theorem dispatchAll_ind {P : List Context → Dispatcher → Bool → Prop} {raising : List Context}
    (hbusy : ∀ d c rest b, P (c :: rest) d b → (d.workers c).currentInputMetadata ≠ none →
      P rest (d.addProducer c mp.producerId) b)
    (hidle : ∀ d c rest b, P (c :: rest) d b → (d.workers c).currentInputMetadata = none →
      P rest ((d.addProducer c mp.producerId).sendPayload c mp (c ∉ raising)) false)
    {order : List Context} {b : Bool} {r : Option Bool} (h : P order d b)
    (hr : d.dispatchAll mp raising order b = (d', r)) :
    (∀ b', r = some b' → P [] d' b') ∧ (r = none → raising ≠ [] ∧ ∃ rest, P rest d' false) := by
  induction order generalizing d b with
  | nil =>
    cases hr
    exact ⟨fun b' hb => by cases hb; exact h, fun hn => by cases hn⟩
  | cons c rest ih =>
    by_cases hc : (d.workers c).currentInputMetadata = none
    · have hP := hidle _ _ _ _ h hc
      by_cases hraise : c ∈ raising
      · simp only [dispatchAll, dispatchOne_of_idle _ hc, if_pos hraise] at hr
        cases hr
        exact ⟨fun b' hb => (by cases hb), fun _ => ⟨List.ne_nil_of_mem hraise, rest, hP⟩⟩
      · simp only [dispatchAll, dispatchOne_of_idle _ hc, if_neg hraise] at hr
        exact ih hP hr
    · simp only [dispatchAll, dispatchOne_of_busy _ hc] at hr
      exact ih (hbusy _ _ _ _ h hc) hr

theorem raising_of_dispatchAll {raising order : List Context} {b : Bool}
    (hr : d.dispatchAll mp raising order b = (d', none)) : raising ≠ [] :=
  ((dispatchAll_ind (P := fun _ _ _ => True) (fun _ _ _ _ _ _ => trivial) (fun _ _ _ _ _ _ => trivial)
    trivial hr).2 rfl).1

/-- If all targets are busy, the dispatch loop says so. -/
theorem dispatchAll_busy {raising order : List Context} {r : Option Bool}
    (hbusy : ∀ c ∈ order, (d.workers c).currentInputMetadata ≠ none)
    (hr : d.dispatchAll mp raising order true = (d', r)) : r = some true := by
  have hloop := dispatchAll_ind
    (P := fun rest d₁ b => b = true ∧ ∀ c ∈ rest, (d₁.workers c).currentInputMetadata ≠ none)
    (fun d₁ c rest b h _ => ⟨h.1, fun c' hc' => by
      have := h.2 c' (List.mem_cons_of_mem _ hc')
      by_cases he : c' = c
      · subst he; simpa using this
      · simpa [he] using this⟩)
    (fun d₁ c rest b h hidle => absurd hidle (h.2 c (List.mem_cons_self ..))) ⟨rfl, hbusy⟩ hr
  cases r with
  | none => obtain ⟨-, rest, hf, -⟩ := hloop.2 rfl; cases hf
  | some b => rw [(hloop.1 b rfl).1]

/-- The dispatch loop leaves the producers alone. -/
theorem dispatchAll_producer {raising order : List Context} {b : Bool} {r : Option Bool}
    (hr : d.dispatchAll mp raising order b = (d', r)) : d'.producer = d.producer := by
  have hloop := dispatchAll_ind (P := fun _ d₁ _ => d₁.producer = d.producer) (fun _ _ _ _ h _ => h)
    (fun _ _ _ _ h _ => by simpa using h) rfl hr
  cases r with
  | none => exact (hloop.2 rfl).2.choose_spec
  | some b => exact hloop.1 b rfl

/-! ### `_remove_engine_worker` -/

@[simp] theorem removeEngineWorker_workers : (d.removeEngineWorker c).workers = d.workers := by
  simp [removeEngineWorker]
@[simp] theorem removeEngineWorker_nextContext : (d.removeEngineWorker c).nextContext = d.nextContext := by
  simp [removeEngineWorker]
@[simp] theorem removeEngineWorker_nextSerial : (d.removeEngineWorker c).nextSerial = d.nextSerial := by
  simp [removeEngineWorker]
@[simp] theorem removeEngineWorker_producer :
    (d.removeEngineWorker c).producer = (d.beginRemoval c).1.producer := by
  simp [removeEngineWorker]
@[simp] theorem removeEngineWorker_log : (d.removeEngineWorker c).log = (d.beginRemoval c).1.log := by
  simp [removeEngineWorker]

theorem removeEngineWorker_subset : (d.removeEngineWorker c).engineWorkers ⊆ d.engineWorkers := by
  unfold removeEngineWorker
  rcases finishRemoval_engineWorkers (d.beginRemoval c).1 c with he | he <;> rw [he]
  · simp
  · rw [beginRemoval_engineWorkers]
    exact List.erase_subset

theorem feedEngine_false : d.feedEngine c false = (d.sendNextInput c true).1 := by
  unfold feedEngine
  rcases hr : d.sendNextInput c true with ⟨d', _ | _⟩ <;> simp [hr]

theorem feedEngine_log_grows (raises : Bool) : d.log <+: (d.feedEngine c raises).log := by
  have hsent := sendNextInput_log_grows (d := d) (c := c) (!raises)
  unfold feedEngine
  split
  · rename_i hr
    rw [hr] at hsent
    split
    · rw [removeEngineWorker_log]
      exact hsent.trans (beginRemoval_log_grows _ _)
    · exact hsent
  · rename_i hr
    rwa [hr] at hsent

/-! ### Steps -/

/-- What a step of the dispatcher can do. -/
inductive Step (cfg : Config) (d : Dispatcher) : Action → Dispatcher → Prop
  /-- An input that no connected engine is a target of is refused. -/
  | noTarget {input : Input} {address : Address} {info : AnyProto} {order raising : List Context}
      (hnone : d.targetEngines input.targetEngineIds = []) :
      Step cfg d (.input input address info order raising) (d.beginInput input.producerId [])
  /-- An input goes through the dispatch loop, in which a write raises. -/
  | raised {input : Input} {address : Address} {info : AnyProto} {order raising : List Context} {d' : Dispatcher}
      (hperm : order.Perm (d.targetEngines input.targetEngineIds)) (hne : order ≠ [])
      (hloop : (d.beginInput input.producerId (d.targetEngines input.targetEngineIds)).dispatchAll
        (d.metadataPayload input address info) raising order true = (d', none)) :
      Step cfg d (.input input address info order raising) d'
  /-- An input goes through the dispatch loop and is sent, queued or dropped. -/
  | dispatched {input : Input} {address : Address} {info : AnyProto} {order raising : List Context}
      {d' : Dispatcher} {b : Bool} (hperm : order.Perm (d.targetEngines input.targetEngineIds)) (hne : order ≠ [])
      (hloop : (d.beginInput input.producerId (d.targetEngines input.targetEngineIds)).dispatchAll
        (d.metadataPayload input address info) raising order true = (d', some b)) :
      Step cfg d (.input input address info order raising)
        (d'.concludeInput cfg (d.metadataPayload input address info) b).1
  /-- A new engine registers, possibly in the place of another. -/
  | registered {engineId : String} {ar : Bool} (old : Option Context)
      (hold : ∀ v ∈ old, v ∈ d.engineWorkers ∧ (d.workers v).engineId = engineId) :
      Step cfg d (.register engineId ar)
        ((old.elim d.openContext d.openContext.removeEngineWorker).insertWorker d.nextContext engineId ar)
  /-- A second registration on the same stream is ignored. -/
  | ignored {c : Context} {engineId : String} {ar raises : Bool} :
      Step cfg d (.fromEngine c (.register engineId ar) raises) d
  /-- A result of an engine without a worker is ignored. -/
  | unregistered {c : Context} {msg : FromEngine} {raises : Bool} (hc : c ∉ d.engineWorkers)
      (hmsg : ∀ id ar, msg ≠ .register id ar) (hlt : c < d.nextContext) :
      Step cfg d (.fromEngine c msg raises) (d.emit (.gotResult c msg.asResult))
  /-- A result that belongs to no input is ignored. -/
  | unanswered {c : Context} {msg : FromEngine} {raises : Bool} (hc : c ∈ d.engineWorkers)
      (hm : ∀ m, (d.workers c).currentInputMetadata = some m → d.producerInfos m.producerId = none)
      (hmsg : ∀ id ar, msg ≠ .register id ar) (hlt : c < d.nextContext) :
      Step cfg d (.fromEngine c msg raises) (d.emit (.gotResult c msg.asResult))
  /-- A result is answered, and the engine gets its next input. -/
  | answered {c : Context} {msg : FromEngine} {raises : Bool} {m : Metadata} {d' : Dispatcher} {ans : Answer}
      (hc : c ∈ d.engineWorkers) (hm : (d.workers c).currentInputMetadata = some m)
      (hans : Answered (d.emit (.gotResult c msg.asResult)) c (d.resultsRead c) (d.stampResult c msg) (some m)
        (d', ans)) (hgo : ans ≠ .stop) (hmsg : ∀ id ar, msg ≠ .register id ar) (hlt : c < d.nextContext) :
      Step cfg d (.fromEngine c msg raises) (d'.feedEngine c raises)
  | removed {c : Context} (hc : c ∈ d.engineWorkers) : Step cfg d (.remove c) (d.removeEngineWorker c)

private theorem input_cases {input : Input} {address : Address} {info : AnyProto} {order raising : List Context}
    (hperm : order.Perm (d.targetEngines input.targetEngineIds)) :
    Step cfg d (.input input address info order raising)
      (d.processInputFromClient cfg input address info order raising).1 := by
  unfold processInputFromClient
  simp only
  by_cases hnone : d.targetEngines input.targetEngineIds = []
  · rw [if_pos hnone, hnone]
    exact .noTarget hnone
  · have hne : order ≠ [] := fun h => hnone (by simpa [h] using hperm.symm)
    rw [if_neg hnone]
    cases hloop : (d.beginInput input.producerId (d.targetEngines input.targetEngineIds)).dispatchAll
        (d.metadataPayload input address info) raising order true with
    | mk d' r =>
      cases r with
      | none => exact .raised hperm hne hloop
      | some b => exact .dispatched hperm hne hloop

private theorem result_cases {msg : FromEngine} {raises : Bool} (hmsg : ∀ id ar, msg ≠ .register id ar)
    (hlt : c < d.nextContext) :
    Step cfg d (.fromEngine c msg raises)
      (if c ∈ d.engineWorkers then d.handleResult c msg raises else d.emit (.gotResult c msg.asResult)) := by
  split
  · rename_i hc
    unfold handleResult
    generalize hr : (d.emit (.gotResult c msg.asResult)).answerResult c (d.resultsRead c)
      (d.workers c).currentInputMetadata (d.stampResult c msg) = r
    cases hcur : (d.workers c).currentInputMetadata with
    | none =>
      rw [hcur] at hr
      cases answerResult_cases hr
      exact .unanswered hc (fun m h => by rw [hcur] at h; cases h) hmsg hlt
    | some m =>
      rw [hcur] at hr
      cases answerResult_cases hr with
      | noProducer hnone =>
        refine .unanswered hc (fun m' h => ?_) hmsg hlt
        rw [hcur] at h
        cases h
        exact hnone
      | token hpend hl => exact .answered hc hcur (.token hpend hl) (by simp) hmsg hlt
      | copy hno hall => exact .answered hc hcur (.copy hno hall) (by simp) hmsg hlt
      | next hno => exact .answered hc hcur (.next hno) (by simp) hmsg hlt
  · exact .unregistered ‹_› hmsg hlt

theorem step_cases {a : Action} (h : step cfg d a = some d') : Step cfg d a d' := by
  cases a with
  | input input address info order raising =>
    simp only [step] at h
    split at h
    · cases h
      exact input_cases ‹_›
    · cases h
  | register engineId ar =>
    simp only [step, Option.some.injEq] at h
    subst h
    unfold addEngineWorker
    have hold : ∀ v ∈ d.openContext.predecessor engineId,
        v ∈ d.engineWorkers ∧ (d.workers v).engineId = engineId := by
      intro v hv
      simp only [predecessor] at hv
      split at hv
      · have hfound := List.find?_some hv
        exact ⟨List.mem_of_find?_eq_some hv, of_decide_eq_true hfound⟩
      · cases hv
    have := @Step.registered cfg d engineId ar _ hold
    revert this
    cases d.openContext.predecessor engineId <;> exact id
  | fromEngine c msg raises =>
    simp only [step] at h
    split at h
    · rename_i hlt
      cases h
      unfold handleFromEngine
      cases msg with
      | register engineId ar => exact .ignored
      | unset => exact result_cases (by simp) hlt
      | result r => exact result_cases (by simp) hlt
    · cases h
  | remove c =>
    simp only [step] at h
    split at h
    · cases h
      exact .removed ‹_›
    · cases h

end Dispatcher

/-! ### The server -/

namespace Server

variable {s : Server} {c : Context}

@[simp] theorem enginesUpdatedCb_dispatcher : s.enginesUpdatedCb.dispatcher = s.dispatcher := rfl

theorem beginRemoval_dispatcher : (s.beginRemoval c).1.dispatcher = (s.dispatcher.beginRemoval c).1 := by
  unfold beginRemoval
  split <;> simp_all [sendResult]

theorem removeEngineWorker_dispatcher :
    (s.removeEngineWorker c).dispatcher = s.dispatcher.removeEngineWorker c := by
  unfold removeEngineWorker Dispatcher.removeEngineWorker
  simp only
  rw [← beginRemoval_dispatcher]
  split <;> simp_all

theorem addEngineWorker_dispatcher (engineId : String) (ar : Bool) :
    (s.addEngineWorker c engineId ar).dispatcher = s.dispatcher.addEngineWorker c engineId ar := by
  unfold addEngineWorker Dispatcher.addEngineWorker
  cases s.dispatcher.predecessor engineId with
  | none => rfl
  | some v => simp [removeEngineWorker_dispatcher]

theorem feedEngine_dispatcher (raises : Bool) :
    (s.feedEngine c raises).dispatcher = s.dispatcher.feedEngine c raises := by
  unfold feedEngine Dispatcher.feedEngine
  rcases s.dispatcher.sendNextInput c !raises with ⟨d, _ | _⟩
  · rfl
  · cases raises
    · rfl
    · simp [removeEngineWorker_dispatcher]

/-- The server reacts to a result as the dispatcher does. -/
theorem answerResult_dispatcher (k : Nat) (m : Option Metadata) (result : Result) :
    (s.answerResult c k m result).1.dispatcher = (s.dispatcher.answerResult c k m result).1 ∧
      ((s.answerResult c k m result).2 = .stop ↔ (s.dispatcher.answerResult c k m result).2 = .stop) := by
  unfold answerResult
  rcases s.dispatcher.answerResult c k m result with ⟨d, _ | _ | _⟩
  · simp
  · refine ⟨rfl, ?_⟩
    simp only [reduceCtorEq, iff_false]
    split <;> simp
  · simp

private theorem handleResult_dispatcher (msg : FromEngine) (raises : Bool) {t : Server}
    (ht : t.dispatcher = s.dispatcher.emit (.gotResult c msg.asResult)) :
    (match t.answerResult c (s.dispatcher.resultsRead c) (s.dispatcher.workers c).currentInputMetadata
        (s.dispatcher.stampResult c msg) with
      | (t, .stop) => t
      | (t, _) => t.feedEngine c raises).dispatcher = s.dispatcher.handleResult c msg raises := by
  have h := answerResult_dispatcher (s := t) (c := c) (s.dispatcher.resultsRead c)
    (s.dispatcher.workers c).currentInputMetadata (s.dispatcher.stampResult c msg)
  rw [ht] at h
  unfold Dispatcher.handleResult
  revert h
  generalize (s.dispatcher.emit (.gotResult c msg.asResult)).answerResult c (s.dispatcher.resultsRead c)
    (s.dispatcher.workers c).currentInputMetadata (s.dispatcher.stampResult c msg) = r
  rcases t.answerResult c (s.dispatcher.resultsRead c) (s.dispatcher.workers c).currentInputMetadata
    (s.dispatcher.stampResult c msg) with ⟨t', _ | _ | _⟩ <;> rcases r with ⟨d, _ | _ | _⟩ <;>
    simp +contextual [feedEngine_dispatcher]

theorem handleFromEngine_dispatcher (msg : FromEngine) (raises : Bool) :
    (s.handleFromEngine c msg raises).dispatcher = s.dispatcher.handleFromEngine c msg raises := by
  unfold handleFromEngine Dispatcher.handleFromEngine
  cases msg with
  | register engineId ar => rfl
  | unset =>
    simp only
    split
    · exact handleResult_dispatcher .unset raises rfl
    · rfl
  | result r =>
    simp only
    split
    · exact handleResult_dispatcher (.result r) raises rfl
    · rfl

end Server

namespace Atomic

variable {cfg : Config} {s s' : Server}

/-- The step of the dispatcher that a step of the server makes, if any. -/
def Action.dispatcher (cfg : Config) (s : Server) : Action → Option Dispatcher.Action
  | .connect _ | .disconnect _ => none
  | .fromClient address msg order raising =>
    match s.frontend.clients.get? address with
    | none => none
    | some ref =>
      match (s.frontend.consumerHelper cfg ref address msg).2 with
      | .forward info => some (.input msg.asInput address info order raising)
      | _ => none
  | .registerEngine engineId ar => some (.register engineId ar)
  | .fromEngine c msg raises => some (.fromEngine c msg raises)
  | .disconnectEngine c => some (.remove c)

/-- Each step of the server is one step of the dispatcher or none. -/
theorem step_dispatcher {a : Action} (h : step cfg s a = some s') :
    match a.dispatcher cfg s with
    | none => s'.dispatcher = s.dispatcher
    | some a' => Dispatcher.step cfg s.dispatcher a' = some s'.dispatcher := by
  cases a with
  | connect address => cases h; rfl
  | disconnect address => cases h; rfl
  | registerEngine engineId ar =>
    cases h
    simp [Action.dispatcher, Dispatcher.step, Server.addEngineWorker_dispatcher]
  | fromEngine c msg raises =>
    simp only [step] at h
    split at h
    · cases h
      simp [Action.dispatcher, Dispatcher.step, Server.handleFromEngine_dispatcher, *]
    · cases h
  | disconnectEngine c =>
    simp only [step] at h
    split at h
    · cases h
      simp [Action.dispatcher, Dispatcher.step, Server.removeEngineWorker_dispatcher, *]
    · cases h
  | fromClient address msg order raising =>
    simp only [step] at h
    cases hget : s.frontend.clients.get? address with
    | none => rw [hget] at h; cases h
    | some ref =>
      rw [hget] at h
      simp only [Server.handleFromClient] at h
      simp only [Action.dispatcher, hget]
      revert h
      rcases s.frontend.consumerHelper cfg ref address msg with ⟨f, _ | _ | info⟩
      · rintro ⟨⟩; rfl
      · rintro ⟨⟩; rfl
      · simp only [Dispatcher.step]
        split
        · rcases s.dispatcher.processInputFromClient cfg msg.asInput address info order raising with
            ⟨d, _ | ⟨code, message⟩⟩
          · rintro ⟨⟩; rfl
          · cases code <;> (rintro ⟨⟩; rfl)
        · rintro ⟨⟩

/-- A run of the server is a run of the dispatcher; what the steps of the one satisfy, those of the other do. -/
theorem run_dispatcher {G : Server → Action → Prop} {H : Dispatcher → Dispatcher.Action → Prop}
    (hG : ∀ s a a', G s a → a.dispatcher cfg s = some a' → H s.dispatcher a') {as : List Action}
    (h : (machine cfg).RunWhere G as s) : ∃ as', (Dispatcher.machine cfg).RunWhere H as' s.dispatcher := by
  refine h.simulate Server.dispatcher (fun s a => a.dispatcher cfg s) rfl fun s a s' hGa hstep => ?_
  have hd := step_dispatcher hstep
  cases ha : a.dispatcher cfg s with
  | none => rw [ha] at hd; exact hd
  | some a' => rw [ha] at hd; exact ⟨hG s a a' hGa ha, hd⟩

/-- Which steps of the server are steps of the dispatcher. -/
inductive Projects (cfg : Config) (s : Server) : Action → Dispatcher.Action → Prop
  | input {address : Address} {ref : ClientRef} {msg : FromClient} {info : AnyProto} {order raising : List Context}
      (hclient : s.frontend.clients.get? address = some ref)
      (hforward : (s.frontend.consumerHelper cfg ref address msg).2 = .forward info) :
      Projects cfg s (.fromClient address msg order raising) (.input msg.asInput address info order raising)
  | register (engineId : String) (ar : Bool) : Projects cfg s (.registerEngine engineId ar) (.register engineId ar)
  | fromEngine (c : Context) (msg : FromEngine) (raises : Bool) :
      Projects cfg s (.fromEngine c msg raises) (.fromEngine c msg raises)
  | remove (c : Context) : Projects cfg s (.disconnectEngine c) (.remove c)

theorem dispatcher_cases {a : Action} {a' : Dispatcher.Action} (ha : a.dispatcher cfg s = some a') :
    Projects cfg s a a' := by
  cases a with
  | connect address => cases ha
  | disconnect address => cases ha
  | registerEngine engineId ar => cases ha; exact .register _ _
  | fromEngine c msg raises => cases ha; exact .fromEngine _ _ _
  | disconnectEngine c => cases ha; exact .remove _
  | fromClient address msg order raising =>
    simp only [Action.dispatcher] at ha
    split at ha
    · cases ha
    · split at ha
      · cases ha; exact .input ‹_› ‹_›
      · cases ha

/-- The steps of the dispatcher in a run of the server without failing writes have none either. -/
theorem writesSucceed_dispatcher {a : Action} {a' : Dispatcher.Action} (h : a.writesSucceed)
    (ha : a.dispatcher cfg s = some a') : a'.writesSucceed := by
  cases dispatcher_cases ha with
  | input _ _ => exact h
  | register _ _ => trivial
  | fromEngine _ _ _ => exact h
  | remove _ => trivial

end Atomic

end Gabriel
