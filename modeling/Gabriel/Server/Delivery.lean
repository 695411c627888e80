import Gabriel.Server.History
import Gabriel.Server.WellFormed

/-!
# Accepted inputs are neither dropped nor duplicated

Two independent records are kept.  `Queued` follows the queues: what was put into a queue is what was taken out of it
followed by what is still there, in the order of acceptance.  `Written` follows the streams of the engines.  The
second rests on one observation: if the in-flight input of a producer was written to an engine, then it is the last
input of that producer the engine was sent (`Written.latest_seen`), so the comparison of frame ids in
`send_next_input` cannot choose it again, whatever the frame ids are.
-/

namespace Gabriel

open DispatchLog

namespace Dispatcher

variable {cfg : Config} {d d' : Dispatcher} {c : Context} {p : String} {mp : MetadataPayload}

/-! ### The queues -/

/-- The queues hold what was enqueued and not yet dequeued, in the order of acceptance. -/
structure Queued (cfg : Config) (d : Dispatcher) : Prop where
  serial_lt : ∀ mp ∈ accepted d.log, mp.serial < d.nextSerial
  accepted_nodup : (accepted d.log).Nodup
  enqueued_sublist : ∀ p, (enqueued d.log p).Sublist (accepted d.log)
  enqueued_eq : ∀ p, enqueued d.log p = dequeued d.log p ++ (d.producer p).inputQueue
  size_le : ∀ p, (d.producer p).inputQueue.length ≤ cfg.sizeForQueues

namespace Queued

theorem init : Queued cfg {} where
  serial_lt := by simp
  accepted_nodup := by simp
  enqueued_sublist := by simp
  enqueued_eq p := by simp [producer]
  size_le p := by simp [producer]

/-- The inputs in a queue have been accepted. -/
theorem accepted_of_mem (h : Queued cfg d) (hmp : mp ∈ (d.producer p).inputQueue) : mp ∈ accepted d.log :=
  (h.enqueued_sublist p).subset (by rw [h.enqueued_eq]; exact List.mem_append_right _ hmp)

theorem queue_nodup (h : Queued cfg d) (p : String) : (d.producer p).inputQueue.Nodup := by
  have := h.accepted_nodup.sublist (h.enqueued_sublist p)
  rw [h.enqueued_eq] at this
  exact this.of_append_right

/-- Operations that leave the queues alone. -/
theorem of_eq (h : Queued cfg d) (ha : accepted d'.log = accepted d.log)
    (he : ∀ p, enqueued d'.log p = enqueued d.log p) (hd : ∀ p, dequeued d'.log p = dequeued d.log p)
    (hq : ∀ p, (d'.producer p).inputQueue = (d.producer p).inputQueue) (hs : d.nextSerial ≤ d'.nextSerial) :
    Queued cfg d' where
  serial_lt mp hmp := lt_of_lt_of_le (h.serial_lt mp (ha ▸ hmp)) hs
  accepted_nodup := ha ▸ h.accepted_nodup
  enqueued_sublist p := by rw [he, ha]; exact h.enqueued_sublist p
  enqueued_eq p := by rw [he, hd, hq]; exact h.enqueued_eq p
  size_le p := by rw [hq]; exact h.size_le p

theorem gotResult (h : Queued cfg d) (r : Result) : Queued cfg (d.emit (.gotResult c r)) :=
  h.of_eq (by simp) (by simp) (by simp) (fun _ => rfl) le_rfl

theorem beginInput (h : Queued cfg d) (targets : List Context) : Queued cfg (d.beginInput p targets) :=
  h.of_eq (by simp) (by simp) (by simp) (by simp) (by simp)

theorem modifyWorker (h : Queued cfg d) (f : EngineWorker → EngineWorker) : Queued cfg (d.modifyWorker c f) :=
  h.of_eq rfl (fun _ => rfl) (fun _ => rfl) (fun _ => rfl) le_rfl

theorem sendPayload (h : Queued cfg d) (b : Bool) : Queued cfg (d.sendPayload c mp b) := by
  cases b <;> exact h.of_eq (by simp) (by simp) (by simp) (by simp) (by simp)

theorem dequeue {rest : List MetadataPayload} (h : Queued cfg d) (hq : (d.producer p).inputQueue = mp :: rest) :
    Queued cfg (d.dequeue p mp rest) where
  serial_lt := by simpa using h.serial_lt
  accepted_nodup := by simpa using h.accepted_nodup
  enqueued_sublist := by simpa using h.enqueued_sublist
  enqueued_eq q := by
    have := h.enqueued_eq q
    by_cases hqp : p = q
    · subst hqp; simp [this, hq]
    · simp [this, hqp, Ne.symm hqp]
  size_le q := by
    have := h.size_le q
    rw [dequeue_inputQueue]
    split
    · rename_i hqp
      rw [hqp, hq, List.length_cons] at this
      omega
    · exact this

theorem sendNextInput (h : Queued cfg d) (b : Bool) : Queued cfg (d.sendNextInput c b).1 := by
  generalize hr : d.sendNextInput c b = r
  cases sendNextInput_cases hr with
  | none => exact (h.modifyWorker _).modifyWorker _
  | dequeued k hp hpend hq => exact ((h.modifyWorker _).dequeue hq).sendPayload b
  | pickedUp => exact (h.modifyWorker _).sendPayload b

theorem release (h : Queued cfg d) (origin : Origin) (token : Bool) (result : Result) :
    Queued cfg (d.release origin mp token result) :=
  h.of_eq (by simp) (by simp) (by simp) (by simp) le_rfl

theorem answered {k : Nat} {result : Result} {m : Option Metadata} {ans : Answer} (h : Queued cfg d)
    (hans : Answered d c k result m (d', ans)) : Queued cfg d' := by
  cases hans with
  | noMetadata => exact h
  | noProducer => exact h
  | token => exact h.release _ _ _
  | copy => exact h.of_eq (by simp) (by simp) (by simp) (fun _ => rfl) le_rfl
  | next => exact h

theorem removeEngineWorker (h : Queued cfg d) : Queued cfg (d.removeEngineWorker c) := by
  have hbegun : Queued cfg (d.beginRemoval c).1 := by
    generalize hr : d.beginRemoval c = r
    cases beginRemoval_cases hr with
    | silent => exact h
    | released => exact h.release _ _ _
  exact hbegun.of_eq (by simp) (by simp) (by simp) (by simp) (by simp)

theorem openContext (h : Queued cfg d) : Queued cfg d.openContext :=
  h.of_eq rfl (fun _ => rfl) (fun _ => rfl) (fun _ => rfl) le_rfl

theorem insertWorker (h : Queued cfg d) (id : String) (ar : Bool) : Queued cfg (d.insertWorker c id ar) :=
  h.of_eq rfl (fun _ => rfl) (fun _ => rfl) (fun _ => rfl) le_rfl

/-- A new input is accepted at the end of its handler. -/
theorem concludeInput (h : Queued cfg d) (hnew : mp.serial < d.nextSerial) (hmp : mp ∉ accepted d.log) (b : Bool) :
    Queued cfg (d.concludeInput cfg mp b).1 := by
  have hserial : ∀ x ∈ accepted d.log ++ [mp], x.serial < d.nextSerial := by
    intro x hx
    rcases List.mem_append.1 hx with hx | hx
    · exact h.serial_lt x hx
    · rw [List.mem_singleton.1 hx]; exact hnew
  have hnodup : (accepted d.log ++ [mp]).Nodup := by simpa using h.accepted_nodup.concat hmp
  generalize hr : d.concludeInput cfg mp b = r
  cases concludeInput_cases hr with
  | dropped => exact h
  | inFlight =>
    refine ⟨by simpa using hserial, by simpa using hnodup, fun q => ?_, by simpa using h.enqueued_eq,
      by simpa using h.size_le⟩
    simpa using (h.enqueued_sublist q).trans (List.sublist_append_left _ _)
  | enqueued hroom =>
    refine ⟨by simpa using hserial, by simpa using hnodup, fun q => ?_, fun q => ?_, fun q => ?_⟩
    · by_cases hq : mp.producerId = q
      · simpa [hq] using (h.enqueued_sublist q).append (List.Sublist.refl [mp])
      · simpa [hq] using (h.enqueued_sublist q).trans (List.sublist_append_left _ _)
    · have := h.enqueued_eq q
      by_cases hq : mp.producerId = q
      · subst hq; simp [this]
      · simp [this, hq, Ne.symm hq]
    · have := h.size_le q
      rw [emit_producer, enqueue_inputQueue]
      split
      · rename_i hq
        subst hq
        rw [List.length_append, List.length_singleton]
        omega
      · exact this

end Queued

/-! ### The streams of the engines -/

/-- No engine is sent an input twice; `latest_seen` is what excludes it.  While an input of a producer is being
dispatched the last two fields need not hold for that producer, so they are about the producers in `S`. -/
structure WrittenFor (S : String → Prop) (d : Dispatcher) : Prop where
  serial_lt : ∀ c, ∀ mp ∈ writtenTo d.log c, mp.serial < d.nextSerial
  context_lt : ∀ c, writtenTo d.log c ≠ [] → c < d.nextContext
  nodup : ∀ c, (writtenTo d.log c).Nodup
  queue_unwritten : ∀ p, ∀ mp ∈ (d.producer p).inputQueue, ∀ c, mp ∉ writtenTo d.log c
  latest_written : ∀ p, S p → ∀ mp, (d.producer p).latestInputSentToEngine = some mp →
    ∃ c, mp ∈ writtenTo d.log c
  latest_seen : ∀ p, S p → ∀ mp c, (d.producer p).latestInputSentToEngine = some mp → mp ∈ writtenTo d.log c →
    (d.workers c).latestInputProcessed p = some mp.metadata

abbrev Written : Dispatcher → Prop := WrittenFor fun _ => True

/-- Every engine that was sent `mp` has been sent nothing newer of its producer. -/
def Seen (d : Dispatcher) (mp : MetadataPayload) : Prop :=
  ∀ c, mp ∈ writtenTo d.log c → (d.workers c).latestInputProcessed mp.producerId = some mp.metadata

namespace WrittenFor

variable {S S' : String → Prop}

theorem init : WrittenFor S {} where
  serial_lt := by simp
  context_lt := by simp
  nodup := by simp
  queue_unwritten := by simp
  latest_written p _ mp h := by simp [producer] at h
  latest_seen := by simp

theorem mono (h : WrittenFor S d) (hS : ∀ p, S' p → S p) : WrittenFor S' d :=
  { h with
    latest_written := fun p hp => h.latest_written p (hS p hp)
    latest_seen := fun p hp => h.latest_seen p (hS p hp) }

/-- Operations that write nothing. -/
theorem of_eq (h : WrittenFor S d) (hw : ∀ c, writtenTo d'.log c = writtenTo d.log c)
    (hq : ∀ p, (d'.producer p).inputQueue ⊆ (d.producer p).inputQueue)
    (hl : ∀ p, S p → (d'.producer p).latestInputSentToEngine = (d.producer p).latestInputSentToEngine)
    (hs : d.nextSerial ≤ d'.nextSerial) (hn : d.nextContext ≤ d'.nextContext)
    (hp : ∀ c p, writtenTo d.log c ≠ [] →
      (d'.workers c).latestInputProcessed p = (d.workers c).latestInputProcessed p) : WrittenFor S d' where
  serial_lt c mp hmp := lt_of_lt_of_le (h.serial_lt c mp (hw c ▸ hmp)) hs
  context_lt c hc := lt_of_lt_of_le (h.context_lt c (hw c ▸ hc)) hn
  nodup c := hw c ▸ h.nodup c
  queue_unwritten p mp hmp c := by rw [hw]; exact h.queue_unwritten p mp (hq p hmp) c
  latest_written p hS mp hmp := by
    simp only [hw]
    exact h.latest_written p hS mp (hl p hS ▸ hmp)
  latest_seen p hS mp c hmp hc := by
    rw [hw] at hc
    rw [hp c p (List.ne_nil_of_mem hc)]
    exact h.latest_seen p hS mp c (hl p hS ▸ hmp) hc

theorem gotResult (h : WrittenFor S d) (r : Result) : WrittenFor S (d.emit (.gotResult c r)) :=
  h.of_eq (by simp) (fun _ _ => id) (fun _ _ => rfl) le_rfl le_rfl (fun _ _ _ => rfl)

theorem beginInput (h : WrittenFor S d) (targets : List Context) : WrittenFor S (d.beginInput p targets) :=
  h.of_eq (by simp) (by simp) (by simp) (by simp) (by simp) (by simp)

/-- Operations on a worker that do not send it anything. -/
theorem modifyWorker (h : WrittenFor S d) {f : EngineWorker → EngineWorker}
    (hf : (f (d.workers c)).latestInputProcessed = (d.workers c).latestInputProcessed) :
    WrittenFor S (d.modifyWorker c f) := by
  refine h.of_eq (fun _ => rfl) (fun _ _ => id) (fun _ _ => rfl) le_rfl le_rfl fun c' _ _ => ?_
  by_cases hc : c' = c
  · subst hc; simp [hf]
  · simp [hc]

theorem release (h : WrittenFor S d) (origin : Origin) (token : Bool) (result : Result) :
    WrittenFor S (d.release origin mp token result) :=
  h.of_eq (by simp) (by simp) (by simp) le_rfl le_rfl (fun _ _ _ => rfl)

theorem answered {k : Nat} {result : Result} {m : Option Metadata} {ans : Answer} (h : WrittenFor S d)
    (hans : Answered d c k result m (d', ans)) : WrittenFor S d' := by
  cases hans with
  | noMetadata => exact h
  | noProducer => exact h
  | token => exact h.release _ _ _
  | copy => exact h.of_eq (by simp) (fun _ _ => id) (fun _ _ => rfl) le_rfl le_rfl (fun _ _ _ => rfl)
  | next => exact h

theorem removeEngineWorker (h : WrittenFor S d) : WrittenFor S (d.removeEngineWorker c) := by
  have hbegun : WrittenFor S (d.beginRemoval c).1 := by
    generalize hr : d.beginRemoval c = r
    cases beginRemoval_cases hr with
    | silent => exact h
    | released => exact h.release _ _ _
  exact hbegun.of_eq (by simp) (by simp) (by simp) (by simp) (by simp) (by simp)

theorem openContext (h : WrittenFor S d) : WrittenFor S d.openContext :=
  h.of_eq (fun _ => rfl) (fun _ _ => id) (fun _ _ => rfl) le_rfl (Nat.le_succ _) (fun _ _ _ => rfl)

theorem insertWorker (h : WrittenFor S d) (hc : writtenTo d.log c = []) (id : String) (ar : Bool) :
    WrittenFor S (d.insertWorker c id ar) := by
  refine h.of_eq (fun _ => rfl) (fun _ _ hx => hx) (fun _ _ => rfl) le_rfl le_rfl fun c' _ hne => ?_
  have hcc : c' ≠ c := fun he => hne (he ▸ hc)
  simp [hcc]

end WrittenFor

theorem writtenTo_removeEngineWorker (c' : Context) :
    writtenTo (d.removeEngineWorker c).log c' = writtenTo d.log c' := by
  rw [removeEngineWorker_log]
  generalize hr : d.beginRemoval c = r
  cases beginRemoval_cases hr <;> simp

/-! ### Sending an input -/

theorem writtenTo_sendPayload (c' : Context) : writtenTo (d.sendPayload c mp true).log c' =
    if c' = c then writtenTo d.log c' ++ [mp] else writtenTo d.log c' := by
  by_cases hc : c' = c
  · subst hc; simp
  · have hc' : c ≠ c' := fun he => hc he.symm
    simp [hc, hc']

theorem mem_writtenTo_sendPayload {c' : Context} {x : MetadataPayload} :
    x ∈ writtenTo (d.sendPayload c mp true).log c' ↔ x ∈ writtenTo d.log c' ∨ (c' = c ∧ x = mp) := by
  rw [writtenTo_sendPayload]
  split <;> simp_all

theorem Seen.sendPayload (h : Seen d mp) : Seen (d.sendPayload c mp true) mp := by
  intro c' hc'
  by_cases hcc : c' = c
  · subst hcc; simp
  · rcases mem_writtenTo_sendPayload.1 hc' with hc' | ⟨he, -⟩
    · simpa [hcc] using h c' hc'
    · exact absurd he hcc

/-- An input that waits nowhere is sent to an engine it was not sent to before. -/
theorem WrittenFor.sendPayload (h : WrittenFor (· ≠ mp.producerId) d) (hwf : WellFormed d) (hc : c < d.nextContext)
    (hnew : mp ∉ writtenTo d.log c) (hqueue : ∀ p, mp ∉ (d.producer p).inputQueue)
    (hserial : mp.serial < d.nextSerial) :
    WrittenFor (· ≠ mp.producerId) (d.sendPayload c mp true) where
  serial_lt c' x hx := by
    rcases mem_writtenTo_sendPayload.1 hx with hx | ⟨-, rfl⟩
    · simpa using h.serial_lt c' x hx
    · simpa using hserial
  context_lt c' hc' := by
    rw [writtenTo_sendPayload] at hc'
    split at hc'
    · rename_i he; subst he; simpa using hc
    · simpa using h.context_lt c' hc'
  nodup c' := by
    rw [writtenTo_sendPayload]
    split
    · rename_i he; subst he; simpa using (h.nodup c').concat hnew
    · exact h.nodup c'
  queue_unwritten p x hx c' hc' := by
    rw [sendPayload_producer] at hx
    rcases mem_writtenTo_sendPayload.1 hc' with hc' | ⟨-, rfl⟩
    · exact h.queue_unwritten p x hx c' hc'
    · exact hqueue p hx
  latest_written p hp x hx := by
    rw [sendPayload_producer] at hx
    obtain ⟨c', hc'⟩ := h.latest_written p hp x hx
    exact ⟨c', mem_writtenTo_sendPayload.2 (Or.inl hc')⟩
  latest_seen p hp x c' hx hc' := by
    rw [sendPayload_producer] at hx
    rcases mem_writtenTo_sendPayload.1 hc' with hc' | ⟨-, rfl⟩
    · have := h.latest_seen p hp x c' hx hc'
      by_cases hcc : c' = c
      · subst hcc; simpa [hp] using this
      · simpa [hcc] using this
    · exact absurd (hwf.latest_named p x hx).symm hp

/-- The input just sent is the in-flight input of its producer. -/
theorem WrittenFor.settle (h : WrittenFor (· ≠ mp.producerId) d)
    (hlatest : (d.producer mp.producerId).latestInputSentToEngine = some mp) (hseen : Seen d mp)
    (hsent : mp ∈ writtenTo d.log c) : Written d :=
  { h with
    latest_written := fun p _ x hx => by
      by_cases hp : p = mp.producerId
      · subst hp
        obtain rfl : mp = x := by rw [hlatest] at hx; exact Option.some.inj hx
        exact ⟨c, hsent⟩
      · exact h.latest_written p hp x hx
    latest_seen := fun p _ x c' hx hc' => by
      by_cases hp : p = mp.producerId
      · subst hp
        obtain rfl : mp = x := by rw [hlatest] at hx; exact Option.some.inj hx
        exact hseen c' hc'
      · exact h.latest_seen p hp x c' hx hc' }

theorem WrittenFor.sendNextInput (h : Written d) (hwf : WellFormed d) (hqueued : Queued cfg d)
    (hc : c ∈ d.engineWorkers) : Written (d.sendNextInput c true).1 := by
  have hrot : ∀ k, Written (d.modifyWorker c (·.rotateProducers k)) := fun k => h.modifyWorker rfl
  generalize hr : d.sendNextInput c true = r
  cases sendNextInput_cases hr with
  | none k => exact (hrot k).modifyWorker rfl
  | @dequeued k p mp rest hp hpend hq =>
    have hname : mp.producerId = p := hwf.queue_named p mp (by rw [hq]; simp)
    subst hname
    have hun : ∀ c', mp ∉ writtenTo d.log c' := h.queue_unwritten _ mp (by rw [hq]; simp)
    have hdeq : WrittenFor (· ≠ mp.producerId)
        ((d.modifyWorker c (·.rotateProducers k)).dequeue mp.producerId mp rest) := by
      refine ((hrot k).mono (fun _ _ => trivial)).of_eq (by simp) (fun q x hx => ?_) (fun q hq => by simp [hq])
        le_rfl le_rfl (fun _ _ _ => rfl)
      rw [dequeue_inputQueue] at hx
      split at hx
      · rename_i hqp
        rw [hqp, modifyWorker_producer, hq]
        exact List.mem_cons_of_mem _ hx
      · exact hx
    have hnodup := hqueued.queue_nodup mp.producerId
    rw [hq] at hnodup
    refine WrittenFor.settle (c := c) (hdeq.sendPayload ((hwf.modifyWorker _).dequeue hq)
      (by simpa using hwf.workers_lt c hc) (by simpa using hun c) (fun q hx => ?_) ?_) (by simp) ?_ ?_
    · by_cases hqp : q = mp.producerId
      · subst hqp; exact (List.nodup_cons.1 hnodup).1 (by simpa using hx)
      · exact hqp (hwf.queue_named q mp (by simpa [hqp] using hx)).symm
    · simpa using hqueued.serial_lt mp (hqueued.accepted_of_mem (by rw [hq]; simp))
    · exact Seen.sendPayload fun c' hc' => absurd (by simpa using hc') (hun c')
    · exact mem_writtenTo_sendPayload.2 (Or.inr ⟨rfl, rfl⟩)
  | @pickedUp k p mp m hp hidle hlatest hprev hlt =>
    have hname : mp.producerId = p := hwf.latest_named p mp hlatest
    subst hname
    obtain ⟨c', hc'⟩ := h.latest_written _ trivial mp hlatest
    -- `c` was last sent an older frame, so it was not sent this one
    have hnew : mp ∉ writtenTo d.log c := fun hmem => by
      have := h.latest_seen _ trivial mp c hlatest hmem
      rw [hprev] at this
      rw [Option.some.inj this] at hlt
      exact lt_irrefl _ hlt
    have hseen : Seen (d.modifyWorker c (·.rotateProducers k)) mp := fun c'' hc'' =>
      (hrot k).latest_seen _ trivial mp c'' hlatest hc''
    refine WrittenFor.settle (c := c) (((hrot k).mono (fun _ _ => trivial)).sendPayload (hwf.modifyWorker _)
      (hwf.workers_lt c hc) hnew (fun q hx => h.queue_unwritten q mp hx c' hc') (h.serial_lt c' mp hc'))
      (by simpa using hlatest) hseen.sendPayload (mem_writtenTo_sendPayload.2 (Or.inr ⟨rfl, rfl⟩))

/-! ### Accepted inputs -/

/-- Accepted inputs wait in their queue or have been written. -/
def Kept (d : Dispatcher) : Prop :=
  ∀ mp ∈ accepted d.log, mp ∈ (d.producer mp.producerId).inputQueue ∨ ∃ c, mp ∈ writtenTo d.log c

theorem Kept.of_subset (h : Kept d) (ha : accepted d'.log ⊆ accepted d.log)
    (hq : ∀ p, ∀ mp ∈ (d.producer p).inputQueue, mp ∈ (d'.producer p).inputQueue ∨ ∃ c, mp ∈ writtenTo d'.log c)
    (hw : ∀ c, writtenTo d.log c ⊆ writtenTo d'.log c) : Kept d' := by
  intro mp hmp
  rcases h mp (ha hmp) with hmp | ⟨c, hc⟩
  · exact hq _ mp hmp
  · exact Or.inr ⟨c, hw c hc⟩

theorem Kept.sendNextInput (h : Kept d) : Kept (d.sendNextInput c true).1 := by
  generalize hr : d.sendNextInput c true = r
  cases sendNextInput_cases hr with
  | none => exact h.of_subset (fun _ => id) (fun _ _ hx => Or.inl hx) (fun _ _ => id)
  | pickedUp => exact h.of_subset (by simp) (fun _ _ hx => Or.inl (by simpa using hx)) (by simp)
  | @dequeued k p mp rest hp hpend hq =>
    refine h.of_subset (by simp) (fun q x hx => ?_) (by simp)
    by_cases hqp : q = p
    · subst hqp
      rw [hq] at hx
      rcases List.mem_cons.1 hx with rfl | hx
      · exact Or.inr ⟨c, mem_writtenTo_sendPayload.2 (Or.inr ⟨rfl, rfl⟩)⟩
      · exact Or.inl (by simpa using hx)
    · exact Or.inl (by simpa [hqp] using hx)

theorem Kept.answered {k : Nat} {result : Result} {m : Option Metadata} {ans : Answer} (h : Kept d)
    (hans : Answered d c k result m (d', ans)) : Kept d' := by
  refine h.of_subset ?_ (fun q x hx => Or.inl (by rwa [hans.inputQueue])) ?_
  all_goals cases hans <;> simp

theorem Kept.removeEngineWorker (h : Kept d) : Kept (d.removeEngineWorker c) := by
  refine h.of_subset ?_ (fun q x hx => Or.inl (by simpa using hx))
    fun c' _ hx => by rwa [writtenTo_removeEngineWorker]
  rw [removeEngineWorker_log]
  generalize hr : d.beginRemoval c = r
  cases beginRemoval_cases hr <;> simp

/-! ### The dispatch loop -/

/-- The state of the dispatch loop of the new input `mp` with the targets `rest` still to come. -/
private structure Dispatching (cfg : Config) (mp : MetadataPayload) (rest : List Context) (d : Dispatcher)
    (busy : Bool) : Prop where
  wellFormed : WellFormed d
  queued : Queued cfg d
  written : WrittenFor (fun p => p ≠ mp.producerId ∨ busy = true) d
  seen : Seen d mp
  fresh : mp.serial + 1 = d.nextSerial
  unaccepted : mp ∉ accepted d.log
  rest_nodup : rest.Nodup
  rest_connected : ∀ c ∈ rest, c ∈ d.engineWorkers
  rest_unwritten : ∀ c ∈ rest, mp ∉ writtenTo d.log c
  unsent : busy = true → ∀ c, mp ∉ writtenTo d.log c
  sent : busy = false → ∃ c, mp ∈ writtenTo d.log c
  kept : Kept d

private theorem Dispatching.addProducer {rest : List Context} {b : Bool} (h : Dispatching cfg mp (c :: rest) d b) :
    Dispatching cfg mp rest (d.addProducer c mp.producerId) b where
  wellFormed := h.wellFormed.modifyWorker _
  queued := h.queued.modifyWorker _
  written := h.written.modifyWorker (by simp)
  seen c' hc' := by
    have := h.seen c' hc'
    by_cases hcc : c' = c
    · subst hcc; simpa using this
    · simpa [hcc] using this
  fresh := h.fresh
  unaccepted := h.unaccepted
  rest_nodup := h.rest_nodup.of_cons
  rest_connected c' hc' := h.rest_connected c' (List.mem_cons_of_mem _ hc')
  rest_unwritten c' hc' := h.rest_unwritten c' (List.mem_cons_of_mem _ hc')
  unsent := h.unsent
  sent := h.sent
  kept := h.kept

private theorem Dispatching.send {rest : List Context} {b : Bool} (h : Dispatching cfg mp (c :: rest) d b) :
    Dispatching cfg mp rest ((d.addProducer c mp.producerId).sendPayload c mp true) false := by
  have h' := h.addProducer
  have hqueue : ∀ p, mp ∉ ((d.addProducer c mp.producerId).producer p).inputQueue := fun p hx =>
    h'.unaccepted (h'.queued.accepted_of_mem hx)
  refine ⟨h'.wellFormed.sendPayload true, h'.queued.sendPayload true, ?_, h'.seen.sendPayload, by simpa using h'.fresh,
    by simpa using h'.unaccepted, h'.rest_nodup, by simpa using h'.rest_connected, fun c' hc' hmem => ?_, by simp,
    fun _ => ⟨c, mem_writtenTo_sendPayload.2 (Or.inr ⟨rfl, rfl⟩)⟩,
    h'.kept.of_subset (by simp) (fun q x hx => Or.inl (by simpa using hx)) (by simp)⟩
  · have hsend := (h'.written.mono (fun p (hp : p ≠ mp.producerId) => Or.inl hp)).sendPayload h'.wellFormed
      (h'.wellFormed.workers_lt c (h.rest_connected c (List.mem_cons_self ..)))
      (h.rest_unwritten c (List.mem_cons_self ..)) hqueue (by have := h'.fresh; omega)
    exact hsend.mono (fun p hp => by simpa using hp)
  · rcases mem_writtenTo_sendPayload.1 hmem with hmem | ⟨rfl, -⟩
    · exact h'.rest_unwritten c' hc' hmem
    · exact (List.nodup_cons.1 h.rest_nodup).1 hc'

private theorem Dispatching.conclude {b : Bool} (h : Dispatching cfg mp [] d b) :
    Written (d.concludeInput cfg mp b).1 := by
  generalize hr : d.concludeInput cfg mp b = r
  cases concludeInput_cases hr with
  | dropped => exact h.written.mono (fun _ _ => Or.inr rfl)
  | inFlight =>
    obtain ⟨c, hc⟩ := h.sent rfl
    have hset : WrittenFor (· ≠ mp.producerId) ((d.setInFlight mp).emit (.accepted mp)) :=
      (h.written.mono (fun _ hp => Or.inl hp)).of_eq (by simp) (by simp) (fun q hq => by simp [hq]) le_rfl le_rfl
        (fun _ _ _ => rfl)
    exact hset.settle (c := c) (by simp) (fun c' hc' => h.seen c' (by simpa using hc')) (by simpa using hc)
  | enqueued =>
    have hwritten : Written d := h.written.mono (fun _ _ => Or.inr rfl)
    refine ⟨by simpa using hwritten.serial_lt, by simpa using hwritten.context_lt, by simpa using hwritten.nodup,
      fun q x hx c hc => ?_, by simpa using hwritten.latest_written, by simpa using hwritten.latest_seen⟩
    have hc' : x ∈ writtenTo d.log c := by simpa using hc
    rw [emit_producer, enqueue_inputQueue] at hx
    split at hx
    · rcases List.mem_append.1 hx with hx | hx
      · exact hwritten.queue_unwritten q x hx c hc'
      · rw [List.mem_singleton.1 hx] at hc'
        exact h.unsent rfl c hc'
    · exact hwritten.queue_unwritten q x hx c hc'

private theorem Dispatching.concludeKept {b : Bool} (h : Dispatching cfg mp [] d b) :
    Kept (d.concludeInput cfg mp b).1 := by
  generalize hr : d.concludeInput cfg mp b = r
  cases concludeInput_cases hr with
  | dropped => exact h.kept
  | inFlight =>
    intro x hx
    rcases List.mem_append.1 (by simpa using hx : x ∈ accepted d.log ++ [mp]) with hx | hx
    · simpa using h.kept x hx
    · rw [List.mem_singleton.1 hx]
      exact Or.inr (by simpa using h.sent rfl)
  | enqueued =>
    intro x hx
    rcases List.mem_append.1 (by simpa using hx : x ∈ accepted d.log ++ [mp]) with hx | hx
    · refine (h.kept x hx).imp (fun hx => ?_) (fun hx => by simpa using hx)
      rw [emit_producer, enqueue_inputQueue]
      split
      · exact List.mem_append_left _ hx
      · exact hx
    · rw [List.mem_singleton.1 hx]
      exact Or.inl (by simp)

/-! ### Steps and runs -/

/-- The whole record. -/
structure Delivered (cfg : Config) (d : Dispatcher) : Prop where
  wellFormed : WellFormed d
  queued : Queued cfg d
  written : Written d
  kept : Kept d

private theorem Dispatching.delivered {b : Bool} (h : Dispatching cfg mp [] d b) :
    Delivered cfg (d.concludeInput cfg mp b).1 :=
  ⟨h.wellFormed.concludeInput b, h.queued.concludeInput (by have := h.fresh; omega) h.unaccepted b, h.conclude,
    h.concludeKept⟩

private theorem Delivered.dispatching {input : Input} {address : Address} {info : AnyProto} {order : List Context}
    (h : Delivered cfg d) (hperm : order.Perm (d.targetEngines input.targetEngineIds)) :
    Dispatching cfg (d.metadataPayload input address info) order
      (d.beginInput input.producerId (d.targetEngines input.targetEngineIds)) true := by
  have hold : ∀ {x : MetadataPayload}, x.serial < d.nextSerial → x ≠ d.metadataPayload input address info := by
    rintro x hx rfl
    exact lt_irrefl _ hx
  have hun : ∀ c, d.metadataPayload input address info ∉ writtenTo d.log c := fun c hc =>
    hold (h.written.serial_lt c _ hc) rfl
  refine ⟨h.wellFormed.beginInput _, h.queued.beginInput _,
    (h.written.mono (fun _ _ => trivial)).beginInput _, fun c hc => absurd (by simpa using hc) (hun c),
    by simp [metadataPayload],
    fun hx => hold (h.queued.serial_lt _ (by simpa using hx)) rfl,
    hperm.nodup_iff.2 (h.wellFormed.workers_nodup.filter _),
    fun c hc => by simpa using (mem_targetEngines.1 (hperm.mem_iff.1 hc)).1, fun c _ => by simpa using hun c,
    fun _ c => by simpa using hun c, by simp,
    h.kept.of_subset (by simp) (fun q x hx => Or.inl (by simpa using hx)) (by simp)⟩

theorem step_delivered {a : Action} (h : Delivered cfg d) (ha : a.writesSucceed)
    (hstep : step cfg d a = some d') : Delivered cfg d' := by
  have hwf := step_wellFormed h.wellFormed hstep
  cases step_cases hstep with
  | noTarget =>
    exact ⟨hwf, h.queued.beginInput _, h.written.beginInput _,
      h.kept.of_subset (by simp) (fun q x hx => Or.inl (by simpa using hx)) (by simp)⟩
  | raised hperm hne he =>
    obtain rfl := ha
    exact absurd rfl (raising_of_dispatchAll he)
  | dispatched hperm hne he =>
    obtain rfl := ha
    have hloop := dispatchAll_ind (fun _ _ _ _ hd _ => hd.addProducer)
      (fun _ _ _ _ hd _ => by simpa using hd.send) (h.dispatching hperm) he
    exact (hloop.1 _ rfl).delivered
  | registered old hold =>
    have hempty : writtenTo d.log d.nextContext = [] := by
      by_contra hne
      exact lt_irrefl _ (h.written.context_lt _ hne)
    cases old with
    | none => exact ⟨hwf, h.queued.openContext.insertWorker _ _, h.written.openContext.insertWorker hempty _ _, h.kept⟩
    | some v =>
      have hempty' : writtenTo (d.openContext.removeEngineWorker v).log d.nextContext = [] := by
        rw [writtenTo_removeEngineWorker]; exact hempty
      have hkept : Kept (d.openContext.removeEngineWorker v) := Kept.removeEngineWorker (d := d.openContext) h.kept
      exact ⟨hwf, h.queued.openContext.removeEngineWorker.insertWorker _ _,
        h.written.openContext.removeEngineWorker.insertWorker hempty' _ _, hkept⟩
  | ignored => exact h
  | unregistered => exact ⟨hwf, h.queued.gotResult _, h.written.gotResult _, by simpa [Kept] using h.kept⟩
  | unanswered => exact ⟨hwf, h.queued.gotResult _, h.written.gotResult _, by simpa [Kept] using h.kept⟩
  | @answered c msg raises m d₁ ans hc hm hans hgo =>
    obtain rfl : raises = false := ha
    have hkept : Kept (d.emit (.gotResult c msg.asResult)) := by simpa [Kept] using h.kept
    have hwf₁ := (h.wellFormed.emit _).answered hans
    have hqueued₁ := (h.queued.gotResult _).answered hans
    rw [feedEngine_false]
    refine ⟨hwf₁.sendNextInput true, hqueued₁.sendNextInput true, ?_, (hkept.answered hans).sendNextInput⟩
    exact ((h.written.gotResult _).answered hans).sendNextInput hwf₁ hqueued₁ (by rw [hans.engineWorkers]; exact hc)
  | removed => exact ⟨hwf, h.queued.removeEngineWorker, h.written.removeEngineWorker, h.kept.removeEngineWorker⟩

theorem run_delivered {as : List Action} (h : (machine cfg).RunWhere (fun _ a => a.writesSucceed) as d) :
    Delivered cfg d :=
  h.invariant (I := Delivered cfg) ⟨.init, .init, .init, by simp [Kept, machine]⟩ fun _ _ _ hI ha hstep =>
    step_delivered hI ha hstep

end Dispatcher

namespace Atomic

variable {cfg : Config} {s : Server}

/-- In every state of the server with atomic handlers whose writes succeed: an accepted input waits in its queue or
has been written to an engine; no engine was sent an input twice; what was put into a queue are different accepted
inputs in the order of acceptance, and it is what was taken out of the queue followed by what is still there; and no
queue is longer than `sizeForQueues`. -/
theorem accepted_inputs_delivered {as : List Action} (h : (machine cfg).RunWhere (fun _ a => a.writesSucceed) as s) :
    (∀ mp ∈ accepted s.dispatcher.log, mp ∈ (s.dispatcher.producer mp.producerId).inputQueue ∨
      ∃ c, mp ∈ writtenTo s.dispatcher.log c) ∧
    (∀ c, (writtenTo s.dispatcher.log c).Nodup) ∧
    (∀ p, (enqueued s.dispatcher.log p).Nodup ∧
      (enqueued s.dispatcher.log p).Sublist (accepted s.dispatcher.log) ∧
      enqueued s.dispatcher.log p = dequeued s.dispatcher.log p ++ (s.dispatcher.producer p).inputQueue) ∧
    ∀ p, (s.dispatcher.producer p).inputQueue.length ≤ cfg.sizeForQueues := by
  obtain ⟨as', hrun⟩ : ∃ as', (Dispatcher.machine cfg).RunWhere (fun _ a => a.writesSucceed) as' s.dispatcher :=
    run_dispatcher (fun _ _ _ => writesSucceed_dispatcher) h
  have hdel := Dispatcher.run_delivered hrun
  refine ⟨hdel.kept, hdel.written.nodup, fun p => ?_, hdel.queued.size_le⟩
  exact ⟨hdel.queued.accepted_nodup.sublist (hdel.queued.enqueued_sublist p), hdel.queued.enqueued_sublist p,
    hdel.queued.enqueued_eq p⟩

/-- Three frames of equal and decreasing frame ids: one is sent at once, two are queued, and a result fetches one. -/
theorem accepted_inputs_delivered_of_three_frames :
    ∃ as s, (machine { numTokensPerProducer := 3, sizeForQueues := 2 }).RunWhere (fun _ a => a.writesSucceed) as s ∧
      (accepted s.dispatcher.log).length = 3 ∧ (dequeued s.dispatcher.log "P").length = 1 ∧
      (s.dispatcher.producer "P").inputQueue.length = 1 ∧ (writtenTo s.dispatcher.log 0).Nodup := by
  obtain ⟨s, hrun, h⟩ := Machine.exists_runWhere
    (M := machine { numTokensPerProducer := 3, sizeForQueues := 2 }) (G := fun _ a => a.writesSucceed)
    (g := fun _ a => decide a.writesSucceed) (fun _ _ h => of_decide_eq_true h)
    (fun s => (accepted s.dispatcher.log).length = 3 ∧ (dequeued s.dispatcher.log "P").length = 1 ∧
      (s.dispatcher.producer "P").inputQueue.length = 1)
    [.connect "client", .registerEngine "A" false, .fromClient "client" (.registration {}) [] [],
      .fromClient "client" (.input { frameId := 7, producerId := "P", targetEngineIds := ["A"] }) [0] [],
      .fromClient "client" (.input { frameId := 7, producerId := "P", targetEngineIds := ["A"] }) [0] [],
      .fromClient "client" (.input { frameId := 3, producerId := "P", targetEngineIds := ["A"] }) [0] [],
      .fromEngine 0 (.result {}) false] (by decide)
  exact ⟨_, s, hrun, h.1, h.2.1, h.2.2, (accepted_inputs_delivered hrun).2.1 0⟩

end Atomic

end Gabriel
