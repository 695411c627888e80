import Gabriel.Server.Dispatcher

/-!
# What the dispatcher's operations do

For each operation of `Gabriel.Server.Dispatcher` the fields it leaves alone, and for those that choose what to do
one lemma that lists the possible outcomes (`sendNextInput_cases`, `answerResult_cases`, `beginRemoval_cases`,
`concludeInput_cases`).  Later proofs use these and do not unfold the operations.
-/

namespace Gabriel.Dispatcher

variable (d : Dispatcher) (c : Context) (p : String) (mp : MetadataPayload)

/-! ### Sending an input -/

@[simp] theorem addProducer_engineWorkers : (d.addProducer c p).engineWorkers = d.engineWorkers := rfl
@[simp] theorem addProducer_workers :
    (d.addProducer c p).workers = Function.update d.workers c ((d.workers c).addProducer p) := rfl
@[simp] theorem addProducer_engineIds : (d.addProducer c p).engineIds = d.engineIds := rfl
@[simp] theorem addProducer_producerInfos : (d.addProducer c p).producerInfos = d.producerInfos := rfl
@[simp] theorem addProducer_producer : (d.addProducer c p).producer = d.producer := rfl
@[simp] theorem addProducer_nextContext : (d.addProducer c p).nextContext = d.nextContext := rfl
@[simp] theorem addProducer_nextSerial : (d.addProducer c p).nextSerial = d.nextSerial := rfl
@[simp] theorem addProducer_log : (d.addProducer c p).log = d.log := rfl

section SendPayload

variable (b : Bool)

@[simp] theorem sendPayload_engineWorkers : (d.sendPayload c mp b).engineWorkers = d.engineWorkers := by
  cases b <;> rfl
@[simp] theorem sendPayload_workers :
    (d.sendPayload c mp b).workers = Function.update d.workers c ((d.workers c).takePayload mp) := by
  cases b <;> rfl
@[simp] theorem sendPayload_engineIds : (d.sendPayload c mp b).engineIds = d.engineIds := by cases b <;> rfl
@[simp] theorem sendPayload_producerInfos : (d.sendPayload c mp b).producerInfos = d.producerInfos := by
  cases b <;> rfl
@[simp] theorem sendPayload_producer : (d.sendPayload c mp b).producer = d.producer := by cases b <;> rfl
@[simp] theorem sendPayload_nextContext : (d.sendPayload c mp b).nextContext = d.nextContext := by
  cases b <;> rfl
@[simp] theorem sendPayload_nextSerial : (d.sendPayload c mp b).nextSerial = d.nextSerial := by cases b <;> rfl
@[simp] theorem sendPayload_log :
    (d.sendPayload c mp b).log = d.log ++ if b then [.wrote c mp.toEngine mp] else [] := by
  cases b <;> simp [sendPayload]

end SendPayload

section Dequeue

variable (rest : List MetadataPayload)

@[simp] theorem dequeue_engineWorkers : (d.dequeue p mp rest).engineWorkers = d.engineWorkers := rfl
@[simp] theorem dequeue_workers : (d.dequeue p mp rest).workers = d.workers := rfl
@[simp] theorem dequeue_engineIds : (d.dequeue p mp rest).engineIds = d.engineIds := rfl
@[simp] theorem dequeue_producerInfos : (d.dequeue p mp rest).producerInfos =
    Function.update d.producerInfos p (some { d.producer p with
      latestInputSentToEngine := some mp, pendingTokenReturn := true, inputQueue := rest }) := rfl
@[simp] theorem dequeue_inputQueue (q : String) : ((d.dequeue p mp rest).producer q).inputQueue =
    if q = p then rest else (d.producer q).inputQueue := by
  by_cases h : q = p <;> simp [dequeue, h]
@[simp] theorem dequeue_latestInputSentToEngine (q : String) :
    ((d.dequeue p mp rest).producer q).latestInputSentToEngine =
      if q = p then some mp else (d.producer q).latestInputSentToEngine := by
  by_cases h : q = p <;> simp [dequeue, h]
@[simp] theorem dequeue_pendingTokenReturn (q : String) :
    ((d.dequeue p mp rest).producer q).pendingTokenReturn =
      if q = p then true else (d.producer q).pendingTokenReturn := by
  by_cases h : q = p <;> simp [dequeue, h]
@[simp] theorem dequeue_nextContext : (d.dequeue p mp rest).nextContext = d.nextContext := rfl
@[simp] theorem dequeue_nextSerial : (d.dequeue p mp rest).nextSerial = d.nextSerial := rfl
@[simp] theorem dequeue_log : (d.dequeue p mp rest).log = d.log ++ [.dequeued p mp] := rfl

end Dequeue

section Enqueue

@[simp] theorem enqueue_engineWorkers : (d.enqueue mp).engineWorkers = d.engineWorkers := rfl
@[simp] theorem enqueue_workers : (d.enqueue mp).workers = d.workers := rfl
@[simp] theorem enqueue_engineIds : (d.enqueue mp).engineIds = d.engineIds := rfl
@[simp] theorem enqueue_inputQueue (q : String) : ((d.enqueue mp).producer q).inputQueue =
    if q = mp.producerId then (d.producer q).inputQueue ++ [mp] else (d.producer q).inputQueue := by
  by_cases h : q = mp.producerId
  · subst h; simp [enqueue]
  · simp [enqueue, h]
@[simp] theorem enqueue_latestInputSentToEngine (q : String) :
    ((d.enqueue mp).producer q).latestInputSentToEngine = (d.producer q).latestInputSentToEngine := by
  by_cases h : q = mp.producerId
  · subst h; simp [enqueue]
  · simp [enqueue, h]
@[simp] theorem enqueue_pendingTokenReturn (q : String) :
    ((d.enqueue mp).producer q).pendingTokenReturn = (d.producer q).pendingTokenReturn := by
  by_cases h : q = mp.producerId
  · subst h; simp [enqueue]
  · simp [enqueue, h]
@[simp] theorem enqueue_nextContext : (d.enqueue mp).nextContext = d.nextContext := rfl
@[simp] theorem enqueue_nextSerial : (d.enqueue mp).nextSerial = d.nextSerial := rfl
@[simp] theorem enqueue_log : (d.enqueue mp).log = d.log ++ [.enqueued mp.producerId mp] := rfl

end Enqueue

section SetInFlight

@[simp] theorem setInFlight_engineWorkers : (d.setInFlight mp).engineWorkers = d.engineWorkers := rfl
@[simp] theorem setInFlight_workers : (d.setInFlight mp).workers = d.workers := rfl
@[simp] theorem setInFlight_engineIds : (d.setInFlight mp).engineIds = d.engineIds := rfl
@[simp] theorem setInFlight_inputQueue (q : String) :
    ((d.setInFlight mp).producer q).inputQueue = (d.producer q).inputQueue := by
  by_cases h : q = mp.producerId
  · subst h; simp [setInFlight]
  · simp [setInFlight, h]
@[simp] theorem setInFlight_latestInputSentToEngine (q : String) :
    ((d.setInFlight mp).producer q).latestInputSentToEngine =
      if q = mp.producerId then some mp else (d.producer q).latestInputSentToEngine := by
  by_cases h : q = mp.producerId <;> simp [setInFlight, h]
@[simp] theorem setInFlight_pendingTokenReturn (q : String) :
    ((d.setInFlight mp).producer q).pendingTokenReturn =
      if q = mp.producerId then true else (d.producer q).pendingTokenReturn := by
  by_cases h : q = mp.producerId <;> simp [setInFlight, h]
@[simp] theorem setInFlight_producerInfos : (d.setInFlight mp).producerInfos =
    Function.update d.producerInfos mp.producerId (some { d.producer mp.producerId with
      latestInputSentToEngine := some mp, pendingTokenReturn := true }) := rfl
@[simp] theorem setInFlight_nextContext : (d.setInFlight mp).nextContext = d.nextContext := rfl
@[simp] theorem setInFlight_nextSerial : (d.setInFlight mp).nextSerial = d.nextSerial := rfl
@[simp] theorem setInFlight_log : (d.setInFlight mp).log = d.log := rfl

end SetInFlight

/-! ### `send_next_input` -/

/-- The producer `p` has an input for the worker `c`. -/
def Offers (d : Dispatcher) (c : Context) (p : String) : Prop :=
  ((d.producer p).pendingTokenReturn = false ∧ (d.producer p).inputQueue ≠ []) ∨ (d.pickUp c p).isSome

/-- The outcomes of the loop of `send_next_input`, for a worker `c` with the deque of producers `ps`. -/
inductive NextInput (d : Dispatcher) (c : Context) (ps : List String) : Dispatcher × Option MetadataPayload → Prop
  | none (k : Nat) : NextInput d c ps (d.modifyWorker c (·.rotateProducers k), none)
  | dequeued (k : Nat) {p : String} {mp : MetadataPayload} {rest : List MetadataPayload} (hp : p ∈ ps)
      (hpend : (d.producer p).pendingTokenReturn = false) (hq : (d.producer p).inputQueue = mp :: rest) :
      NextInput d c ps ((d.modifyWorker c (·.rotateProducers k)).dequeue p mp rest, some mp)
  | pickedUp (k : Nat) {p : String} {mp : MetadataPayload} {m : Metadata} (hp : p ∈ ps)
      (hidle : (d.producer p).pendingTokenReturn = true ∨ (d.producer p).inputQueue = [])
      (hlatest : (d.producer p).latestInputSentToEngine = some mp)
      (hprev : (d.workers c).latestInputProcessed p = some m) (hlt : m.frameId < mp.metadata.frameId) :
      NextInput d c ps (d.modifyWorker c (·.rotateProducers k), some mp)

theorem rotate_zero : d.modifyWorker c (·.rotateProducers 0) = d := by
  simp [modifyWorker, EngineWorker.rotateProducers]

theorem rotate_rotate (j k : Nat) :
    (d.modifyWorker c (·.rotateProducers j)).modifyWorker c (·.rotateProducers k) =
      d.modifyWorker c (·.rotateProducers (j + k)) := by
  simp [modifyWorker, EngineWorker.rotateProducers, List.rotate_rotate]

theorem pickUp_rotate (k : Nat) : (d.modifyWorker c (·.rotateProducers k)).pickUp c p = d.pickUp c p := by
  simp [pickUp]

variable {d c p mp}

theorem pickUp_eq_some : d.pickUp c p = some mp ↔ (d.producer p).latestInputSentToEngine = some mp ∧
    ∃ m, (d.workers c).latestInputProcessed p = some m ∧ m.frameId < mp.metadata.frameId := by
  unfold pickUp
  constructor
  · intro h
    split at h
    · cases h
    · rename_i x hx
      split at h
      · cases h
      · rename_i m hm
        split at h
        · rename_i hlt
          cases h
          exact ⟨hx, m, hm, hlt⟩
        · cases h
  · rintro ⟨hx, m, hm, hlt⟩
    simp [hx, hm, hlt]

/-- After `j` rotations the loop finds one of the outcomes, and nothing only if none of the producers that the next
`n` rotations bring to the front has an input. -/
private theorem nextInput_rotated (ps : List String) (hps : (d.workers c).producers = ps) (j n : Nat) :
    NextInput d c ps ((d.modifyWorker c (·.rotateProducers j)).nextInput c n) ∧
      (((d.modifyWorker c (·.rotateProducers j)).nextInput c n).2 = none →
        ∀ i < n, ∀ q, (ps.rotate (j + i + 1)).head? = some q → ¬ d.Offers c q) := by
  induction n generalizing j with
  | zero => exact ⟨.none j, fun _ i hi => absurd hi (by omega)⟩
  | succ n ih =>
    simp only [nextInput, rotate_rotate]
    have hw : ((d.modifyWorker c (·.rotateProducers (j + 1))).workers c).producers = ps.rotate (j + 1) := by
      simp [hps]
    rw [hw]
    cases hrot : ps.rotate (j + 1) with
    | nil =>
      refine ⟨.none _, fun _ i _ q hq => ?_⟩
      have : ps = [] := by simpa using hrot
      simp [this] at hq
    | cons q qs =>
      have hq : q ∈ ps := by
        rw [← List.mem_rotate (n := j + 1), hrot]; exact List.mem_cons_self
      simp only [modifyWorker_producer]
      by_cases hpend : (d.producer q).pendingTokenReturn = true
      · -- the queue is closed: only the in-flight frame can be picked up
        simp only [hpend, ↓reduceIte, pickUp_rotate]
        cases hpick : d.pickUp c q with
        | some mp =>
          obtain ⟨hl, m, hm, hlt⟩ := pickUp_eq_some.1 hpick
          exact ⟨.pickedUp _ hq (Or.inl hpend) hl hm hlt, fun h => by cases h⟩
        | none =>
          refine ⟨(ih (j + 1)).1, fun h i hi q' hq' => ?_⟩
          rcases i with _ | i
          · rw [Nat.add_zero, hrot] at hq'
            cases hq'
            simp [Offers, hpend, hpick]
          · exact (ih (j + 1)).2 h i (by omega) q' (by rw [← hq']; congr 2; omega)
      · have hpend' : (d.producer q).pendingTokenReturn = false := by simpa using hpend
        simp only [hpend', Bool.false_eq_true, ↓reduceIte, getInputFromQueue, modifyWorker_producer]
        cases hqueue : (d.producer q).inputQueue with
        | cons mp rest => exact ⟨.dequeued _ hq hpend' hqueue, fun h => by cases h⟩
        | nil =>
          simp only [pickUp_rotate]
          cases hpick : d.pickUp c q with
          | some mp =>
            obtain ⟨hl, m, hm, hlt⟩ := pickUp_eq_some.1 hpick
            exact ⟨.pickedUp _ hq (Or.inr hqueue) hl hm hlt, fun h => by cases h⟩
          | none =>
            refine ⟨(ih (j + 1)).1, fun h i hi q' hq' => ?_⟩
            rcases i with _ | i
            · rw [Nat.add_zero, hrot] at hq'
              cases hq'
              simp [Offers, hqueue, hpick]
            · exact (ih (j + 1)).2 h i (by omega) q' (by rw [← hq']; congr 2; omega)

/-- Each element of a list comes to its front in one of as many rotations as it is long. -/
private theorem exists_rotate_head {q : String} {ps : List String} (hq : q ∈ ps) :
    ∃ i < ps.length, (ps.rotate (0 + i + 1)).head? = some q := by
  obtain ⟨t, ht, rfl⟩ := List.getElem_of_mem hq
  rcases t with _ | t
  · refine ⟨ps.length - 1, by omega, ?_⟩
    rw [show 0 + (ps.length - 1) + 1 = ps.length by omega, List.rotate_length, List.head?_eq_getElem?,
      List.getElem?_eq_getElem]
  · refine ⟨t, by omega, ?_⟩
    rw [List.head?_rotate (by omega), List.getElem?_eq_getElem (by omega)]
    simp

/-- The outcomes of `send_next_input` for the worker `c`. -/
inductive NextSent (d : Dispatcher) (c : Context) (b : Bool) : Dispatcher × Bool → Prop
  | none (k : Nat) (hno : ∀ q ∈ (d.workers c).producers, ¬ d.Offers c q) :
      NextSent d c b ((d.modifyWorker c (·.rotateProducers k)).modifyWorker c (·.clearCurrentInputMetadata), false)
  | dequeued (k : Nat) {p : String} {mp : MetadataPayload} {rest : List MetadataPayload}
      (hp : p ∈ (d.workers c).producers) (hpend : (d.producer p).pendingTokenReturn = false)
      (hq : (d.producer p).inputQueue = mp :: rest) :
      NextSent d c b (((d.modifyWorker c (·.rotateProducers k)).dequeue p mp rest).sendPayload c mp b, true)
  | pickedUp (k : Nat) {p : String} {mp : MetadataPayload} {m : Metadata} (hp : p ∈ (d.workers c).producers)
      (hidle : (d.producer p).pendingTokenReturn = true ∨ (d.producer p).inputQueue = [])
      (hlatest : (d.producer p).latestInputSentToEngine = some mp)
      (hprev : (d.workers c).latestInputProcessed p = some m) (hlt : m.frameId < mp.metadata.frameId) :
      NextSent d c b ((d.modifyWorker c (·.rotateProducers k)).sendPayload c mp b, true)

theorem sendNextInput_cases {b : Bool} {r : Dispatcher × Bool} (hr : d.sendNextInput c b = r) :
    NextSent d c b r := by
  have h := nextInput_rotated (d := d) (c := c) _ rfl 0 (d.workers c).producers.length
  rw [rotate_zero] at h
  obtain ⟨hcases, hnone⟩ := h
  subst hr
  unfold sendNextInput
  revert hcases hnone
  generalize d.nextInput c (d.workers c).producers.length = r
  intro hcases hnone
  cases hcases with
  | none k =>
    refine .none k fun q hq => ?_
    obtain ⟨i, hi, hhead⟩ := exists_rotate_head hq
    exact hnone rfl i hi q hhead
  | dequeued k hp hpend hq => exact .dequeued k hp hpend hq
  | pickedUp k hp hidle hl hprev hlt => exact .pickedUp k hp hidle hl hprev hlt

theorem sendNextInput_log_grows (b : Bool) : d.log <+: (d.sendNextInput c b).1.log := by
  generalize hr : d.sendNextInput c b = r
  cases sendNextInput_cases hr with
  | none => exact List.prefix_rfl
  | dequeued => simp
  | pickedUp => simp

/-! ### `process_input_from_client` -/

section BeginInput

variable (d p) (targets : List Context) (q : String)

@[simp] theorem removeTargets_eq (removed : List Context) : d.removeTargets removed = d := by
  induction removed with
  | nil => rfl
  | cons c removed ih => exact ih

/-- `target_engines` is the only thing `retarget` can change, and no other part of the dispatcher reads it. -/
private theorem retarget_eq : ∃ ts, d.retarget p targets = d ∨
    d.retarget p targets = d.setProducer p { d.producer p with targetEngines := ts } := by
  unfold retarget
  simp only [removeTargets_eq]
  split
  · exact ⟨none, Or.inl rfl⟩
  · exact ⟨_, Or.inr rfl⟩

/-- What `beginInput` does: a new producer info, a serial number, and new `target_engines`. -/
private theorem beginInput_fields : (d.beginInput p targets).engineWorkers = d.engineWorkers ∧
    (d.beginInput p targets).workers = d.workers ∧ (d.beginInput p targets).engineIds = d.engineIds ∧
    (d.beginInput p targets).nextContext = d.nextContext ∧
    (d.beginInput p targets).nextSerial = d.nextSerial + 1 ∧ (d.beginInput p targets).log = d.log ∧
    ∀ q, ∃ ts, (d.beginInput p targets).producer q = { d.producer q with targetEngines := ts } := by
  -- the producer info that `_send_to_engine` makes is the one `producer` stands for anyway
  have hnew : ∀ d₁ : Dispatcher, d₁ = (if (d.producerInfos p).isNone then d.setProducer p {} else d) →
      d₁.engineWorkers = d.engineWorkers ∧ d₁.workers = d.workers ∧ d₁.engineIds = d.engineIds ∧
      d₁.nextContext = d.nextContext ∧ d₁.nextSerial = d.nextSerial ∧ d₁.log = d.log ∧
      d₁.producer = d.producer := by
    rintro d₁ rfl
    split
    · rename_i hnone
      refine ⟨rfl, rfl, rfl, rfl, rfl, rfl, ?_⟩
      have hp : d.producer p = {} := by
        rw [producer, Option.isNone_iff_eq_none.1 hnone]; rfl
      rw [setProducer_producer, ← hp, Function.update_eq_self]
    · exact ⟨rfl, rfl, rfl, rfl, rfl, rfl, rfl⟩
  unfold beginInput
  simp only
  generalize hd₁ : (if (d.producerInfos p).isNone then d.setProducer p {} else d) = d₁
  obtain ⟨h1, h2, h3, h4, h5, h6, h7⟩ := hnew d₁ hd₁.symm
  have h7' : ({ d₁ with nextSerial := d₁.nextSerial + 1 } : Dispatcher).producer = d.producer := h7
  split
  · exact ⟨h1, h2, h3, h4, by rw [← h5], h6, fun q => ⟨_, congrFun h7' q⟩⟩
  · obtain ⟨ts, hr | hr⟩ := retarget_eq { d₁ with nextSerial := d₁.nextSerial + 1 } p targets
    · rw [hr]
      exact ⟨h1, h2, h3, h4, by rw [← h5], h6, fun q => ⟨_, congrFun h7' q⟩⟩
    · rw [hr]
      refine ⟨h1, h2, h3, h4, by rw [← h5]; rfl, h6, fun q => ?_⟩
      rw [setProducer_producer, h7']
      by_cases hq : q = p
      · subst hq
        exact ⟨ts, by simp⟩
      · exact ⟨_, by simp [hq]; rfl⟩

@[simp] theorem beginInput_engineWorkers : (d.beginInput p targets).engineWorkers = d.engineWorkers :=
  (beginInput_fields d p targets).1
@[simp] theorem beginInput_workers : (d.beginInput p targets).workers = d.workers :=
  (beginInput_fields d p targets).2.1
@[simp] theorem beginInput_engineIds : (d.beginInput p targets).engineIds = d.engineIds :=
  (beginInput_fields d p targets).2.2.1
@[simp] theorem beginInput_nextContext : (d.beginInput p targets).nextContext = d.nextContext :=
  (beginInput_fields d p targets).2.2.2.1
@[simp] theorem beginInput_nextSerial : (d.beginInput p targets).nextSerial = d.nextSerial + 1 :=
  (beginInput_fields d p targets).2.2.2.2.1
@[simp] theorem beginInput_log : (d.beginInput p targets).log = d.log :=
  (beginInput_fields d p targets).2.2.2.2.2.1
@[simp] theorem beginInput_inputQueue :
    ((d.beginInput p targets).producer q).inputQueue = (d.producer q).inputQueue := by
  obtain ⟨ts, h⟩ := (beginInput_fields d p targets).2.2.2.2.2.2 q
  rw [h]
@[simp] theorem beginInput_latestInputSentToEngine :
    ((d.beginInput p targets).producer q).latestInputSentToEngine = (d.producer q).latestInputSentToEngine := by
  obtain ⟨ts, h⟩ := (beginInput_fields d p targets).2.2.2.2.2.2 q
  rw [h]
@[simp] theorem beginInput_pendingTokenReturn :
    ((d.beginInput p targets).producer q).pendingTokenReturn = (d.producer q).pendingTokenReturn := by
  obtain ⟨ts, h⟩ := (beginInput_fields d p targets).2.2.2.2.2.2 q
  rw [h]

private theorem setProducer_known (info : ProducerInfo) :
    ((d.setProducer p info).producerInfos q).isSome ↔ q = p ∨ (d.producerInfos q).isSome := by
  by_cases hq : q = p <;> simp [hq]

/-- `_send_to_engine` makes a producer info for a new producer. -/
theorem beginInput_known :
    ((d.beginInput p targets).producerInfos q).isSome ↔ q = p ∨ (d.producerInfos q).isSome := by
  have hnew : ∀ q, ((if (d.producerInfos p).isNone then d.setProducer p {} else d).producerInfos q).isSome ↔
      q = p ∨ (d.producerInfos q).isSome := by
    intro q
    split
    · exact setProducer_known d p q {}
    · rename_i hsome
      refine ⟨Or.inr, ?_⟩
      rintro (rfl | hq)
      · simpa [Option.isSome_iff_ne_none] using hsome
      · exact hq
  unfold beginInput
  simp only
  generalize (if (d.producerInfos p).isNone then d.setProducer p {} else d) = d₁ at hnew
  split
  · exact hnew q
  · obtain ⟨ts, hr | hr⟩ := retarget_eq { d₁ with nextSerial := d₁.nextSerial + 1 } p targets
    · rw [hr]
      exact hnew q
    · rw [hr, setProducer_known]
      refine ⟨?_, fun hq => Or.inr ((hnew q).2 hq)⟩
      rintro (hq | hq)
      · exact Or.inl hq
      · exact (hnew q).1 hq

end BeginInput

@[simp] theorem metadataPayload_producerId (input : Input) (address : Address) (info : AnyProto) :
    (d.metadataPayload input address info).metadata.producerId = input.producerId := rfl
@[simp] theorem metadataPayload_clientAddress (input : Input) (address : Address) (info : AnyProto) :
    (d.metadataPayload input address info).metadata.clientAddress = address := rfl
@[simp] theorem metadataPayload_serial (input : Input) (address : Address) (info : AnyProto) :
    (d.metadataPayload input address info).serial = d.nextSerial := rfl

theorem dispatchOne_of_idle (b : Bool) (h : (d.workers c).currentInputMetadata = none) :
    d.dispatchOne mp c b = ((d.addProducer c mp.producerId).sendPayload c mp b, true) := by
  simp [dispatchOne, h]

theorem dispatchOne_of_busy (b : Bool) (h : (d.workers c).currentInputMetadata ≠ none) :
    d.dispatchOne mp c b = (d.addProducer c mp.producerId, false) := by
  simp [dispatchOne, h]

/-- `add_producer` of the workers `cs`, one after the other. -/
def addProducers (d : Dispatcher) (cs : List Context) (p : String) : Dispatcher :=
  cs.foldl (fun d c => d.addProducer c p) d

section AddProducers

variable (d p) (cs : List Context) (c' : Context)

/-- What `add_producer` keeps. -/
theorem addProducers_inv {P : Dispatcher → Prop} (hadd : ∀ d c, P d → P (d.addProducer c p)) (h : P d) :
    P (d.addProducers cs p) := by
  induction cs generalizing d with
  | nil => exact h
  | cons c cs ih => exact ih (d.addProducer c p) (hadd d c h)

@[simp] theorem addProducers_engineWorkers : (d.addProducers cs p).engineWorkers = d.engineWorkers :=
  addProducers_inv (P := fun d₁ => d₁.engineWorkers = d.engineWorkers) d p cs (fun _ _ h => h) rfl
@[simp] theorem addProducers_producer : (d.addProducers cs p).producer = d.producer :=
  addProducers_inv (P := fun d₁ => d₁.producer = d.producer) d p cs (fun _ _ h => h) rfl
@[simp] theorem addProducers_nextContext : (d.addProducers cs p).nextContext = d.nextContext :=
  addProducers_inv (P := fun d₁ => d₁.nextContext = d.nextContext) d p cs (fun _ _ h => h) rfl
@[simp] theorem addProducers_log : (d.addProducers cs p).log = d.log :=
  addProducers_inv (P := fun d₁ => d₁.log = d.log) d p cs (fun _ _ h => h) rfl
@[simp] theorem addProducers_engineId : ((d.addProducers cs p).workers c').engineId = (d.workers c').engineId :=
  addProducers_inv (P := fun d₁ => (d₁.workers c').engineId = (d.workers c').engineId) d p cs
    (fun d₁ c h => by by_cases hc : c' = c <;> simp_all) rfl
@[simp] theorem addProducers_currentInputMetadata :
    ((d.addProducers cs p).workers c').currentInputMetadata = (d.workers c').currentInputMetadata :=
  addProducers_inv (P := fun d₁ => (d₁.workers c').currentInputMetadata = (d.workers c').currentInputMetadata) d p cs
    (fun d₁ c h => by by_cases hc : c' = c <;> simp_all) rfl
@[simp] theorem addProducers_latestInputProcessed :
    ((d.addProducers cs p).workers c').latestInputProcessed = (d.workers c').latestInputProcessed :=
  addProducers_inv (P := fun d₁ => (d₁.workers c').latestInputProcessed = (d.workers c').latestInputProcessed) d p cs
    (fun d₁ c h => by by_cases hc : c' = c <;> simp_all) rfl
@[simp] theorem mem_addProducers_producers {q : String} : q ∈ ((d.addProducers cs p).workers c').producers ↔
    q ∈ (d.workers c').producers ∨ (c' ∈ cs ∧ q = p) := by
  induction cs generalizing d with
  | nil => simp [addProducers]
  | cons c cs ih =>
    rw [show d.addProducers (c :: cs) p = (d.addProducer c p).addProducers cs p from rfl, ih]
    by_cases hc : c' = c
    · subst hc
      by_cases hq : q = p <;> simp [hq]
    · simp [hc]

end AddProducers

/-- The outcomes of the dispatch loop up to its next write: the targets before it were busy. -/
inductive Dispatched (d : Dispatcher) (mp : MetadataPayload) (b : Bool) :
    List Context → Dispatcher × Option (List Context) → Prop
  | busy {order : List Context} (hbusy : ∀ c ∈ order, (d.workers c).currentInputMetadata ≠ none) :
      Dispatched d mp b order (d.addProducers order mp.producerId, none)
  | wrote {c : Context} {busy rest : List Context} (hbusy : ∀ c ∈ busy, (d.workers c).currentInputMetadata ≠ none)
      (hidle : (d.workers c).currentInputMetadata = none) :
      Dispatched d mp b (busy ++ c :: rest)
        ((d.addProducers (busy ++ [c]) mp.producerId).sendPayload c mp b, some rest)

theorem dispatchLoop_cases {b : Bool} {order : List Context} {r : Dispatcher × Option (List Context)}
    (hr : d.dispatchLoop mp b order = r) : Dispatched d mp b order r := by
  subst hr
  induction order generalizing d with
  | nil => exact .busy (by simp)
  | cons c order ih =>
    by_cases hc : (d.workers c).currentInputMetadata = none
    · simp only [dispatchLoop, dispatchOne_of_idle b hc]
      exact @Dispatched.wrote d mp b c [] order (by simp) hc
    · simp only [dispatchLoop, dispatchOne_of_busy b hc]
      have hcur : ∀ c', ((d.addProducer c mp.producerId).workers c').currentInputMetadata =
          (d.workers c').currentInputMetadata := fun c' => by by_cases hc' : c' = c <;> simp_all
      generalize hr : (d.addProducer c mp.producerId).dispatchLoop mp b order = r
      have hih := @ih (d.addProducer c mp.producerId)
      rw [hr] at hih
      cases hih with
      | busy hbusy =>
        simp only [hcur] at hbusy
        exact @Dispatched.busy d mp b (c :: order) (by simpa [hc] using hbusy)
      | @wrote c' busy rest hbusy hidle =>
        simp only [hcur] at hbusy hidle
        exact @Dispatched.wrote d mp b c' (c :: busy) rest (by simpa [hc] using hbusy) hidle

/-- What `add_producer` and `send_payload` keep, the dispatch loop keeps. -/
theorem dispatchLoop_inv {P : Dispatcher → Prop} {b : Bool} {order : List Context} {d' : Dispatcher}
    {r : Option (List Context)} (hr : d.dispatchLoop mp b order = (d', r)) (h : P d)
    (hadd : ∀ d c, P d → P (d.addProducer c mp.producerId)) (hsend : ∀ d c, P d → P (d.sendPayload c mp b)) :
    P d' := by
  cases dispatchLoop_cases hr with
  | busy => exact addProducers_inv d _ _ hadd h
  | wrote => exact hsend _ _ (addProducers_inv d _ _ hadd h)

/-- The outcomes of `process_input_from_client` after the dispatch loop. -/
inductive Concluded (cfg : Config) (d : Dispatcher) (mp : MetadataPayload) :
    Bool → Dispatcher × StatusCode × String → Prop
  | enqueued (hlt : (d.producer mp.producerId).inputQueue.length ≠ cfg.sizeForQueues) :
      Concluded cfg d mp true ((d.enqueue mp).emit (.accepted mp), .success, "")
  | dropped (hfull : (d.producer mp.producerId).inputQueue.length = cfg.sizeForQueues) :
      Concluded cfg d mp true
        (d, .serverDroppedFrame, "Input queue for " ++ mp.producerId ++ " is full, dropping input")
  | inFlight : Concluded cfg d mp false ((d.setInFlight mp).emit (.accepted mp), .success, "")

theorem concludeInput_cases {cfg : Config} {b : Bool} {r : Dispatcher × StatusCode × String}
    (hr : d.concludeInput cfg mp b = r) : Concluded cfg d mp b r := by
  subst hr
  cases b with
  | false => exact .inFlight
  | true =>
    by_cases hfull : (d.producer mp.producerId).inputQueue.length = cfg.sizeForQueues
    · simpa [concludeInput, addInputToQueue, hfull] using Concluded.dropped hfull
    · simpa [concludeInput, addInputToQueue, hfull] using Concluded.enqueued hfull

/-! ### Results and removals -/

/-- The in-flight input `mp` of its producer stops being in flight, and a result goes to its client. -/
def release (d : Dispatcher) (origin : Origin) (mp : MetadataPayload) (token : Bool) (result : Result) :
    Dispatcher :=
  (d.setProducer mp.producerId { d.producer mp.producerId with pendingTokenReturn := false }).emit
    (.sendResult origin mp.metadata.clientAddress
      { producerId := mp.producerId, returnToken := token, result := result } (some mp))

section Release

variable (d mp) (origin : Origin) (token : Bool) (result : Result)

@[simp] theorem release_engineWorkers : (d.release origin mp token result).engineWorkers = d.engineWorkers := rfl
@[simp] theorem release_workers : (d.release origin mp token result).workers = d.workers := rfl
@[simp] theorem release_engineIds : (d.release origin mp token result).engineIds = d.engineIds := rfl
@[simp] theorem release_inputQueue (q : String) :
    ((d.release origin mp token result).producer q).inputQueue = (d.producer q).inputQueue := by
  by_cases h : q = mp.producerId
  · subst h; simp [release]
  · simp [release, h]
@[simp] theorem release_latestInputSentToEngine (q : String) :
    ((d.release origin mp token result).producer q).latestInputSentToEngine =
      (d.producer q).latestInputSentToEngine := by
  by_cases h : q = mp.producerId
  · subst h; simp [release]
  · simp [release, h]
@[simp] theorem release_pendingTokenReturn (q : String) :
    ((d.release origin mp token result).producer q).pendingTokenReturn =
      if q = mp.producerId then false else (d.producer q).pendingTokenReturn := by
  by_cases h : q = mp.producerId <;> simp [release, h]
@[simp] theorem release_nextContext : (d.release origin mp token result).nextContext = d.nextContext := rfl
@[simp] theorem release_nextSerial : (d.release origin mp token result).nextSerial = d.nextSerial := rfl
@[simp] theorem release_log : (d.release origin mp token result).log =
    d.log ++ [.sendResult origin mp.metadata.clientAddress
      { producerId := mp.producerId, returnToken := token, result := result } (some mp)] := rfl

end Release

theorem producer_of_some {info : ProducerInfo} (h : d.producerInfos p = some info) : d.producer p = info := by
  simp [producer, h]

theorem producerInfos_of_latest (h : (d.producer p).latestInputSentToEngine = some mp) :
    d.producerInfos p = some (d.producer p) := by
  cases hp : d.producerInfos p with
  | none => simp [producer, hp] at h
  | some info => rw [producer_of_some hp]

/-- The outcomes of `_handle_from_engine` up to the call of `send_result`. -/
inductive Answered (d : Dispatcher) (c : Context) (k : Nat) (result : Result) :
    Option Metadata → Dispatcher × Answer → Prop
  | noMetadata : Answered d c k result none (d, .stop)
  | noProducer {m : Metadata} (hnone : d.producerInfos m.producerId = none) :
      Answered d c k result (some m) (d, .stop)
  | token {mp : MetadataPayload} (hpend : (d.producer mp.producerId).pendingTokenReturn = true)
      (hlatest : (d.producer mp.producerId).latestInputSentToEngine = some mp) :
      Answered d c k result (some mp.metadata) (d.release (.result c k) mp true result,
        .send mp.metadata.clientAddress { producerId := mp.producerId, returnToken := true, result := result })
  | copy {m : Metadata}
      (hno : (d.producer m.producerId).pendingTokenReturn = true →
        ∀ mp, (d.producer m.producerId).latestInputSentToEngine = some mp → mp.metadata ≠ m)
      (hall : (d.workers c).allResponsesRequired = true) :
      Answered d c k result (some m) (d.emit (.sendResult (.result c k) m.clientAddress
          { producerId := m.producerId, returnToken := false, result := result }
          (d.producer m.producerId).latestInputSentToEngine),
        .send m.clientAddress { producerId := m.producerId, returnToken := false, result := result })
  | next {m : Metadata}
      (hno : (d.producer m.producerId).pendingTokenReturn = true →
        ∀ mp, (d.producer m.producerId).latestInputSentToEngine = some mp → mp.metadata ≠ m) :
      Answered d c k result (some m) (d, .next)

theorem answerResult_cases {k : Nat} {m : Option Metadata} {result : Result} {r : Dispatcher × Answer}
    (hr : d.answerResult c k m result = r) : Answered d c k result m r := by
  subst hr
  rcases m with _ | m
  · exact .noMetadata
  unfold answerResult
  simp only
  cases hinfo : d.producerInfos m.producerId with
  | none => exact .noProducer hinfo
  | some info =>
    simp only
    obtain rfl : d.producer m.producerId = info := producer_of_some hinfo
    by_cases htok : (d.producer m.producerId).pendingTokenReturn = true ∧
        (d.producer m.producerId).latestInputSentToEngine.map (·.metadata) = some m
    · obtain ⟨hpend, hmap⟩ := htok
      obtain ⟨mp, hl, rfl⟩ := Option.map_eq_some_iff.1 hmap
      rw [if_pos ⟨hpend, hmap⟩]
      simpa only [release, forwardResult, hl] using @Answered.token d c k result mp hpend hl
    · have hno : (d.producer m.producerId).pendingTokenReturn = true →
          ∀ mp, (d.producer m.producerId).latestInputSentToEngine = some mp → mp.metadata ≠ m :=
        fun hpend mp hl hm => htok ⟨hpend, by rw [hl, ← hm]; rfl⟩
      rw [if_neg htok]
      by_cases hall : (d.workers c).allResponsesRequired = true
      · rw [if_pos hall]
        exact .copy hno hall
      · rw [if_neg hall]
        exact .next hno

section Answered

variable {d' : Dispatcher} {k : Nat} {result : Result} {m : Option Metadata} {ans : Answer}

theorem Answered.engineWorkers (h : Answered d c k result m (d', ans)) : d'.engineWorkers = d.engineWorkers := by
  cases h <;> rfl
theorem Answered.workers (h : Answered d c k result m (d', ans)) : d'.workers = d.workers := by cases h <;> rfl
theorem Answered.nextContext (h : Answered d c k result m (d', ans)) : d'.nextContext = d.nextContext := by
  cases h <;> rfl
theorem Answered.inputQueue (h : Answered d c k result m (d', ans)) (q : String) :
    (d'.producer q).inputQueue = (d.producer q).inputQueue := by
  cases h <;> simp
theorem Answered.latestInputSentToEngine (h : Answered d c k result m (d', ans)) (q : String) :
    (d'.producer q).latestInputSentToEngine = (d.producer q).latestInputSentToEngine := by
  cases h <;> simp

/-- A result for the pending in-flight input of its producer is forwarded with the token. -/
theorem Answered.eq_release {m : Metadata} (h : Answered d c k result (some m) (d', ans)) (hm : m = mp.metadata)
    (hpend : (d.producer mp.producerId).pendingTokenReturn = true)
    (hlatest : (d.producer mp.producerId).latestInputSentToEngine = some mp) :
    d' = d.release (.result c k) mp true result := by
  cases h with
  | noProducer hnone =>
    rw [hm, producerInfos_of_latest hlatest] at hnone
    cases hnone
  | copy hno => subst hm; exact absurd rfl (hno hpend mp hlatest)
  | next hno => subst hm; exact absurd rfl (hno hpend mp hlatest)
  | @token mp' _ hlatest' =>
    have hname : mp'.producerId = mp.producerId := congrArg Metadata.producerId hm
    obtain rfl : mp' = mp := by rw [hname, hlatest] at hlatest'; exact (Option.some.inj hlatest').symm
    rfl

end Answered

/-- The outcomes of `_remove_engine_worker` up to the call of `send_result`. -/
inductive RemovalBegun (d : Dispatcher) (c : Context) : Dispatcher × Option (Address × ResultWrapper) → Prop
  | silent (hno : ∀ mp, (d.workers c).currentInputMetadata = some mp.metadata →
      (d.producer mp.producerId).latestInputSentToEngine = some mp →
      (d.producer mp.producerId).pendingTokenReturn = false) : RemovalBegun d c (d, none)
  | released {mp : MetadataPayload} (hcur : (d.workers c).currentInputMetadata = some mp.metadata)
      (hlatest : (d.producer mp.producerId).latestInputSentToEngine = some mp) :
      RemovalBegun d c
        (d.release (.disconnect c) mp (d.producer mp.producerId).pendingTokenReturn
          (disconnectResult (d.workers c).engineId mp.metadata.frameId),
        some (mp.metadata.clientAddress,
          { producerId := mp.producerId, returnToken := (d.producer mp.producerId).pendingTokenReturn
            result := disconnectResult (d.workers c).engineId mp.metadata.frameId }))

theorem beginRemoval_cases {r : Dispatcher × Option (Address × ResultWrapper)} (hr : d.beginRemoval c = r) :
    RemovalBegun d c r := by
  subst hr
  unfold beginRemoval
  simp only
  cases hcur : (d.workers c).currentInputMetadata with
  | none => exact .silent fun mp h => by rw [hcur] at h; cases h
  | some m =>
    simp only
    cases hinfo : d.producerInfos m.producerId with
    | none =>
      refine .silent fun mp h hl => ?_
      obtain rfl : m = mp.metadata := by rw [hcur] at h; exact Option.some.inj h
      rw [producerInfos_of_latest hl] at hinfo
      cases hinfo
    | some info =>
      simp only
      obtain rfl : d.producer m.producerId = info := producer_of_some hinfo
      cases hl : (d.producer m.producerId).latestInputSentToEngine with
      | none =>
        refine .silent fun mp h hl' => ?_
        obtain rfl : m = mp.metadata := by rw [hcur] at h; exact Option.some.inj h
        rw [hl] at hl'
        cases hl'
      | some latest =>
        simp only
        split
        · rename_i hcond
          obtain ⟨rfl, -⟩ := hcond
          simpa only [release, hl] using RemovalBegun.released hcur hl
        · rename_i hcond
          refine .silent fun mp h hl' => ?_
          obtain rfl : m = mp.metadata := by rw [hcur] at h; exact Option.some.inj h
          obtain rfl : latest = mp := by rw [hl] at hl'; exact Option.some.inj hl'
          simpa using fun hp => hcond ⟨rfl, Or.inl hp⟩

section BeginRemoval

variable (d c) (q : String)

@[simp] theorem beginRemoval_engineWorkers : (d.beginRemoval c).1.engineWorkers = d.engineWorkers := by
  generalize hr : d.beginRemoval c = r
  cases beginRemoval_cases hr <;> rfl
@[simp] theorem beginRemoval_workers : (d.beginRemoval c).1.workers = d.workers := by
  generalize hr : d.beginRemoval c = r
  cases beginRemoval_cases hr <;> rfl
@[simp] theorem beginRemoval_engineIds : (d.beginRemoval c).1.engineIds = d.engineIds := by
  generalize hr : d.beginRemoval c = r
  cases beginRemoval_cases hr <;> rfl
@[simp] theorem beginRemoval_nextContext : (d.beginRemoval c).1.nextContext = d.nextContext := by
  generalize hr : d.beginRemoval c = r
  cases beginRemoval_cases hr <;> rfl
@[simp] theorem beginRemoval_nextSerial : (d.beginRemoval c).1.nextSerial = d.nextSerial := by
  generalize hr : d.beginRemoval c = r
  cases beginRemoval_cases hr <;> rfl
@[simp] theorem beginRemoval_inputQueue :
    ((d.beginRemoval c).1.producer q).inputQueue = (d.producer q).inputQueue := by
  generalize hr : d.beginRemoval c = r
  cases beginRemoval_cases hr <;> simp
@[simp] theorem beginRemoval_latestInputSentToEngine :
    ((d.beginRemoval c).1.producer q).latestInputSentToEngine = (d.producer q).latestInputSentToEngine := by
  generalize hr : d.beginRemoval c = r
  cases beginRemoval_cases hr <;> simp

theorem beginRemoval_log_grows : d.log <+: (d.beginRemoval c).1.log := by
  generalize hr : d.beginRemoval c = r
  cases beginRemoval_cases hr <;> simp

end BeginRemoval

section FinishRemoval

variable (d c)

@[simp] theorem finishRemoval_workers : (d.finishRemoval c).1.workers = d.workers := by
  unfold finishRemoval; simp only; split <;> [rfl; split <;> rfl]
@[simp] theorem finishRemoval_producerInfos : (d.finishRemoval c).1.producerInfos = d.producerInfos := by
  unfold finishRemoval; simp only; split <;> [rfl; split <;> rfl]
@[simp] theorem finishRemoval_producer : (d.finishRemoval c).1.producer = d.producer := by
  funext q; simp [producer]
@[simp] theorem finishRemoval_nextContext : (d.finishRemoval c).1.nextContext = d.nextContext := by
  unfold finishRemoval; simp only; split <;> [rfl; split <;> rfl]
@[simp] theorem finishRemoval_nextSerial : (d.finishRemoval c).1.nextSerial = d.nextSerial := by
  unfold finishRemoval; simp only; split <;> [rfl; split <;> rfl]
@[simp] theorem finishRemoval_log : (d.finishRemoval c).1.log = d.log := by
  unfold finishRemoval; simp only; split <;> [rfl; split <;> rfl]

theorem finishRemoval_engineWorkers : (d.finishRemoval c).1.engineWorkers = d.engineWorkers ∨
    (d.finishRemoval c).1.engineWorkers = d.engineWorkers.erase c := by
  unfold finishRemoval
  simp only
  split
  · exact Or.inl rfl
  · split
    · exact Or.inl rfl
    · exact Or.inr rfl

end FinishRemoval

section OpenContext

variable (d)

@[simp] theorem openContext_engineWorkers : d.openContext.engineWorkers = d.engineWorkers := rfl
@[simp] theorem openContext_workers : d.openContext.workers = d.workers := rfl
@[simp] theorem openContext_engineIds : d.openContext.engineIds = d.engineIds := rfl
@[simp] theorem openContext_producerInfos : d.openContext.producerInfos = d.producerInfos := rfl
@[simp] theorem openContext_producer : d.openContext.producer = d.producer := rfl
@[simp] theorem openContext_nextContext : d.openContext.nextContext = d.nextContext + 1 := rfl
@[simp] theorem openContext_nextSerial : d.openContext.nextSerial = d.nextSerial := rfl
@[simp] theorem openContext_log : d.openContext.log = d.log := rfl

end OpenContext

section InsertWorker

variable (d c) (id : String) (ar : Bool)

@[simp] theorem insertWorker_workers : (d.insertWorker c id ar).workers =
    Function.update d.workers c { engineId := id, allResponsesRequired := ar } := rfl
@[simp] theorem insertWorker_producerInfos : (d.insertWorker c id ar).producerInfos = d.producerInfos := rfl
@[simp] theorem insertWorker_producer : (d.insertWorker c id ar).producer = d.producer := rfl
@[simp] theorem insertWorker_engineIds : (d.insertWorker c id ar).engineIds = insert id d.engineIds := rfl
@[simp] theorem insertWorker_nextContext : (d.insertWorker c id ar).nextContext = d.nextContext := rfl
@[simp] theorem insertWorker_nextSerial : (d.insertWorker c id ar).nextSerial = d.nextSerial := rfl
@[simp] theorem insertWorker_log : (d.insertWorker c id ar).log = d.log := rfl
@[simp] theorem mem_insertWorker {c' : Context} :
    c' ∈ (d.insertWorker c id ar).engineWorkers ↔ c' ∈ d.engineWorkers ∨ c' = c := by
  unfold insertWorker
  simp only
  split
  · rename_i hc
    constructor
    · exact Or.inl
    · rintro (h | rfl)
      · exact h
      · exact hc
  · simp

end InsertWorker

theorem mem_targetEngines {ids : List String} :
    c ∈ d.targetEngines ids ↔ c ∈ d.engineWorkers ∧ (d.workers c).engineId ∈ ids := by
  simp [targetEngines]

end Gabriel.Dispatcher
