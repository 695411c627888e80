import Gabriel.Server.WellFormed

/-!
# A producer and its engines as a slice of the dispatcher

Fix a producer `P` and a set of engines such that `P` only targets engines of the set and no other producer targets
any of them.  The slice of the dispatcher that belongs to `P` consists of the workers of these engines, the info of
`P` and the frames written to the workers.  `Slice` relates a dispatcher `d` to a dispatcher `e` that holds this slice
alone; the two name the same worker by different contexts, and give inputs different serial numbers.

Each operation has two lemmas.  An operation for `P` or one of its engines does the same on both sides (`…_own`); one
for another producer or engine leaves the slice alone, so that `d` may take it and `e` need not (`…_other`).
-/

namespace Gabriel

/-- An input without its serial number. -/
def MetadataPayload.content (mp : MetadataPayload) : Metadata × InputFrame := (mp.metadata, mp.payload)

theorem MetadataPayload.metadata_eq {mp mp' : MetadataPayload} (h : mp'.content = mp.content) :
    mp'.metadata = mp.metadata := congrArg Prod.fst h

theorem MetadataPayload.toEngine_eq {mp mp' : MetadataPayload} (h : mp'.content = mp.content) :
    mp'.toEngine = mp.toEngine := by
  have hpayload : mp'.payload = mp.payload := congrArg Prod.snd h
  unfold toEngine
  rw [hpayload, metadata_eq h]

theorem EngineWorker.takePayload_congr {mp mp' : MetadataPayload} (h : mp'.content = mp.content) (w : EngineWorker) :
    w.takePayload mp' = w.takePayload mp := by
  unfold takePayload MetadataPayload.producerId
  rw [MetadataPayload.metadata_eq h]

/-- Two infos of the producer `P` with the same inputs; `target_engines` is left out, since nothing depends on it. -/
structure ProducerInfo.Same (P : String) (i j : ProducerInfo) : Prop where
  queue_named : ∀ mp ∈ i.inputQueue, mp.producerId = P
  latest_named : ∀ mp, i.latestInputSentToEngine = some mp → mp.producerId = P
  inputQueue : j.inputQueue.map (·.content) = i.inputQueue.map (·.content)
  latest : j.latestInputSentToEngine.map (·.content) = i.latestInputSentToEngine.map (·.content)
  pending : j.pendingTokenReturn = i.pendingTokenReturn

/-- The frame that an event writes to a worker of `K`, with the new name of the worker. -/
def DispatchEvent.frameTo (K : Context → Bool) (ρ : Context → Context) :
    DispatchEvent → Option (Context × ToEngine × Metadata)
  | .wrote c msg mp => if K c then some (ρ c, msg, mp.metadata) else none
  | _ => none

namespace Dispatcher

/-- The frames written to workers of `K`. -/
def framesOf (K : Context → Bool) (ρ : Context → Context) (d : Dispatcher) : List (Context × ToEngine × Metadata) :=
  d.log.filterMap (DispatchEvent.frameTo K ρ)

/-- The workers of `K` and the producer `P` in `d` are those of `e`, where the worker `c` is called `ρ c`. -/
structure Slice (S : String → Bool) (P : String) (K : Context → Bool) (ρ : Context → Context) (d e : Dispatcher) :
    Prop where
  inj : ∀ {c c'}, K c → K c' → ρ c = ρ c' → c = c'
  named : ∀ c ∈ d.engineWorkers, K c = S (d.workers c).engineId
  engineWorkers : e.engineWorkers = (d.engineWorkers.filter K).map ρ
  workers : ∀ c, K c → e.workers (ρ c) = d.workers c
  engineIds : e.engineIds = d.engineIds.filter (S · = true)
  known : (e.producerInfos P).isSome = (d.producerInfos P).isSome
  info : (d.producer P).Same P (e.producer P)
  own : ∀ c, K c → (∀ q ∈ (d.workers c).producers, q = P) ∧
    ∀ m, (d.workers c).currentInputMetadata = some m → m.producerId = P
  other : ∀ c, K c = false → P ∉ (d.workers c).producers ∧
    ∀ m, (d.workers c).currentInputMetadata = some m → m.producerId ≠ P
  frames : e.framesOf (fun _ => true) id = d.framesOf K ρ

namespace Slice

variable {S : String → Bool} {P : String} {K : Context → Bool} {ρ : Context → Context} {cfg : Config}
  {d d' e : Dispatcher} {c : Context} {p : String} {mp mp' : MetadataPayload}

theorem mem_engineWorkers (h : Slice S P K ρ d e) (hc : K c) : ρ c ∈ e.engineWorkers ↔ c ∈ d.engineWorkers := by
  rw [h.engineWorkers, List.mem_map]
  constructor
  · rintro ⟨x, hx, hxc⟩
    obtain ⟨hx, hKx⟩ := List.mem_filter.1 hx
    exact h.inj hKx hc hxc ▸ hx
  · exact fun hmem => ⟨c, List.mem_filter.2 ⟨hmem, hc⟩, rfl⟩

private theorem ne_of_kept {c c' : Context} (hc : K c = true) (hc' : K c' = false) : c ≠ c' := by
  rintro rfl
  rw [hc] at hc'
  cases hc'

/-- The producer `P` is known on both sides, with the same infos, or on none. -/
theorem infos (h : Slice S P K ρ d e) : d.producerInfos P = none ∧ e.producerInfos P = none ∨
    ∃ i j, d.producerInfos P = some i ∧ e.producerInfos P = some j ∧ i.Same P j := by
  have hknown := h.known
  have hinfo := h.info
  cases hi : d.producerInfos P with
  | none =>
    rw [hi, Option.isSome_none, Option.isSome_eq_false_iff, Option.isNone_iff_eq_none] at hknown
    exact Or.inl ⟨rfl, hknown⟩
  | some i =>
    rw [hi, Option.isSome_some, Option.isSome_iff_exists] at hknown
    obtain ⟨j, hj⟩ := hknown
    rw [producer_of_some hi, producer_of_some hj] at hinfo
    exact Or.inr ⟨i, j, rfl, hj, hinfo⟩

/-! ### Elementary updates -/

theorem modifyWorker_own (h : Slice S P K ρ d e) (hc : K c) {f : EngineWorker → EngineWorker}
    (hid : (f (d.workers c)).engineId = (d.workers c).engineId)
    (hf : (∀ q ∈ (f (d.workers c)).producers, q = P) ∧
      ∀ m, (f (d.workers c)).currentInputMetadata = some m → m.producerId = P) :
    Slice S P K ρ (d.modifyWorker c f) (e.modifyWorker (ρ c) f) where
  inj := h.inj
  named c' hc' := by
    have := h.named c' hc'
    by_cases he : c' = c
    · subst he; simpa [hid] using this
    · simpa [he] using this
  engineWorkers := h.engineWorkers
  workers c' hc' := by
    by_cases he : c' = c
    · subst he; simp [h.workers c' hc']
    · have hρ : ρ c' ≠ ρ c := fun hρ => he (h.inj hc' hc hρ)
      simp [he, hρ, h.workers c' hc']
  engineIds := h.engineIds
  known := h.known
  info := h.info
  own c' hc' := by
    by_cases he : c' = c
    · subst he; simpa using hf
    · simpa [he] using h.own c' hc'
  other c' hc' := by
    have he : c' ≠ c := (ne_of_kept hc hc').symm
    simpa [he] using h.other c' hc'
  frames := h.frames

theorem modifyWorker_other (h : Slice S P K ρ d e) (hc : K c = false) {f : EngineWorker → EngineWorker}
    (hid : (f (d.workers c)).engineId = (d.workers c).engineId)
    (hf : P ∉ (f (d.workers c)).producers ∧
      ∀ m, (f (d.workers c)).currentInputMetadata = some m → m.producerId ≠ P) :
    Slice S P K ρ (d.modifyWorker c f) e where
  inj := h.inj
  named c' hc' := by
    have := h.named c' hc'
    by_cases he : c' = c
    · subst he; simpa [hid] using this
    · simpa [he] using this
  engineWorkers := h.engineWorkers
  workers c' hc' := by
    have he : c' ≠ c := ne_of_kept hc' hc
    simpa [he] using h.workers c' hc'
  engineIds := h.engineIds
  known := h.known
  info := h.info
  own c' hc' := by
    have he : c' ≠ c := ne_of_kept hc' hc
    simpa [he] using h.own c' hc'
  other c' hc' := by
    by_cases he : c' = c
    · subst he; simpa using hf
    · simpa [he] using h.other c' hc'
  frames := h.frames

theorem setProducer_own (h : Slice S P K ρ d e) {i j : ProducerInfo} (hij : i.Same P j) :
    Slice S P K ρ (d.setProducer P i) (e.setProducer P j) :=
  { h with
    known := by simp
    info := by simpa using hij }

theorem setProducer_other (h : Slice S P K ρ d e) (hp : p ≠ P) (i : ProducerInfo) :
    Slice S P K ρ (d.setProducer p i) e :=
  { h with
    known := by simpa [Ne.symm hp] using h.known
    info := by simpa [Ne.symm hp] using h.info }

theorem emit_own (h : Slice S P K ρ d e) {x y : DispatchEvent}
    (hxy : y.frameTo (fun _ => true) id = x.frameTo K ρ) : Slice S P K ρ (d.emit x) (e.emit y) :=
  { h with
    frames := by
      simp only [framesOf, emit_log, List.filterMap_append, List.filterMap_cons, List.filterMap_nil, hxy]
      rw [← framesOf, ← framesOf, h.frames] }

theorem emit_other (h : Slice S P K ρ d e) {x : DispatchEvent} (hx : x.frameTo K ρ = none) :
    Slice S P K ρ (d.emit x) e :=
  { h with frames := by simpa [framesOf, hx] using h.frames }

/-! ### Sending an input -/

theorem addProducer_own (h : Slice S P K ρ d e) (hc : K c) :
    Slice S P K ρ (d.addProducer c P) (e.addProducer (ρ c) P) := by
  refine h.modifyWorker_own hc (by simp) ⟨fun q hq => ?_, fun m hm => (h.own c hc).2 m (by simpa using hm)⟩
  rcases (EngineWorker.mem_addProducer_producers ..).1 hq with hq | hq
  · exact (h.own c hc).1 q hq
  · exact hq

theorem addProducer_other (h : Slice S P K ρ d e) (hc : K c = false) (hp : p ≠ P) :
    Slice S P K ρ (d.addProducer c p) e := by
  refine h.modifyWorker_other hc (by simp) ⟨fun hP => ?_, fun m hm => (h.other c hc).2 m (by simpa using hm)⟩
  rcases (EngineWorker.mem_addProducer_producers ..).1 hP with hP | hP
  · exact (h.other c hc).1 hP
  · exact hp hP.symm

theorem sendPayload_own (h : Slice S P K ρ d e) (hc : K c) (hmp : mp'.content = mp.content) (hp : mp.producerId = P) :
    Slice S P K ρ (d.sendPayload c mp true) (e.sendPayload (ρ c) mp' true) := by
  have htake : e.modifyWorker (ρ c) (·.takePayload mp') = e.modifyWorker (ρ c) (·.takePayload mp) := by
    simp only [modifyWorker, EngineWorker.takePayload_congr hmp]
  unfold sendPayload
  simp only [↓reduceIte]
  rw [htake]
  refine (h.modifyWorker_own hc (by simp) ⟨by simpa using (h.own c hc).1, fun m hm => ?_⟩).emit_own ?_
  · obtain rfl : mp.metadata = m := by simpa using hm
    exact hp
  · simp [DispatchEvent.frameTo, hc, MetadataPayload.toEngine_eq hmp, MetadataPayload.metadata_eq hmp]

theorem sendPayload_other (h : Slice S P K ρ d e) (hc : K c = false) (hp : mp.producerId ≠ P) (b : Bool) :
    Slice S P K ρ (d.sendPayload c mp b) e := by
  have htaken : Slice S P K ρ (d.modifyWorker c (·.takePayload mp)) e := by
    refine h.modifyWorker_other hc (by simp) ⟨by simpa using (h.other c hc).1, fun m hm => ?_⟩
    obtain rfl : mp.metadata = m := by simpa using hm
    exact hp
  cases b with
  | false => exact htaken
  | true => exact htaken.emit_other (by simp [DispatchEvent.frameTo, hc])

theorem rotate_own (h : Slice S P K ρ d e) (hc : K c) (k : Nat) :
    Slice S P K ρ (d.modifyWorker c (·.rotateProducers k)) (e.modifyWorker (ρ c) (·.rotateProducers k)) :=
  h.modifyWorker_own hc rfl ⟨by simpa using (h.own c hc).1, (h.own c hc).2⟩

theorem rotate_other (h : Slice S P K ρ d e) (hc : K c = false) (k : Nat) :
    Slice S P K ρ (d.modifyWorker c (·.rotateProducers k)) e :=
  h.modifyWorker_other hc rfl ⟨by simpa using (h.other c hc).1, (h.other c hc).2⟩

/-! ### `send_next_input` -/

theorem pickUp_own (h : Slice S P K ρ d e) (hc : K c) :
    (e.pickUp (ρ c) P).map (·.content) = (d.pickUp c P).map (·.content) := by
  have hlatest := h.info.latest
  unfold pickUp
  rw [h.workers c hc]
  cases hl : (d.producer P).latestInputSentToEngine with
  | none =>
    rw [hl, Option.map_none, Option.map_eq_none_iff] at hlatest
    rw [hlatest]
  | some x =>
    rw [hl, Option.map_some, Option.map_eq_some_iff] at hlatest
    obtain ⟨y, hy, hxy⟩ := hlatest
    rw [hy]
    simp only
    cases (d.workers c).latestInputProcessed P with
    | none => rfl
    | some m =>
      simp only [MetadataPayload.metadata_eq hxy]
      split
      · simp [hxy]
      · rfl

theorem dequeue_own (h : Slice S P K ρ d e) {rest rest' : List MetadataPayload}
    (hq : (d.producer P).inputQueue = mp :: rest) (hmp : mp'.content = mp.content)
    (hrest : rest'.map (·.content) = rest.map (·.content)) :
    Slice S P K ρ (d.dequeue P mp rest) (e.dequeue P mp' rest') := by
  have hnamed := h.info.queue_named
  rw [hq] at hnamed
  unfold dequeue
  refine emit_own (h.setProducer_own ?_) rfl
  refine ⟨fun x hx => hnamed x (List.mem_cons_of_mem _ hx), ?_, hrest, by simp [hmp], rfl⟩
  rintro x ⟨⟩
  exact hnamed mp (List.mem_cons_self ..)

theorem getInputFromQueue_own (h : Slice S P K ρ d e) :
    Slice S P K ρ (d.getInputFromQueue P).1 (e.getInputFromQueue P).1 ∧
      (e.getInputFromQueue P).2.map (·.content) = (d.getInputFromQueue P).2.map (·.content) ∧
      ∀ mp ∈ (d.getInputFromQueue P).2, mp.producerId = P := by
  have hqueue := h.info.inputQueue
  unfold getInputFromQueue
  cases hq : (d.producer P).inputQueue with
  | nil =>
    rw [hq, List.map_nil, List.map_eq_nil_iff] at hqueue
    rw [hqueue]
    exact ⟨h, rfl, by simp⟩
  | cons x rest =>
    rw [hq, List.map_cons, List.map_eq_cons_iff] at hqueue
    obtain ⟨y, rest', hq', hxy, hrest⟩ := hqueue
    rw [hq']
    refine ⟨h.dequeue_own hq hxy hrest, by simp [hxy], ?_⟩
    rintro mp ⟨⟩
    exact h.info.queue_named x (by rw [hq]; exact List.mem_cons_self ..)

/-- The loop of `send_next_input` finds the same input, one of `P`. -/
theorem nextInput_own (h : Slice S P K ρ d e) (hc : K c) (n : Nat) :
    Slice S P K ρ (d.nextInput c n).1 (e.nextInput (ρ c) n).1 ∧
      (e.nextInput (ρ c) n).2.map (·.content) = (d.nextInput c n).2.map (·.content) ∧
      ∀ mp ∈ (d.nextInput c n).2, mp.producerId = P := by
  induction n generalizing d e with
  | zero => exact ⟨h, rfl, by simp [nextInput]⟩
  | succ n ih =>
    have hrot := h.rotate_own hc 1
    simp only [nextInput]
    rw [hrot.workers c hc]
    cases hps : ((d.modifyWorker c (·.rotateProducers 1)).workers c).producers with
    | nil => exact ⟨hrot, rfl, by simp⟩
    | cons q qs =>
      obtain rfl : q = P := (hrot.own c hc).1 q (by rw [hps]; exact List.mem_cons_self ..)
      simp only
      rw [hrot.info.pending]
      revert hrot
      generalize d.modifyWorker c (·.rotateProducers 1) = d₁
      generalize e.modifyWorker (ρ c) (·.rotateProducers 1) = e₁
      intro hrot
      -- what the queue gives, unless an input is pending
      have hgot : Slice S q K ρ
            (if (d₁.producer q).pendingTokenReturn then (d₁, none) else d₁.getInputFromQueue q).1
            (if (d₁.producer q).pendingTokenReturn then (e₁, none) else e₁.getInputFromQueue q).1 ∧
          (if (d₁.producer q).pendingTokenReturn then (e₁, none) else e₁.getInputFromQueue q).2.map (·.content) =
            (if (d₁.producer q).pendingTokenReturn then (d₁, none) else d₁.getInputFromQueue q).2.map (·.content) ∧
          ∀ mp ∈ (if (d₁.producer q).pendingTokenReturn then (d₁, none) else d₁.getInputFromQueue q).2,
            mp.producerId = q := by
        split
        · exact ⟨hrot, rfl, by simp⟩
        · exact hrot.getInputFromQueue_own
      revert hgot
      generalize (if (d₁.producer q).pendingTokenReturn then (d₁, none) else d₁.getInputFromQueue q) = r
      generalize (if (d₁.producer q).pendingTokenReturn then (e₁, none) else e₁.getInputFromQueue q) = r'
      rintro ⟨hslice, hsame, hnamed⟩
      obtain ⟨d₂, x⟩ := r
      obtain ⟨e₂, y⟩ := r'
      cases x with
      | some x =>
        obtain ⟨y, rfl, hxy⟩ := Option.map_eq_some_iff.1 hsame
        exact ⟨hslice, by simpa using hxy, hnamed⟩
      | none =>
        obtain rfl : y = none := by simpa using hsame
        simp only
        have hpick := hslice.pickUp_own hc
        cases hx : d₂.pickUp c q with
        | some x =>
          rw [hx] at hpick
          obtain ⟨y, hy, hxy⟩ := Option.map_eq_some_iff.1 hpick
          rw [hy]
          refine ⟨hslice, by simpa using hxy, ?_⟩
          rintro mp ⟨⟩
          exact hslice.info.latest_named x (pickUp_eq_some.1 hx).1
        | none =>
          rw [hx] at hpick
          rw [Option.map_eq_none_iff.1 hpick]
          exact ih hslice

theorem sendNextInput_own (h : Slice S P K ρ d e) (hc : K c) :
    Slice S P K ρ (d.sendNextInput c true).1 (e.sendNextInput (ρ c) true).1 ∧
      (e.sendNextInput (ρ c) true).2 = (d.sendNextInput c true).2 := by
  unfold sendNextInput
  rw [h.workers c hc]
  have hnext := h.nextInput_own hc (d.workers c).producers.length
  revert hnext
  generalize d.nextInput c (d.workers c).producers.length = r
  generalize e.nextInput (ρ c) (d.workers c).producers.length = r'
  rintro ⟨hslice, hsame, hnamed⟩
  obtain ⟨d₁, x⟩ := r
  obtain ⟨e₁, y⟩ := r'
  cases x with
  | some x =>
    obtain ⟨y, rfl, hxy⟩ := Option.map_eq_some_iff.1 hsame
    exact ⟨hslice.sendPayload_own hc hxy (hnamed x rfl), rfl⟩
  | none =>
    obtain rfl : y = none := by simpa using hsame
    exact ⟨hslice.modifyWorker_own hc rfl ⟨by simpa using (hslice.own c hc).1, fun m hm => by simp at hm⟩, rfl⟩

theorem sendNextInput_other (h : Slice S P K ρ d e) (hwf : WellFormed d) (hc : K c = false) (b : Bool) :
    Slice S P K ρ (d.sendNextInput c b).1 e := by
  generalize hr : d.sendNextInput c b = r
  cases sendNextInput_cases hr with
  | none k =>
    exact (h.rotate_other hc k).modifyWorker_other hc rfl
      ⟨by simpa using (h.other c hc).1, fun m hm => by simp at hm⟩
  | @dequeued k p mp rest hp hpend hq =>
    have hpP : p ≠ P := by
      rintro rfl
      exact (h.other c hc).1 hp
    obtain rfl : mp.producerId = p := hwf.queue_named p mp (by rw [hq]; exact List.mem_cons_self ..)
    have hdeq : Slice S P K ρ ((d.modifyWorker c (·.rotateProducers k)).dequeue mp.producerId mp rest) e :=
      ((h.rotate_other hc k).setProducer_other hpP _).emit_other rfl
    exact hdeq.sendPayload_other hc hpP b
  | @pickedUp k p mp m hp hidle hlatest =>
    have hpP : p ≠ P := by
      rintro rfl
      exact (h.other c hc).1 hp
    obtain rfl : mp.producerId = p := hwf.latest_named p mp hlatest
    exact (h.rotate_other hc k).sendPayload_other hc hpP b

/-! ### `process_input_from_client` -/

/-- Operations that change neither the workers nor what the infos of `P` hold. -/
private theorem of_eq (h : Slice S P K ρ d e) {e' : Dispatcher} (hw : d'.workers = d.workers)
    (hws : d'.engineWorkers = d.engineWorkers) (hids : d'.engineIds = d.engineIds) (hlog : d'.log = d.log)
    (hw' : e'.workers = e.workers) (hws' : e'.engineWorkers = e.engineWorkers) (hids' : e'.engineIds = e.engineIds)
    (hlog' : e'.log = e.log) (hknown : (e'.producerInfos P).isSome = (d'.producerInfos P).isSome)
    (hinfo : (d'.producer P).Same P (e'.producer P)) : Slice S P K ρ d' e' where
  inj := h.inj
  named := by rw [hw, hws]; exact h.named
  engineWorkers := by rw [hws, hws']; exact h.engineWorkers
  workers := by rw [hw, hw']; exact h.workers
  engineIds := by rw [hids, hids']; exact h.engineIds
  known := hknown
  info := hinfo
  own := by rw [hw]; exact h.own
  other := by rw [hw]; exact h.other
  frames := by rw [framesOf, framesOf, hlog, hlog']; exact h.frames

theorem beginInput_own (h : Slice S P K ρ d e) (targets targets' : List Context) :
    Slice S P K ρ (d.beginInput P targets) (e.beginInput P targets') := by
  refine h.of_eq (by simp) (by simp) (by simp) (by simp) (by simp) (by simp) (by simp) (by simp) ?_
    ⟨?_, ?_, ?_, ?_, ?_⟩
  · rw [(beginInput_known e P targets' P).2 (Or.inl rfl), (beginInput_known d P targets P).2 (Or.inl rfl)]
  · simpa using h.info.queue_named
  · simpa using h.info.latest_named
  · simpa using h.info.inputQueue
  · simpa using h.info.latest
  · simpa using h.info.pending

theorem beginInput_other (h : Slice S P K ρ d e) (hp : p ≠ P) (targets : List Context) :
    Slice S P K ρ (d.beginInput p targets) e := by
  refine h.of_eq (by simp) (by simp) (by simp) (by simp) rfl rfl rfl rfl ?_ ⟨?_, ?_, ?_, ?_, ?_⟩
  · rw [h.known, Bool.eq_iff_iff, beginInput_known]
    simp [Ne.symm hp]
  · simpa using h.info.queue_named
  · simpa using h.info.latest_named
  · simpa using h.info.inputQueue
  · simpa using h.info.latest
  · simpa using h.info.pending

/-- The target engines of an input for engines of the slice. -/
theorem targetEngines_own (h : Slice S P K ρ d e) {ids : List String} (hids : ∀ id ∈ ids, S id) :
    e.targetEngines ids = (d.targetEngines ids).map ρ ∧ ∀ c ∈ d.targetEngines ids, K c := by
  have hK : ∀ c ∈ d.engineWorkers, (d.workers c).engineId ∈ ids → K c := fun c hc hid => by
    rw [h.named c hc]
    exact hids _ hid
  refine ⟨?_, fun c hc => ?_⟩
  · unfold targetEngines
    rw [h.engineWorkers, List.filter_map, List.filter_filter]
    congr 1
    apply List.filter_congr
    intro c hc
    by_cases hid : (d.workers c).engineId ∈ ids
    · have hKc := hK c hc hid
      simp [hid, hKc, h.workers c hKc]
    · cases hKc : K c with
      | false => simp [hid]
      | true => simp [hid, h.workers c hKc]
  · obtain ⟨hc, hid⟩ := mem_targetEngines.1 hc
    exact hK c hc hid

theorem targetEngines_other (h : Slice S P K ρ d e) {ids : List String} (hids : ∀ id ∈ ids, S id = false) :
    ∀ c ∈ d.targetEngines ids, K c = false := by
  intro c hc
  obtain ⟨hc, hid⟩ := mem_targetEngines.1 hc
  rw [h.named c hc]
  exact hids _ hid

theorem dispatchAll_own (h : Slice S P K ρ d e) (hmp : mp'.content = mp.content) (hp : mp.producerId = P)
    {order : List Context} (horder : ∀ c ∈ order, K c) (b : Bool) :
    Slice S P K ρ (d.dispatchAll mp [] order b).1 (e.dispatchAll mp' [] (order.map ρ) b).1 ∧
      (e.dispatchAll mp' [] (order.map ρ) b).2 = (d.dispatchAll mp [] order b).2 := by
  have hp' : mp'.producerId = P := by
    rw [MetadataPayload.producerId, MetadataPayload.metadata_eq hmp]
    exact hp
  induction order generalizing d e b with
  | nil => exact ⟨h, rfl⟩
  | cons c order ih =>
    have hc := horder c (List.mem_cons_self ..)
    have hrest : ∀ c ∈ order, K c := fun c' hc' => horder c' (List.mem_cons_of_mem _ hc')
    have hadd := h.addProducer_own hc
    by_cases hidle : (d.workers c).currentInputMetadata = none
    · have hidle' : (e.workers (ρ c)).currentInputMetadata = none := by rw [h.workers c hc]; exact hidle
      simp only [dispatchAll, List.map_cons, dispatchOne_of_idle _ hidle, dispatchOne_of_idle _ hidle', hp, hp',
        List.not_mem_nil, not_false_eq_true, decide_true, ↓reduceIte]
      exact ih (hadd.sendPayload_own hc hmp hp) hrest false
    · have hbusy' : (e.workers (ρ c)).currentInputMetadata ≠ none := by rw [h.workers c hc]; exact hidle
      simp only [dispatchAll, List.map_cons, dispatchOne_of_busy _ hidle, dispatchOne_of_busy _ hbusy', hp, hp']
      exact ih hadd hrest b

theorem dispatchAll_other (h : Slice S P K ρ d e) (hp : mp.producerId ≠ P) {raising order : List Context}
    (horder : ∀ c ∈ order, K c = false) {b : Bool} {r : Option Bool}
    (hr : d.dispatchAll mp raising order b = (d', r)) : Slice S P K ρ d' e := by
  have hloop := dispatchAll_ind (P := fun rest d₁ _ => Slice S P K ρ d₁ e ∧ ∀ c ∈ rest, K c = false)
    (fun d₁ c rest b hd _ => ⟨hd.1.addProducer_other (hd.2 c (List.mem_cons_self ..)) hp,
      fun c' hc' => hd.2 c' (List.mem_cons_of_mem _ hc')⟩)
    (fun d₁ c rest b hd _ =>
      ⟨(hd.1.addProducer_other (hd.2 c (List.mem_cons_self ..)) hp).sendPayload_other
        (hd.2 c (List.mem_cons_self ..)) hp _, fun c' hc' => hd.2 c' (List.mem_cons_of_mem _ hc')⟩)
    ⟨h, horder⟩ hr
  cases r with
  | none => exact (hloop.2 rfl).2.choose_spec.1
  | some b => exact (hloop.1 b rfl).1

theorem concludeInput_own (h : Slice S P K ρ d e) (cfg : Config) (hmp : mp'.content = mp.content)
    (hp : mp.producerId = P) (b : Bool) : Slice S P K ρ (d.concludeInput cfg mp b).1 (e.concludeInput cfg mp' b).1 ∧
      (e.concludeInput cfg mp' b).2 = (d.concludeInput cfg mp b).2 := by
  have hp' : mp'.producerId = P := by
    rw [MetadataPayload.producerId, MetadataPayload.metadata_eq hmp]
    exact hp
  have hlen : (e.producer P).inputQueue.length = (d.producer P).inputQueue.length := by
    simpa using congrArg List.length h.info.inputQueue
  unfold concludeInput addInputToQueue enqueue setInFlight
  rw [hp, hp']
  cases b with
  | true =>
    simp only [↓reduceIte, hlen]
    split
    · rename_i heq
      split at heq
      · cases heq
      · rename_i hfull
        obtain rfl := Option.some.inj heq
        simp only [hfull, ↓reduceIte]
        refine ⟨emit_own (emit_own (h.setProducer_own ?_) rfl) rfl, trivial⟩
        refine ⟨fun x hx => ?_, h.info.latest_named, ?_, h.info.latest, h.info.pending⟩
        · rcases List.mem_append.1 hx with hx | hx
          · exact h.info.queue_named x hx
          · rw [List.mem_singleton.1 hx]
            exact hp
        · simp [h.info.inputQueue, hmp]
    · rename_i heq
      split at heq
      · rename_i hfull
        simp only [hfull, ↓reduceIte]
        exact ⟨h, trivial⟩
      · cases heq
  | false =>
    simp only [Bool.false_eq_true, ↓reduceIte, and_true]
    refine emit_own (h.setProducer_own ?_) rfl
    refine ⟨h.info.queue_named, ?_, h.info.inputQueue, by simp [hmp], rfl⟩
    rintro x ⟨⟩
    exact hp

theorem concludeInput_other (h : Slice S P K ρ d e) (hp : mp.producerId ≠ P) (b : Bool) :
    Slice S P K ρ (d.concludeInput cfg mp b).1 e := by
  generalize hr : d.concludeInput cfg mp b = r
  cases concludeInput_cases hr with
  | dropped => exact h
  | enqueued => exact ((h.setProducer_other hp _).emit_other rfl).emit_other rfl
  | inFlight => exact (h.setProducer_other hp _).emit_other rfl

/-- An input of `P` has the same effect; the text of the error that there are no engines may differ. -/
theorem processInputFromClient_own (h : Slice S P K ρ d e) (cfg : Config) {input : Input} (hp : input.producerId = P)
    (hids : ∀ id ∈ input.targetEngineIds, S id) (a : Address) (info : AnyProto) {order : List Context}
    (hperm : order.Perm (d.targetEngines input.targetEngineIds)) :
    Slice S P K ρ (d.processInputFromClient cfg input a info order []).1
        (e.processInputFromClient cfg input a info (order.map ρ) []).1 ∧
      ∃ code text text', (d.processInputFromClient cfg input a info order []).2 = some (code, text) ∧
        (e.processInputFromClient cfg input a info (order.map ρ) []).2 = some (code, text') ∧
        (code = .noEngineForInput ∨ text' = text) := by
  obtain ⟨htargets, hK⟩ := h.targetEngines_own hids
  unfold processInputFromClient
  rw [htargets, hp]
  by_cases hnone : d.targetEngines input.targetEngineIds = []
  · simp only [hnone, List.map_nil, ↓reduceIte]
    exact ⟨h.beginInput_own [] [], _, _, _, rfl, rfl, Or.inl rfl⟩
  · simp only [hnone, List.map_eq_nil_iff, ↓reduceIte]
    have hmp : (e.metadataPayload input a info).content = (d.metadataPayload input a info).content := rfl
    have hbegun := h.beginInput_own (d.targetEngines input.targetEngineIds)
      ((d.targetEngines input.targetEngineIds).map ρ)
    obtain ⟨hloop, hbusy⟩ := hbegun.dispatchAll_own hmp hp (fun c hc => hK c (hperm.mem_iff.1 hc)) true
    revert hloop hbusy
    generalize hr : (d.beginInput P (d.targetEngines input.targetEngineIds)).dispatchAll
      (d.metadataPayload input a info) [] order true = r
    generalize (e.beginInput P ((d.targetEngines input.targetEngineIds).map ρ)).dispatchAll
      (e.metadataPayload input a info) [] (order.map ρ) true = r'
    obtain ⟨d₁, busy⟩ := r
    obtain ⟨e₁, busy'⟩ := r'
    rintro hloop ⟨⟩
    cases busy with
    | none => exact absurd rfl (raising_of_dispatchAll hr)
    | some busy =>
      obtain ⟨hdone, hcode⟩ := hloop.concludeInput_own cfg hmp hp busy
      exact ⟨hdone, _, _, _, rfl, congrArg some hcode, Or.inr rfl⟩

theorem processInputFromClient_other (h : Slice S P K ρ d e) (cfg : Config) {input : Input}
    (hp : input.producerId ≠ P) (hids : ∀ id ∈ input.targetEngineIds, S id = false) (a : Address) (info : AnyProto)
    {order : List Context} (hperm : order.Perm (d.targetEngines input.targetEngineIds)) (raising : List Context) :
    Slice S P K ρ (d.processInputFromClient cfg input a info order raising).1 e := by
  have hK := h.targetEngines_other hids
  have hbegun := h.beginInput_other hp (d.targetEngines input.targetEngineIds)
  unfold processInputFromClient
  by_cases hnone : d.targetEngines input.targetEngineIds = []
  · simpa only [hnone, ↓reduceIte] using h.beginInput_other hp []
  · simp only [hnone, ↓reduceIte]
    cases hr : (d.beginInput input.producerId (d.targetEngines input.targetEngineIds)).dispatchAll
        (d.metadataPayload input a info) raising order true with
    | mk d₁ busy =>
      have hp' : (d.metadataPayload input a info).producerId ≠ P := hp
      have hloop := hbegun.dispatchAll_other hp' (fun c hc => hK c (hperm.mem_iff.1 hc)) hr
      cases busy with
      | none => exact hloop
      | some busy => exact hloop.concludeInput_other hp busy

/-! ### Results and removals -/

/-- A result of an engine of the slice is answered in the same way. -/
theorem answerResult_own (h : Slice S P K ρ d e) (hc : K c) (k k' : Nat) {m : Option Metadata}
    (hm : ∀ x ∈ m, x.producerId = P) (result : Result) :
    Slice S P K ρ (d.answerResult c k m result).1 (e.answerResult (ρ c) k' m result).1 ∧
      (e.answerResult (ρ c) k' m result).2 = (d.answerResult c k m result).2 := by
  cases m with
  | none => exact ⟨h, rfl⟩
  | some m =>
    unfold answerResult
    simp only [hm m rfl]
    rcases h.infos with ⟨hi, hj⟩ | ⟨i, j, hi, hj, hinfo⟩
    · rw [hi, hj]
      exact ⟨h, rfl⟩
    · have hmeta : j.latestInputSentToEngine.map (·.metadata) = i.latestInputSentToEngine.map (·.metadata) := by
        have := congrArg (Option.map Prod.fst) hinfo.latest
        simpa [Option.map_map, Function.comp_def, MetadataPayload.content] using this
      rw [hi, hj]
      simp only [hinfo.pending, hmeta, h.workers c hc]
      split
      · refine ⟨?_, rfl⟩
        refine emit_own (h.setProducer_own ?_) rfl
        exact ⟨hinfo.queue_named, hinfo.latest_named, hinfo.inputQueue, hinfo.latest, rfl⟩
      · split
        · exact ⟨h.emit_own rfl, rfl⟩
        · exact ⟨h, rfl⟩

theorem answered_other (h : Slice S P K ρ d e) {k : Nat} {result : Result} {m : Option Metadata} {ans : Answer}
    (hm : ∀ x ∈ m, x.producerId ≠ P) (hans : Answered d c k result m (d', ans)) : Slice S P K ρ d' e := by
  cases hans with
  | noMetadata => exact h
  | noProducer => exact h
  | token => exact (h.setProducer_other (hm _ rfl) _).emit_other rfl
  | copy => exact h.emit_other rfl
  | next => exact h

theorem beginRemoval_own (h : Slice S P K ρ d e) (hc : K c) :
    Slice S P K ρ (d.beginRemoval c).1 (e.beginRemoval (ρ c)).1 ∧
      (e.beginRemoval (ρ c)).2 = (d.beginRemoval c).2 := by
  unfold beginRemoval
  simp only [h.workers c hc]
  cases hcur : (d.workers c).currentInputMetadata with
  | none => exact ⟨h, rfl⟩
  | some m =>
    simp only [(h.own c hc).2 m hcur]
    rcases h.infos with ⟨hi, hj⟩ | ⟨i, j, hi, hj, hinfo⟩
    · rw [hi, hj]
      exact ⟨h, rfl⟩
    · have hlatest := hinfo.latest
      rw [hi, hj]
      simp only
      cases hl : i.latestInputSentToEngine with
      | none =>
        rw [hl, Option.map_none, Option.map_eq_none_iff] at hlatest
        rw [hlatest]
        exact ⟨h, rfl⟩
      | some x =>
        rw [hl, Option.map_some, Option.map_eq_some_iff] at hlatest
        obtain ⟨y, hy, hxy⟩ := hlatest
        rw [hy]
        simp only [MetadataPayload.metadata_eq hxy, hinfo.pending]
        split
        · refine ⟨?_, rfl⟩
          refine emit_own (h.setProducer_own ?_) rfl
          exact ⟨hinfo.queue_named, fun z hz => hinfo.latest_named z (hl.trans hz), hinfo.inputQueue,
            by simp [hxy], rfl⟩
        · exact ⟨h, rfl⟩

theorem beginRemoval_other (h : Slice S P K ρ d e) (hc : K c = false) : Slice S P K ρ (d.beginRemoval c).1 e := by
  generalize hr : d.beginRemoval c = r
  cases beginRemoval_cases hr with
  | silent => exact h
  | released hcur => exact (h.setProducer_other ((h.other c hc).2 _ hcur) _).emit_other rfl

private theorem map_filter_erase (h : Slice S P K ρ d e) (hnodup : d.engineWorkers.Nodup) (hc : K c) :
    ((d.engineWorkers.filter K).map ρ).erase (ρ c) = ((d.engineWorkers.erase c).filter K).map ρ := by
  have hmap : ((d.engineWorkers.filter K).map ρ).Nodup := by
    refine List.Nodup.map_on (fun a ha b hb hab => ?_) (hnodup.filter _)
    exact h.inj (List.of_mem_filter ha) (List.of_mem_filter hb) hab
  rw [hmap.erase_eq_filter, hnodup.erase_eq_filter, List.filter_map, List.filter_filter, List.filter_filter]
  congr 1
  apply List.filter_congr
  intro c' _
  cases hK : K c' with
  | false => simp
  | true =>
    by_cases he : c' = c
    · simp [he]
    · have hρ : ρ c' ≠ ρ c := fun hρ => he (h.inj hK hc hρ)
      simp [bne_iff_ne.2 he, bne_iff_ne.2 hρ]

theorem finishRemoval_own (h : Slice S P K ρ d e) (hnodup : d.engineWorkers.Nodup) (hc : K c)
    (hmem : c ∈ d.engineWorkers) : Slice S P K ρ (d.finishRemoval c).1 (e.finishRemoval (ρ c)).1 ∧
      (e.finishRemoval (ρ c)).2 = (d.finishRemoval c).2 := by
  have hS : S (d.workers c).engineId := by rw [← h.named c hmem]; exact hc
  have hmem' : ρ c ∈ e.engineWorkers := (h.mem_engineWorkers hc).2 hmem
  have hid : (d.workers c).engineId ∈ e.engineIds ↔ (d.workers c).engineId ∈ d.engineIds := by
    rw [h.engineIds, Finset.mem_filter]
    exact ⟨And.left, fun hid => ⟨hid, hS⟩⟩
  unfold finishRemoval
  simp only [h.workers c hc, hid, hmem, hmem', not_true_eq_false, ↓reduceIte]
  split
  · exact ⟨h, rfl⟩
  · refine ⟨{ h with named := ?_, engineWorkers := ?_, engineIds := ?_ }, rfl⟩
    · exact fun c' hc' => h.named c' (List.mem_of_mem_erase hc')
    · rw [h.engineWorkers, h.map_filter_erase hnodup hc]
    · rw [h.engineIds]
      ext id
      simp only [Finset.mem_erase, Finset.mem_filter]
      tauto

theorem finishRemoval_other (h : Slice S P K ρ d e) (hnodup : d.engineWorkers.Nodup) (hc : K c = false)
    (hmem : c ∈ d.engineWorkers) : Slice S P K ρ (d.finishRemoval c).1 e := by
  have hS : S (d.workers c).engineId = false := by rw [← h.named c hmem]; exact hc
  unfold finishRemoval
  simp only [hmem, not_true_eq_false, ↓reduceIte]
  split
  · exact h
  · refine { h with named := ?_, engineWorkers := ?_, engineIds := ?_ }
    · exact fun c' hc' => h.named c' (List.mem_of_mem_erase hc')
    · rw [h.engineWorkers, hnodup.erase_eq_filter, List.filter_filter]
      congr 1
      apply List.filter_congr
      intro c' _
      by_cases he : c' = c
      · simp [he, hc]
      · simp [he]
    · rw [h.engineIds]
      ext id
      simp only [Finset.mem_erase, Finset.mem_filter]
      constructor
      · rintro ⟨hid, hSid⟩
        refine ⟨⟨?_, hid⟩, hSid⟩
        rintro rfl
        rw [hS] at hSid
        cases hSid
      · rintro ⟨⟨-, hid⟩, hSid⟩
        exact ⟨hid, hSid⟩

/-! ### Registration -/

theorem predecessor_own (h : Slice S P K ρ d e) {id : String} (hid : S id) :
    e.predecessor id = (d.predecessor id).map ρ := by
  have hmem : id ∈ e.engineIds ↔ id ∈ d.engineIds := by
    rw [h.engineIds, Finset.mem_filter]
    exact ⟨And.left, fun hmem => ⟨hmem, hid⟩⟩
  unfold predecessor
  simp only [hmem]
  split
  · rw [h.engineWorkers, List.find?_map, List.find?_filter, ← List.head?_filter, ← List.head?_filter]
    congr 2
    apply List.filter_congr
    intro c hc
    cases hK : K c with
    | false =>
      have hne : (d.workers c).engineId ≠ id := by
        rintro rfl
        rw [← h.named c hc, hK] at hid
        cases hid
      simp [hne]
    | true => simp [h.workers c hK]
  · rfl

/-- A predecessor of an engine of the slice belongs to it, and that of another engine does not. -/
theorem predecessor_named (h : Slice S P K ρ d e) {id : String} {v : Context} (hv : d.predecessor id = some v) :
    v ∈ d.engineWorkers ∧ K v = S id := by
  unfold predecessor at hv
  split at hv
  · have hmem := List.mem_of_find?_eq_some hv
    have hfound := List.find?_some hv
    have hname : (d.workers v).engineId = id := of_decide_eq_true hfound
    exact ⟨hmem, hname ▸ h.named v hmem⟩
  · cases hv

private theorem insertWorker_engineWorkers (h : Slice S P K ρ d e) {engineId : String} (hc : K c = false)
    (hmem : c ∉ d.engineWorkers) {c' : Context} (hc' : ∀ x, K x → ρ x ≠ c') (ar : Bool) :
    (e.insertWorker c' engineId ar).engineWorkers =
      ((d.insertWorker c engineId ar).engineWorkers.filter fun x => x = c || K x).map
        fun x => if x = c then c' else ρ x := by
  have hmem' : c' ∉ e.engineWorkers := by
    rw [h.engineWorkers]
    intro hin
    obtain ⟨x, hx, hxc⟩ := List.mem_map.1 hin
    exact hc' x (List.of_mem_filter hx) hxc
  have hleft : (d.insertWorker c engineId ar).engineWorkers = d.engineWorkers ++ [c] := if_neg hmem
  have hright : (e.insertWorker c' engineId ar).engineWorkers = e.engineWorkers ++ [c'] := if_neg hmem'
  rw [hleft, hright, h.engineWorkers, List.filter_append, List.map_append]
  congr 1
  · have hfilter : d.engineWorkers.filter (fun x => decide (x = c) || K x) = d.engineWorkers.filter K := by
      apply List.filter_congr
      intro x hx
      have hxc : x ≠ c := fun he => hmem (he ▸ hx)
      simp [hxc]
    rw [hfilter]
    apply List.map_congr_left
    intro x hx
    rw [if_neg (ne_of_kept (List.of_mem_filter hx) hc)]
  · simp

/-- Nothing has been written to a new worker. -/
private theorem insertWorker_frames (h : Slice S P K ρ d e) {engineId : String}
    (hlog : ∀ msg mp, .wrote c msg mp ∉ d.log) {c' : Context} (ar : Bool) :
    (e.insertWorker c' engineId ar).framesOf (fun _ => true) id =
      (d.insertWorker c engineId ar).framesOf (fun x => x = c || K x) fun x => if x = c then c' else ρ x := by
  rw [framesOf, insertWorker_log, ← framesOf, h.frames, framesOf, framesOf, insertWorker_log]
  apply List.filterMap_congr
  intro x hx
  cases x with
  | wrote c₁ msg mp =>
    have hc₁ : c₁ ≠ c := by
      rintro rfl
      exact hlog msg mp hx
    simp [DispatchEvent.frameTo, hc₁]
  | _ => rfl

/-- A new worker of the slice. -/
theorem insertWorker_own (h : Slice S P K ρ d e) {id : String} (hid : S id) (hc : K c = false)
    (hmem : c ∉ d.engineWorkers) (hlog : ∀ msg mp, .wrote c msg mp ∉ d.log) {c' : Context}
    (hc' : ∀ x, K x → ρ x ≠ c') (ar : Bool) :
    Slice S P (fun x => x = c || K x) (fun x => if x = c then c' else ρ x) (d.insertWorker c id ar)
      (e.insertWorker c' id ar) := by
  have hne : ∀ x, K x → x ≠ c := fun x hx => ne_of_kept hx hc
  have hnew : ∀ {x}, (decide (x = c) || K x) = true → x = c ∨ (x ≠ c ∧ K x) := by
    intro x hx
    by_cases hxc : x = c
    · exact Or.inl hxc
    · exact Or.inr ⟨hxc, by simpa [hxc] using hx⟩
  refine
    { inj := ?_
      named := ?_
      engineWorkers := h.insertWorker_engineWorkers hc hmem hc' ar
      workers := ?_
      engineIds := ?_
      known := h.known
      info := h.info
      own := ?_
      other := ?_
      frames := h.insertWorker_frames hlog ar }
  · intro x y hx hy hxy
    rcases hnew hx with rfl | ⟨hxc, hKx⟩ <;> rcases hnew hy with rfl | ⟨hyc, hKy⟩
    · rfl
    · simp only [↓reduceIte, if_neg hyc] at hxy
      exact absurd hxy.symm (hc' y hKy)
    · simp only [↓reduceIte, if_neg hxc] at hxy
      exact absurd hxy (hc' x hKx)
    · simp only [if_neg hxc, if_neg hyc] at hxy
      exact h.inj hKx hKy hxy
  · intro x hx
    by_cases hxc : x = c
    · simp [hxc, hid]
    · rcases (mem_insertWorker ..).1 hx with hx | hx
      · simpa [hxc] using h.named x hx
      · exact absurd hx hxc
  · intro x hx
    rcases hnew hx with rfl | ⟨hxc, hKx⟩
    · simp
    · have hρ := hc' x hKx
      simp [hxc, hρ, h.workers x hKx]
  · rw [insertWorker_engineIds, insertWorker_engineIds, h.engineIds, Finset.filter_insert, if_pos hid]
  · intro x hx
    rcases hnew hx with rfl | ⟨hxc, hKx⟩
    · simp
    · simpa [hxc] using h.own x hKx
  · intro x hx
    have hxc : x ≠ c := by
      rintro rfl
      simp at hx
    simpa [hxc] using h.other x (by simpa [hxc] using hx)

/-- A new worker outside of the slice. -/
theorem insertWorker_other (h : Slice S P K ρ d e) {id : String} (hid : S id = false) (hc : K c = false) (ar : Bool) :
    Slice S P K ρ (d.insertWorker c id ar) e := by
  have hne : ∀ x, K x → x ≠ c := fun x hx => ne_of_kept hx hc
  refine
    { inj := h.inj
      named := ?_
      engineWorkers := ?_
      workers := ?_
      engineIds := ?_
      known := h.known
      info := h.info
      own := ?_
      other := ?_
      frames := h.frames }
  · intro x hx
    by_cases hxc : x = c
    · simp [hxc, hid, hc]
    · rcases (mem_insertWorker ..).1 hx with hx | hx
      · simpa [hxc] using h.named x hx
      · exact absurd hx hxc
  · rw [h.engineWorkers]
    unfold insertWorker
    simp only
    split
    · rfl
    · simp [List.filter_append, hc]
  · intro x hx
    simpa [hne x hx] using h.workers x hx
  · rw [insertWorker_engineIds, h.engineIds, Finset.filter_insert, if_neg (by simp [hid])]
  · intro x hx
    simpa [hne x hx] using h.own x hx
  · intro x hx
    by_cases hxc : x = c
    · subst hxc
      simp
    · simpa [hxc] using h.other x hx

theorem openContext_own (h : Slice S P K ρ d e) : Slice S P K ρ d.openContext e.openContext :=
  h.of_eq rfl rfl rfl rfl rfl rfl rfl rfl h.known h.info

theorem openContext_other (h : Slice S P K ρ d e) : Slice S P K ρ d.openContext e :=
  h.of_eq rfl rfl rfl rfl rfl rfl rfl rfl h.known h.info

/-- The names of contexts outside of `K` do not matter. -/
theorem congr (h : Slice S P K ρ d e) {K' : Context → Bool} {ρ' : Context → Context} (hK : ∀ x, K' x = K x)
    (hρ : ∀ x, K x → ρ' x = ρ x) : Slice S P K' ρ' d e := by
  obtain rfl : K' = K := funext hK
  refine { h with
    inj := fun hc hc' he => h.inj hc hc' (by rwa [hρ _ hc, hρ _ hc'] at he)
    engineWorkers := ?_
    workers := fun c hc => by rw [hρ c hc]; exact h.workers c hc
    frames := ?_ }
  · rw [h.engineWorkers]
    exact List.map_congr_left fun c hc => (hρ c (List.of_mem_filter hc)).symm
  · have hframe : DispatchEvent.frameTo K' ρ' = DispatchEvent.frameTo K' ρ := by
      funext x
      cases x <;> try rfl
      rename_i c msg mp
      by_cases hc : K' c
      · simp [DispatchEvent.frameTo, hc, hρ c hc]
      · simp [DispatchEvent.frameTo, hc]
    rw [h.frames, framesOf, framesOf, hframe]

end Slice

end Dispatcher

end Gabriel
