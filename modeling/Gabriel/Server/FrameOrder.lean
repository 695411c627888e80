import Gabriel.Server.Delivery

/-!
# The order in which an engine gets the frames of a producer

An engine gets the frames of a producer in three ways: directly when it is idle, out of the producer's queue, and by
picking up the frame in flight.  If the frame ids of the inputs increase, so do those of the frame in flight followed
by the queue (`line`), and no engine is ahead of the frame in flight; so a frame taken from the queue is newer than
all that any engine has got, and picking up compares the ids itself.

What breaks the order is a direct dispatch past a queue that is not empty: the frames that were overtaken are written
later (`engine_goes_back`).
-/

namespace Gabriel

open DispatchLog

namespace Dispatcher

variable {cfg : Config} {d d' : Dispatcher} {c : Context} {p : String} {mp : MetadataPayload}

/-- The frame ids of the inputs of `p` that were written to `c`. -/
def framesTo (d : Dispatcher) (p : String) (c : Context) : List Int :=
  ((writtenTo d.log c).filter fun mp => mp.producerId = p).map (·.metadata.frameId)

/-- The frame ids of the in-flight input of `p` and of its queue. -/
def line (d : Dispatcher) (p : String) : List Int :=
  ((d.producer p).latestInputSentToEngine.toList ++ (d.producer p).inputQueue).map (·.metadata.frameId)

theorem framesTo_congr (h : ∀ c, writtenTo d'.log c = writtenTo d.log c) : d'.framesTo p = d.framesTo p := by
  funext c
  rw [framesTo, framesTo, h]

theorem line_congr (hq : (d'.producer p).inputQueue = (d.producer p).inputQueue)
    (hl : (d'.producer p).latestInputSentToEngine = (d.producer p).latestInputSentToEngine) :
    d'.line p = d.line p := by
  rw [line, line, hq, hl]

theorem framesTo_sendPayload_self (d : Dispatcher) (c : Context) (mp : MetadataPayload) :
    (d.sendPayload c mp true).framesTo mp.producerId c =
      d.framesTo mp.producerId c ++ [mp.metadata.frameId] := by
  simp [framesTo]

theorem framesTo_sendPayload_ne {c' : Context} (h : c' = c → mp.producerId ≠ p) :
    (d.sendPayload c mp true).framesTo p c' = d.framesTo p c' := by
  by_cases hc : c' = c
  · simp [framesTo, hc, h hc]
  · simp [framesTo, Ne.symm hc]

/-! ### The streams of the engines -/

/-- The frames of `p` written to each worker rise, and the worker remembers the last. -/
structure Rising (p : String) (d : Dispatcher) : Prop where
  sorted : ∀ c, (d.framesTo p c).Pairwise (· < ·)
  le_processed : ∀ c, ∀ n ∈ d.framesTo p c, ∃ m, (d.workers c).latestInputProcessed p = some m ∧ n ≤ m.frameId

namespace Rising

/-- Operations that write nothing. -/
theorem of_eq (h : Rising p d) (hw : ∀ c, writtenTo d'.log c = writtenTo d.log c)
    (hp : ∀ c, d.framesTo p c ≠ [] → (d'.workers c).latestInputProcessed p = (d.workers c).latestInputProcessed p) :
    Rising p d' := by
  have hf : d'.framesTo p = d.framesTo p := framesTo_congr hw
  refine ⟨fun c => hf ▸ h.sorted c, fun c n hn => ?_⟩
  rw [hf] at hn
  rw [hp c (List.ne_nil_of_mem hn)]
  exact h.le_processed c n hn

/-- A frame newer than all that the worker has got. -/
theorem sendPayload (h : Rising p d) (hnew : mp.producerId = p → ∀ m,
    (d.workers c).latestInputProcessed p = some m → m.frameId < mp.metadata.frameId) :
    Rising p (d.sendPayload c mp true) := by
  by_cases hp : mp.producerId = p
  · subst hp
    have hlt : ∀ n ∈ d.framesTo mp.producerId c, n < mp.metadata.frameId := by
      intro n hn
      obtain ⟨m, hm, hle⟩ := h.le_processed c n hn
      exact lt_of_le_of_lt hle (hnew rfl m hm)
    refine ⟨fun c' => ?_, fun c' n hn => ?_⟩
    · by_cases hc : c' = c
      · rw [hc, framesTo_sendPayload_self, List.pairwise_append]
        refine ⟨h.sorted c, List.pairwise_singleton .., fun n hn k hk => ?_⟩
        rw [List.mem_singleton.1 hk]
        exact hlt n hn
      · rw [framesTo_sendPayload_ne fun he => absurd he hc]
        exact h.sorted c'
    · by_cases hc : c' = c
      · rw [hc, framesTo_sendPayload_self] at hn
        refine ⟨mp.metadata, by simp [hc], ?_⟩
        rcases List.mem_append.1 hn with hn | hn
        · exact (hlt n hn).le
        · exact (List.mem_singleton.1 hn).le
      · rw [framesTo_sendPayload_ne fun he => absurd he hc] at hn
        obtain ⟨m, hm, hle⟩ := h.le_processed c' n hn
        exact ⟨m, by simpa [hc] using hm, hle⟩
  · have hf : ∀ c', (d.sendPayload c mp true).framesTo p c' = d.framesTo p c' := fun c' =>
      framesTo_sendPayload_ne fun _ => hp
    refine ⟨fun c' => hf c' ▸ h.sorted c', fun c' n hn => ?_⟩
    rw [hf] at hn
    obtain ⟨m, hm, hle⟩ := h.le_processed c' n hn
    refine ⟨m, ?_, hle⟩
    by_cases hc : c' = c
    · subst hc
      simpa [Ne.symm hp] using hm
    · simpa [hc] using hm

end Rising

/-! ### The queue -/

/-- The frames in line rise, and no worker is ahead of the frame in flight. -/
structure InLine (p : String) (d : Dispatcher) : Prop where
  sorted : (d.line p).Pairwise (· < ·)
  processed_le : ∀ c m, (d.workers c).latestInputProcessed p = some m →
    ∃ mp, (d.producer p).latestInputSentToEngine = some mp ∧ m.frameId ≤ mp.metadata.frameId

namespace InLine

theorem of_eq (h : InLine p d) (hq : (d'.producer p).inputQueue = (d.producer p).inputQueue)
    (hl : (d'.producer p).latestInputSentToEngine = (d.producer p).latestInputSentToEngine)
    (hp : ∀ c m, (d'.workers c).latestInputProcessed p = some m →
      (d.workers c).latestInputProcessed p = some m) : InLine p d' where
  sorted := line_congr hq hl ▸ h.sorted
  processed_le c m hm := by
    rw [hl]
    exact h.processed_le c m (hp c m hm)

theorem lt_head {rest : List MetadataPayload} (h : InLine p d) (hq : (d.producer p).inputQueue = mp :: rest)
    {m : Metadata} (hm : (d.workers c).latestInputProcessed p = some m) : m.frameId < mp.metadata.frameId := by
  obtain ⟨x, hx, hle⟩ := h.processed_le c m hm
  have hsorted := h.sorted
  rw [line, hx, hq] at hsorted
  simp only [Option.toList_some, List.singleton_append, List.map_cons, List.pairwise_cons] at hsorted
  exact lt_of_le_of_lt hle (hsorted.1 _ (List.mem_cons_self ..))

end InLine

/-- The frames of `p` reach the engines in order. -/
structure Ordered (p : String) (d : Dispatcher) : Prop where
  rising : Rising p d
  inLine : InLine p d

namespace Ordered

theorem init : Ordered p {} where
  rising := ⟨by simp [framesTo], by simp [framesTo]⟩
  inLine := ⟨by simp [line, producer], by simp⟩

theorem of_eq (h : Ordered p d) (hw : ∀ c, writtenTo d'.log c = writtenTo d.log c)
    (hq : (d'.producer p).inputQueue = (d.producer p).inputQueue)
    (hl : (d'.producer p).latestInputSentToEngine = (d.producer p).latestInputSentToEngine)
    (hp : ∀ c, (d'.workers c).latestInputProcessed p = (d.workers c).latestInputProcessed p) : Ordered p d' :=
  ⟨h.rising.of_eq hw fun c _ => hp c, h.inLine.of_eq hq hl fun c _ hm => hp c ▸ hm⟩

/-- Operations on a worker that do not send it anything. -/
theorem modifyWorker (h : Ordered p d) {f : EngineWorker → EngineWorker}
    (hf : (f (d.workers c)).latestInputProcessed = (d.workers c).latestInputProcessed) :
    Ordered p (d.modifyWorker c f) := by
  refine h.of_eq (fun _ => rfl) rfl rfl fun c' => ?_
  by_cases hc : c' = c
  · subst hc; simp [hf]
  · simp [hc]

theorem beginInput (h : Ordered p d) (q : String) (targets : List Context) :
    Ordered p (d.beginInput q targets) :=
  h.of_eq (by simp) (by simp) (by simp) (by simp)

theorem gotResult (h : Ordered p d) (r : Result) : Ordered p (d.emit (.gotResult c r)) :=
  h.of_eq (by simp) rfl rfl (fun _ => rfl)

theorem release (h : Ordered p d) (origin : Origin) (token : Bool) (result : Result) :
    Ordered p (d.release origin mp token result) :=
  h.of_eq (by simp) (by simp) (by simp) (fun _ => rfl)

theorem answered {k : Nat} {result : Result} {m : Option Metadata} {ans : Answer} (h : Ordered p d)
    (hans : Answered d c k result m (d', ans)) : Ordered p d' := by
  cases hans with
  | noMetadata => exact h
  | noProducer => exact h
  | token => exact h.release _ _ _
  | copy => exact h.of_eq (by simp) rfl rfl (fun _ => rfl)
  | next => exact h

theorem removeEngineWorker (h : Ordered p d) : Ordered p (d.removeEngineWorker c) := by
  have hbegun : Ordered p (d.beginRemoval c).1 := by
    generalize hr : d.beginRemoval c = r
    cases beginRemoval_cases hr with
    | silent => exact h
    | released => exact h.release _ _ _
  exact hbegun.of_eq (by simp) (by simp) (by simp) (by simp)

theorem openContext (h : Ordered p d) : Ordered p d.openContext :=
  h.of_eq (fun _ => rfl) rfl rfl (fun _ => rfl)

theorem insertWorker (h : Ordered p d) (hc : writtenTo d.log c = []) (id : String) (ar : Bool) :
    Ordered p (d.insertWorker c id ar) := by
  refine ⟨h.rising.of_eq (fun _ => rfl) fun c' hne => ?_, h.inLine.of_eq rfl rfl fun c' m hm => ?_⟩
  · have hcc : c' ≠ c := by
      rintro rfl
      simp [framesTo, hc] at hne
    simp [hcc]
  · by_cases hcc : c' = c
    · subst hcc
      simp at hm
    · simpa [hcc] using hm

/-- An engine takes the next frame out of the queue, or picks up the one in flight. -/
theorem sendNextInput (h : Ordered p d) (hwf : WellFormed d) : Ordered p (d.sendNextInput c true).1 := by
  generalize hr : d.sendNextInput c true = r
  cases sendNextInput_cases hr with
  | none => exact (h.modifyWorker rfl).modifyWorker rfl
  | @dequeued k q mp rest hq hpend hqueue =>
    obtain rfl : mp.producerId = q := hwf.queue_named q mp (by rw [hqueue]; exact List.mem_cons_self ..)
    have hrot : Ordered p (d.modifyWorker c (·.rotateProducers k)) := h.modifyWorker rfl
    have hdeq : Rising p ((d.modifyWorker c (·.rotateProducers k)).dequeue mp.producerId mp rest) :=
      hrot.rising.of_eq (by simp) fun _ _ => rfl
    refine ⟨hdeq.sendPayload fun hqp m hm => hrot.inLine.lt_head (hqp ▸ hqueue) hm, ?_⟩
    by_cases hqp : mp.producerId = p
    · subst hqp
      refine ⟨?_, fun c' m hm => ⟨mp, by simp, ?_⟩⟩
      · have hsorted := h.inLine.sorted
        rw [line, hqueue, List.map_append] at hsorted
        simpa [line] using (List.pairwise_append.1 hsorted).2.1
      · by_cases hc : c' = c
        · subst hc
          obtain rfl : mp.metadata = m := by simpa using hm
          exact le_rfl
        · exact (h.inLine.lt_head hqueue (c := c') (by simpa [hc] using hm)).le
    · refine hrot.inLine.of_eq (by simp [Ne.symm hqp]) (by simp [Ne.symm hqp]) fun c' m hm => ?_
      by_cases hc : c' = c
      · subst hc
        simpa [Ne.symm hqp] using hm
      · simpa [hc] using hm
  | @pickedUp k q mp m₀ hq hidle hlatest hprev hlt =>
    obtain rfl : mp.producerId = q := hwf.latest_named q mp hlatest
    have hrot : Ordered p (d.modifyWorker c (·.rotateProducers k)) := h.modifyWorker rfl
    refine ⟨hrot.rising.sendPayload ?_, ?_⟩
    · rintro rfl m hm
      obtain rfl : m₀ = m := by simpa [hprev] using hm
      exact hlt
    · refine ⟨by simpa [line] using h.inLine.sorted, fun c' m hm => ?_⟩
      by_cases hc : c' = c
      · subst hc
        by_cases hqp : mp.producerId = p
        · subst hqp
          refine ⟨mp, by simpa using hlatest, ?_⟩
          obtain rfl : mp.metadata = m := by simpa using hm
          exact le_rfl
        · simpa using h.inLine.processed_le c' m (by simpa [Ne.symm hqp] using hm)
      · simpa using h.inLine.processed_le c' m (by simpa [hc] using hm)

end Ordered

/-! ### Dispatching an input -/

/-- No target of an input of `p` is idle while the queue of `p` is not empty. -/
def Action.respectsQueue (p : String) (d : Dispatcher) : Action → Prop
  | .input i _ _ _ _ => i.producerId = p → (d.producer p).inputQueue ≠ [] →
      ∀ c ∈ d.targetEngines i.targetEngineIds, (d.workers c).currentInputMetadata ≠ none
  | _ => True

instance : DecidablePred (Action.respectsQueue p d)
  | .input i _ _ _ _ => inferInstanceAs (Decidable (i.producerId = p → (d.producer p).inputQueue ≠ [] →
      ∀ c ∈ d.targetEngines i.targetEngineIds, (d.workers c).currentInputMetadata ≠ none))
  | .register _ _ | .fromEngine _ _ _ | .remove _ => inferInstanceAs (Decidable True)

/-- An input of `p` is newer than the frames of `p` in line. -/
def Action.isNewer (p : String) (d : Dispatcher) : Action → Prop
  | .input i _ _ _ _ => i.producerId = p → ∀ n ∈ d.line p, n < i.frameId
  | _ => True

/-- The loop for `mp`, begun in the state `d₀`, with the targets `rest` still to come. -/
private structure OrderedDispatch (p : String) (mp : MetadataPayload) (d₀ : Dispatcher) (rest : List Context)
    (d : Dispatcher) (b : Bool) : Prop where
  rising : Rising p d
  nodup : rest.Nodup
  processed : ∀ c m, (d.workers c).latestInputProcessed p = some m →
    (d₀.workers c).latestInputProcessed p = some m ∨
      (b = false ∧ c ∉ rest ∧ mp.producerId = p ∧ m = mp.metadata)

/-- No worker of an ordered dispatcher is ahead of a new frame. -/
private theorem InLine.lt_of_newer (h : InLine p d) (hnew : ∀ n ∈ d.line p, n < mp.metadata.frameId) {m : Metadata}
    (hm : (d.workers c).latestInputProcessed p = some m) : m.frameId < mp.metadata.frameId := by
  obtain ⟨x, hx, hle⟩ := h.processed_le c m hm
  exact lt_of_le_of_lt hle (hnew _ (by simp [line, hx]))

private theorem dispatchAll_rising {order : List Context} {b : Bool} (h : Ordered p d) (hnodup : order.Nodup)
    (hnew : mp.producerId = p → ∀ n ∈ d.line p, n < mp.metadata.frameId)
    (hr : d.dispatchAll mp [] order true = (d', some b)) : OrderedDispatch p mp d [] d' b := by
  refine (dispatchAll_ind (P := OrderedDispatch p mp d) ?_ ?_ ⟨h.rising, hnodup, fun _ _ hm => Or.inl hm⟩ hr).1 b rfl
  · intro d₁ c rest b hd _
    have hsame : ∀ c', ((d₁.addProducer c mp.producerId).workers c').latestInputProcessed =
        (d₁.workers c').latestInputProcessed := fun c' => by by_cases hc : c' = c <;> simp_all
    refine ⟨hd.rising.of_eq (fun _ => rfl) fun c' _ => by rw [hsame], hd.nodup.of_cons, fun c' m hm => ?_⟩
    rcases hd.processed c' m (by rwa [hsame] at hm) with hold | ⟨hb, hc', hsent⟩
    · exact Or.inl hold
    · exact Or.inr ⟨hb, fun hmem => hc' (List.mem_cons_of_mem _ hmem), hsent⟩
  · intro d₁ c rest b hd _
    have hsame : ∀ c', ((d₁.addProducer c mp.producerId).workers c').latestInputProcessed =
        (d₁.workers c').latestInputProcessed := fun c' => by by_cases hc : c' = c <;> simp_all
    have hadd : Rising p (d₁.addProducer c mp.producerId) :=
      hd.rising.of_eq (fun _ => rfl) fun c' _ => by rw [hsame]
    simp only [List.not_mem_nil, not_false_eq_true, decide_true]
    refine ⟨hadd.sendPayload fun hp m hm => ?_, hd.nodup.of_cons, fun c' m hm => ?_⟩
    · rcases hd.processed c m (by rwa [hsame] at hm) with hold | ⟨-, hc, -⟩
      · exact h.inLine.lt_of_newer (hnew hp) hold
      · exact absurd (List.mem_cons_self ..) hc
    · by_cases hsent : c' = c ∧ mp.producerId = p
      · obtain ⟨rfl, rfl⟩ := hsent
        have hm' : mp.metadata = m := by simpa using hm
        exact Or.inr ⟨rfl, (List.nodup_cons.1 hd.nodup).1, rfl, hm'.symm⟩
      · have hm' : (d₁.workers c').latestInputProcessed p = some m := by
          by_cases hc : c' = c
          · have hp : p ≠ mp.producerId := fun he => hsent ⟨hc, he.symm⟩
            simpa [hc, hp] using hm
          · simpa [hc] using hm
        rcases hd.processed c' m hm' with hold | ⟨-, hc', hm'⟩
        · exact Or.inl hold
        · exact Or.inr ⟨rfl, fun hmem => hc' (List.mem_cons_of_mem _ hmem), hm'⟩

/-- After the loop the input goes into flight, past an empty queue, or to the end of the queue. -/
private theorem OrderedDispatch.concludeInput {d₀ : Dispatcher} {b : Bool} (h : OrderedDispatch p mp d₀ [] d b)
    (hprod : d.producer = d₀.producer) (hline : InLine p d₀)
    (hnew : mp.producerId = p → ∀ n ∈ d₀.line p, n < mp.metadata.frameId)
    (hb : mp.producerId = p → b = false → (d.producer p).inputQueue = []) :
    Ordered p (d.concludeInput cfg mp b).1 := by
  have heq : d.line p = d₀.line p := line_congr (by rw [hprod]) (by rw [hprod])
  have hold : b = true → InLine p d := by
    rintro rfl
    refine hline.of_eq (by rw [hprod]) (by rw [hprod]) fun c m hm => ?_
    rcases h.processed c m hm with hold | ⟨hb, -⟩
    · exact hold
    · cases hb
  generalize hr : d.concludeInput cfg mp b = r
  cases concludeInput_cases hr with
  | dropped => exact ⟨h.rising, hold rfl⟩
  | enqueued =>
    refine ⟨h.rising.of_eq (by simp) fun _ _ => rfl, ?_, fun c m hm => by simpa using (hold rfl).processed_le c m hm⟩
    by_cases hp : mp.producerId = p
    · have hsorted : (d.line p ++ [mp.metadata.frameId]).Pairwise (· < ·) := by
        rw [List.pairwise_append]
        refine ⟨heq ▸ hline.sorted, List.pairwise_singleton .., fun n hn k hk => ?_⟩
        rw [List.mem_singleton.1 hk]
        exact hnew hp n (heq ▸ hn)
      simpa [line, hp] using hsorted
    · simpa [line, Ne.symm hp] using (hold rfl).sorted
  | inFlight =>
    refine ⟨h.rising.of_eq (by simp) fun _ _ => rfl, ?_⟩
    by_cases hp : mp.producerId = p
    · refine ⟨by simp [line, hp, hb hp rfl], fun c m hm => ⟨mp, by simp [hp], ?_⟩⟩
      rcases h.processed c m hm with hold | ⟨-, -, -, rfl⟩
      · exact (hline.lt_of_newer (hnew hp) hold).le
      · exact le_rfl
    · refine ⟨by simpa [line, Ne.symm hp, hprod] using hline.sorted, fun c m hm => ?_⟩
      rcases h.processed c m hm with hold | ⟨-, -, hp', -⟩
      · simpa [Ne.symm hp, hprod] using hline.processed_le c m hold
      · exact absurd hp' hp

/-! ### Steps and runs -/

theorem step_ordered {a : Action} (hdel : Delivered cfg d) (h : Ordered p d) (ha : a.writesSucceed)
    (hresp : a.respectsQueue p d) (hnew : a.isNewer p d) (hstep : step cfg d a = some d') : Ordered p d' := by
  have hempty : writtenTo d.log d.nextContext = [] := by
    by_contra hne
    exact lt_irrefl _ (hdel.written.context_lt _ hne)
  cases step_cases hstep with
  | noTarget => exact h.beginInput _ _
  | raised hperm hne he => exact absurd ha (raising_of_dispatchAll he)
  | @dispatched input address info order raising d₁ b hperm hne he =>
    obtain rfl : raising = [] := ha
    have hbegun := h.beginInput input.producerId (d.targetEngines input.targetEngineIds)
    have hnew' : (d.metadataPayload input address info).producerId = p →
        ∀ n ∈ (d.beginInput input.producerId (d.targetEngines input.targetEngineIds)).line p,
          n < (d.metadataPayload input address info).metadata.frameId := by
      intro hp n hn
      exact hnew hp n (by simpa [line] using hn)
    have hprod := dispatchAll_producer he
    have hnodup := hperm.nodup_iff.2 (hdel.wellFormed.workers_nodup.filter _)
    refine (dispatchAll_rising hbegun hnodup hnew' he).concludeInput
      hprod hbegun.inLine hnew' fun hp hb => ?_
    -- an idle target means that nothing was waiting
    by_contra hq
    have hbusy : ∀ c ∈ order, (d.workers c).currentInputMetadata ≠ none := fun c hc =>
      hresp hp (by simpa [hprod] using hq) c (hperm.mem_iff.1 hc)
    have := dispatchAll_busy (by simpa using hbusy) he
    rw [hb] at this
    cases this
  | registered old hold =>
    cases old with
    | none => exact h.openContext.insertWorker hempty _ _
    | some v =>
      refine h.openContext.removeEngineWorker.insertWorker ?_ _ _
      rw [writtenTo_removeEngineWorker]
      exact hempty
  | ignored => exact h
  | unregistered => exact h.gotResult _
  | unanswered => exact h.gotResult _
  | answered hc hm hans =>
    obtain rfl := ha
    rw [feedEngine_false]
    exact ((h.gotResult _).answered hans).sendNextInput ((hdel.wellFormed.emit _).answered hans)
  | removed => exact h.removeEngineWorker

private theorem mem_line_concludeInput {b : Bool} {n : Int} (hn : n ∈ (d.concludeInput cfg mp b).1.line p) :
    n ∈ d.line p ∨ (mp.producerId = p ∧ mp.metadata.frameId = n) := by
  revert hn
  generalize hr : d.concludeInput cfg mp b = r
  intro hn
  by_cases hp : mp.producerId = p
  · cases concludeInput_cases hr with
    | dropped => exact Or.inl hn
    | enqueued =>
      have hn' : n ∈ d.line p ++ [mp.metadata.frameId] := by simpa [line, hp] using hn
      rcases List.mem_append.1 hn' with hn' | hn'
      · exact Or.inl hn'
      · exact Or.inr ⟨hp, (List.mem_singleton.1 hn').symm⟩
    | inFlight =>
      have hn' : n ∈ mp.metadata.frameId :: (d.producer p).inputQueue.map (·.metadata.frameId) := by
        simpa [line, hp] using hn
      rcases List.mem_cons.1 hn' with hn' | hn'
      · exact Or.inr ⟨hp, hn'.symm⟩
      · exact Or.inl (by rw [line, List.map_append]; exact List.mem_append_right _ hn')
  · refine Or.inl ?_
    cases concludeInput_cases hr with
    | dropped => exact hn
    | enqueued => simpa [line, Ne.symm hp] using hn
    | inFlight => simpa [line, Ne.symm hp] using hn

private theorem line_sendNextInput_subset : (d.sendNextInput c true).1.line p ⊆ d.line p := by
  generalize hr : d.sendNextInput c true = r
  cases sendNextInput_cases hr with
  | none => exact List.Subset.refl _
  | pickedUp =>
    intro n hn
    rwa [line_congr (d := d) (by simp) (by simp)] at hn
  | @dequeued k q mp rest hq hpend hqueue =>
    intro n hn
    by_cases hqp : p = q
    · subst hqp
      rw [line, List.map_append, hqueue]
      refine List.mem_append_right _ ?_
      simpa [line] using hn
    · rwa [line_congr (d := d) (by simp [hqp]) (by simp [hqp])] at hn

/-- What stands in line was there before the step or is the input of the step. -/
theorem step_line {a : Action} (ha : a.writesSucceed) (hstep : step cfg d a = some d') {n : Int}
    (hn : n ∈ d'.line p) :
    n ∈ d.line p ∨ ∃ i address info order raising, a = .input i address info order raising ∧ i.producerId = p ∧
      i.frameId = n := by
  have hkeep : ∀ {d₁ : Dispatcher}, n ∈ d₁.line p → (d₁.producer p).inputQueue = (d.producer p).inputQueue →
      (d₁.producer p).latestInputSentToEngine = (d.producer p).latestInputSentToEngine → n ∈ d.line p :=
    fun hn hq hl => line_congr hq hl ▸ hn
  cases step_cases hstep with
  | noTarget => exact Or.inl (hkeep hn (by simp) (by simp))
  | raised hperm hne he => exact absurd ha (raising_of_dispatchAll he)
  | dispatched hperm hne he =>
    have hprod := dispatchAll_producer he
    rcases mem_line_concludeInput hn with hn | ⟨hp, hframe⟩
    · exact Or.inl (hkeep hn (by simp [hprod]) (by simp [hprod]))
    · exact Or.inr ⟨_, _, _, _, _, rfl, hp, hframe⟩
  | registered old hold =>
    cases old with
    | none => exact Or.inl (hkeep hn rfl rfl)
    | some v => exact Or.inl (hkeep hn (by simp) (by simp))
  | ignored => exact Or.inl hn
  | unregistered => exact Or.inl (hkeep hn rfl rfl)
  | unanswered => exact Or.inl (hkeep hn rfl rfl)
  | answered hc hm hans =>
    obtain rfl := ha
    rw [feedEngine_false] at hn
    exact Or.inl (hkeep (line_sendNextInput_subset hn) (hans.inputQueue p) (hans.latestInputSentToEngine p))
  | removed => exact Or.inl (hkeep hn (by simp) (by simp))

end Dispatcher

namespace Atomic

variable {cfg : Config} {s : Server} {p : String}

/-- The frame id of the input of `p` that the step takes up, if it does. -/
def Action.inputFrame (p : String) : Action → Option Int
  | .fromClient _ msg _ _ =>
    if msg.isRegistration = false ∧ msg.asInput.producerId = p then some msg.asInput.frameId else none
  | _ => none

/-- The frame ids of the inputs of `p`, in the order in which they are taken up. -/
def inputFrames (p : String) (as : List Action) : List Int := as.filterMap (Action.inputFrame p)

/-- If the step gives an input of `p` to the dispatcher while the queue of `p` is not empty, all connected engines
that the input targets are busy. -/
def Action.respectsQueue (cfg : Config) (p : String) (s : Server) (a : Action) : Prop :=
  ∀ a' ∈ a.dispatcher cfg s, a'.respectsQueue p s.dispatcher

instance : DecidablePred (Action.respectsQueue cfg p s) := fun a =>
  inferInstanceAs (Decidable (∀ a' ∈ a.dispatcher cfg s, a'.respectsQueue p s.dispatcher))

/-- An input that reaches the dispatcher is one of the inputs of the run. -/
private theorem inputFrame_of_dispatcher {a : Action} {i : Input} {address : Address} {info : AnyProto}
    {order raising : List Context} (ha : a.dispatcher cfg s = some (.input i address info order raising))
    (hp : i.producerId = p) : a.inputFrame p = some i.frameId := by
  cases dispatcher_cases ha with
  | @input _ ref msg _ _ _ hclient hforward =>
    cases msg with
    | registration info' => simp [Frontend.consumerHelper] at hforward
    | unset => simp [Action.inputFrame, FromClient.isRegistration, hp]
    | input i' => simp [Action.inputFrame, FromClient.isRegistration, hp]

private theorem run_ordered {as : List Action}
    (h : (machine cfg).RunWhere (fun s a => a.writesSucceed ∧ a.respectsQueue cfg p s) as s)
    (hinc : (inputFrames p as).Pairwise (· < ·)) :
    s.dispatcher.Ordered p ∧ ∀ n ∈ s.dispatcher.line p, n ∈ inputFrames p as := by
  induction h with
  | init => exact ⟨.init, by simp [machine, Dispatcher.line, Dispatcher.producer]⟩
  | @step as s s' a hrun hG hstep ih =>
    rw [inputFrames, List.filterMap_append, List.pairwise_append] at hinc
    obtain ⟨hord, hmem⟩ := ih hinc.1
    have hgrow : ∀ n ∈ inputFrames p as, n ∈ inputFrames p (as ++ [a]) := fun n hn => by
      rw [inputFrames, List.filterMap_append]
      exact List.mem_append_left _ hn
    obtain ⟨as', hrun'⟩ : ∃ as', (Dispatcher.machine cfg).RunWhere (fun _ a => a.writesSucceed) as' s.dispatcher :=
      run_dispatcher (fun _ _ _ hG => writesSucceed_dispatcher hG.1) hrun
    have hd := step_dispatcher hstep
    cases ha : a.dispatcher cfg s with
    | none =>
      rw [ha] at hd
      exact hd ▸ ⟨hord, fun n hn => hgrow n (hmem n hn)⟩
    | some a' =>
      rw [ha] at hd
      have hnew : a'.isNewer p s.dispatcher := by
        cases a' with
        | input i address info order raising =>
          intro hp n hn
          refine hinc.2.2 n (hmem n hn) i.frameId ?_
          simp [inputFrame_of_dispatcher ha hp]
        | register | fromEngine | remove => trivial
      have hsucc := writesSucceed_dispatcher hG.1 ha
      refine ⟨Dispatcher.step_ordered (Dispatcher.run_delivered hrun') hord hsucc (hG.2 a' ha) hnew hd,
        fun n hn => ?_⟩
      rcases Dispatcher.step_line hsucc hd hn with hn | ⟨i, address, info, order, raising, rfl, hp, rfl⟩
      · exact hgrow n (hmem n hn)
      · simp [inputFrames, inputFrame_of_dispatcher ha hp]

/-- In every run of the server with atomic handlers whose writes succeed, in which the frame ids of the inputs of `p`
increase and no input of `p` overtakes its queue: the frame ids of the inputs of `p` written to an engine worker
increase. -/
theorem written_frames_increase {as : List Action}
    (h : (machine cfg).RunWhere (fun s a => a.writesSucceed ∧ a.respectsQueue cfg p s) as s)
    (hinc : (inputFrames p as).Pairwise (· < ·)) (c : Context) :
    (((writtenTo s.dispatcher.log c).filter fun mp => mp.producerId = p).map (·.metadata.frameId)).Pairwise (· < ·) :=
  (run_ordered h hinc).1.rising.sorted c

/-- Three frames for two engines: the second waits, `A` takes it, and the third goes to `B` and is picked up by `A`. -/
theorem written_frames_increase_of_three_frames :
    ∃ as s, (machine { numTokensPerProducer := 3, sizeForQueues := 2 }).RunWhere
        (fun s a => a.writesSucceed ∧ a.respectsQueue { numTokensPerProducer := 3, sizeForQueues := 2 } "P" s) as s ∧
      (inputFrames "P" as).Pairwise (· < ·) ∧ (writtenTo s.dispatcher.log 0).length = 3 ∧
      (((writtenTo s.dispatcher.log 0).filter fun mp => mp.producerId = "P").map (·.metadata.frameId)).Pairwise
        (· < ·) := by
  obtain ⟨s, hrun, h⟩ := Machine.exists_runWhere
    (M := machine { numTokensPerProducer := 3, sizeForQueues := 2 })
    (G := fun s a => a.writesSucceed ∧ a.respectsQueue { numTokensPerProducer := 3, sizeForQueues := 2 } "P" s)
    (g := fun s a => decide (a.writesSucceed ∧
      a.respectsQueue { numTokensPerProducer := 3, sizeForQueues := 2 } "P" s)) (fun _ _ h => of_decide_eq_true h)
    (fun s => (writtenTo s.dispatcher.log 0).length = 3)
    [.connect "client", .registerEngine "A" false, .fromClient "client" (.registration {}) [] [],
      .fromClient "client" (.input { frameId := 1, producerId := "P", targetEngineIds := ["A", "B"] }) [0] [],
      .fromClient "client" (.input { frameId := 2, producerId := "P", targetEngineIds := ["A", "B"] }) [0] [],
      .fromEngine 0 (.result {}) false, .registerEngine "B" false,
      .fromClient "client" (.input { frameId := 3, producerId := "P", targetEngineIds := ["A", "B"] }) [0, 1] [],
      .fromEngine 0 (.result {}) false] (by decide)
  exact ⟨_, s, hrun, by decide, h, written_frames_increase hrun (by decide) 0⟩

/-- One client sends the frames 1, 2 and 3 of `P` to `A` and `B`.  Frame 2 waits for `A` when `B` registers, frame 3
goes to the idle `B`, and the result of `B` fetches frame 2 from the queue: `B` gets frame 3 and then frame 2. -/
theorem engine_goes_back :
    ∃ as s, (machine { numTokensPerProducer := 3, sizeForQueues := 2 }).RunWhere (fun _ a => a.writesSucceed) as s ∧
      (∀ a ∈ as, a.inputFrame "P" ≠ none → ∃ msg order, a = .fromClient "client" msg order []) ∧
      inputFrames "P" as = [1, 2, 3] ∧ (writtenTo s.dispatcher.log 1).map (·.metadata.frameId) = [3, 2] := by
  obtain ⟨s, hrun, h⟩ := Machine.exists_runWhere
    (M := machine { numTokensPerProducer := 3, sizeForQueues := 2 }) (G := fun _ a => a.writesSucceed)
    (g := fun _ a => decide a.writesSucceed) (fun _ _ h => of_decide_eq_true h)
    (fun s => (writtenTo s.dispatcher.log 1).map (·.metadata.frameId) = [3, 2])
    [.connect "client", .registerEngine "A" false, .fromClient "client" (.registration {}) [] [],
      .fromClient "client" (.input { frameId := 1, producerId := "P", targetEngineIds := ["A", "B"] }) [0] [],
      .fromClient "client" (.input { frameId := 2, producerId := "P", targetEngineIds := ["A", "B"] }) [0] [],
      .registerEngine "B" false,
      .fromClient "client" (.input { frameId := 3, producerId := "P", targetEngineIds := ["A", "B"] }) [0, 1] [],
      .fromEngine 1 (.result {}) false] (by decide)
  refine ⟨_, s, hrun, ?_, by decide, h⟩
  simp [Action.inputFrame]

end Atomic

end Gabriel
