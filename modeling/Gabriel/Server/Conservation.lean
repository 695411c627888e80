import Gabriel.Server.Calls
import Gabriel.Server.FrameOrder

/-!
# `send_next_input` conserves work

An engine that `send_next_input` leaves idle should have nothing left to do: no producer in its deque has a queue it
may take from, or an in-flight frame that the engine was not sent.  For the latter `send_next_input` compares frame ids
with the last frame of the producer that the engine was sent.  This fails for an engine that was busy when the first
frame of the producer addressed to it came: the producer is in its deque, but there is nothing to compare with
(`frame_not_picked_up`).  It also fails if the frame ids do not tell which frame is newer.

The invariant `Conserving` says that the last frame of a producer that an engine was sent is the one in flight, older
than it, or one that is still being dispatched.
-/

namespace Gabriel

open DispatchLog

namespace Dispatcher

variable {cfg : Config} {d d' : Dispatcher} {I I' : MetadataPayload → Prop} {c c' : Context} {p : String}
  {m : Metadata} {mp : MetadataPayload}

/-- All inputs of `p` so far wait for the engine `c`, which is the only one that has `p` in its deque. -/
structure Awaits (d : Dispatcher) (c : Context) (p : String) : Prop where
  latest : (d.producer p).latestInputSentToEngine = none
  queue : (d.producer p).inputQueue ≠ []
  alone : ∀ c', p ∈ (d.workers c').producers → c' = c

/-- The deques and the frames that the engines were sent, with the inputs `I` being dispatched. -/
structure Conserving (d : Dispatcher) (I : MetadataPayload → Prop) : Prop where
  entered : ∀ c p, p ∈ (d.workers c).producers → (d.workers c).latestInputProcessed p ≠ none ∨ d.Awaits c p
  sorted : ∀ p, (d.line p).Pairwise (· < ·)
  processed : ∀ c p m, (d.workers c).latestInputProcessed p = some m →
    (∃ x, (d.producer p).latestInputSentToEngine = some x ∧ (m.frameId < x.metadata.frameId ∨
      m.frameId = x.metadata.frameId ∧ x ∈ writtenTo d.log c)) ∨
    ∃ mp, I mp ∧ mp.producerId = p ∧ mp.metadata = m ∧ mp ∈ writtenTo d.log c
  dispatching : ∀ mp, I mp → (d.producer mp.producerId).inputQueue = [] ∧
    ∀ n ∈ d.line mp.producerId, n < mp.metadata.frameId

theorem mem_line_of_latest (h : (d.producer p).latestInputSentToEngine = some mp) :
    mp.metadata.frameId ∈ d.line p := by
  simp [line, h]

private theorem producers_sendPayload :
    ((d.sendPayload c mp true).workers c').producers = (d.workers c').producers := by
  by_cases hc : c' = c
  · subst hc; simp
  · simp [hc]

private theorem processed_sendPayload (hne : ¬ (c' = c ∧ p = mp.producerId)) :
    ((d.sendPayload c mp true).workers c').latestInputProcessed p = (d.workers c').latestInputProcessed p := by
  by_cases hc : c' = c
  · subst hc
    have hp : p ≠ mp.producerId := fun he => hne ⟨rfl, he⟩
    simp [hp]
  · simp [hc]

namespace Conserving

theorem init (hI : ∀ mp, ¬ I mp) : Conserving {} I :=
  ⟨by simp, by simp [line, producer], by simp, fun mp hmp => absurd hmp (hI mp)⟩

/-- Operations that send nothing. -/
theorem of_le (h : d.Conserving I)
    (hdeque : ∀ c p, p ∈ (d'.workers c).producers → p ∈ (d.workers c).producers ∧
      (d'.workers c).latestInputProcessed p = (d.workers c).latestInputProcessed p)
    (hprocessed : ∀ c p m, (d'.workers c).latestInputProcessed p = some m →
      (d.workers c).latestInputProcessed p = some m)
    (hqueue : ∀ p, (d'.producer p).inputQueue = (d.producer p).inputQueue)
    (hlatest : ∀ p, (d'.producer p).latestInputSentToEngine = (d.producer p).latestInputSentToEngine)
    (hlog : ∀ c, writtenTo d.log c ⊆ writtenTo d'.log c) : d'.Conserving I := by
  have hline : ∀ p, d'.line p = d.line p := fun p => line_congr (hqueue p) (hlatest p)
  refine ⟨fun c p hp => ?_, fun p => hline p ▸ h.sorted p, fun c p m hm => ?_, fun mp hmp => ?_⟩
  · obtain ⟨hp, he⟩ := hdeque c p hp
    rw [he]
    refine (h.entered c p hp).imp_right fun ha => ⟨(hlatest p).trans ha.latest, ?_, fun c' hp' => ?_⟩
    · rw [hqueue]
      exact ha.queue
    · exact ha.alone c' (hdeque c' p hp').1
  · rw [hlatest]
    rcases h.processed c p m (hprocessed c p m hm) with ⟨x, hx, hle⟩ | ⟨mp, hmp, hp, hm, hw⟩
    · exact Or.inl ⟨x, hx, hle.imp_right (And.imp_right fun hw => hlog c hw)⟩
    · exact Or.inr ⟨mp, hmp, hp, hm, hlog c hw⟩
  · rw [hqueue, hline]
    exact h.dispatching mp hmp

/-- Operations on other things than the workers. -/
theorem of_workers (h : d.Conserving I) (hworkers : d'.workers = d.workers)
    (hqueue : ∀ p, (d'.producer p).inputQueue = (d.producer p).inputQueue)
    (hlatest : ∀ p, (d'.producer p).latestInputSentToEngine = (d.producer p).latestInputSentToEngine)
    (hlog : ∀ c, writtenTo d.log c ⊆ writtenTo d'.log c) : d'.Conserving I :=
  h.of_le (fun c p hp => by rw [hworkers] at hp ⊢; exact ⟨hp, rfl⟩) (fun c p m hm => by rwa [hworkers] at hm)
    hqueue hlatest hlog

/-- Nothing was sent of a producer all of whose inputs wait. -/
theorem not_awaits (h : d.Conserving I) (hm : (d.workers c).latestInputProcessed p ≠ none) : ¬ d.Awaits c' p := by
  intro ha
  obtain ⟨m, hm⟩ := Option.ne_none_iff_exists'.1 hm
  rcases h.processed c p m hm with ⟨x, hx, -⟩ | ⟨mp, hmp, rfl, -⟩
  · rw [ha.latest] at hx
    cases hx
  · exact ha.queue (h.dispatching mp hmp).1

/-- A producer comes into the deque of an engine that was sent an input of it, or that all its inputs wait for. -/
theorem addProducer (h : d.Conserving I)
    (hentry : (d.workers c).latestInputProcessed p ≠ none ∨ d.Awaits c p) : (d.addProducer c p).Conserving I := by
  have hproducers : ∀ c' q, q ∈ ((d.addProducer c p).workers c').producers ↔
      q ∈ (d.workers c').producers ∨ (c' = c ∧ q = p) := by
    intro c' q
    by_cases hc : c' = c
    · subst hc; simp
    · simp [hc]
  have hprocessed : ∀ c', ((d.addProducer c p).workers c').latestInputProcessed =
      (d.workers c').latestInputProcessed := by
    intro c'
    by_cases hc : c' = c
    · subst hc; simp
    · simp [hc]
  refine ⟨fun c' q hq => ?_, h.sorted, fun c' q m hm => ?_, h.dispatching⟩
  · rw [hprocessed]
    have hold : (d.workers c').latestInputProcessed q ≠ none ∨ d.Awaits c' q := by
      rcases (hproducers c' q).1 hq with hq | ⟨rfl, rfl⟩
      · exact h.entered c' q hq
      · exact hentry
    refine hold.imp_right fun ha => ⟨ha.latest, ha.queue, fun c₁ hc₁ => ?_⟩
    rcases (hproducers c₁ q).1 hc₁ with hc₁ | ⟨rfl, rfl⟩
    · exact ha.alone c₁ hc₁
    · -- the producer waits for `c'`, so `c₁` was sent nothing of it and it waits for `c₁`, too
      have hwaits : d.Awaits c₁ q := hentry.resolve_left fun hne => h.not_awaits hne ha
      rcases (hproducers c' q).1 hq with hq | ⟨rfl, -⟩
      · exact (hwaits.alone c' hq).symm
      · rfl
  · rw [hprocessed] at hm
    exact h.processed c' q m hm

theorem addProducers (h : d.Conserving I) {cs : List Context}
    (hentry : ∀ c ∈ cs, (d.workers c).latestInputProcessed p ≠ none) : (d.addProducers cs p).Conserving I := by
  induction cs generalizing d with
  | nil => exact h
  | cons c cs ih =>
    refine ih (h.addProducer (Or.inl (hentry c (List.mem_cons_self ..)))) fun c' hc' => ?_
    have he := hentry c' (List.mem_cons_of_mem _ hc')
    by_cases hc : c' = c
    · subst hc; simpa using he
    · simpa [hc] using he

/-- An engine is sent an input that is being dispatched, or the one in flight. -/
theorem sendPayload (h : d.Conserving I)
    (hmp : I mp ∨ (d.producer mp.producerId).latestInputSentToEngine = some mp) :
    (d.sendPayload c mp true).Conserving I := by
  have hlog : ∀ c', writtenTo d.log c' ⊆ writtenTo (d.sendPayload c mp true).log c' := fun c' => by simp
  have hself : mp ∈ writtenTo (d.sendPayload c mp true).log c := by simp
  refine ⟨fun c' q hq => ?_, fun q => ?_, fun c' q m hm => ?_, fun x hx => ?_⟩
  · rw [producers_sendPayload] at hq
    by_cases hc : c' = c ∧ q = mp.producerId
    · obtain ⟨rfl, rfl⟩ := hc
      exact Or.inl (by simp)
    · rw [processed_sendPayload hc]
      refine (h.entered c' q hq).imp_right fun ha => ⟨?_, ?_, fun c₁ hc₁ => ha.alone c₁ ?_⟩
      · simpa using ha.latest
      · simpa using ha.queue
      · rwa [producers_sendPayload] at hc₁
  · simpa [line] using h.sorted q
  · rw [sendPayload_producer]
    by_cases hc : c' = c ∧ q = mp.producerId
    · obtain ⟨rfl, rfl⟩ := hc
      obtain rfl : mp.metadata = m := by simpa using hm
      rcases hmp with hmp | hmp
      · exact Or.inr ⟨mp, hmp, rfl, rfl, hself⟩
      · exact Or.inl ⟨mp, hmp, Or.inr ⟨rfl, hself⟩⟩
    · rw [processed_sendPayload hc] at hm
      rcases h.processed c' q m hm with ⟨x, hx, hle⟩ | ⟨x, hx, hp, he, hw⟩
      · exact Or.inl ⟨x, hx, hle.imp_right (And.imp_right fun hw => hlog c' hw)⟩
      · exact Or.inr ⟨x, hx, hp, he, hlog c' hw⟩
  · simpa [line] using h.dispatching x hx

/-- The dispatch of a new input begins. -/
theorem begin (h : d.Conserving I) (hqueue : (d.producer mp.producerId).inputQueue = [])
    (hnew : ∀ n ∈ d.line mp.producerId, n < mp.metadata.frameId) (hI : ∀ x, I x → I' x)
    (hI' : ∀ x, I' x → I x ∨ x = mp) : d.Conserving I' := by
  refine ⟨h.entered, h.sorted, fun c p m hm => ?_, fun x hx => ?_⟩
  · exact (h.processed c p m hm).imp_right (Exists.imp fun x => And.imp_left (hI x))
  · rcases hI' x hx with hx | rfl
    · exact h.dispatching x hx
    · exact ⟨hqueue, hnew⟩

/-- The dispatch loop of `mp` sends it to the next idle engine. -/
theorem wrote {busy : List Context} (h : d.Conserving I) (hmp : I mp)
    (hbusy : ∀ c ∈ busy, (d.workers c).latestInputProcessed mp.producerId ≠ none) :
    ((d.addProducers (busy ++ [c]) mp.producerId).sendPayload c mp true).Conserving I := by
  -- the engine can as well get the producer into its deque after the input
  have hsent : ((d.addProducers busy mp.producerId).sendPayload c mp true).Conserving I :=
    (h.addProducers hbusy).sendPayload (Or.inl hmp)
  have hadded := hsent.addProducer (c := c) (p := mp.producerId) (Or.inl (by simp))
  refine hadded.of_le (fun c' q hq => ?_) (fun c' q m hm => ?_) (fun q => ?_) (fun q => ?_) fun c' => ?_
  · by_cases hc : c' = c
    · subst hc
      have hq : q ∈ (d.workers c').producers ∨ q = mp.producerId := by simpa using hq
      exact ⟨by simp [hq.imp_left Or.inl], by simp⟩
    · simpa [hc] using hq
  · by_cases hc : c' = c
    · subst hc; simpa using hm
    · simpa [hc] using hm
  · simp
  · simp
  · simp

/-- The dispatch of `mp` is over, and `mp` is in flight. -/
theorem setInFlight (h : d.Conserving I) (hmp : I mp)
    (hI : ∀ x, I x → x.producerId = mp.producerId → x = mp)
    (hI' : ∀ x, I' x ↔ I x ∧ x.producerId ≠ mp.producerId) : (d.setInFlight mp).Conserving I' := by
  obtain ⟨hqueue, hnew⟩ := h.dispatching mp hmp
  have hline : ∀ q, q ≠ mp.producerId → (d.setInFlight mp).line q = d.line q := fun q hq =>
    line_congr (by simp) (by simp [hq])
  refine ⟨fun c q hq => ?_, fun q => ?_, fun c q m hm => ?_, fun x hx => ?_⟩
  · refine (h.entered c q hq).imp_right fun ha => ?_
    have hne : q ≠ mp.producerId := by
      rintro rfl
      exact ha.queue hqueue
    exact ⟨by simpa [hne] using ha.latest, by simpa using ha.queue, ha.alone⟩
  · by_cases hq : q = mp.producerId
    · subst hq
      simp [line, hqueue]
    · rw [hline q hq]
      exact h.sorted q
  · have hm : (d.workers c).latestInputProcessed q = some m := hm
    by_cases hq : q = mp.producerId
    · subst hq
      refine Or.inl ⟨mp, by simp, ?_⟩
      rcases h.processed c _ m hm with ⟨x, hx, hle⟩ | ⟨x, hx, hp, rfl, hw⟩
      · have hlt := hnew _ (mem_line_of_latest hx)
        refine Or.inl (lt_of_le_of_lt ?_ hlt)
        exact hle.elim le_of_lt fun he => he.1.le
      · obtain rfl := hI x hx hp
        exact Or.inr ⟨rfl, hw⟩
    · refine (h.processed c q m hm).imp (Exists.imp fun x => And.imp_left fun hx => by simpa [hq] using hx) ?_
      rintro ⟨x, hx, rfl, hrest⟩
      exact ⟨x, (hI' x).2 ⟨hx, hq⟩, rfl, hrest⟩
  · obtain ⟨hx, hne⟩ := (hI' x).1 hx
    rw [hline _ hne]
    simpa using h.dispatching x hx

/-- A new input waits in the queue. -/
theorem enqueue (h : d.Conserving I) (hnew : ∀ n ∈ d.line mp.producerId, n < mp.metadata.frameId)
    (hI : ∀ x, I x → x.producerId ≠ mp.producerId) : (d.enqueue mp).Conserving I := by
  have hline : (d.enqueue mp).line mp.producerId = d.line mp.producerId ++ [mp.metadata.frameId] := by simp [line]
  have hline' : ∀ q, q ≠ mp.producerId → (d.enqueue mp).line q = d.line q := fun q hq =>
    line_congr (by simp [hq]) (by simp)
  refine ⟨fun c q hq => ?_, fun q => ?_, fun c q m hm => ?_, fun x hx => ?_⟩
  · refine (h.entered c q hq).imp_right fun ha => ⟨by simpa using ha.latest, ?_, ha.alone⟩
    rw [enqueue_inputQueue]
    split
    · simp
    · exact ha.queue
  · by_cases hq : q = mp.producerId
    · subst hq
      rw [hline, List.pairwise_append]
      refine ⟨h.sorted _, List.pairwise_singleton .., fun n hn k hk => ?_⟩
      rw [List.mem_singleton.1 hk]
      exact hnew n hn
    · rw [hline' q hq]
      exact h.sorted q
  · simpa using h.processed c q m hm
  · have hne := hI x hx
    rw [hline' _ hne]
    simpa [hne] using h.dispatching x hx

/-- An engine takes the head of a queue. -/
theorem dequeue {rest : List MetadataPayload} (h : d.Conserving I) (hp : mp.producerId ∈ (d.workers c).producers)
    (hqueue : (d.producer mp.producerId).inputQueue = mp :: rest) :
    ((d.dequeue mp.producerId mp rest).sendPayload c mp true).Conserving I := by
  have hI : ∀ x, I x → x.producerId ≠ mp.producerId := by
    intro x hx he
    have hnil := (h.dispatching x hx).1
    rw [he, hqueue] at hnil
    cases hnil
  -- the head of the queue is newer than the frame in flight
  have hsorted := h.sorted mp.producerId
  rw [line, hqueue, List.map_append, List.pairwise_append] at hsorted
  obtain ⟨-, hrest, hlt⟩ := hsorted
  have hline : ∀ q, q ≠ mp.producerId → (d.dequeue mp.producerId mp rest).line q = d.line q := fun q hq =>
    line_congr (by simp [hq]) (by simp [hq])
  refine ⟨fun c' q hq => ?_, fun q => ?_, fun c' q m hm => ?_, fun x hx => ?_⟩
  · rw [producers_sendPayload] at hq
    by_cases hc : c' = c ∧ q = mp.producerId
    · obtain ⟨rfl, rfl⟩ := hc
      exact Or.inl (by simp)
    · rw [processed_sendPayload hc]
      refine (h.entered c' q hq).imp_right fun ha => ?_
      have hne : q ≠ mp.producerId := by
        rintro rfl
        exact hc ⟨(ha.alone c hp).symm, rfl⟩
      refine ⟨by simpa [hne] using ha.latest, by simpa [hne] using ha.queue, fun c₁ hc₁ => ha.alone c₁ ?_⟩
      rwa [producers_sendPayload] at hc₁
  · by_cases hq : q = mp.producerId
    · subst hq
      simpa [line] using hrest
    · have hsorted := h.sorted q
      rw [← hline q hq] at hsorted
      simpa [line] using hsorted
  · by_cases hc : c' = c ∧ q = mp.producerId
    · obtain ⟨rfl, rfl⟩ := hc
      obtain rfl : mp.metadata = m := by simpa using hm
      exact Or.inl ⟨mp, by simp, Or.inr ⟨rfl, by simp⟩⟩
    · rw [processed_sendPayload hc] at hm
      by_cases hq : q = mp.producerId
      · subst hq
        rcases h.processed c' _ m hm with ⟨x, hx, hle⟩ | ⟨x, hx, he, -⟩
        · refine Or.inl ⟨mp, by simp, Or.inl (lt_of_le_of_lt (hle.elim le_of_lt fun he => he.1.le) ?_)⟩
          exact hlt _ (by simp [hx]) _ (by simp)
        · exact absurd he (hI x hx)
      · rcases h.processed c' q m hm with ⟨x, hx, hle⟩ | ⟨x, hx, he, hm, hw⟩
        · exact Or.inl ⟨x, by simpa [hq] using hx, hle.imp_right (And.imp_right fun hw => by simp [hw])⟩
        · exact Or.inr ⟨x, hx, he, hm, by simp [hw]⟩
  · have hne := hI x hx
    have hx := h.dispatching x hx
    rw [← hline _ hne] at hx
    simpa [line, hne] using hx

theorem modifyWorker {f : EngineWorker → EngineWorker} (h : d.Conserving I)
    (hproducers : ∀ p ∈ (f (d.workers c)).producers, p ∈ (d.workers c).producers)
    (hprocessed : (f (d.workers c)).latestInputProcessed = (d.workers c).latestInputProcessed) :
    (d.modifyWorker c f).Conserving I := by
  refine h.of_le (fun c' q hq => ?_) (fun c' q m hm => ?_) (fun _ => rfl) (fun _ => rfl) fun _ _ hw => hw
  · by_cases hc : c' = c
    · subst hc
      exact ⟨hproducers q (by simpa using hq), by simp [hprocessed]⟩
    · simpa [hc] using hq
  · by_cases hc : c' = c
    · subst hc; simpa [hprocessed] using hm
    · simpa [hc] using hm

/-- A call of `send_next_input`. -/
theorem sendNextInput (h : d.Conserving I) (hwf : d.WellFormed) : (d.sendNextInput c true).1.Conserving I := by
  have hrot : ∀ k, (d.modifyWorker c (·.rotateProducers k)).Conserving I := fun k =>
    h.modifyWorker (by simp) rfl
  generalize hr : d.sendNextInput c true = r
  cases sendNextInput_cases hr with
  | none k => exact (hrot k).modifyWorker (fun _ hq => hq) rfl
  | @dequeued k p mp rest hp _ hqueue =>
    obtain rfl : mp.producerId = p := hwf.queue_named p mp (by rw [hqueue]; exact List.mem_cons_self ..)
    exact (hrot k).dequeue (by simpa using hp) hqueue
  | @pickedUp k p mp m _ _ hlatest =>
    obtain rfl : mp.producerId = p := hwf.latest_named p mp hlatest
    exact (hrot k).sendPayload (Or.inr hlatest)

theorem insertWorker (h : d.Conserving I) (id : String) (ar : Bool) : (d.insertWorker c id ar).Conserving I := by
  refine h.of_le (fun c' q hq => ?_) (fun c' q m hm => ?_) (fun _ => rfl) (fun _ => rfl) fun _ _ hw => hw
  · by_cases hc : c' = c
    · subst hc; simp at hq
    · simpa [hc] using hq
  · by_cases hc : c' = c
    · subst hc; simp at hm
    · simpa [hc] using hm

theorem answered {k : Nat} {result : Result} {m : Option Metadata} {ans : Answer} (h : d.Conserving I)
    (hans : Answered d c k result m (d', ans)) : d'.Conserving I := by
  refine h.of_workers hans.workers hans.inputQueue hans.latestInputSentToEngine fun c' => ?_
  cases hans <;> simp

theorem beginInput (h : d.Conserving I) (q : String) (targets : List Context) :
    (d.beginInput q targets).Conserving I :=
  h.of_workers (by simp) (by simp) (by simp) (by simp)

end Conserving

/-! ### New inputs -/

/-- The input is newer than those of its producer that are in flight or queued; it does not overtake the queue; and
its busy targets were sent inputs of the producer before, or there is only one and all inputs of the producer wait for
it. -/
def Fits (cfg : Config) (d : Dispatcher) (input : Input) (order : List Context) : Prop :=
  (∀ n ∈ d.line input.producerId, n < input.frameId) ∧
  ((d.producer input.producerId).inputQueue = [] ∨ ∀ c ∈ order, (d.workers c).currentInputMetadata ≠ none) ∧
  ((∀ c ∈ order, (d.workers c).currentInputMetadata ≠ none →
    (d.workers c).latestInputProcessed input.producerId ≠ none) ∨
  ∃ c ∈ order, order = [c] ∧ (d.producer input.producerId).latestInputSentToEngine = none ∧
    ((d.producer input.producerId).inputQueue = [] ∧ cfg.sizeForQueues ≠ 0 ∨
      input.producerId ∈ (d.workers c).producers))

instance (cfg : Config) (d : Dispatcher) (input : Input) (order : List Context) :
    Decidable (d.Fits cfg input order) :=
  inferInstanceAs (Decidable ((∀ n ∈ d.line input.producerId, _) ∧ (_ ∨ ∀ c ∈ order, _) ∧ ((∀ c ∈ order, _) ∨ _)))

theorem Fits.beginInput {input : Input} {order : List Context} (h : d.Fits cfg input order) (q : String)
    (targets : List Context) : (d.beginInput q targets).Fits cfg input order := by
  have hline : (d.beginInput q targets).line = d.line := funext fun p => line_congr (by simp) (by simp)
  simpa [Fits, hline] using h

/-- If only one engine is a target and nothing was sent of the producer, then all its inputs wait for this engine. -/
theorem Conserving.awaits (h : d.Conserving I) (hI : ∀ x, I x → x.producerId ≠ mp.producerId)
    (hlatest : (d.producer mp.producerId).latestInputSentToEngine = none)
    (halone : (d.producer mp.producerId).inputQueue = [] ∨ mp.producerId ∈ (d.workers c).producers) :
    (d.enqueue mp).Awaits c mp.producerId := by
  refine ⟨by simpa using hlatest, by simp, fun c' hc' => ?_⟩
  rcases h.entered c' _ hc' with hne | ha
  · obtain ⟨m, hm⟩ := Option.ne_none_iff_exists'.1 hne
    rcases h.processed c' _ m hm with ⟨x, hx, -⟩ | ⟨x, hx, he, -⟩
    · rw [hlatest] at hx
      cases hx
    · exact absurd he (hI x hx)
  · rcases halone with hqueue | hc
    · exact absurd hqueue ha.queue
    · exact (ha.alone c hc).symm

end Dispatcher

namespace Interleaved

variable {cfg : Config} {sys sys' : Sys} {act : Action} {s s' : Server} {c : Context} {d d' : Dispatcher}
  {I : MetadataPayload → Prop} {mp : MetadataPayload}

/-- A new input is queued, dropped, or sent to a first engine. -/
theorem Started.conserving {ref : ClientRef} {input : Input} {order : List Context} {pc : StreamPc}
    (hst : Started cfg d ref mp order true d' pc) (h : d.Conserving I) (hfits : d.Fits cfg input order)
    (hp : mp.producerId = input.producerId) (hid : mp.metadata.frameId = input.frameId)
    (hI : ∀ x, I x → x.producerId ≠ mp.producerId) :
    (pc.input = none ∧ d'.Conserving I) ∨
      (pc.input = some (ref, mp) ∧ d'.Conserving fun x => I x ∨ x = mp) := by
  obtain ⟨hnew, hqueue, hentry⟩ := hfits
  rw [← hp] at hnew hqueue hentry
  rw [← hid] at hnew
  cases hst with
  | suspended hloop =>
    cases Dispatcher.dispatchLoop_cases hloop with
    | @wrote c busy rest hbusy hidle =>
      have hqueue := hqueue.resolve_right fun hall => hall c (by simp) hidle
      refine Or.inr ⟨rfl, (h.begin hqueue hnew (fun x => Or.inl) fun x => id).wrote (Or.inr rfl) fun c' hc' => ?_⟩
      rcases hentry with hentry | ⟨c₀, -, horder, -⟩
      · exact hentry c' (by simp [hc']) (hbusy c' hc')
      · obtain rfl : busy = [] := by
          have hlen := congrArg List.length horder
          simp only [List.length_append, List.length_cons, List.length_nil] at hlen
          exact List.length_eq_zero_iff.1 (by omega)
        cases hc'
  | enqueued hloop =>
    refine Or.inl ⟨rfl, ?_⟩
    cases Dispatcher.dispatchLoop_cases hloop with
    | busy hbusy =>
      have hqueued : ((d.addProducers order mp.producerId).enqueue mp).Conserving I := by
        rcases hentry with hentry | ⟨c, -, rfl, hlatest, halone⟩
        · refine (h.addProducers fun c hc => hentry c hc (hbusy c hc)).enqueue ?_ hI
          simpa [Dispatcher.line] using hnew
        · have hadded := (h.enqueue hnew hI).addProducer (c := c) (p := mp.producerId)
            (Or.inr (h.awaits hI hlatest (halone.imp_left And.left)))
          exact hadded
      exact hqueued.of_workers rfl (fun _ => rfl) (fun _ => rfl) (by simp)
  | dropped hloop hfull hpc =>
    refine Or.inl ⟨StreamPc.input_of_settled hpc, ?_⟩
    cases Dispatcher.dispatchLoop_cases hloop with
    | busy hbusy =>
      rcases hentry with hentry | ⟨c, -, rfl, -, ⟨hnil, hsize⟩ | hc⟩
      · exact h.addProducers fun c hc => hentry c hc (hbusy c hc)
      · simp [hnil] at hfull
        exact absurd hfull.symm hsize
      · exact h.addProducer (h.entered c _ hc)

/-! ### The inputs being dispatched -/

/-- The input that the stream `i` is dispatching. -/
def Sys.inputAt (sys : Sys) (i : Nat) : Option MetadataPayload := (sys.streams[i]?.bind (·.pc.input)).map (·.2)

theorem Sys.inputAt_setStream {i : Nat} {stream : Stream} (hi : sys.streams[i]? = some stream)
    (r : Server × StreamPc) :
    (sys.setStream i stream r).inputAt = Function.update sys.inputAt i (r.2.input.map (·.2)) := by
  have hlt := (List.getElem?_eq_some_iff.1 hi).1
  funext j
  by_cases hj : j = i
  · subst hj
    simp [Sys.inputAt, Sys.setStream, hlt]
  · simp [Sys.inputAt, Sys.setStream, List.getElem?_set_ne (Ne.symm hj), hj]

theorem Sys.inputAt_of_getElem? {i : Nat} {stream : Stream} (hi : sys.streams[i]? = some stream) :
    sys.inputAt i = stream.pc.input.map (·.2) := by
  simp [Sys.inputAt, hi]

/-- The stream goes on with the same input, or still without one. -/
theorem Sys.inputAt_setStream_same {i : Nat} {stream : Stream} (hi : sys.streams[i]? = some stream)
    {r : Server × StreamPc} (hpc : r.2.input = stream.pc.input) :
    (sys.setStream i stream r).inputAt = sys.inputAt := by
  rw [Sys.inputAt_setStream hi, hpc, ← Sys.inputAt_of_getElem? hi, Function.update_eq_self]

theorem Sys.inputAt_openStream (stream : Stream) (hpc : stream.pc = .idle) (s : Server) :
    ({ sys with server := s, streams := sys.streams ++ [stream] } : Sys).inputAt = sys.inputAt := by
  funext j
  rcases Nat.lt_trichotomy j sys.streams.length with hlt | rfl | hgt
  · simp [Sys.inputAt, List.getElem?_append_left hlt]
  · simp [Sys.inputAt, hpc, StreamPc.input]
  · have hlen : (sys.streams ++ [stream]).length ≤ j := by
      rw [List.length_append]
      exact hgt
    simp only [Sys.inputAt, List.getElem?_eq_none hlen, List.getElem?_eq_none hgt.le]

/-- The dispatcher conserves work, and the streams dispatch inputs of different producers. -/
structure Sys.Conserving (sys : Sys) : Prop where
  dispatcher : sys.server.dispatcher.Conserving fun mp => ∃ i, sys.inputAt i = some mp
  separate : ∀ {i j mp mp'}, sys.inputAt i = some mp → sys.inputAt j = some mp' →
    mp.producerId = mp'.producerId → i = j

namespace Sys.Conserving

/-- The streams are dispatching the same inputs as before. -/
theorem of_inputAt (h : sys.Conserving) (hinput : sys'.inputAt = sys.inputAt)
    (hd : sys'.server.dispatcher.Conserving fun mp => ∃ i, sys.inputAt i = some mp) : sys'.Conserving :=
  ⟨by rwa [hinput], by rw [hinput]; exact h.separate⟩

/-- A stream begins to dispatch an input. -/
theorem begin {i : Nat} (h : sys.Conserving) (hinput : sys'.inputAt = Function.update sys.inputAt i (some mp))
    (hquiet : ∀ j x, sys.inputAt j = some x → x.producerId ≠ mp.producerId)
    (hi : sys.inputAt i = none)
    (hd : sys'.server.dispatcher.Conserving fun x => (∃ j, sys.inputAt j = some x) ∨ x = mp) : sys'.Conserving := by
  have hcases : ∀ {j x}, sys'.inputAt j = some x → (j = i ∧ x = mp) ∨ (j ≠ i ∧ sys.inputAt j = some x) := by
    intro j x hx
    rw [hinput, Function.update_apply] at hx
    split at hx
    · exact Or.inl ⟨‹_›, (Option.some.inj hx).symm⟩
    · exact Or.inr ⟨‹_›, hx⟩
  constructor
  · have hI : (fun x => ∃ j, sys'.inputAt j = some x) = fun x => (∃ j, sys.inputAt j = some x) ∨ x = mp := by
      funext x
      refine propext ⟨?_, ?_⟩
      · rintro ⟨j, hj⟩
        exact (hcases hj).elim (fun he => Or.inr he.2) fun hj => Or.inl ⟨j, hj.2⟩
      · rintro (⟨j, hj⟩ | rfl)
        · have hne : j ≠ i := by
            rintro rfl
            rw [hi] at hj
            cases hj
          exact ⟨j, by rw [hinput, Function.update_of_ne hne, hj]⟩
        · exact ⟨i, by rw [hinput, Function.update_self]⟩
    rwa [hI]
  · intro j k x y hx hy hp
    rcases hcases hx with ⟨rfl, rfl⟩ | ⟨-, hx⟩ <;> rcases hcases hy with ⟨rfl, rfl⟩ | ⟨-, hy⟩
    · rfl
    · exact absurd hp.symm (hquiet k y hy)
    · exact absurd hp (hquiet j x hx)
    · exact h.separate hx hy hp

/-- A stream has dispatched its input. -/
theorem conclude {i : Nat} (h : sys.Conserving) (hinput : sys'.inputAt = Function.update sys.inputAt i none)
    (hi : sys.inputAt i = some mp)
    (hd : sys'.server.dispatcher.Conserving fun x => (∃ j, sys.inputAt j = some x) ∧ x.producerId ≠ mp.producerId) :
    sys'.Conserving := by
  have hcases : ∀ {j x}, sys'.inputAt j = some x → j ≠ i ∧ sys.inputAt j = some x := by
    intro j x hx
    rw [hinput, Function.update_apply] at hx
    split at hx
    · cases hx
    · exact ⟨‹_›, hx⟩
  constructor
  · have hI : (fun x => ∃ j, sys'.inputAt j = some x) =
        fun x => (∃ j, sys.inputAt j = some x) ∧ x.producerId ≠ mp.producerId := by
      funext x
      refine propext ⟨?_, ?_⟩
      · rintro ⟨j, hj⟩
        obtain ⟨hne, hj⟩ := hcases hj
        exact ⟨⟨j, hj⟩, fun he => hne (h.separate hj hi he)⟩
      · rintro ⟨⟨j, hj⟩, hp⟩
        have hne : j ≠ i := by
          rintro rfl
          rw [hi] at hj
          exact hp (congrArg _ (Option.some.inj hj).symm)
        exact ⟨j, by rw [hinput, Function.update_of_ne hne, hj]⟩
    rwa [hI]
  · intro j k x y hx hy hp
    exact h.separate (hcases hx).2 (hcases hy).2 hp

end Sys.Conserving

/-! ### Steps -/

/-- The writes succeed; inputs come in order, one at a time for each producer, and not to a busy engine that has no
other input of the producer to compare them with; and an engine does not answer an input that is still being
dispatched to others. -/
def Action.conserving (cfg : Config) (sys : Sys) : Action → Prop
  | .message _ msg order delivered => delivered = true ∧ (msg.isRegistration = false →
      sys.server.dispatcher.Fits cfg msg.asInput order ∧
        ∀ stream ∈ sys.streams, ∀ x ∈ stream.pc.input, x.2.producerId ≠ msg.asInput.producerId)
  | .resumeStream i raises delivered => ∀ stream ∈ sys.streams[i]?, ∀ x ∈ stream.pc.input,
      raises = false ∧ delivered = true ∧ ∀ c ∈ stream.pc.targets,
        (sys.server.dispatcher.workers c).currentInputMetadata ≠ none →
          (sys.server.dispatcher.workers c).latestInputProcessed x.2.producerId ≠ none
  | .resumeSession c raises delivered => (nextInputCall c sys (.resumeSession c raises delivered)).isSome →
      delivered = true ∧ ∀ stream ∈ sys.streams, ∀ x ∈ stream.pc.input,
        (sys.server.dispatcher.workers c).latestInputProcessed x.2.producerId ≠ some x.2.metadata
  | _ => True

instance (cfg : Config) (sys : Sys) : DecidablePred (Action.conserving cfg sys)
  | .message _ msg _ _ => inferInstanceAs (Decidable (_ ∧ (msg.isRegistration = false → _ ∧ ∀ stream ∈ sys.streams, _)))
  | .resumeStream i _ _ => inferInstanceAs (Decidable (∀ stream ∈ sys.streams[i]?, _))
  | .resumeSession c raises delivered =>
    inferInstanceAs (Decidable ((nextInputCall c sys (.resumeSession c raises delivered)).isSome → _ ∧ _))
  | .openClient _ | .openProducer _ | .closeStream _ | .openSession | .engineMessage _ _ | .closeSession _ =>
    inferInstanceAs (Decidable True)

private theorem conserving_message {i : Nat} {msg : FromClient} {order : List Context} {b : Bool}
    (h : sys.Conserving) (hact : (Action.message i msg order b).conserving cfg sys)
    (hstep : step cfg sys (.message i msg order b) = some sys') : sys'.Conserving := by
  obtain ⟨rfl, hfits⟩ := hact
  obtain ⟨stream, hi, hstep⟩ := Option.bind_eq_some_iff.1 hstep
  obtain ⟨⟨s, pc⟩, hr, hstep⟩ := Option.bind_eq_some_iff.1 hstep
  cases hstep
  have hidle : stream.pc = .idle := by
    cases hpc : stream.pc <;> simp [streamMessage, hpc] at hr
    rfl
  simp only [streamMessage, hidle] at hr
  have hnone : stream.pc.input = none := by rw [hidle]; rfl
  split at hr
  · cases hr
    exact h.of_inputAt (Sys.inputAt_setStream_same hi hnone.symm) h.dispatcher
  · rcases consume_started hr with ⟨hpc, hd⟩ | ⟨hmsg, info, targets, hst⟩
    · refine h.of_inputAt (Sys.inputAt_setStream_same hi ((StreamPc.input_of_settled hpc).trans hnone.symm)) ?_
      rcases hd with hd | hd
      · exact hd ▸ h.dispatcher
      · exact hd ▸ h.dispatcher.beginInput _ _
    · obtain ⟨hfits, hquiet⟩ := hfits hmsg
      have hquiet : ∀ j x, sys.inputAt j = some x → x.producerId ≠ msg.asInput.producerId := by
        intro j x hx
        obtain ⟨y, hy, rfl⟩ := Option.map_eq_some_iff.1 hx
        obtain ⟨st, hst, hy⟩ := Option.bind_eq_some_iff.1 hy
        exact hquiet st (List.mem_of_getElem? hst) y hy
      rcases hst.conserving (h.dispatcher.beginInput _ _) (hfits.beginInput _ _) rfl rfl
        (fun x ⟨j, hj⟩ => hquiet j x hj) with ⟨hpc, hd⟩ | ⟨hpc, hd⟩
      · exact h.of_inputAt (Sys.inputAt_setStream_same hi (hpc.trans hnone.symm)) hd
      · have hat : sys.inputAt i = none := by rw [Sys.inputAt_of_getElem? hi, hnone]; rfl
        exact h.begin (by rw [Sys.inputAt_setStream hi, hpc]; rfl) hquiet hat hd

/-- A dispatch loop goes on after a write. -/
private theorem conserving_resumeDispatch {i : Nat} {stream : Stream} {ref : ClientRef} {rest : List Context}
    {r : Server × StreamPc} (h : sys.Conserving) (hi : sys.streams[i]? = some stream)
    (hpc : stream.pc = .dispatching ref mp rest)
    (hentry : ∀ c ∈ rest, (sys.server.dispatcher.workers c).currentInputMetadata ≠ none →
      (sys.server.dispatcher.workers c).latestInputProcessed mp.producerId ≠ none)
    (hr : resumeDispatch cfg sys.server ref mp rest true = r) : (sys.setStream i stream r).Conserving := by
  have hat : sys.inputAt i = some mp := by rw [Sys.inputAt_of_getElem? hi, hpc]; rfl
  unfold resumeDispatch at hr
  rcases hloop : sys.server.dispatcher.dispatchLoop mp true rest with ⟨d, _ | rest'⟩
  · rw [hloop] at hr
    subst hr
    cases Dispatcher.dispatchLoop_cases hloop with
    | busy hbusy =>
      have hadded := h.dispatcher.addProducers fun c hc => hentry c hc (hbusy c hc)
      have honly : ∀ x, (∃ j, sys.inputAt j = some x) → x.producerId = mp.producerId → x = mp := by
        rintro x ⟨j, hj⟩ hp
        obtain rfl := h.separate hj hat hp
        exact Option.some.inj (hj.symm.trans hat)
      have hconcluded := hadded.setInFlight ⟨i, hat⟩ honly fun x => Iff.rfl
      refine h.conclude (Sys.inputAt_setStream hi _) hat ?_
      exact hconcluded.of_workers rfl (fun _ => rfl) (fun _ => rfl)
        (by simp [Sys.setStream, Dispatcher.concludeInput])
  · rw [hloop] at hr
    subst hr
    cases Dispatcher.dispatchLoop_cases hloop with
    | wrote hbusy =>
      refine h.of_inputAt (Sys.inputAt_setStream_same hi (by rw [hpc]; rfl)) ?_
      exact h.dispatcher.wrote ⟨i, hat⟩ fun c' hc' => hentry c' (by simp [hc']) (hbusy c' hc')

private theorem conserving_resume {i : Nat} {raises b : Bool} (h : sys.Conserving)
    (hact : (Action.resumeStream i raises b).conserving cfg sys)
    (hstep : step cfg sys (.resumeStream i raises b) = some sys') : sys'.Conserving := by
  obtain ⟨stream, hi, hstep⟩ := Option.bind_eq_some_iff.1 hstep
  obtain ⟨⟨s, pc⟩, hr, hstep⟩ := Option.bind_eq_some_iff.1 hstep
  cases hstep
  by_cases hdispatching : ∃ ref mp rest, stream.pc = .dispatching ref mp rest
  · obtain ⟨ref, mp, rest, hpc⟩ := hdispatching
    obtain ⟨rfl, rfl, hentry⟩ := hact stream hi (ref, mp) (by rw [hpc]; rfl)
    rw [hpc] at hentry
    simp only [resumeStream, hpc, Bool.false_eq_true, ↓reduceIte, Option.some.injEq] at hr
    exact conserving_resumeDispatch h hi hpc hentry hr
  · have hnone : stream.pc.input = none := by
      cases hpc : stream.pc with
      | dispatching ref mp rest => exact absurd ⟨ref, mp, rest, hpc⟩ hdispatching
      | _ => rfl
    cases resumeStream_cases hr with
    | settled _ hpc =>
      exact h.of_inputAt (Sys.inputAt_setStream_same hi ((StreamPc.input_of_settled hpc).trans hnone.symm)) h.dispatcher
    | suspended hpc => exact absurd ⟨_, _, _, hpc⟩ hdispatching
    | concluded hpc => exact absurd ⟨_, _, _, hpc⟩ hdispatching

private theorem conserving_removals {I : MetadataPayload → Prop} (h : Removals s s')
    (hs : s.dispatcher.Conserving I) : s'.dispatcher.Conserving I := by
  refine h.dispatcher (P := fun d => d.Conserving I) (fun h hd => ?_)
    (fun _ hd => hd.of_workers (by simp) (by simp) (by simp) (by simp)) hs
  cases h with
  | silent => exact hd
  | released => exact hd.of_workers rfl (by simp) (by simp) (by simp)

/-- The dispatcher that a call of `send_next_input` finds. -/
theorem conserving_of_nextInputCall (h : sys.server.dispatcher.Conserving I)
    (hcall : nextInputCall c sys act = some d) : d.Conserving I := by
  rcases nextInputCall_answered hcall with rfl | ⟨k, m, result, ans, hans⟩
  · exact h
  · exact h.answered hans

private theorem conserving_session (hwf : sys.server.dispatcher.WellFormed) (h : sys.Conserving)
    (hact : act.conserving cfg sys) (hown : act.session = some c) (hstep : step cfg sys act = some sys') :
    sys'.server.dispatcher.Conserving fun mp => ∃ i, sys.inputAt i = some mp := by
  cases hcall : nextInputCall c sys act with
  | some d =>
    obtain ⟨-, b, rfl, hd⟩ := step_of_nextInputCall hcall hstep
    obtain ⟨rfl, -⟩ := hact (by rw [hcall]; rfl)
    have hwf' : d.WellFormed := by
      rcases nextInputCall_answered hcall with rfl | ⟨k, m, result, ans, hans⟩
      · exact hwf
      · exact hwf.answered hans
    rw [hd]
    exact (conserving_of_nextInputCall h.dispatcher hcall).sendNextInput hwf'
  | none =>
    obtain ⟨pc, -, hunfed⟩ := unfed_of_no_call hown hcall hstep
    generalize sys'.server = s' at hunfed
    cases hunfed with
    | removed hr => exact conserving_removals hr h.dispatcher
    | gotResult => exact h.dispatcher.of_workers rfl (fun _ => rfl) (fun _ => rfl) (by simp)
    | answered hans => exact h.dispatcher.answered hans
    | inserted id ar _ hr => exact (conserving_removals hr h.dispatcher).insertWorker id ar

theorem conserving_step (hwf : sys.server.dispatcher.WellFormed) (h : sys.Conserving)
    (hact : act.conserving cfg sys) (hstep : step cfg sys act = some sys') : sys'.Conserving := by
  cases step_cases hstep with
  | openClient => exact h.of_inputAt (Sys.inputAt_openStream _ rfl _) h.dispatcher
  | openProducer => exact h.of_inputAt (Sys.inputAt_openStream _ rfl _) h.dispatcher
  | unknownClient => exact conserving_message h hact hstep
  | message => exact conserving_message h hact hstep
  | resumed => exact conserving_resume h hact hstep
  | closed hi hidle hr =>
    have hnone := StreamPc.input_of_settled (show StreamPc.settled .idle from trivial)
    rw [← hidle] at hnone
    cases hr with
    | settled _ hpc =>
      exact h.of_inputAt (Sys.inputAt_setStream_same hi ((StreamPc.input_of_settled hpc).trans hnone.symm)) h.dispatcher
    | suspended hpc => rw [hidle] at hpc; cases hpc
    | concluded hpc => rw [hidle] at hpc; cases hpc
  | openSession => exact h.of_inputAt rfl (h.dispatcher.of_workers rfl (fun _ => rfl) (fun _ => rfl) (by simp))
  | session _ _ _ hown => exact h.of_inputAt rfl (conserving_session hwf h hact hown hstep)

theorem run_conserving {as : List Action}
    (h : (machine cfg).RunWhere (fun sys a => a.conserving cfg sys) as sys) : sys.Conserving :=
  h.invariant_of (J := fun sys => sys.server.dispatcher.WellFormed) (fun h => (run_orderly h.run).wellFormed)
    ⟨.init (by rintro _ ⟨_, ⟨⟩⟩), by rintro _ _ _ _ ⟨⟩⟩
    fun _ _ _ hwf h hact hstep => conserving_step hwf h hact hstep

/-- Under the condition `Action.conserving`, an engine that a call of `send_next_input` leaves idle has nothing left to
do: every producer in its deque has an empty queue or its token return pending, and in the latter case the engine was
sent its in-flight input. -/
theorem idle_engine_has_no_work {as : List Action}
    (h : (machine cfg).RunWhere (fun sys a => a.conserving cfg sys) as sys) (hact : act.conserving cfg sys)
    (hcall : nextInputCall c sys act = some d) (hstep : step cfg sys act = some sys')
    (hidle : (sys'.server.dispatcher.workers c).currentInputMetadata = none) {p : String}
    (hp : p ∈ (sys'.server.dispatcher.workers c).producers) :
    ((sys'.server.dispatcher.producer p).inputQueue = [] ∨
      (sys'.server.dispatcher.producer p).pendingTokenReturn = true) ∧
    ∀ mp, (sys'.server.dispatcher.producer p).latestInputSentToEngine = some mp →
      (sys'.server.dispatcher.producer p).pendingTokenReturn = true →
        mp ∈ writtenTo sys'.server.dispatcher.log c := by
  have hconserving := conserving_of_nextInputCall (run_conserving h).dispatcher hcall
  have hworkers : d.workers = sys.server.dispatcher.workers := by
    rcases nextInputCall_answered hcall with rfl | ⟨k, m, result, ans, hans⟩
    · rfl
    · exact hans.workers
  obtain ⟨-, b, rfl, hd⟩ := step_of_nextInputCall hcall hstep
  obtain ⟨-, hanswered⟩ := hact (by rw [hcall]; rfl)
  rw [hd] at hidle hp ⊢
  generalize hr : d.sendNextInput c b = r at hidle hp ⊢
  cases Dispatcher.sendNextInput_cases hr with
  | dequeued => simp at hidle
  | pickedUp => simp at hidle
  | none k hno =>
    have hp : p ∈ (d.workers c).producers := by simpa using hp
    have hno := hno p hp
    simp only [Dispatcher.Offers, not_or, not_and] at hno
    refine ⟨?_, fun mp hlatest _ => ?_⟩
    · by_cases hpend : (d.producer p).pendingTokenReturn = true
      · exact Or.inr hpend
      · exact Or.inl (by simpa using hno.1 (by simpa using hpend))
    · have hlatest : (d.producer p).latestInputSentToEngine = some mp := hlatest
      have hne : (d.workers c).latestInputProcessed p ≠ none :=
        (hconserving.entered c p hp).resolve_right fun ha => by rw [ha.latest] at hlatest; cases hlatest
      obtain ⟨m, hm⟩ := Option.ne_none_iff_exists'.1 hne
      rcases hconserving.processed c p m hm with ⟨x, hx, hle⟩ | ⟨x, ⟨i, hi⟩, rfl, rfl, -⟩
      · obtain rfl : x = mp := Option.some.inj (hx.symm.trans hlatest)
        rcases hle with hlt | ⟨-, hw⟩
        · have hpick : d.pickUp c p = some x := Dispatcher.pickUp_eq_some.2 ⟨hlatest, m, hm, hlt⟩
          exact absurd (by rw [hpick]; rfl) hno.2
        · exact hw
      · obtain ⟨y, hy, rfl⟩ := Option.map_eq_some_iff.1 hi
        obtain ⟨st, hst, hy⟩ := Option.bind_eq_some_iff.1 hy
        rw [hworkers] at hm
        exact absurd hm (hanswered st (List.mem_of_getElem? hst) y hy)

private def conservingConfig : Config := { numTokensPerProducer := 2, sizeForQueues := 1 }

/-- Two engines, and a client. -/
private def connected : List Action :=
  [.openSession, .engineMessage 0 (.register "A" false), .openSession, .engineMessage 1 (.register "B" false),
    .openClient "client", .message 0 (.registration {}) [] true, .resumeStream 0 false true]

/-- Both engines are sent an input, and one of them has answered it. -/
private def answered : List Action :=
  connected ++ [.message 0 (.input { frameId := 1, producerId := "P", targetEngineIds := ["A", "B"] }) [0, 1] true,
    .resumeStream 0 false true, .resumeStream 0 false true, .engineMessage 0 (.result {}),
    .resumeSession 0 false true]

/-- The engine that has answered first is left idle. -/
theorem idle_engine_has_no_work_of_answer : ∃ sys sys' d,
    (machine conservingConfig).RunWhere (fun sys a => a.conserving conservingConfig sys) answered sys ∧
    nextInputCall 0 sys (.resumeSession 0 false true) = some d ∧
    step conservingConfig sys (.resumeSession 0 false true) = some sys' ∧
    (sys'.server.dispatcher.workers 0).currentInputMetadata = none ∧
    "P" ∈ (sys'.server.dispatcher.workers 0).producers ∧
    ((sys'.server.dispatcher.producer "P").inputQueue = [] ∨
      (sys'.server.dispatcher.producer "P").pendingTokenReturn = true) := by
  obtain ⟨sys, hrun, hact, hcall, h⟩ := Machine.exists_runWhere (M := machine conservingConfig)
    (G := fun sys a => a.conserving conservingConfig sys)
    (g := fun sys a => decide (a.conserving conservingConfig sys)) (fun _ _ h => of_decide_eq_true h)
    (fun sys => (Action.resumeSession 0 false true).conserving conservingConfig sys ∧
      (nextInputCall 0 sys (.resumeSession 0 false true)).isSome = true ∧
      (step conservingConfig sys (.resumeSession 0 false true)).any (fun sys' =>
        (sys'.server.dispatcher.workers 0).currentInputMetadata = none ∧
          "P" ∈ (sys'.server.dispatcher.workers 0).producers) = true)
    answered (by decide)
  obtain ⟨d, hcall⟩ := Option.isSome_iff_exists.1 hcall
  obtain ⟨sys', hstep, he⟩ := (Option.any_eq_true _ _).1 h
  obtain ⟨hidle, hp⟩ := of_decide_eq_true he
  exact ⟨sys, sys', d, hrun, hcall, hstep, hidle, hp, (idle_engine_has_no_work hrun hact hcall hstep hidle hp).1⟩

/-- The engine `A` is busy with an input of `Q` when the first input of `P` is sent to `B`, and has then answered. -/
private def busyAtFirst : List Action :=
  connected ++ [.message 0 (.input { frameId := 1, producerId := "Q", targetEngineIds := ["A"] }) [0] true,
    .resumeStream 0 false true,
    .message 0 (.input { frameId := 1, producerId := "P", targetEngineIds := ["A", "B"] }) [0, 1] true,
    .resumeStream 0 false true, .engineMessage 0 (.result {}), .resumeSession 0 false true]

/-- `A` is left idle, although the pending input of `P` was addressed to it and not sent to it. -/
theorem frame_not_picked_up : ∃ sys sys' mp, (machine conservingConfig).Run busyAtFirst sys ∧
    (nextInputCall 0 sys (.resumeSession 0 false true)).isSome = true ∧
    step conservingConfig sys (.resumeSession 0 false true) = some sys' ∧
    (sys'.server.dispatcher.workers 0).currentInputMetadata = none ∧
    "P" ∈ (sys'.server.dispatcher.workers 0).producers ∧
    (sys'.server.dispatcher.producer "P").pendingTokenReturn = true ∧
    (sys'.server.dispatcher.producer "P").latestInputSentToEngine = some mp ∧
    mp.metadata.targetEngineIds = ["A", "B"] ∧ mp ∉ writtenTo sys'.server.dispatcher.log 0 := by
  obtain ⟨sys, hrun, hcall, h⟩ := Machine.exists_run (M := machine conservingConfig)
    (fun sys => (nextInputCall 0 sys (.resumeSession 0 false true)).isSome = true ∧
      (step conservingConfig sys (.resumeSession 0 false true)).any (fun sys' =>
        (sys'.server.dispatcher.workers 0).currentInputMetadata = none ∧
          "P" ∈ (sys'.server.dispatcher.workers 0).producers ∧
          (sys'.server.dispatcher.producer "P").pendingTokenReturn = true ∧
          (sys'.server.dispatcher.producer "P").latestInputSentToEngine.any (fun mp =>
            mp.metadata.targetEngineIds = ["A", "B"] ∧ mp ∉ writtenTo sys'.server.dispatcher.log 0) = true) = true)
    busyAtFirst (by decide)
  obtain ⟨sys', hstep, he⟩ := (Option.any_eq_true _ _).1 h
  obtain ⟨hidle, hp, hpend, hlatest⟩ := of_decide_eq_true he
  obtain ⟨mp, hlatest, he⟩ := (Option.any_eq_true _ _).1 hlatest
  obtain ⟨htargets, hnot⟩ := of_decide_eq_true he
  exact ⟨sys, sys', mp, hrun, hcall, hstep, hidle, hp, hpend, hlatest, htargets, hnot⟩

end Interleaved

end Gabriel
